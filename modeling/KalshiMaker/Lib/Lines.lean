import Mathlib.Data.List.Basic

/-! Records that a separator ends, and how they are read back one at a time. -/
namespace Lines

variable {α : Type*} [DecidableEq α] (sep : α)

/-- Read up to the next separator until the stream ends: there is no empty record after the last separator. -/
def split : List α → List (List α)
  | [] => []
  | c :: rest =>
    if c = sep then [] :: split rest
    else
      match split rest with
      | [] => [[c]]
      | record :: records => (c :: record) :: records

def written (records : List (List α)) : List α := records.flatMap fun record => record ++ [sep]

variable {sep}

theorem split_record {record : List α} (plain : sep ∉ record) (rest : List α) :
    split sep (record ++ sep :: rest) = record :: split sep rest := by
  induction record with
  | nil => rw [List.nil_append, split, if_pos rfl]
  | cons c record ih =>
    obtain ⟨other, plain⟩ := not_or.mp (List.mem_cons.not.mp plain)
    rw [List.cons_append, split, if_neg (Ne.symm other), ih plain]

/-- Records without a separator of their own are read back as they were written. -/
theorem split_written {records : List (List α)} (plain : ∀ record ∈ records, sep ∉ record) :
    split sep (written sep records) = records := by
  induction records with
  | nil => rfl
  | cons record records ih =>
    have first := plain record List.mem_cons_self
    have rest := ih fun other member => plain other (List.mem_cons_of_mem _ member)
    unfold written at rest ⊢
    rw [List.flatMap_cons, List.append_assoc, List.singleton_append, split_record first, rest]

end Lines
