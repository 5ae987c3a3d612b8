import Mathlib.Data.List.Basic
import Mathlib.Data.List.Infix

/-! The first place of a pattern in a text. -/
namespace Search

variable {α : Type*} [DecidableEq α]

/-- The first place at which `pattern` stands, places being counted from `place`. -/
def findFrom (pattern : List α) : List α → Nat → Option Nat
  | text, place =>
    if pattern.isPrefixOf text then some place
    else
      match text with
      | [] => none
      | _ :: rest => findFrom pattern rest (place + 1)

/-- The first place from `start` on. -/
def find (pattern text : List α) (start : Nat) : Option Nat :=
  if start ≤ text.length then findFrom pattern (text.drop start) start else none

theorem findFrom_fits {pattern text : List α} {place found : Nat}
    (located : findFrom pattern text place = some found) :
    place ≤ found ∧ found + pattern.length ≤ place + text.length := by
  induction text generalizing place with
  | nil =>
    unfold findFrom at located
    split at located
    next here =>
      cases located
      have fits := (List.isPrefixOf_iff_prefix.mp here).length_le
      exact ⟨le_rfl, by omega⟩
    next => cases located
  | cons a rest ih =>
    unfold findFrom at located
    split at located
    next here =>
      cases located
      have fits := (List.isPrefixOf_iff_prefix.mp here).length_le
      exact ⟨le_rfl, by omega⟩
    next =>
      obtain ⟨later, fits⟩ := ih located
      rw [List.length_cons]
      omega

/-- What follows does not change where a pattern is found. -/
theorem findFrom_append {pattern text : List α} {place found : Nat}
    (located : findFrom pattern text place = some found)
    (more : List α) : findFrom pattern (text ++ more) place = some found := by
  induction text generalizing place with
  | nil =>
    unfold findFrom at located
    split at located
    next here =>
      cases located
      have empty : pattern = [] := List.prefix_nil.mp (List.isPrefixOf_iff_prefix.mp here)
      subst empty
      unfold findFrom
      simp
    next => cases located
  | cons a rest ih =>
    unfold findFrom at located ⊢
    split at located
    next here =>
      rw [if_pos (List.isPrefixOf_iff_prefix.mpr
        ((List.isPrefixOf_iff_prefix.mp here).trans (List.prefix_append _ _)))]
      exact located
    next absent =>
      have short : pattern.length ≤ (a :: rest).length := by
        have later := findFrom_fits located
        rw [List.length_cons]
        omega
      rw [if_neg]
      · exact ih located
      · intro here
        apply absent
        have inside := List.prefix_of_prefix_length_le (List.isPrefixOf_iff_prefix.mp here)
          (List.prefix_append (a :: rest) more) short
        exact List.isPrefixOf_iff_prefix.mpr inside

theorem findFrom_stands (front pattern back : List α) (place : Nat) :
    ∃ found, findFrom pattern (front ++ (pattern ++ back)) place = some found := by
  induction front generalizing place with
  | nil =>
    have here : pattern.isPrefixOf (pattern ++ back) := List.isPrefixOf_iff_prefix.mpr (List.prefix_append _ _)
    refine ⟨place, ?_⟩
    rw [List.nil_append]
    unfold findFrom
    rw [if_pos here]
  | cons a front ih =>
    unfold findFrom
    split
    next => exact ⟨place, rfl⟩
    next => exact ih (place + 1)

/-- A single mark is found where it first stands. -/
theorem findFrom_mark {mark : α} {text : List α} (absent : mark ∉ text) (more : List α) (place : Nat) :
    findFrom [mark] (text ++ mark :: more) place = some (place + text.length) := by
  induction text generalizing place with
  | nil =>
    unfold findFrom
    simp
  | cons a rest ih =>
    obtain ⟨other, later⟩ := List.ne_and_not_mem_of_not_mem_cons absent
    unfold findFrom
    rw [if_neg (by simpa using other)]
    refine (ih later (place + 1)).trans ?_
    rw [List.length_cons, Nat.add_right_comm, Nat.add_assoc]

theorem findFrom_mark_none {mark : α} {text : List α} {place : Nat} (missing : findFrom [mark] text place = none) :
    mark ∉ text := by
  induction text generalizing place with
  | nil => exact List.not_mem_nil
  | cons a rest ih =>
    unfold findFrom at missing
    split at missing
    next => cases missing
    next other => exact List.not_mem_cons_of_ne_of_not_mem (by simpa using other) (ih missing)

theorem find_append {pattern text : List α} {start found : Nat} (located : find pattern text start = some found)
    (more : List α) : find pattern (text ++ more) start = some found := by
  unfold find at located ⊢
  split at located
  next within =>
    rw [if_pos (by rw [List.length_append]; omega), List.drop_append_of_le_length within]
    exact findFrom_append located more
  next => cases located

theorem find_stands (front pattern back : List α) :
    ∃ found, find pattern (front ++ (pattern ++ back)) 0 = some found := by
  unfold find
  rw [if_pos (Nat.zero_le _), List.drop_zero]
  exact findFrom_stands front pattern back 0

theorem find_fits {pattern text : List α} {start found : Nat} (located : find pattern text start = some found) :
    start ≤ found ∧ found + pattern.length ≤ text.length := by
  unfold find at located
  split at located
  next within =>
    have fits := findFrom_fits located
    rw [List.length_drop] at fits
    omega
  next => cases located

/-- A mark that a text lacks from `start` on is found behind it. -/
theorem find_behind {mark : α} {text : List α} {start : Nat} (within : start ≤ text.length)
    (missing : find [mark] text start = none) (more : List α) :
    find [mark] (text ++ mark :: more) start = some text.length := by
  unfold find at missing ⊢
  rw [if_pos within] at missing
  rw [if_pos (by rw [List.length_append]; omega), List.drop_append_of_le_length within,
    findFrom_mark (findFrom_mark_none missing), List.length_drop]
  congr 1
  omega

end Search
