import Mathlib.Order.Lattice
import Mathlib.Data.List.Basic

/-! Rolling windows in arrival order: expired entries leave at the front only, and every look filters again. -/
namespace Window

variable {K α T : Type*} [LinearOrder T]

/-- An arrival pushes out what has expired by its own time, up to the first entry that has not. -/
def push (stamp : α → T) (horizon : T → T) (buffer : List α) (entry : α) : List α :=
  (buffer ++ [entry]).dropWhile fun x => decide (stamp x < horizon (stamp entry))

def record [DecidableEq K] (stamp : α → T) (horizon : T → T) (buffers : K → List α) (key : K) (entry : α) :
    K → List α :=
  fun other => if other = key then push stamp horizon (buffers key) entry else buffers other

def recordAll [DecidableEq K] (stamp : α → T) (horizon : T → T) (buffers : K → List α) (entries : List (K × α)) :
    K → List α :=
  entries.foldl (fun buffers entry => record stamp horizon buffers entry.1 entry.2) buffers

/-- What arrived under a key, in the order of arrival. -/
def under [DecidableEq K] (key : K) (entries : List (K × α)) : List α :=
  (entries.filter fun entry => decide (entry.1 = key)).map Prod.snd

def recent (stamp : α → T) (horizon : T → T) (now : T) (xs : List α) : List α :=
  xs.filter fun x => decide (horizon now ≤ stamp x)

def live (stamp : α → T) (horizon : T → T) (now : T) (xs : List α) : List α :=
  xs.filter fun x => decide (horizon now ≤ stamp x ∧ stamp x ≤ now)

section
variable {stamp : α → T} {horizon : T → T} {now : T}

theorem recent_append (xs ys : List α) :
    recent stamp horizon now (xs ++ ys) = recent stamp horizon now xs ++ recent stamp horizon now ys :=
  List.filter_append xs ys

theorem live_recent (xs : List α) :
    live stamp horizon now xs = (recent stamp horizon now xs).filter fun x => decide (stamp x ≤ now) := by
  simp only [live, recent, List.filter_filter, Bool.decide_and, Bool.and_comm]

theorem live_live (xs : List α) :
    live stamp horizon now (live stamp horizon now xs) = live stamp horizon now xs := by
  simp only [live, List.filter_filter, Bool.and_self]

/-- Before the last stamp there is nothing to cut off. -/
theorem recent_live {xs : List α} (past : ∀ x ∈ xs, stamp x ≤ now) :
    recent stamp horizon now (live stamp horizon now xs) = recent stamp horizon now xs := by
  unfold recent live
  rw [List.filter_filter]
  apply List.filter_congr
  intro x member
  simp [past x member]

/-- What a cutoff drops at the front is out of every window that starts at or after it. -/
theorem recent_dropWhile {cutoff : T} (earlier : cutoff ≤ horizon now) (xs : List α) :
    recent stamp horizon now (xs.dropWhile fun x => decide (stamp x < cutoff)) = recent stamp horizon now xs := by
  induction xs with
  | nil => rfl
  | cons x xs ih =>
    by_cases expired : stamp x < cutoff
    · have gone : ¬ horizon now ≤ stamp x := not_le.mpr (lt_of_lt_of_le expired earlier)
      simp only [List.dropWhile_cons, expired, decide_true, if_true, ih]
      simp [recent, gone]
    · simp only [List.dropWhile_cons, expired, decide_false, Bool.false_eq_true, if_false]

theorem recent_push (monotone : Monotone horizon) {entry : α} (past : stamp entry ≤ now) (buffer : List α) :
    recent stamp horizon now (push stamp horizon buffer entry) = recent stamp horizon now (buffer ++ [entry]) :=
  recent_dropWhile (monotone past) _

variable [DecidableEq K]

/-- No arrival order costs a window an entry: the buffer shows what the whole history would. -/
theorem recent_recordAll (monotone : Monotone horizon) (key : K) (entries : List (K × α)) (buffers : K → List α)
    (past : ∀ x ∈ under key entries, stamp x ≤ now) :
    recent stamp horizon now (recordAll stamp horizon buffers entries key) =
      recent stamp horizon now (buffers key ++ under key entries) := by
  induction entries generalizing buffers with
  | nil => simp [recordAll, under]
  | cons entry entries ih =>
    have later := ih (record stamp horizon buffers entry.1 entry.2)
    -- an entry of another key leaves this buffer; one of its own is pushed, and what that prunes is past the
    -- horizon already
    by_cases owned : entry.1 = key
    · have split : under key (entry :: entries) = entry.2 :: under key entries := by simp [under, owned]
      rw [split] at past ⊢
      have stamped : stamp entry.2 ≤ now := past entry.2 List.mem_cons_self
      have pushed : record stamp horizon buffers entry.1 entry.2 key = push stamp horizon (buffers key) entry.2 := by
        simp [record, owned]
      calc recent stamp horizon now (recordAll stamp horizon buffers (entry :: entries) key)
          = recent stamp horizon now (push stamp horizon (buffers key) entry.2 ++ under key entries) := by
            rw [← pushed]
            exact later fun x member => past x (List.mem_cons_of_mem _ member)
        _ = recent stamp horizon now ((buffers key ++ [entry.2]) ++ under key entries) := by
            rw [recent_append, recent_push monotone stamped, ← recent_append]
        _ = recent stamp horizon now (buffers key ++ entry.2 :: under key entries) := by
            rw [List.append_assoc, List.singleton_append]
    · have same : under key (entry :: entries) = under key entries := by simp [under, owned]
      have kept : record stamp horizon buffers entry.1 entry.2 key = buffers key := by
        simp [record, Ne.symm owned]
      rw [same] at past ⊢
      rw [← kept]
      exact later past

theorem live_recordAll (monotone : Monotone horizon) (key : K) (entries : List (K × α)) (buffers : K → List α)
    (past : ∀ x ∈ under key entries, stamp x ≤ now) :
    live stamp horizon now (recordAll stamp horizon buffers entries key) =
      live stamp horizon now (buffers key ++ under key entries) := by
  rw [live_recent, live_recent, recent_recordAll monotone key entries buffers past]

end

end Window
