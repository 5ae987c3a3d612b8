import Mathlib.Logic.Function.Basic

/-! Gap detection on numbered streams: the last number of each stream is remembered, and a gap forgets them all. Two
detectors that met different histories are compared. -/
namespace Sequence

variable {K : Type*}

/-- The last number seen of each stream. -/
abbrev Seen (K : Type*) := K → Option Int

/-- Nothing is remembered beyond what the other remembers. -/
def Within (seen whole : Seen K) : Prop := ∀ key last, seen key = some last → whole key = some last

/-- Of a stream that the other has met, nothing else is remembered than there. -/
def Outdated (seen fresh : Seen K) : Prop := ∀ key last, seen key = some last →
    fresh key = none ∨ fresh key = some last

theorem Within.outdated {seen other : Seen K} (within : Within seen other) : Outdated seen other :=
  fun key last noted => .inr (within key last noted)

/-- While the slack is `1`, an item that follows may still be taken for a gap. -/
def Lags (slack : Nat) (seen fresh : Seen K) : Prop :=
  slack = 0 ∧ Within seen fresh ∨ slack = 1 ∧ Outdated seen fresh

theorem outdated_nothing (seen : Seen K) : Outdated seen fun _ => none := fun _ _ _ => .inl rfl

variable [DecidableEq K]

/-- Whether an item follows the last one of its stream, and what is remembered after it. -/
def check (seen : Seen K) (key : K) (number : Int) : Bool × Seen K :=
  match seen key with
  | none => (true, Function.update seen key (some number))
  | some last =>
    if number = last + 1 then (true, Function.update seen key (some number)) else (false, fun _ => none)

variable {seen other : Seen K} {key : K} {number : Int}

theorem check_passed_iff :
    (check seen key number).1 = true ↔ ∀ last, seen key = some last → number = last + 1 := by
  unfold check
  cases seen key with
  | none => simp
  | some last =>
    dsimp only
    split <;> simpa

theorem check_passed (passed : (check seen key number).1 = true) :
    (check seen key number).2 = Function.update seen key (some number) := by
  unfold check at passed ⊢
  cases noted : seen key with
  | none => rfl
  | some last =>
    rw [noted] at passed
    dsimp only at passed ⊢
    split at passed
    next follows => rw [if_pos follows]
    · cases passed

theorem check_failed (failed : (check seen key number).1 = false) : (check seen key number).2 = fun _ => none := by
  unfold check at failed ⊢
  cases noted : seen key with
  | none =>
    rw [noted] at failed
    cases failed
  | some last =>
    rw [noted] at failed
    dsimp only at failed ⊢
    split at failed
    · cases failed
    next gap => rw [if_neg gap]

theorem Within.update (within : Within seen other) (key : K) (number : Int) :
    Within (Function.update seen key (some number)) (Function.update other key (some number)) := by
  intro stream last noted
  by_cases own : stream = key
  · rw [own, Function.update_self] at noted ⊢
    exact noted
  · rw [Function.update_of_ne own] at noted ⊢
    exact within stream last noted

theorem Outdated.update (outdated : Outdated seen other) (key : K) (number : Int) :
    Outdated (Function.update seen key (some number)) (Function.update other key (some number)) := by
  intro stream last noted
  by_cases own : stream = key
  · rw [own, Function.update_self] at noted ⊢
    exact .inr noted
  · rw [Function.update_of_ne own] at noted ⊢
    exact outdated stream last noted

/-- Who remembers less passes what the other passes. -/
theorem Within.check (within : Within seen other) (passed : (check other key number).1 = true) :
    (check seen key number).1 = true ∧ Within (check seen key number).2 (check other key number).2 := by
  have also : (Sequence.check seen key number).1 = true :=
    check_passed_iff.mpr fun last noted => check_passed_iff.mp passed last (within key last noted)
  refine ⟨also, ?_⟩
  rw [check_passed also, check_passed passed]
  exact within.update key number

/-- Who remembers outdated numbers passes what the other passes, or takes it for a gap and from then on remembers
nothing that the other does not. -/
theorem Outdated.check (outdated : Outdated seen other) (passed : (check other key number).1 = true) :
    ((check seen key number).1 = true ∧ Outdated (check seen key number).2 (check other key number).2) ∨
      ((check seen key number).1 = false ∧ Within (check seen key number).2 (check other key number).2) := by
  cases found : (Sequence.check seen key number).1 with
  | true =>
    left
    rw [check_passed found, check_passed passed]
    exact ⟨rfl, outdated.update key number⟩
  | false =>
    right
    rw [check_failed found]
    exact ⟨rfl, fun _ _ noted => by cases noted⟩

/-- An item that the other passes is passed as well, or uses up the slack. -/
theorem Lags.check {slack : Nat} (lags : Lags slack seen other) (passed : (check other key number).1 = true) :
    ((check seen key number).1 = true ∧ Lags slack (check seen key number).2 (check other key number).2) ∨
      ((check seen key number).1 = false ∧ slack = 1 ∧
        Lags 0 (check seen key number).2 (check other key number).2) := by
  rcases lags with ⟨absent, within⟩ | ⟨one, outdated⟩
  · obtain ⟨also, within⟩ := within.check passed
    exact .inl ⟨also, .inl ⟨absent, within⟩⟩
  · rcases outdated.check passed with ⟨also, outdated⟩ | ⟨gap, within⟩
    · exact .inl ⟨also, .inr ⟨one, outdated⟩⟩
    · exact .inr ⟨gap, one, .inl ⟨rfl, within⟩⟩

end Sequence
