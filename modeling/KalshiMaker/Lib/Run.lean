import Mathlib.Data.List.Basic

/-! Runs of a machine over a list of inputs, under a condition on each input and the state that
receives it. -/
namespace Run

variable {σ ι : Type*} (step : σ → ι → σ)

/-- `condition` holds of each input of a run and of the state that receives it. -/
def Meets (condition : σ → ι → Prop) : σ → List ι → Prop
  | _, [] => True
  | s, input :: inputs => condition s input ∧ Meets condition (step s input) inputs

variable {step}

theorem invariant_of_meets {condition : σ → ι → Prop} (P : σ → Prop)
    (preserved : ∀ s input, condition s input → P s → P (step s input)) {s : σ} (initial : P s)
    {inputs : List ι} (meets : Meets step condition s inputs) : P (inputs.foldl step s) := by
  induction inputs generalizing s with
  | nil => exact initial
  | cons input inputs ih => exact ih (preserved s input meets.1 initial) meets.2

/-- What every step preserves, the whole run preserves. -/
theorem invariant (P : σ → Prop) (preserved : ∀ s input, P s → P (step s input)) {s : σ} (initial : P s)
    (inputs : List ι) : P (inputs.foldl step s) := by
  induction inputs generalizing s with
  | nil => exact initial
  | cons input inputs ih => exact ih (preserved s input initial)

/-- Where an input that works brings a rank down and no input brings it up, enough that work bring it to zero. -/
theorem rank_zero (P : σ → Prop) (rank : σ → Nat) (works : ι → Bool) (preserved : ∀ s input, P s → P (step s input))
    (falls : ∀ s input, P s → rank (step s input) ≤ rank s)
    (worked : ∀ s input, P s → works input = true → rank (step s input) ≤ rank s - 1) {s : σ} (initial : P s)
    {inputs : List ι} (enough : rank s ≤ inputs.countP works) : rank (inputs.foldl step s) = 0 := by
  induction inputs generalizing s with
  | nil => simpa using enough
  | cons input inputs ih =>
    rw [List.countP_cons] at enough
    apply ih (preserved s input initial)
    have fallen := falls s input initial
    by_cases work : works input = true
    · have brought := worked s input initial work
      rw [if_pos work] at enough
      omega
    · rw [if_neg work] at enough
      omega

/-- Where an input acts on a view through `take` or leaves it alone, a run shows what those that act make of it. -/
theorem project {υ : Type*} {condition : σ → ι → Prop} (view : σ → υ) (take : υ → ι → υ) (acts : ι → Bool)
    (seen : ∀ s input, condition s input →
      view (step s input) = if acts input then take (view s) input else view s) {s : σ} {inputs : List ι}
    (meets : Meets step condition s inputs) :
    view (inputs.foldl step s) = (inputs.filter acts).foldl take (view s) := by
  induction inputs generalizing s with
  | nil => rfl
  | cons input inputs ih =>
    rw [List.foldl_cons, ih meets.2, seen s input meets.1, List.filter_cons]
    split <;> rfl

/-- Where the condition is what a step from a good state needs to keep `P`, a run keeps `P` all along
exactly if each of its steps meets the condition. -/
theorem holds_iff_meets {condition : σ → ι → Prop} (Good P : σ → Prop) (sound : ∀ s, Good s → P s)
    (keeps : ∀ s input, condition s input → Good s → Good (step s input))
    (breaks : ∀ s input, ¬ condition s input → Good s → ¬ P (step s input)) {s : σ} (initial : Good s)
    (inputs : List ι) :
    (∀ seen, seen <+: inputs → P (seen.foldl step s)) ↔ Meets step condition s inputs := by
  induction inputs generalizing s with
  | nil =>
    refine ⟨fun _ => trivial, fun _ seen within => ?_⟩
    rw [List.prefix_nil.mp within]
    exact sound s initial
  | cons input inputs ih =>
    constructor
    · intro holds
      have first : condition s input := by
        by_contra failed
        exact breaks s input failed initial (holds [input] ⟨inputs, rfl⟩)
      refine ⟨first, (ih (keeps s input first initial)).mp fun seen within => ?_⟩
      exact holds (input :: seen) (List.cons_prefix_cons.mpr ⟨rfl, within⟩)
    · rintro ⟨first, rest⟩ seen within
      cases seen with
      | nil => exact sound s initial
      | cons other seen =>
        obtain ⟨rfl, later⟩ := List.cons_prefix_cons.mp within
        exact (ih (keeps s other first initial)).mpr rest seen later

theorem meets_congr {condition other : σ → ι → Prop} (same : ∀ s input, condition s input ↔ other s input) {s : σ}
    {inputs : List ι} : Meets step condition s inputs ↔ Meets step other s inputs := by
  induction inputs generalizing s with
  | nil => exact Iff.rfl
  | cons input inputs ih => exact and_congr (same s input) ih

theorem meets_append {condition : σ → ι → Prop} {s : σ} {first second : List ι} :
    Meets step condition s (first ++ second) ↔
      Meets step condition s first ∧ Meets step condition (first.foldl step s) second := by
  induction first generalizing s with
  | nil => simp [Meets]
  | cons input first ih => simp [Meets, ih, and_assoc]

end Run
