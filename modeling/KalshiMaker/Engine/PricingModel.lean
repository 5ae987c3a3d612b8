import KalshiMaker.Core.Floating
import Mathlib.Tactic.Linarith

/-! Fair-value models. -/
namespace Kalshi

variable {F : Type} [Floating F]

/-- A decimal constant of the source. -/
def ratioOf (numerator denominator : Int) : F := (numerator : F) / (denominator : F)

structure FairValueInput (F : Type) where
  midCents : F
  timeToCloseHours : F
  netPosition : Int
  externalProb : Option F
  tapeVwapCents : Option F := none

inductive PricingModel (F : Type) where
  | heuristic
  | clearingPrice (tapeWeight : F)
  | viewBased (beta : F)

namespace PricingModel

def clampCents (value : F) : F := Floating.clamp value ((1 : Int) : F) ((99 : Int) : F)

def clampProb (prob : F) : F := Floating.clamp prob (ratioOf 1 100) (ratioOf 99 100)

def heuristicEstimate (input : FairValueInput F) : F :=
  let decay := Floating.exp (-input.timeToCloseHours / ((24 : Int) : F))
  let decayed := input.midCents + (((50 : Int) : F) - input.midCents) * decay
  let skewed := decayed - (input.netPosition : F) * ratioOf 5 100
  clampCents <|
    match input.externalProb with
    | some prob =>
      (((1 : Int) : F) - ratioOf 3 10) * skewed + ratioOf 3 10 * (prob * ((100 : Int) : F))
    | none => skewed

def clearingPriceEstimate (tapeWeight : F) (input : FairValueInput F) : F :=
  clampCents <|
    match input.tapeVwapCents with
    | some vwap => tapeWeight * vwap + (((1 : Int) : F) - tapeWeight) * input.midCents
    | none => input.midCents

def debiasProbability (marketProb beta : F) : F :=
  clampProb ((marketProb - beta / ((2 : Int) : F)) / (((1 : Int) : F) - beta))

/-- The constructor of the model clamps `beta`. -/
def viewBasedEstimate (beta : F) (input : FairValueInput F) : F :=
  let beta := Floating.clamp beta 0 (ratioOf 95 100)
  let viewProb :=
    match input.externalProb with
    | some prob => clampProb prob
    | none => debiasProbability (input.midCents / ((100 : Int) : F)) beta
  viewProb * ((100 : Int) : F)

def estimate : PricingModel F → FairValueInput F → F
  | heuristic, input => heuristicEstimate input
  | clearingPrice tapeWeight, input => clearingPriceEstimate tapeWeight input
  | viewBased beta, input => viewBasedEstimate beta input

/-- Every model clamps what it answers: two of them cents, and one the probability it turns into cents. -/
theorem estimate_clamped (model : PricingModel F) (input : FairValueInput F) :
    (∃ value, model.estimate input = clampCents value) ∨
      ∃ prob, model.estimate input = clampProb prob * ((100 : Int) : F) := by
  cases model with
  | heuristic => exact .inl ⟨_, rfl⟩
  | clearingPrice tapeWeight => exact .inl ⟨_, rfl⟩
  | viewBased beta =>
    cases given : input.externalProb with
    | none =>
      simp only [estimate, viewBasedEstimate, given]
      exact .inr ⟨_, rfl⟩
    | some external =>
      simp only [estimate, viewBasedEstimate, given]
      exact .inr ⟨_, rfl⟩

/-- In exact arithmetic every model answers within the price range. -/
theorem estimate_within [Elementary ℚ] (model : PricingModel ℚ) (input : FairValueInput ℚ) :
    1 ≤ model.estimate input ∧ model.estimate input ≤ 99 := by
  have clamped : ∀ {low high value : ℚ}, low ≤ high →
      low ≤ Floating.clamp value low high ∧ Floating.clamp value low high ≤ high := by
    intro low high value ordered
    unfold Floating.clamp
    split_ifs <;> constructor <;> linarith
  rcases model.estimate_clamped input with ⟨value, same⟩ | ⟨prob, same⟩
  · rw [same]
    exact clamped (by norm_num)
  · have ratio : ∀ numerator denominator : Int, (ratioOf numerator denominator : ℚ) = numerator / denominator :=
      fun _ _ => rfl
    obtain ⟨least, most⟩ : (ratioOf 1 100 : ℚ) ≤ clampProb prob ∧ clampProb prob ≤ (ratioOf 99 100 : ℚ) :=
      clamped (by rw [ratio, ratio]; norm_num)
    rw [same]
    rw [ratio] at least most
    push_cast at least most ⊢
    constructor <;> linarith

end PricingModel

end Kalshi
