import KalshiMaker.Core.Double
import KalshiMaker.Exchange.WireFormat
import Mathlib.Tactic.Linarith

/-! A count printed with two decimals and read back through rounded arithmetic. -/
namespace Kalshi

/-- Zero, or far from both ends of the exponents. -/
def InRange (x : ℚ) : Prop := x = 0 ∨ (2 ^ 60)⁻¹ ≤ |x| ∧ |x| ≤ 2 ^ 60

/-- What reading a count relies on: fixed-point numerals and products within half a unit in the last of 53
places, and the nearest integer where one is nearer than a half. -/
structure RoundsNear {F : Type} [Floating F] (value : F → ℚ) : Prop where
  stod : ∀ (negative : Bool) (whole : Nat) (fraction : List Char), (∀ c ∈ fraction, c.isDigit = true) →
    InRange (fixedPointValue negative whole fraction) →
    ∃ x : F, Floating.stod (fixedPoint negative whole fraction) = some x ∧ Floating.isFinite x = true ∧
      |value x - fixedPointValue negative whole fraction| ≤ (2 ^ 53)⁻¹ * |fixedPointValue negative whole fraction|
  mul : ∀ x y : F, Floating.isFinite x = true → Floating.isFinite y = true → InRange (value x * value y) →
    Floating.isFinite (x * y) = true ∧ |value (x * y) - value x * value y| ≤ (2 ^ 53)⁻¹ * |value x * value y|
  intCast : ∀ n : Int, |n| < 2 ^ 53 → Floating.isFinite (n : F) = true ∧ value (n : F) = n
  round : ∀ (x : F) (n : Int), Floating.isFinite x = true → |n| < 2 ^ 63 → |value x - n| < 1 / 2 →
    Floating.round x = n

/-- Two roundings of a number of hundredths move its hundredfold by less than a half. -/
theorem scaled_near {c x y : ℚ} (small : |c| ≤ 2 ^ 50) (read : |x - c / 100| ≤ (2 ^ 53)⁻¹ * |c / 100|)
    (scaled : |y - x * 100| ≤ (2 ^ 53)⁻¹ * |x * 100|) : |y - c| < 1 / 2 := by
  have hundredth : |c / 100| = |c| / 100 := by rw [abs_div, abs_of_pos (by norm_num : (0 : ℚ) < 100)]
  have hundredfold : |x * 100| = |x| * 100 := by rw [abs_mul, abs_of_pos (by norm_num : (0 : ℚ) < 100)]
  rw [hundredth] at read
  rw [hundredfold] at scaled
  have size : |x| ≤ |x - c / 100| + |c| / 100 := by
    rw [← hundredth]
    exact sub_le_iff_le_add.mp (abs_sub_abs_le_abs_sub _ _)
  have parts : |y - c| ≤ |y - x * 100| + 100 * |x - c / 100| := by
    calc |y - c| = |(y - x * 100) + 100 * (x - c / 100)| := by
          congr 1
          ring
      _ ≤ |y - x * 100| + |100 * (x - c / 100)| := abs_add_le _ _
      _ = |y - x * 100| + 100 * |x - c / 100| := by rw [abs_mul, abs_of_pos (by norm_num : (0 : ℚ) < 100)]
  have unit : ((2 : ℚ) ^ 53)⁻¹ = 1 / 9007199254740992 := by norm_num
  rw [unit] at read scaled
  norm_num at small
  linarith

theorem one_le_abs {c : Int} (present : c ≠ 0) : (1 : ℚ) ≤ |(c : ℚ)| := by
  exact_mod_cast Int.one_le_abs present

theorem inRange_hundredths {c : Int} (small : |(c : ℚ)| ≤ 2 ^ 50) : InRange ((c : ℚ) / 100) := by
  by_cases absent : c = 0
  · left
    simp [absent]
  · right
    have present := one_le_abs absent
    rw [abs_div, abs_of_pos (by norm_num : (0 : ℚ) < 100)]
    norm_num at small ⊢
    constructor <;> linarith

/-- What is read for a number of hundredths has its hundredfold in range. -/
theorem inRange_scaled {c : Int} {x : ℚ} (small : |(c : ℚ)| ≤ 2 ^ 50)
    (read : |x - (c : ℚ) / 100| ≤ (2 ^ 53)⁻¹ * |(c : ℚ) / 100|) : InRange (x * 100) := by
  by_cases absent : c = 0
  · left
    have zero : x = 0 := by simpa [absent] using read
    rw [zero, zero_mul]
  · right
    have present := one_le_abs absent
    have above := abs_sub_abs_le_abs_sub x ((c : ℚ) / 100)
    have below := abs_sub_abs_le_abs_sub ((c : ℚ) / 100) x
    rw [abs_sub_comm] at below
    rw [abs_div, abs_of_pos (by norm_num : (0 : ℚ) < 100)] at above below read
    rw [abs_mul, abs_of_pos (by norm_num : (0 : ℚ) < 100)]
    norm_num at small read ⊢
    constructor <;> linarith

section

variable {F : Type} [Floating F]

/-- Reading a printed count gives the count, though the decimal and its hundredfold are rounded. -/
theorem fp_string_round_trip {value : F → ℚ} (rounds : RoundsNear value) {q : Quantity} (small : |q.centi| ≤ 2 ^ 50) :
    Quantity.fromFpString F q.toFpString = some q := by
  have bounded : |(q.centi : ℚ)| ≤ 2 ^ 50 := by exact_mod_cast small
  obtain ⟨digits, printed, decimal⟩ := toFpString_eq q
  have range := inRange_hundredths bounded
  rw [← decimal] at range
  obtain ⟨x, read, finite, near⟩ := rounds.stod _ _ _ digits range
  rw [← printed] at read
  rw [decimal] at near
  obtain ⟨finite', hundred⟩ : _ ∧ value ((Quantity.kCentiPerContract : Int) : F) = 100 :=
    rounds.intCast Quantity.kCentiPerContract (by decide)
  have scaled := rounds.mul x ((Quantity.kCentiPerContract : Int) : F) finite finite'
  rw [hundred] at scaled
  obtain ⟨finite'', scaled⟩ := scaled (inRange_scaled bounded near)
  have within : |q.centi| < 2 ^ 63 := by omega
  have nearest := rounds.round _ _ finite'' within (scaled_near bounded near scaled)
  unfold Quantity.fromFpString
  rw [read, Option.map_some, nearest]

end

/-! ### Doubles -/

theorem toInteger_near {x : Float} {n : Int} (finite : x.isFinite = true) (small : |n| < 2 ^ 63)
    (near : |Binary64.value x - n| < 1 / 2) : toInteger exactRound x = n := by
  obtain ⟨above, below⟩ := abs_lt.mp near
  have nearest : exactRound (Binary64.value x) = n := by
    unfold exactRound
    split
    next => exact Int.floor_eq_iff.mpr ⟨by linarith, by linarith⟩
    next =>
      have floor : ⌊-Binary64.value x + 1 / 2⌋ = -n :=
        Int.floor_eq_iff.mpr ⟨by push_cast; linarith, by push_cast; linarith⟩
      rw [floor, neg_neg]
  obtain ⟨low, high⟩ := abs_lt.mp small
  rw [toInteger, if_pos finite, nearest, toInt64, if_pos ⟨low.le, high⟩]

theorem InRange.binary64 {x : ℚ} (range : InRange x) : Binary64.InRange x := by
  refine range.imp_right fun ⟨low, high⟩ => ⟨le_trans ?_ low, high.trans_lt ?_⟩
  · rw [← zpow_natCast, ← zpow_neg]
    exact zpow_le_zpow_right₀ (by norm_num) (by norm_num)
  · rw [← zpow_natCast]
    exact zpow_lt_zpow_right₀ (by norm_num) (by norm_num)

/-- A numeral that is read as a number in range gives the double nearest to it. -/
theorem doubleStod_near {s : String} {negative : Bool} {size : ℚ}
    (scanned : Numeral.scan s = some (negative, .finite size))
    (range : InRange size) :
    ∃ x : Float, doubleStod s = some x ∧ x.isFinite = true ∧
      |Binary64.value x - (if negative then -1 else 1) * size| ≤ (2 ^ 53)⁻¹ * |size| := by
  obtain ⟨finite, near⟩ := Binary64.ofRat_near range.binary64
  have inside : outOfRange size (Binary64.ofRat size) = false := by
    have kept : ¬ (|size| < 2 ^ (-1022 : Int) ∧ Binary64.value (Binary64.ofRat size) ≠ size) := by
      rintro ⟨small, lost⟩
      rcases range.binary64 with rfl | ⟨low, _⟩
      · exact lost (by simpa using near)
      · exact absurd small (not_lt.mpr low)
    rw [outOfRange, finite, decide_eq_false kept]
    rfl
  unfold doubleStod
  rw [scanned]
  dsimp only
  rw [inside]
  cases negative with
  | false => exact ⟨_, rfl, finite, by simpa using near⟩
  | true =>
    obtain ⟨finite', opposite⟩ := Binary64.value_neg finite
    refine ⟨_, rfl, finite', ?_⟩
    change |Binary64.value (-Binary64.ofRat size) - -1 * size| ≤ _
    rw [opposite, neg_one_mul, neg_sub_neg, abs_sub_comm]
    exact near

theorem roundsNear_double : RoundsNear Binary64.value where
  stod negative whole fraction digits range := by
    have scanned := scan_fixedPoint negative whole digits
    have size : |fixedPointValue negative whole fraction| =
        |(whole : ℚ) + (Nat.ofDigitChars 10 fraction 0 : ℚ) / 10 ^ fraction.length| := by
      unfold fixedPointValue
      cases negative <;> simp only [Bool.false_eq_true, ↓reduceIte, one_mul, neg_one_mul, abs_neg]
    have range' : InRange ((whole : ℚ) + (Nat.ofDigitChars 10 fraction 0 : ℚ) / 10 ^ fraction.length) := by
      refine range.imp (fun zero => ?_) fun bounds => size ▸ bounds
      rwa [zero, abs_zero, eq_comm, abs_eq_zero] at size
    obtain ⟨x, read, finite, near⟩ := doubleStod_near scanned range'
    exact ⟨x, read, finite, size ▸ near⟩
  mul x y finite finite' range := Binary64.mul_near finite finite' range.binary64
  intCast n small := Binary64.value_ofInt small
  round x n finite small near := toInteger_near finite small near

/-- As doubles, 0.29 times 100 is below 29. -/
theorem fp_string_round_trip_rounded : Quantity.fromFpString Float (Quantity.toFpString ⟨-29⟩) = some ⟨-29⟩ :=
  fp_string_round_trip roundsNear_double (by decide)

end Kalshi
