import Mathlib.Algebra.Order.Field.Power
import Mathlib.Algebra.Order.Floor.Ring
import Mathlib.Data.Rat.Floor
import Mathlib.Tactic.Linarith
import Mathlib.Tactic.NormNum
import Mathlib.Tactic.Positivity
import Mathlib.Tactic.Ring

/-! Doubles as rationals: how far a rounded operation is from the exact one. -/
namespace Binary64

open Float.Model Float.Model.UnpackedFloat

/-! ### The bits kept of a number -/

/-- An extended mantissa tells where `x` lies between two integers: on the lower one, below their middle,
in it or above it. -/
def Holds (kept : ExtendedMantissa) (x : ℚ) : Prop :=
  match kept.roundBit, kept.stickyBit with
  | false, false => x = kept.mantissa
  | false, true => kept.mantissa < x ∧ x < kept.mantissa + 1 / 2
  | true, false => x = kept.mantissa + 1 / 2
  | true, true => kept.mantissa + 1 / 2 < x ∧ x < kept.mantissa + 1

theorem holds_shiftRightOne {kept : ExtendedMantissa} {x : ℚ} (holds : Holds kept x) :
    Holds kept.shiftRightOne (x / 2) := by
  obtain ⟨m, roundBit, stickyBit⟩ := kept
  obtain ⟨half, even | odd⟩ : ∃ half, m = 2 * half ∨ m = 2 * half + 1 := ⟨m / 2, by omega⟩
  · have bit : (2 * half % 2 != 0) = false := by simp
    have down : 2 * half / 2 = half := by omega
    subst even
    cases roundBit <;> cases stickyBit <;>
      simp only [Holds, ExtendedMantissa.shiftRightOne, bit, down, Bool.or_false, Bool.or_true] at holds ⊢ <;>
      push_cast at holds
    · linarith
    · constructor <;> linarith
    · constructor <;> linarith
    · constructor <;> linarith
  -- the bit shifted out becomes the round bit, and the old round bit only sticks
  · have bit : ((2 * half + 1) % 2 != 0) = true := by simp
    have down : (2 * half + 1) / 2 = half := by omega
    subst odd
    cases roundBit <;> cases stickyBit <;>
      simp only [Holds, ExtendedMantissa.shiftRightOne, bit, down, Bool.or_false, Bool.or_true] at holds ⊢ <;>
      push_cast at holds
    · linarith
    · constructor <;> linarith
    · constructor <;> linarith
    · constructor <;> linarith

theorem holds_shiftRight {kept : ExtendedMantissa} {x : ℚ} (holds : Holds kept x) (n : Nat) :
    Holds (kept >>> n) (x / 2 ^ n) := by
  change Holds (n.repeat ExtendedMantissa.shiftRightOne kept) _
  induction n with
  | zero => simpa [Nat.repeat] using holds
  | succ n ih =>
    rw [pow_succ, ← div_div]
    exact holds_shiftRightOne ih

/-- A number lies between its mantissa and the next one. -/
theorem Holds.bounds {kept : ExtendedMantissa} {x : ℚ} (holds : Holds kept x) :
    kept.mantissa ≤ x ∧ x < kept.mantissa + 1 := by
  obtain ⟨m, roundBit, stickyBit⟩ := kept
  cases roundBit <;> cases stickyBit <;> simp only [Holds] at holds ⊢ <;> constructor <;> linarith

theorem Holds.roundedMantissa_near {kept : ExtendedMantissa} {x : ℚ} (holds : Holds kept x) :
    |(kept.roundedMantissa : ℚ) - x| ≤ 1 / 2 := by
  obtain ⟨m, roundBit, stickyBit⟩ := kept
  cases roundBit <;> cases stickyBit <;>
    simp only [Holds, ExtendedMantissa.roundedMantissa, ExtendedMantissa.accuracy, Accuracy.roundToNearestEven]
      at holds ⊢ <;>
    rw [abs_le]
  · constructor <;> linarith
  · constructor <;> linarith
  · -- a tie goes to the even neighbour
    obtain even | odd := Nat.mod_two_eq_zero_or_one m
    · rw [even]
      push_cast
      constructor <;> linarith
    · rw [odd]
      push_cast
      constructor <;> linarith
  · push_cast
    constructor <;> linarith

theorem roundedMantissa_bounds (kept : ExtendedMantissa) :
    kept.mantissa ≤ kept.roundedMantissa ∧ kept.roundedMantissa ≤ kept.mantissa + 1 := by
  obtain ⟨m, roundBit, stickyBit⟩ := kept
  cases roundBit <;> cases stickyBit <;>
    simp only [ExtendedMantissa.roundedMantissa, ExtendedMantissa.accuracy, Accuracy.roundToNearestEven] <;>
    omega

/-! ### Rounding -/

/-- The number of a sign and a magnitude. -/
def signed (s : Sign) (x : ℚ) : ℚ :=
  match s with
  | .negative => -x
  | .positive => x

@[simp] theorem abs_signed (s : Sign) (x : ℚ) : |signed s x| = |x| := by
  cases s <;> simp [signed]

theorem signed_sub (s : Sign) (x y : ℚ) : signed s x - signed s y = signed s (x - y) := by
  cases s <;> simp only [signed]
  ring

@[simp] theorem signed_mul (s s' : Sign) (x y : ℚ) : signed (s * s') (x * y) = signed s x * signed s' y := by
  have unfolded : s * s' = match s, s' with
      | .negative, .negative => .positive
      | .negative, .positive => .negative
      | .positive, .negative => .negative
      | .positive, .positive => .positive := rfl
  rw [unfolded]
  cases s <;> cases s' <;> simp only [signed] <;> ring

/-- The number a double stands for; zero for an infinity and for a nan. -/
def valueOf : UnpackedFloat → ℚ
  | .finite s m e _ => signed s (m * 2 ^ e)
  | _ => 0

/-- What a double has room for. -/
inductive Fits : UnpackedFloat → Prop
  | zero (s : Sign) : Fits (.zero s)
  | finite (s : Sign) (m : Nat) (e : Int) (positive : 0 < m) (width : m < 2 ^ 53) (low : -1074 ≤ e) (high : e ≤ 971)
      (normal : 2 ^ 52 ≤ m ∨ e = -1074) : Fits (.finite s m e positive)

/-- The exponent a number is rounded at: it leaves 53 places, or as many as there are. -/
def target (m : Nat) (e : Int) : Int := max (m.log2 + e - 52) (-1074)

theorem mantissaBits_eq : Format.binary64.mantissaBits = 53 := rfl

theorem targetExponent_eq (m : Nat) (e : Int) :
    Format.binary64.targetExponent (totalExponent m e) = target m e := by
  simp only [Format.targetExponent, totalExponent, mantissaBits_eq, Format.minExponent, target]
  norm_num
  omega

theorem shiftToTargetExponent_eq (m : Nat) (e : Int) (accuracy : Accuracy) :
    shiftToTargetExponent Format.binary64 m e accuracy =
      (ExtendedMantissa.ofMantissaAndAccuracy m accuracy >>> (target m e - e).toNat, e + (target m e - e).toNat) := by
  rw [← targetExponent_eq]
  rfl

theorem log2_le_of_lt {m n : Nat} (below : m < 2 ^ (n + 1)) : m.log2 ≤ n := by
  by_cases zero : m = 0
  · simp [zero]
  · exact Nat.le_of_lt_succ ((Nat.log2_lt zero).mpr below)

/-- A mantissa that fits is not shifted again. -/
theorem shift_fits {r : Nat} {e : Int} (width : r < 2 ^ 53) (low : -1074 ≤ e) :
    shiftToTargetExponent Format.binary64 r e .exact = (⟨r, false, false⟩, e) := by
  have bits := log2_le_of_lt width
  have stays : (target r e - e).toNat = 0 := by
    unfold target
    omega
  rw [shiftToTargetExponent_eq, stays]
  simp [HShiftRight.hShiftRight, Nat.repeat, ExtendedMantissa.ofMantissaAndAccuracy]

/-- A mantissa that rounding has carried over loses a zero. -/
theorem shift_carried {e : Int} (low : -1074 ≤ e) :
    shiftToTargetExponent Format.binary64 (2 ^ 53) e .exact = (⟨2 ^ 52, false, false⟩, e + 1) := by
  have moves : (target (2 ^ 53) e - e).toNat = 1 := by
    rw [target, Nat.log2_two_pow]
    omega
  rw [shiftToTargetExponent_eq, moves]
  rfl

/-- Rounding, of what the first shift leaves: the second one only takes a carry back. -/
theorem roundWithAccuracy_shifted {m : Nat} {e e' : Int} {accuracy : Accuracy} {kept : ExtendedMantissa} (s : Sign)
    (shifted : shiftToTargetExponent Format.binary64 m e accuracy = (kept, e')) (width : kept.mantissa < 2 ^ 53)
    (low : -1074 ≤ e') (high : e' ≤ 970) (normal : 2 ^ 52 ≤ kept.mantissa ∨ e' = -1074) :
    Fits (roundWithAccuracy Format.binary64 s m e accuracy) ∧
      valueOf (roundWithAccuracy Format.binary64 s m e accuracy) = signed s (kept.roundedMantissa * 2 ^ e') := by
  obtain ⟨above, below⟩ := roundedMantissa_bounds kept
  unfold roundWithAccuracy
  rw [shifted]
  dsimp only
  -- only a carry into a 54th place makes the second shift do anything
  by_cases carried : kept.roundedMantissa = 2 ^ 53
  · rw [carried, shift_carried low]
    dsimp only
    rw [dif_neg (by norm_num)]
    refine ⟨.finite _ _ _ _ (by norm_num) (by omega) (by omega) (.inl le_rfl), ?_⟩
    change signed s (((2 ^ 52 : Nat) : ℚ) * 2 ^ (e' + 1)) = _
    rw [zpow_add_one₀ (by norm_num)]
    congr 1
    push_cast
    ring
  · rw [shift_fits (by omega) low]
    dsimp only
    by_cases zero : kept.roundedMantissa = 0
    · rw [dif_pos zero, zero]
      refine ⟨.zero s, ?_⟩
      change (0 : ℚ) = _
      cases s <;> simp [signed]
    · rw [dif_neg zero]
      refine ⟨.finite _ _ _ _ (by omega) low (by omega) ?_, rfl⟩
      exact normal.imp_left above.trans'

theorem ofMantissaAndAccuracy_mantissa (m : Nat) (accuracy : Accuracy) :
    (ExtendedMantissa.ofMantissaAndAccuracy m accuracy).mantissa = m := by
  rcases accuracy with _ | order
  · rfl
  · cases order <;> rfl

/-- What a shift leaves of a mantissa has 53 places at most. -/
theorem shifted_mantissa_lt {m k r : Nat} {x : ℚ} (below : x < m + 1) (above : r ≤ x / 2 ^ k)
    (room : m.log2 + 1 ≤ 53 + k) : r < 2 ^ 53 := by
  have succ_le : ((m + 1 : Nat) : ℚ) ≤ ((2 ^ (53 + k) : Nat) : ℚ) := by
    have under : m < 2 ^ (m.log2 + 1) := Nat.lt_log2_self
    have powers : 2 ^ (m.log2 + 1) ≤ 2 ^ (53 + k) := Nat.pow_le_pow_right (by norm_num) room
    exact_mod_cast under.trans_le powers
  have small : (r : ℚ) < 2 ^ 53 := by
    calc (r : ℚ) ≤ x / 2 ^ k := above
      _ < 2 ^ 53 := by
        rw [div_lt_iff₀ (by positivity), ← pow_add]
        push_cast at succ_le
        linarith
  exact_mod_cast small

/-- And no fewer, where the shift is one to 53 places. -/
theorem le_shifted_mantissa {m k r : Nat} {x : ℚ} (positive : 0 < m) (above : m ≤ x) (below : x / 2 ^ k < r + 1)
    (exactly : m.log2 = 52 + k) : 2 ^ 52 ≤ r := by
  have le_self : ((2 ^ (52 + k) : Nat) : ℚ) ≤ m := by exact_mod_cast exactly ▸ Nat.log2_self_le positive.ne'
  have big : (2 ^ 52 : ℚ) < r + 1 := by
    calc (2 : ℚ) ^ 52 ≤ x / 2 ^ k := by
          rw [le_div_iff₀ (by positivity), ← pow_add]
          push_cast at le_self
          linarith
      _ < r + 1 := below
  have big' : 2 ^ 52 < r + 1 := by exact_mod_cast big
  omega

/-- A mantissa with enough bits is rounded by at most half a unit in its last place. -/
theorem roundWithAccuracy_spec {m : Nat} {e : Int} {accuracy : Accuracy} {x : ℚ} (s : Sign) (positive : 0 < m)
    (wide : 52 ≤ m.log2 ∨ e ≤ -1074) (high : m.log2 + e ≤ 1022)
    (holds : Holds (.ofMantissaAndAccuracy m accuracy) x) :
    Fits (roundWithAccuracy Format.binary64 s m e accuracy) ∧
      |valueOf (roundWithAccuracy Format.binary64 s m e accuracy) - signed s (x * 2 ^ e)| ≤ 2 ^ (target m e - 1) := by
  -- `k` places are cut off, and `x` is then told in units of the last one kept
  obtain ⟨k, reached⟩ : ∃ k : Nat, e + k = target m e := ⟨(target m e - e).toNat, by unfold target; omega⟩
  have shift : (target m e - e).toNat = k := by omega
  have shifted := shiftToTargetExponent_eq m e accuracy
  rw [shift, reached] at shifted
  have kept := holds_shiftRight holds k
  obtain ⟨above, below⟩ := holds.bounds
  obtain ⟨above', below'⟩ := kept.bounds
  rw [ofMantissaAndAccuracy_mantissa] at above below
  generalize ExtendedMantissa.ofMantissaAndAccuracy m accuracy >>> k = bits at shifted kept above' below'
  have width : bits.mantissa < 2 ^ 53 := shifted_mantissa_lt below above' (by unfold target at reached; omega)
  -- fewer than 53 places are left only at the least exponent
  have normal : 2 ^ 52 ≤ bits.mantissa ∨ target m e = -1074 := by
    by_cases bottom : target m e = -1074
    · exact .inr bottom
    · exact .inl (le_shifted_mantissa positive above below' (by unfold target at reached bottom; omega))
  obtain ⟨fits, value⟩ := roundWithAccuracy_shifted s shifted width (by unfold target; omega) (by unfold target; omega)
    normal
  refine ⟨fits, ?_⟩
  have scale : x * (2 : ℚ) ^ e = x / 2 ^ k * 2 ^ target m e := by
    rw [← reached, zpow_add₀ (by norm_num), zpow_natCast]
    field_simp
  rw [value, scale, signed_sub, abs_signed, ← sub_mul, abs_mul, abs_of_pos (by positivity : (0 : ℚ) < 2 ^ target m e),
    zpow_sub_one₀ (by norm_num)]
  have near := mul_le_mul_of_nonneg_right kept.roundedMantissa_near (by positivity : (0 : ℚ) ≤ 2 ^ target m e)
  linarith

/-! ### Packing -/

theorem unpackSign_packComponents {spec : Format} (s : Sign) (exponent : BitVec spec.exponentBits)
    (mantissa : BitVec spec.mantissaBitsWithoutImplicit) :
    unpackSign (packComponents spec s exponent mantissa) = s.toBitVec := by
  ext i hi
  have first : i = 0 := by omega
  subst first
  have parts : unpackSign (packComponents spec s exponent mantissa) =
      ((s.toBitVec ++ exponent ++ mantissa).extractLsb (spec.mantissaBitsWithoutImplicit + spec.exponentBits)
        (spec.mantissaBitsWithoutImplicit + spec.exponentBits)).cast (by omega) := rfl
  rw [parts]
  simp [BitVec.getLsbD_append, BitVec.getElem_append]

theorem ofBitVec_toBitVec (s : Sign) : Sign.ofBitVec s.toBitVec = s := by
  cases s <;> rfl

theorem toNat_pos {w : Nat} {bits : BitVec w} (nonzero : ¬ bits = 0#_) : 0 < bits.toNat :=
  Nat.pos_of_ne_zero fun zero => nonzero (BitVec.eq_of_toNat_eq (zero.trans BitVec.toNat_zero.symm))

theorem leadingBit_pos {w : Nat} (bits : BitVec w) : 0 < (1#1 ++ bits).toNat := by
  rw [BitVec.toNat_append]
  have high : (1#1).toNat <<< w = 2 ^ w := Nat.one_shiftLeft w
  rw [high]
  exact (Nat.two_pow_pos w).trans_le Nat.left_le_or

theorem unpack_packComponents {spec : Format} (s : Sign) (exponent : BitVec spec.exponentBits)
    (mantissa : BitVec spec.mantissaBitsWithoutImplicit) :
    UnpackedFloat.unpack spec (packComponents spec s exponent mantissa) =
      if exponent = -1#_ then if mantissa = 0#_ then .infinity s else .notANumber
      else if exponent = 0#_ then
        if h : mantissa = 0#_ then .zero s
        else
          .finite s mantissa.toNat (exponent.toNat - (spec.exponentBias + spec.mantissaBitsWithoutImplicit) + 1)
            (toNat_pos h)
      else
        .finite s (1#1 ++ mantissa).toNat (exponent.toNat - (spec.exponentBias + spec.mantissaBitsWithoutImplicit))
          (leadingBit_pos mantissa) := by
  have sign := (congrArg Sign.ofBitVec (unpackSign_packComponents s exponent mantissa)).trans (ofBitVec_toBitVec s)
  have middle : unpackExponent (packComponents spec s exponent mantissa) = exponent := unpackExponent_packComponents
  have low : unpackMantissa (packComponents spec s exponent mantissa) = mantissa := unpackMantissa_packComponents
  -- what was packed is what the three parts of the bits are
  generalize packComponents spec s exponent mantissa = bits at sign middle low
  subst sign middle low
  rfl

/-- With the leading bit put back, a packed mantissa is the one it was. -/
theorem leadingBit_toNat {m : Nat} (low : 2 ^ 52 ≤ m) (high : m < 2 ^ 53) :
    (1#1 ++ BitVec.ofNat 52 m).toNat = m := by
  have rest : (BitVec.ofNat 52 m).toNat = m - 2 ^ 52 := by
    rw [BitVec.toNat_ofNat]
    omega
  rw [BitVec.toNat_append, ← Nat.shiftLeft_add_eq_or_of_lt (BitVec.isLt _), rest]
  norm_num
  omega

/-- How a finite number is packed: a full mantissa loses its leading bit, any other has the least exponent. -/
theorem pack_finite (s : Sign) (m : Nat) (e : Int) (positive : 0 < m) :
    UnpackedFloat.pack Format.binary64 (.finite s m e positive) =
      let biased := (e + Format.binary64.exponentBias + Format.binary64.mantissaBitsWithoutImplicit).toNat
      if 2 ^ 11 ≤ biased + 1 then
        packedInfinity Format.binary64 s
      else if m.log2 + 1 = Format.binary64.mantissaBits then
        packComponents Format.binary64 s (BitVec.ofNat 11 biased) (BitVec.ofNat 52 m)
      else
        packComponents Format.binary64 s 0#11 (BitVec.ofNat 52 m) :=
  rfl

theorem unpack_pack {u : UnpackedFloat} (fits : Fits u) : (Float.Model.pack u).unpack = u := by
  change UnpackedFloat.unpack Format.binary64 (UnpackedFloat.pack Format.binary64 u) = u
  cases fits with
  | zero s =>
    unfold UnpackedFloat.pack packedZero
    rw [unpack_packComponents]
    rfl
  | finite s m e positive width low high normal =>
    rw [pack_finite]
    dsimp only
    have bias : (Format.binary64.exponentBias : Int) + (Format.binary64.mantissaBitsWithoutImplicit : Nat) = 1075 :=
      rfl
    obtain ⟨biased, spelled⟩ : ∃ biased : Nat, (e + 1075).toNat = biased := ⟨_, rfl⟩
    rw [add_assoc, bias, spelled, if_neg (show ¬ 2 ^ 11 ≤ biased + 1 by omega)]
    have kept : (BitVec.ofNat 11 biased).toNat = biased := by
      rw [BitVec.toNat_ofNat]
      omega
    have finite : ¬ BitVec.ofNat 11 biased = -1#11 := by
      intro same
      have top : biased = 2047 := kept.symm.trans (congrArg BitVec.toNat same)
      omega
    -- a normal number has its leading bit put back, a subnormal one is stored as it is
    by_cases full : m.log2 + 1 = Format.binary64.mantissaBits
    · rw [if_pos full]
      have leading : 2 ^ 52 ≤ m := by
        have bits : m.log2 = 52 := Nat.succ.inj full
        exact bits ▸ Nat.log2_self_le positive.ne'
      have normal' : ¬ BitVec.ofNat 11 biased = 0#11 := by
        intro same
        have zero : biased = 0 := kept.symm.trans (congrArg BitVec.toNat same)
        omega
      rw [unpack_packComponents, if_neg finite, if_neg normal', UnpackedFloat.finite.injEq]
      refine ⟨rfl, leadingBit_toNat leading width, ?_⟩
      rw [bias, kept]
      omega
    · rw [if_neg full]
      have below : m < 2 ^ 52 := by
        by_contra above
        have bits := log2_le_of_lt width
        have bits' : 52 ≤ m.log2 := (Nat.le_log2 positive.ne').mpr (not_lt.mp above)
        exact full (congrArg Nat.succ (bits.antisymm bits'))
      have kept' : (BitVec.ofNat 52 m).toNat = m := by
        rw [BitVec.toNat_ofNat]
        omega
      have nonzero : ¬ BitVec.ofNat 52 m = 0#52 := by
        intro same
        have zero : m = 0 := kept'.symm.trans (congrArg BitVec.toNat same)
        omega
      rw [unpack_packComponents, if_neg (by decide), if_pos rfl, dif_neg nonzero, UnpackedFloat.finite.injEq]
      refine ⟨rfl, kept', ?_⟩
      rw [bias]
      change (0 : Int) - 1075 + 1 = e
      omega

theorem fits_unpack {b : BitVec Format.binary64.numBits}
    (finite : (UnpackedFloat.unpack Format.binary64 b).isFinite = true) :
      Fits (UnpackedFloat.unpack Format.binary64 b) := by
  have bias : (Format.binary64.exponentBias : Int) + (Format.binary64.mantissaBitsWithoutImplicit : Nat) = 1075 := rfl
  unfold UnpackedFloat.unpack at finite ⊢
  dsimp only at finite ⊢
  rw [bias] at finite ⊢
  have small : (unpackMantissa b).toNat < 2 ^ 52 := (unpackMantissa b).isLt
  have large : (unpackExponent b).toNat < 2 ^ 11 := (unpackExponent b).isLt
  -- the largest exponent is kept for infinities and nans
  by_cases top : unpackExponent b = -1#11
  · rw [if_pos top] at finite
    by_cases empty : unpackMantissa b = 0#52
    · rw [if_pos empty] at finite
      cases finite
    · rw [if_neg empty] at finite
      cases finite
  rw [if_neg top]
  have below : (unpackExponent b).toNat ≠ 2047 := fun same => top (BitVec.eq_of_toNat_eq same)
  by_cases bottom : unpackExponent b = 0#11
  · rw [if_pos bottom]
    by_cases empty : unpackMantissa b = 0#52
    · rw [dif_pos empty]
      exact .zero _
    · rw [dif_neg empty]
      exact .finite _ _ _ _ (by omega) (by rw [bottom]; decide) (by rw [bottom]; decide)
        (.inr (by rw [bottom]; decide))
  · rw [if_neg bottom]
    have above : (unpackExponent b).toNat ≠ 0 := fun same => bottom (BitVec.eq_of_toNat_eq same)
    have leading : (1#1 ++ unpackMantissa b).toNat = 2 ^ 52 + (unpackMantissa b).toNat := by
      rw [BitVec.toNat_append, ← Nat.shiftLeft_add_eq_or_of_lt (unpackMantissa b).isLt]
      rfl
    exact .finite _ _ _ _ (by omega) (by omega) (by omega) (.inl (by omega))

/-! ### Doubles -/

/-- The number a double stands for; zero for an infinity and for a nan. -/
def value (x : Float) : ℚ := valueOf x.toModel.unpack

/-- The double nearest to a number, the even one of two. -/
def ofRat (q : ℚ) : Float :=
  .ofModel <| pack <|
    if present : q.num = 0 then .zero .positive
    else
      div Format.binary64 (.finite (if q < 0 then .negative else .positive) q.num.natAbs 0
        (Int.natAbs_pos.mpr present))
        (.finite .positive q.den 0 q.den_pos)

/-- Zero, or in the range of the normal doubles and below the last of their powers. -/
def InRange (q : ℚ) : Prop := q = 0 ∨ 2 ^ (-1022 : Int) ≤ |q| ∧ |q| < 2 ^ (1023 : Int)

theorem isFinite_of_fits {u : UnpackedFloat} (fits : Fits u) : u.isFinite = true := by
  cases fits <;> rfl

theorem value_pack {u : UnpackedFloat} (fits : Fits u) :
    (Float.ofModel (pack u)).isFinite = true ∧ value (Float.ofModel (pack u)) = valueOf u := by
  have back := unpack_pack fits
  constructor
  · change (pack u).unpack.isFinite = true
    rw [back]
    exact isFinite_of_fits fits
  · change valueOf (pack u).unpack = _
    rw [back]

theorem fits_toModel {x : Float} (finite : x.isFinite = true) : Fits x.toModel.unpack := fits_unpack finite

/-- A number in range is rounded by at most a part in `2 ^ 53`. -/
theorem rounded_near {m : Nat} {e : Int} {accuracy : Accuracy} {x : ℚ} (s : Sign) (positive : 0 < m)
    (wide : 52 ≤ m.log2 ∨ e ≤ -1074) (holds : Holds (.ofMantissaAndAccuracy m accuracy) x)
    (low : 2 ^ (-1022 : Int) ≤ x * 2 ^ e) (high : x * 2 ^ e < 2 ^ (1023 : Int)) :
    Fits (roundWithAccuracy Format.binary64 s m e accuracy) ∧
      |valueOf (roundWithAccuracy Format.binary64 s m e accuracy) - signed s (x * 2 ^ e)| ≤
        (2 ^ 53)⁻¹ * (x * 2 ^ e) := by
  obtain ⟨above, below⟩ := holds.bounds
  rw [ofMantissaAndAccuracy_mantissa] at above below
  have step : (0 : ℚ) < 2 ^ e := by positivity
  have lower : (2 : ℚ) ^ (m.log2 + e) ≤ x * 2 ^ e := by
    have le_self : ((2 ^ m.log2 : Nat) : ℚ) ≤ m := by exact_mod_cast Nat.log2_self_le positive.ne'
    rw [zpow_add₀ (by norm_num), zpow_natCast]
    push_cast at le_self
    exact mul_le_mul_of_nonneg_right (le_self.trans above) step.le
  have upper : x * 2 ^ e < (2 : ℚ) ^ (m.log2 + 1 + e) := by
    have under : ((m + 1 : Nat) : ℚ) ≤ ((2 ^ (m.log2 + 1) : Nat) : ℚ) := by exact_mod_cast Nat.lt_log2_self
    rw [zpow_add₀ (by norm_num), ← Nat.cast_succ, zpow_natCast]
    push_cast at under
    exact mul_lt_mul_of_pos_right (below.trans_le under) step
  -- the powers of two about the number tell that its exponent is one of a normal double
  have top : m.log2 + e < 1023 := (zpow_lt_zpow_iff_right₀ (by norm_num)).mp (lower.trans_lt high)
  have bottom : -1022 < m.log2 + 1 + e := (zpow_lt_zpow_iff_right₀ (by norm_num)).mp (low.trans_lt upper)
  obtain ⟨fits, near⟩ := roundWithAccuracy_spec s positive wide (by omega) holds
  refine ⟨fits, near.trans ?_⟩
  have normal : target m e - 1 = -53 + (m.log2 + e) := by
    unfold target
    omega
  rw [normal, zpow_add₀ (by norm_num)]
  exact mul_le_mul_of_nonneg_left lower (by positivity)

theorem log2_mul_ge {m n k : Nat} (positive : 0 < m) (large : 2 ^ k ≤ n) : k ≤ (m * n).log2 := by
  have product : 2 ^ k ≤ m * n := large.trans (Nat.le_mul_of_pos_left n positive)
  have nonempty := Nat.two_pow_pos k
  exact (Nat.le_log2 (by omega)).mpr product

/-- The exact product of two doubles has 53 places, or ends below the last one of a double. -/
theorem wide_mul {s s' : Sign} {m m' : Nat} {e e' : Int} {positive : 0 < m} {positive' : 0 < m'}
    (fits : Fits (.finite s m e positive)) (fits' : Fits (.finite s' m' e' positive')) :
    52 ≤ (m * m').log2 ∨ e + e' ≤ -1074 := by
  cases fits with
  | finite _ _ _ _ _ _ _ normal =>
    cases fits' with
    | finite _ _ _ _ _ _ _ normal' =>
      -- one factor with its leading bit is enough; two subnormal ones end at -2148
      rcases normal with large | bottom
      · exact .inl (Nat.mul_comm m m' ▸ log2_mul_ge positive' large)
      · rcases normal' with large' | bottom'
        · exact .inl (log2_mul_ge positive large')
        · right
          omega

theorem zero_mul_near (x : ℚ) : |0 - 0 * x| ≤ (2 ^ 53)⁻¹ * |0 * x| := by simp

theorem mul_zero_near (x : ℚ) : |0 - x * 0| ≤ (2 ^ 53)⁻¹ * |x * 0| := by simp

/-- A product in range is rounded by at most a part in `2 ^ 53`. -/
theorem fits_mul {u v : UnpackedFloat} (fits : Fits u) (fits' : Fits v) (range : InRange (valueOf u * valueOf v)) :
    Fits (UnpackedFloat.mul Format.binary64 u v) ∧
      |valueOf (UnpackedFloat.mul Format.binary64 u v) - valueOf u * valueOf v| ≤
        (2 ^ 53)⁻¹ * |valueOf u * valueOf v| := by
  cases fits with
  | zero s =>
    cases fits' with
    | zero s' => exact ⟨.zero (s * s'), zero_mul_near 0⟩
    | finite s' m' e' positive' _ _ _ _ => exact ⟨.zero (s * s'), zero_mul_near _⟩
  | finite s m e positive width low high normal =>
    cases fits' with
    | zero s' => exact ⟨.zero (s * s'), mul_zero_near _⟩
    | finite s' m' e' positive' width' low' high' normal' =>
      have exactly : valueOf (.finite s m e positive) * valueOf (.finite s' m' e' positive') =
          signed (s * s') (((m * m' : Nat) : ℚ) * 2 ^ (e + e')) := by
        change signed s (m * 2 ^ e) * signed s' (m' * 2 ^ e') = _
        rw [← signed_mul, zpow_add₀ (by norm_num)]
        push_cast
        congr 1
        ring
      have size : (0 : ℚ) < ((m * m' : Nat) : ℚ) * 2 ^ (e + e') := by positivity
      rw [exactly, InRange, abs_signed, abs_of_pos size] at range
      rw [exactly, abs_signed, abs_of_pos size]
      have nonzero : signed (s * s') (((m * m' : Nat) : ℚ) * 2 ^ (e + e')) ≠ 0 := by
        rw [← abs_pos, abs_signed, abs_of_pos size]
        exact size
      obtain ⟨small, large⟩ := range.resolve_left nonzero
      exact rounded_near (s * s') (Nat.mul_pos positive positive')
        (wide_mul (.finite s m e positive width low high normal)
          (.finite s' m' e' positive' width' low' high' normal'))
        (show Holds ⟨m * m', false, false⟩ _ from rfl) small large

theorem mul_near {x y : Float} (finite : x.isFinite = true) (finite' : y.isFinite = true)
    (range : InRange (value x * value y)) :
    (x * y).isFinite = true ∧ |value (x * y) - value x * value y| ≤ (2 ^ 53)⁻¹ * |value x * value y| := by
  obtain ⟨fits, near⟩ := fits_mul (fits_toModel finite) (fits_toModel finite') range
  obtain ⟨finite, value⟩ := value_pack fits
  refine ⟨finite, ?_⟩
  rw [← value] at near
  exact near

/-- How far a dividend is shifted so that the quotient has enough places. -/
def room (m n : Nat) : Nat := (min (53 + n.log2 - m.log2 : Int) 1074).toNat

theorem divCore_eq (m n : Nat) :
    divCore Format.binary64 m 0 n 0 =
      (m * 2 ^ room m n / n, -(room m n : Int), accuracyOfFraction (m * 2 ^ room m n % n) n) := by
  have shift : (0 - 0 - min (0 - 0) (Format.binary64.targetExponent (totalExponent m 0 - totalExponent n 0))).toNat =
      room m n := by
    simp only [Format.targetExponent, totalExponent, mantissaBits_eq, Format.minExponent, room]
    norm_num
    omega
  have lowered : min (0 - 0) (Format.binary64.targetExponent (totalExponent m 0 - totalExponent n 0)) =
      -(room m n : Int) := by
    rw [← shift]
    omega
  unfold divCore
  dsimp only
  rw [shift, lowered, Nat.shiftLeft_eq]

theorem wide_div {m n : Nat} (positive : 0 < m) (positive' : 0 < n) :
    52 ≤ (m * 2 ^ room m n / n).log2 ∨ -(room m n : Int) ≤ -1074 := by
  -- the shift is cut short only where the quotient is below the subnormal numbers' last place
  by_cases bottom : (room m n : Int) = 1074
  · right
    omega
  · left
    have enough : 53 + n.log2 ≤ m.log2 + room m n := by
      unfold room at bottom ⊢
      omega
    have large : 2 ^ 52 * n ≤ m * 2 ^ room m n := by
      calc 2 ^ 52 * n ≤ 2 ^ 52 * 2 ^ (n.log2 + 1) := Nat.mul_le_mul_left _ Nat.lt_log2_self.le
        _ = 2 ^ (53 + n.log2) := by rw [← pow_add]; congr 1; omega
        _ ≤ 2 ^ (m.log2 + room m n) := Nat.pow_le_pow_right (by norm_num) enough
        _ = 2 ^ m.log2 * 2 ^ room m n := pow_add _ _ _
        _ ≤ m * 2 ^ room m n := Nat.mul_le_mul_right _ (Nat.log2_self_le positive.ne')
    have quotient : 2 ^ 52 ≤ m * 2 ^ room m n / n := (Nat.le_div_iff_mul_le positive').mpr large
    exact (Nat.le_log2 (by omega)).mpr quotient

/-- A quotient, its remainder told by how it compares with half the divisor. -/
theorem holds_quotient (a : Nat) {n : Nat} (positive : 0 < n) :
    Holds (.ofMantissaAndAccuracy (a / n) (accuracyOfFraction (a % n) n)) ((a : ℚ) / n) := by
  have divisor : (0 : ℚ) < n := by exact_mod_cast positive
  have below : a % n < n := Nat.mod_lt a positive
  have quotient : (a : ℚ) / n = (a / n : Nat) + ((a % n : Nat) : ℚ) / n := by
    have parts : (a : ℚ) = (a / n : Nat) * n + (a % n : Nat) := by exact_mod_cast (Nat.div_add_mod' a n).symm
    rw [div_eq_iff divisor.ne', add_mul, div_mul_cancel₀ _ divisor.ne']
    exact parts
  rw [quotient]
  generalize a / n = q
  generalize a % n = r at below
  have under : (r : ℚ) / n < 1 := (div_lt_one divisor).mpr (by exact_mod_cast below)
  unfold accuracyOfFraction
  split
  next zero =>
    subst zero
    simp [Holds, ExtendedMantissa.ofMantissaAndAccuracy]
  next nonzero =>
    have above : (0 : ℚ) < r / n := div_pos (by exact_mod_cast Nat.pos_of_ne_zero nonzero) divisor
    -- the remainder is told by where twice of it stands
    rcases lt_trichotomy (2 * r) n with less | half | more
    · have half : (r : ℚ) / n < 1 / 2 := by
        rw [div_lt_div_iff₀ divisor (by norm_num)]
        have cast : ((2 * r : Nat) : ℚ) < n := by exact_mod_cast less
        push_cast at cast
        linarith
      rw [Nat.compare_eq_lt.mpr less]
      change (q : ℚ) < _ ∧ _ < (q : ℚ) + 1 / 2
      constructor <;> linarith
    · have exactly : (r : ℚ) / n = 1 / 2 := by
        rw [div_eq_div_iff divisor.ne' (by norm_num)]
        have cast : ((2 * r : Nat) : ℚ) = n := by exact_mod_cast half
        push_cast at cast
        linarith
      rw [Nat.compare_eq_eq.mpr half]
      exact congrArg _ exactly
    · have half : 1 / 2 < (r : ℚ) / n := by
        rw [div_lt_div_iff₀ (by norm_num) divisor]
        have cast : (n : ℚ) < ((2 * r : Nat) : ℚ) := by exact_mod_cast more
        push_cast at cast
        linarith
      rw [Nat.compare_eq_gt.mpr more]
      change (q : ℚ) + 1 / 2 < _ ∧ _ < (q : ℚ) + 1
      constructor <;> linarith

/-- A quotient in range is rounded by at most a part in `2 ^ 53`. -/
theorem fits_div {m n : Nat} (s : Sign) (positive : 0 < m) (positive' : 0 < n) (low : 2 ^ (-1022 : Int) ≤ (m : ℚ) / n)
    (high : (m : ℚ) / n < 2 ^ (1023 : Int)) :
    Fits (div Format.binary64 (.finite s m 0 positive) (.finite .positive n 0 positive')) ∧
      |valueOf (div Format.binary64 (.finite s m 0 positive) (.finite .positive n 0 positive')) - signed s (m / n)| ≤
        (2 ^ 53)⁻¹ * ((m : ℚ) / n) := by
  have wide := wide_div positive positive'
  have holds := holds_quotient (m * 2 ^ room m n) positive'
  have rounded : div Format.binary64 (.finite s m 0 positive) (.finite .positive n 0 positive') =
      roundWithAccuracy Format.binary64 s (m * 2 ^ room m n / n) (-(room m n : Int))
        (accuracyOfFraction (m * 2 ^ room m n % n) n) := by
    have sign : s / .positive = s := by cases s <;> rfl
    change roundWithAccuracy Format.binary64 (s / .positive) (divCore Format.binary64 m 0 n 0).1
      (divCore Format.binary64 m 0 n 0).2.1 (divCore Format.binary64 m 0 n 0).2.2 = _
    rw [sign, divCore_eq]
  generalize room m n = k at wide holds rounded
  have size : ((m * 2 ^ k : Nat) : ℚ) / n * 2 ^ (-(k : Int)) = m / n := by
    rw [zpow_neg, zpow_natCast]
    push_cast
    field_simp
  have mantissa : 0 < m * 2 ^ k / n := by
    rcases wide with places | bottom
    · apply Nat.pos_of_ne_zero
      intro zero
      rw [zero] at places
      exact absurd places (by decide)
    · have divisor : (0 : ℚ) < n := by exact_mod_cast positive'
      have scaled : (1 : ℚ) ≤ m / n * 2 ^ k := by
        calc (1 : ℚ) ≤ 2 ^ (-1022 + (k : Int)) := one_le_zpow₀ (by norm_num) (by omega)
          _ = 2 ^ (-1022 : Int) * 2 ^ k := by rw [zpow_add₀ (by norm_num), zpow_natCast]
          _ ≤ m / n * 2 ^ k := mul_le_mul_of_nonneg_right low (by positivity)
      have enough : n ≤ m * 2 ^ k := by
        rw [div_mul_eq_mul_div, le_div_iff₀ divisor, one_mul] at scaled
        exact_mod_cast scaled
      exact Nat.div_pos enough positive'
  rw [rounded]
  rw [← size] at low high ⊢
  exact rounded_near s mantissa wide holds low high

/-- A number in range is read with an error of at most a part in `2 ^ 53`. -/
theorem ofRat_near {q : ℚ} (range : InRange q) :
    (ofRat q).isFinite = true ∧ |value (ofRat q) - q| ≤ (2 ^ 53)⁻¹ * |q| := by
  unfold ofRat
  by_cases zero : q.num = 0
  · rw [dif_pos zero]
    obtain ⟨finite, value⟩ := value_pack (Fits.zero .positive)
    refine ⟨finite, ?_⟩
    rw [value, Rat.num_eq_zero.mp zero]
    change |(0 : ℚ) - 0| ≤ _
    norm_num
  · rw [dif_neg zero]
    have size : |q| = (q.num.natAbs : ℚ) / q.den := by
      calc |q| = |(q.num : ℚ) / q.den| := by rw [Rat.num_div_den]
        _ = (q.num.natAbs : ℚ) / q.den := by rw [abs_div, Nat.abs_cast, Nat.cast_natAbs, Int.cast_abs]
    have sign : signed (if q < 0 then .negative else .positive) |q| = q := by
      split
      next negative => rw [signed, abs_of_neg negative, neg_neg]
      next nonnegative => rw [signed, abs_of_nonneg (not_lt.mp nonnegative)]
    obtain ⟨low, high⟩ := range.resolve_left (mt Rat.num_eq_zero.mpr zero)
    rw [size] at low high
    obtain ⟨fits, near⟩ := fits_div (if q < 0 then .negative else .positive)
      (Int.natAbs_pos.mpr zero) q.den_pos low high
    obtain ⟨finite, value⟩ := value_pack fits
    refine ⟨finite, ?_⟩
    rw [value]
    rwa [← size, sign] at near

/-- A whole number of at most 53 places is not rounded. -/
theorem fits_round {m : Nat} (s : Sign) (positive : 0 < m) (small : m < 2 ^ 53) :
    Fits (UnpackedFloat.round Format.binary64 s m 0) ∧
      valueOf (UnpackedFloat.round Format.binary64 s m 0) = signed s m := by
  have bits := log2_le_of_lt small
  obtain ⟨k, lowered⟩ : ∃ k : Nat, m.log2 + k = 52 := ⟨52 - m.log2, by omega⟩
  have reached : target m 0 = -(k : Int) := by
    unfold target
    omega
  have rounded : UnpackedFloat.round Format.binary64 s m 0 =
      roundWithAccuracy Format.binary64 s (m * 2 ^ k) (-(k : Int)) .exact := by
    have shift : (0 - -(k : Int)).toNat = k := by omega
    unfold UnpackedFloat.round
    rw [targetExponent_eq, reached]
    unfold decreaseExponent
    dsimp only
    rw [shift, Nat.shiftLeft_eq, Int.zero_sub]
  have low : 2 ^ 52 ≤ m * 2 ^ k := by
    rw [← lowered, pow_add]
    exact Nat.mul_le_mul_right _ (Nat.log2_self_le positive.ne')
  have high : m * 2 ^ k < 2 ^ 53 := by
    have carried : 2 ^ (m.log2 + 1) * 2 ^ k = 2 ^ 53 := by
      rw [← pow_add]
      congr 1
      omega
    rw [← carried]
    exact Nat.mul_lt_mul_of_pos_right Nat.lt_log2_self (Nat.two_pow_pos k)
  rw [rounded]
  obtain ⟨fits, value⟩ := roundWithAccuracy_shifted s (shift_fits (e := -(k : Int)) high (by omega)) high
    (by omega) (by omega)
    (.inl low)
  refine ⟨fits, ?_⟩
  rw [value]
  change signed s (((m * 2 ^ k : Nat) : ℚ) * 2 ^ (-(k : Int))) = _
  rw [zpow_neg, zpow_natCast]
  push_cast
  congr 1
  field_simp

/-- Nor is a whole number of either sign. -/
theorem value_ofInt {n : Int} (small : |n| < 2 ^ 53) :
    (Float.ofModel (Float.Model.ofInt n)).isFinite = true ∧ value (.ofModel (Float.Model.ofInt n)) = n := by
  rw [abs_lt] at small
  have fits : Fits (UnpackedFloat.ofInt Format.binary64 n) ∧ valueOf (UnpackedFloat.ofInt Format.binary64 n) = n := by
    unfold UnpackedFloat.ofInt UnpackedFloat.normalize
    rcases lt_trichotomy n 0 with negative | rfl | positive
    · rw [Int.compare_eq_lt.mpr negative]
      obtain ⟨fits, value⟩ := fits_round (m := (-n).toNat) .negative (by omega) (by omega)
      have size : (((-n).toNat : Nat) : ℚ) = -n := by exact_mod_cast Int.toNat_of_nonneg (by omega : 0 ≤ -n)
      rw [size] at value
      exact ⟨fits, value.trans (neg_neg _)⟩
    · exact ⟨.zero _, rfl⟩
    · rw [Int.compare_eq_gt.mpr positive]
      obtain ⟨fits, value⟩ := fits_round (m := n.toNat) .positive (by omega) (by omega)
      have size : ((n.toNat : Nat) : ℚ) = n := by exact_mod_cast Int.toNat_of_nonneg positive.le
      rw [size] at value
      exact ⟨fits, value⟩
  obtain ⟨finite, value⟩ := value_pack fits.1
  exact ⟨finite, value.trans fits.2⟩

theorem fits_neg {u : UnpackedFloat} (fits : Fits u) : Fits u.neg ∧ valueOf u.neg = -valueOf u := by
  cases fits with
  | zero s => exact ⟨.zero _, neg_zero.symm⟩
  | finite s m e positive width low high normal =>
    refine ⟨.finite _ m e positive width low high normal, ?_⟩
    cases s with
    | negative => exact (neg_neg _).symm
    | positive => rfl

/-- A sign is changed without rounding. -/
theorem value_neg {x : Float} (finite : x.isFinite = true) : (-x).isFinite = true ∧ value (-x) = -value x := by
  obtain ⟨fits, opposite⟩ := fits_neg (fits_toModel finite)
  obtain ⟨finite, value⟩ := value_pack fits
  exact ⟨finite, value.trans opposite⟩

end Binary64
