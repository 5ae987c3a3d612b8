import KalshiMaker.Exchange.RestClient
import Mathlib.Tactic.Ring
import Mathlib.Tactic.IntervalCases
import Mathlib.Tactic.FieldSimp
import Mathlib.Tactic.Push
import Mathlib.Algebra.Order.Floor.Ring

/-! Prices and counts survive the trip through their fixed-point strings. -/
namespace Kalshi

/-- Labels that end in a number are told apart by it. -/
theorem numbered_injective (label : String) {j k : Nat} (same : label ++ toString j = label ++ toString k) :
    j = k := by
  have digits : Nat.toDigits 10 j = Nat.toDigits 10 k := by
    have chars := congrArg String.toList same
    simpa [Nat.toString_eq_repr, Nat.toList_repr] using chars
  calc
    j = Nat.ofDigitChars 10 (Nat.toDigits 10 j) 0 := Nat.ofDigitChars_ten_toDigits.symm
    _ = Nat.ofDigitChars 10 (Nat.toDigits 10 k) 0 := by rw [digits]
    _ = k := Nat.ofDigitChars_ten_toDigits

theorem toString_int_plain (t : Int) : '@' ∉ (toString t).toList := by
  have digits : ∀ n : Nat, '@' ∉ (toString n).toList := by
    intro n member
    rw [Nat.toString_eq_repr, Nat.toList_repr] at member
    have digit : ('@' : Char).isDigit = true := Nat.isDigit_of_mem_toDigits (by omega) (by omega) member
    exact absurd digit (by decide)
  cases t with
  | ofNat n => exact digits n
  | negSucc n =>
    have printed : (toString (Int.negSucc n)).toList = '-' :: (toString (n + 1)).toList := by
      change ("-" ++ toString (n + 1)).toList = _
      rw [String.toList_append]
      rfl
    rw [printed, List.mem_cons]
    rintro (same | member)
    · exact absurd same (by decide)
    · exact digits (n + 1) member

theorem toString_int_injective {t u : Int} (same : toString t = toString u) : t = u := by
  have chars := congrArg String.toList same
  have natural : ∀ {m n : Nat}, (toString m).toList = (toString n).toList → m = n := by
    intro m n chars
    refine numbered_injective "" ?_
    rw [String.ext chars]
  -- a natural number's digits never start with the sign, so the two kinds cannot meet
  have signless : ∀ n : Nat, ∀ rest, (toString n).toList ≠ '-' :: rest := by
    intro n rest minus
    rw [Nat.toString_eq_repr, Nat.toList_repr] at minus
    have digit : ('-' : Char).isDigit = true :=
      Nat.isDigit_of_mem_toDigits (n := n) (by omega) (by omega) (minus ▸ List.mem_cons_self)
    exact absurd digit (by decide)
  have negative : ∀ n : Nat, (toString (Int.negSucc n)).toList = '-' :: (toString (n + 1)).toList := by
    intro n
    change ("-" ++ toString (n + 1)).toList = _
    rw [String.toList_append]
    rfl
  cases t with
  | ofNat m =>
    cases u with
    | ofNat n => exact congrArg Int.ofNat (natural chars)
    | negSucc n => exact absurd (chars.trans (negative n)) (signless m _)
  | negSucc m =>
    cases u with
    | ofNat n => exact absurd (chars.symm.trans (negative m)) (signless n _)
    | negSucc n =>
      rw [negative, negative] at chars
      have := natural (List.cons.inj chars).2
      rw [Nat.succ.inj this]

/-- A text in front of its last `@` and one behind it are told apart by the whole. -/
theorem split_last {α : Type} {mark : α} {front front' back back' : List α} (plain : mark ∉ back)
    (plain' : mark ∉ back') (same : front ++ mark :: back = front' ++ mark :: back') :
    front = front' ∧ back = back' := by
  rcases List.append_eq_append_iff.mp same with ⟨between, rfl, rest⟩ | ⟨between, rfl, rest⟩
  · cases between with
    | nil => exact ⟨(List.append_nil _).symm, (List.cons.inj rest).2⟩
    | cons c between => exact absurd ((List.cons.inj rest).2 ▸ by simp) plain
  · cases between with
    | nil => exact ⟨List.append_nil _, (List.cons.inj rest).2.symm⟩
    | cons c between => exact absurd ((List.cons.inj rest).2 ▸ by simp) plain'

/-- A whole part and some decimals, after a sign. -/
def fixedPoint (negative : Bool) (whole : Nat) (fraction : List Char) : String :=
  (if negative then "-" else "") ++ toString whole ++ "." ++ String.ofList fraction

theorem fixedPoint_toList (negative : Bool) (whole : Nat) (fraction : List Char) :
    (fixedPoint negative whole fraction).toList =
      (if negative then ['-'] else []) ++ (Nat.toDigits 10 whole ++ '.' :: fraction) := by
  unfold fixedPoint
  rw [String.toList_append, String.toList_append, String.toList_append, Nat.toString_eq_repr,
    Nat.toList_repr, String.toList_ofList]
  cases negative <;> simp

/-- What a whole part and some decimals stand for. -/
def fixedPointValue (negative : Bool) (whole : Nat) (fraction : List Char) : ℚ :=
  (if negative then -1 else 1) * (whole + (Nat.ofDigitChars 10 fraction 0 : ℚ) / 10 ^ fraction.length)

theorem scan_fixedPoint (negative : Bool) (whole : Nat) {fraction : List Char}
    (digits : ∀ c ∈ fraction, c.isDigit = true) :
    Numeral.scan (fixedPoint negative whole fraction) =
      some (negative, .finite (whole + (Nat.ofDigitChars 10 fraction 0 : ℚ) / 10 ^ fraction.length)) := by
  have wholeDigits : ∀ c ∈ Nat.toDigits 10 whole, c.isDigit = true :=
    fun c member => Nat.isDigit_of_mem_toDigits (by omega) (by omega) member
  have value : Nat.ofDigitChars 10 (Nat.toDigits 10 whole ++ fraction) 0 =
      10 ^ fraction.length * whole + Nat.ofDigitChars 10 fraction 0 := by
    rw [Nat.ofDigitChars_append, Nat.ofDigitChars_ten_toDigits, Nat.ofDigitChars_eq_ofDigitChars_zero]
  have nonzero : (10 : ℚ) ^ fraction.length ≠ 0 := by positivity
  rw [Numeral.scan_fixed (fixedPoint_toList negative whole fraction) Nat.toDigits_ne_nil wholeDigits digits, value]
  push_cast
  rw [add_div, mul_div_cancel_left₀ _ nonzero]

theorem exactStod_fixedPoint (negative : Bool) (whole : Nat) {fraction : List Char}
    (digits : ∀ c ∈ fraction, c.isDigit = true) :
    exactStod (fixedPoint negative whole fraction) = some (fixedPointValue negative whole fraction) := by
  unfold exactStod fixedPointValue
  rw [scan_fixedPoint negative whole digits]
  cases negative <;> simp

theorem twoDigits_toList {n : Nat} (small : n < 100) :
    (Quantity.twoDigits n).toList = [(n / 10).digitChar, (n % 10).digitChar] := by
  unfold Quantity.twoDigits
  split
  next single =>
    rw [String.toList_append, Nat.toString_eq_repr, Nat.toList_repr, Nat.toDigits_of_lt_base single,
      Nat.div_eq_of_lt single, Nat.mod_eq_of_lt single]
    simp [Nat.digitChar]
  next double =>
    rw [Nat.toString_eq_repr, Nat.toList_repr, Nat.toDigits_of_base_le (by omega) (by omega),
      Nat.toDigits_of_lt_base (by omega)]
    rfl

/-- The two digits of a number below 100 are digits, two, and the number. -/
theorem twoDigits_spec : ∀ n < 100, (∀ c ∈ (Quantity.twoDigits n).toList, c.isDigit = true) ∧
    (Quantity.twoDigits n).toList.length = 2 ∧ Nat.ofDigitChars 10 (Quantity.twoDigits n).toList 0 = n := by
  intro n small
  rw [twoDigits_toList small]
  have digit : ∀ d < 10, d.digitChar.isDigit = true ∧ d.digitChar.toNat - '0'.toNat = d := by
    intro d below
    interval_cases d <;> exact ⟨rfl, rfl⟩
  obtain ⟨tens, tensValue⟩ := digit (n / 10) (by omega)
  obtain ⟨ones, onesValue⟩ := digit (n % 10) (by omega)
  refine ⟨by simp [tens, ones], rfl, ?_⟩
  simp only [Nat.ofDigitChars, List.foldl_cons, List.foldl_nil, tensValue, onesValue]
  omega

/-- A signed number of hundredths is its whole part and its two decimals. -/
theorem hundredths_eq (n : Int) :
    (if decide (n < 0) then -1 else 1) * (((n.natAbs / 100 : Nat) : ℚ) + ((n.natAbs % 100 : Nat) : ℚ) / 100) =
      (n : ℚ) / 100 := by
  have split : ((n.natAbs / 100 : Nat) : ℚ) + ((n.natAbs % 100 : Nat) : ℚ) / 100 = (n.natAbs : ℚ) / 100 := by
    have whole := Nat.div_add_mod n.natAbs 100
    have cast : (100 : ℚ) * ((n.natAbs / 100 : Nat) : ℚ) + ((n.natAbs % 100 : Nat) : ℚ) = (n.natAbs : ℚ) := by
      exact_mod_cast whole
    linarith
  rw [split]
  by_cases negative : n < 0
  · have abs : (n.natAbs : ℚ) = -(n : ℚ) := by
      rw [Nat.cast_natAbs, abs_of_neg negative, Int.cast_neg]
    simp [negative, abs]
    ring
  · have abs : (n.natAbs : ℚ) = (n : ℚ) := by
      rw [Nat.cast_natAbs, abs_of_nonneg (not_lt.mp negative)]
    simp [negative, abs]

/-- A printed count is a whole part and two decimals, and stands for its hundredths. -/
theorem toFpString_eq (q : Quantity) :
    (∀ c ∈ (Quantity.twoDigits (q.centi.natAbs % 100)).toList, c.isDigit = true) ∧
    q.toFpString = fixedPoint (decide (q.centi < 0)) (q.centi.natAbs / 100)
      (Quantity.twoDigits (q.centi.natAbs % 100)).toList ∧
    fixedPointValue (decide (q.centi < 0)) (q.centi.natAbs / 100)
      (Quantity.twoDigits (q.centi.natAbs % 100)).toList = (q.centi : ℚ) / 100 := by
  obtain ⟨digits, two, value⟩ := twoDigits_spec (q.centi.natAbs % 100) (Nat.mod_lt _ (by omega))
  refine ⟨digits, by simp [Quantity.toFpString, fixedPoint], ?_⟩
  rw [fixedPointValue, value, two, ← hundredths_eq]
  norm_num

section

variable [Elementary ℚ]

theorem round_intCast (n : Int) : Floating.round ((n : Int) : ℚ) = n := by
  change (if (0 : ℚ) ≤ (n : ℚ) then ⌊(n : ℚ) + 1 / 2⌋ else -⌊-(n : ℚ) + 1 / 2⌋) = n
  have half : ⌊(1 : ℚ) / 2⌋ = 0 := by norm_num
  split
  · rw [Int.floor_intCast_add, half, add_zero]
  · rw [show -(n : ℚ) = ((-n : Int) : ℚ) by push_cast; rfl, Int.floor_intCast_add, half]
    omega

/-- A decimal that stands for hundredths, scaled back up and rounded. -/
theorem round_scaled (n : Int) : Floating.round ((n : ℚ) / 100 * ((100 : Int) : ℚ)) = n := by
  have scaled : (n : ℚ) / 100 * ((100 : Int) : ℚ) = (n : ℚ) := by
    push_cast
    ring
  rw [scaled, round_intCast]

theorem stod_toFpString (q : Quantity) : (Floating.stod q.toFpString : Option ℚ) = some ((q.centi : ℚ) / 100) := by
  obtain ⟨digits, printed, value⟩ := toFpString_eq q
  change exactStod q.toFpString = some ((q.centi : ℚ) / 100)
  rw [printed, exactStod_fixedPoint _ _ digits, value]

/-- Every count survives the wire. -/
theorem fromFpString_toFpString (q : Quantity) : Quantity.fromFpString ℚ q.toFpString = some q := by
  unfold Quantity.fromFpString
  rw [stod_toFpString, Option.map_some]
  exact congrArg some (Quantity.ext_centi (round_scaled q.centi))

/-- Every price survives the wire. -/
theorem parseDollars_formatDollars (cents : Int) : parseDollarsToCents ℚ (formatDollars cents) = .ok cents := by
  obtain ⟨digits, two, value⟩ := twoDigits_spec (cents.natAbs % 100) (Nat.mod_lt _ (by omega))
  have printed : formatDollars cents = fixedPoint (decide (cents < 0)) (cents.natAbs / 100)
      ((Quantity.twoDigits (cents.natAbs % 100)).toList ++ ['0', '0']) := by
    simp [formatDollars, fixedPoint, String.append_assoc]
  have allDigits : ∀ c ∈ (Quantity.twoDigits (cents.natAbs % 100)).toList ++ ['0', '0'],
      c.isDigit = true := by
    intro c member
    rcases List.mem_append.mp member with first | last
    · exact digits c first
    · simp only [List.mem_cons, List.not_mem_nil, or_false, or_self] at last
      rw [last]
      decide
  -- the two zeros after the cents only scale the fraction
  have padded : Nat.ofDigitChars 10 ((Quantity.twoDigits (cents.natAbs % 100)).toList ++ ['0', '0']) 0 =
      cents.natAbs % 100 * 100 := by
    rw [Nat.ofDigitChars_append, value]
    simp [Nat.ofDigitChars]
    omega
  have shifted : ((cents.natAbs % 100 * 100 : Nat) : ℚ) / 10 ^ (2 + ['0', '0'].length) =
      ((cents.natAbs % 100 : Nat) : ℚ) / 100 := by
    rw [Nat.cast_mul]
    norm_num
    ring
  have read : exactStod (formatDollars cents) = some ((cents : ℚ) / 100) := by
    rw [printed, exactStod_fixedPoint _ _ allDigits, fixedPointValue, padded, List.length_append, two, shifted,
      ← hundredths_eq]
  have stod : (Floating.stod (formatDollars cents) : Option ℚ) = some ((cents : ℚ) / 100) := read
  unfold parseDollarsToCents
  rw [stod, Option.map_some]
  exact congrArg Except.ok (round_scaled cents)

/-! ### Amounts with four decimals -/

/-- Ten-thousandths of a dollar as the exchange writes them: 4050 is "0.4050". -/
def fourDecimals (n : Nat) : String :=
  toString (n / 10000) ++ "." ++ Quantity.twoDigits (n / 100 % 100) ++ Quantity.twoDigits (n % 100)

omit [Elementary ℚ] in
theorem fourDecimals_ne_empty (n : Nat) : fourDecimals n ≠ "" := by
  intro empty
  have chars := congrArg String.toList empty
  simp [fourDecimals] at chars

theorem stod_fourDecimals (n : Nat) : (Floating.stod (fourDecimals n) : Option ℚ) = some ((n : ℚ) / 10000) := by
  obtain ⟨cents, twoCents, centsValue⟩ := twoDigits_spec (n / 100 % 100) (Nat.mod_lt _ (by omega))
  obtain ⟨rest, twoRest, restValue⟩ := twoDigits_spec (n % 100) (Nat.mod_lt _ (by omega))
  have printed : fourDecimals n = fixedPoint false (n / 10000)
      ((Quantity.twoDigits (n / 100 % 100)).toList ++ (Quantity.twoDigits (n % 100)).toList) := by
    simp [fourDecimals, fixedPoint, String.append_assoc]
  have digits : ∀ c ∈ (Quantity.twoDigits (n / 100 % 100)).toList ++ (Quantity.twoDigits (n % 100)).toList,
      c.isDigit = true := by
    intro c member
    rcases List.mem_append.mp member with first | last
    · exact cents c first
    · exact rest c last
  have value : Nat.ofDigitChars 10
      ((Quantity.twoDigits (n / 100 % 100)).toList ++ (Quantity.twoDigits (n % 100)).toList) 0 = n % 10000 := by
    rw [Nat.ofDigitChars_append, centsValue, Nat.ofDigitChars_eq_ofDigitChars_zero, twoRest, restValue]
    omega
  have whole : (10000 : ℚ) * ((n / 10000 : Nat) : ℚ) + ((n % 10000 : Nat) : ℚ) = (n : ℚ) := by
    exact_mod_cast Nat.div_add_mod n 10000
  change exactStod (fourDecimals n) = some ((n : ℚ) / 10000)
  rw [printed, exactStod_fixedPoint _ _ digits, fixedPointValue, value, List.length_append, twoCents, twoRest, ← whole]
  congr 1
  norm_num
  ring

/-- A price with four decimals is read to the nearest cent, half a cent upwards. -/
theorem parseDollars_fourDecimals (n : Nat) :
    parseDollarsToCents ℚ (fourDecimals n) = .ok (((n + 50) / 100 : Nat) : Int) := by
  have rounded : Floating.round ((n : ℚ) / 10000 * ((100 : Int) : ℚ)) = (((n + 50) / 100 : Nat) : Int) := by
    have nonneg : (0 : ℚ) ≤ (n : ℚ) / 10000 * ((100 : Int) : ℚ) := by positivity
    refine (if_pos nonneg).trans ?_
    have shifted : (n : ℚ) / 10000 * ((100 : Int) : ℚ) + 1 / 2 = ((n + 50 : Nat) : ℚ) / ((100 : Nat) : ℚ) := by
      push_cast
      ring
    rw [shifted, Rat.floor_natCast_div_natCast]
    norm_cast
  unfold parseDollarsToCents
  rw [stod_fourDecimals, Option.map_some, rounded]
  rfl

end

end Kalshi
