import Mathlib.Data.Nat.Digits.Defs
import Mathlib.Algebra.Field.Rat
import Mathlib.Tactic.FieldSimp
import Mathlib.Tactic.Ring

/-!
# Numerals

What `strtod` reads in front of a text in the C locale: blanks, a sign, and then a decimal
numeral with an optional exponent, a hexadecimal one, an infinity or a nan. The longest
numeral counts, and whatever follows it is ignored.
-/
namespace Numeral

/-- What a numeral stands for, its sign apart. -/
inductive Magnitude where
  | finite (value : ℚ)
  | infinite
  | nan
  deriving DecidableEq

def isBlank (c : Char) : Bool :=
  c = ' ' || c = '\t' || c = '\n' || c = '\r' || c = Char.ofNat 11 || c = Char.ofNat 12

def decimalDigit (c : Char) : Option Nat :=
  if c.isDigit then some (c.toNat - '0'.toNat) else none

def hexDigit (c : Char) : Option Nat :=
  if c.isDigit then some (c.toNat - '0'.toNat)
  else if 'a' ≤ c.toLower ∧ c.toLower ≤ 'f' then some (c.toLower.toNat - 'a'.toNat + 10)
  else none

/-- The digits a text starts with, and what follows them. -/
def takeDigits (digit : Char → Option Nat) : List Char → List Nat × List Char
  | [] => ([], [])
  | c :: cs =>
    match digit c with
    | none => ([], c :: cs)
    | some d => (d :: (takeDigits digit cs).1, (takeDigits digit cs).2)

def digitsValue (base : Nat) (digits : List Nat) : Nat :=
  digits.foldl (fun value d => value * base + d) 0

/-- A sign, if there is one; `true` is a minus. -/
def takeSign : List Char → Bool × List Char
  | '-' :: rest => (true, rest)
  | '+' :: rest => (false, rest)
  | chars => (false, chars)

/-- What follows a point. -/
def takeFraction (digit : Char → Option Nat) : List Char → List Nat × List Char
  | '.' :: rest => takeDigits digit rest
  | chars => ([], chars)

/-- The exponent behind one of `marks`. A mark that no digit follows is no exponent. -/
def exponent (marks : List Char) : List Char → Int
  | [] => 0
  | c :: rest =>
    if c ∈ marks then
      let digits := (takeDigits decimalDigit (takeSign rest).2).1
      if (takeSign rest).1 then -(digitsValue 10 digits : Int) else digitsValue 10 digits
    else 0

def scaled (base : Nat) (power : Int) (value : ℚ) : ℚ :=
  if 0 ≤ power then value * (base ^ power.toNat : Nat) else value / (base ^ (-power).toNat : Nat)

/-- Digits with a point among them, at least one of them, and an exponent to `radix`. -/
def positional (digit : Char → Option Nat) (base : Nat) (marks : List Char) (radix : Nat) (chars : List Char) :
    Option ℚ :=
  let whole := takeDigits digit chars
  let fraction := takeFraction digit whole.2
  if whole.1.isEmpty && fraction.1.isEmpty then none
  else
    let value : ℚ := (digitsValue base (whole.1 ++ fraction.1) : Nat) / (base ^ fraction.1.length : Nat)
    some (scaled radix (exponent marks fraction.2) value)

def hexadecimal : List Char → Option ℚ
  | '0' :: x :: rest => if x ∈ ['x', 'X'] then positional hexDigit 16 ['p', 'P'] 2 rest else none
  | _ => none

/-- `inf` and `nan` in letters of either case; what may follow them changes no value. -/
def named (chars : List Char) : Option Magnitude :=
  let word := (chars.take 3).map Char.toLower
  if word = ['i', 'n', 'f'] then some .infinite
  else if word = ['n', 'a', 'n'] then some .nan
  else none

def magnitude (chars : List Char) : Option Magnitude :=
  match hexadecimal chars with
  | some value => some (.finite value)
  | none =>
    match positional decimalDigit 10 ['e', 'E'] 10 chars with
    | some value => some (.finite value)
    | none => named chars

/-- The numeral a text starts with and whether it has a minus; `none` where it starts with none. -/
def scan (s : String) : Option (Bool × Magnitude) :=
  let signed := takeSign (s.toList.dropWhile isBlank)
  (magnitude signed.2).map fun size => (signed.1, size)

/-! ### A fixed-point numeral -/

theorem decimalDigit_isDigit {c : Char} (digit : c.isDigit = true) :
    decimalDigit c = some (c.toNat - '0'.toNat) := if_pos digit

theorem ne_of_isDigit {c d : Char} (digit : c.isDigit = true) (other : d.isDigit = false) : c ≠ d := by
  rintro rfl
  rw [digit] at other
  cases other

theorem isBlank_isDigit {c : Char} (digit : c.isDigit = true) : isBlank c = false := by
  have other : ∀ d : Char, d.isDigit = false → decide (c = d) = false :=
    fun d nondigit => decide_eq_false (ne_of_isDigit digit nondigit)
  unfold isBlank
  rw [other _ rfl, other _ rfl, other _ rfl, other _ rfl, other _ rfl, other _ rfl]
  rfl

/-- The digits in front of the first character that is none. -/
theorem takeDigits_append {digits rest : List Char} (all : ∀ c ∈ digits, c.isDigit = true)
    (stop : ∀ c ∈ rest.head?, c.isDigit = false) :
    takeDigits decimalDigit (digits ++ rest) = (digits.map fun c => c.toNat - '0'.toNat, rest) := by
  induction digits with
  | nil =>
    cases rest with
    | nil => rfl
    | cons c rest => simp [takeDigits, decimalDigit, stop c rfl]
  | cons c digits ih =>
    have first := decimalDigit_isDigit (all c (by simp))
    have others := ih fun d member => all d (by simp [member])
    simp [takeDigits, first, others]

theorem digitsValue_eq (chars : List Char) :
    digitsValue 10 (chars.map fun c => c.toNat - '0'.toNat) = Nat.ofDigitChars 10 chars 0 := by
  rw [digitsValue, List.foldl_map, Nat.ofDigitChars_eq_foldl]
  congr 1
  funext value c
  rw [Nat.mul_comm]

/-- The first digit would have to be followed by a letter. -/
theorem hexadecimal_fixed {whole fraction : List Char} (digits : ∀ c ∈ whole, c.isDigit = true) :
    hexadecimal (whole ++ '.' :: fraction) = none := by
  match whole with
  | [] => rfl
  | [c] =>
    by_cases zero : c = '0'
    · rw [zero]
      rfl
    · simp [hexadecimal, zero]
  | c :: d :: rest =>
    have lower : d ≠ 'x' := ne_of_isDigit (digits d (by simp)) rfl
    have upper : d ≠ 'X' := ne_of_isDigit (digits d (by simp)) rfl
    by_cases zero : c = '0' <;> simp [hexadecimal, zero, lower, upper]

theorem positional_fixed {whole fraction : List Char} (nonempty : whole ≠ [])
    (digits : ∀ c ∈ whole, c.isDigit = true) (digits' : ∀ c ∈ fraction, c.isDigit = true) :
    positional decimalDigit 10 ['e', 'E'] 10 (whole ++ '.' :: fraction) =
      some ((Nat.ofDigitChars 10 (whole ++ fraction) 0 : ℚ) / 10 ^ fraction.length) := by
  have front : takeDigits decimalDigit (whole ++ '.' :: fraction) =
      (whole.map fun c => c.toNat - '0'.toNat, '.' :: fraction) := by
    apply takeDigits_append digits
    rintro c ⟨⟩
    rfl
  have back : takeFraction decimalDigit ('.' :: fraction) = (fraction.map fun c => c.toNat - '0'.toNat, []) := by
    have read := takeDigits_append digits' (show ∀ c ∈ ([] : List Char).head?, c.isDigit = false by simp)
    rwa [List.append_nil] at read
  have read : (whole.map fun c => c.toNat - '0'.toNat).isEmpty = false := by simpa using nonempty
  unfold positional
  dsimp only
  rw [front]
  dsimp only
  rw [back, read, ← List.map_append, digitsValue_eq, List.length_map]
  simp [exponent, scaled]

/-- A sign, some digits, a point and some more digits. -/
theorem scan_fixed {s : String} {negative : Bool} {whole fraction : List Char}
    (spelled : s.toList = (if negative then ['-'] else []) ++ (whole ++ '.' :: fraction)) (nonempty : whole ≠ [])
    (digits : ∀ c ∈ whole, c.isDigit = true) (digits' : ∀ c ∈ fraction, c.isDigit = true) :
    scan s = some (negative,
      .finite ((Nat.ofDigitChars 10 (whole ++ fraction) 0 : ℚ) / 10 ^ fraction.length)) := by
  have signed : takeSign (s.toList.dropWhile isBlank) = (negative, whole ++ '.' :: fraction) := by
    rw [spelled]
    cases negative with
    | true => rfl
    | false =>
      cases whole with
      | nil => exact absurd rfl nonempty
      | cons c cs =>
        have digit := digits c (by simp)
        have minus : c ≠ '-' := ne_of_isDigit digit rfl
        have plus : c ≠ '+' := ne_of_isDigit digit rfl
        simp [isBlank_isDigit digit, takeSign, minus, plus]
  unfold scan
  dsimp only
  rw [signed]
  unfold magnitude
  rw [hexadecimal_fixed digits, positional_fixed nonempty digits digits']
  rfl

end Numeral
