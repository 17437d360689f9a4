import Foverin.Lib.ExtNum

set_option relaxedAutoImplicit false
set_option autoImplicit false

/-!
# Floating-point numbers as text

The texts that a systems language's float type is read from: a sign if any, then the name of NaN or
of infinity in any mixture of cases, or digits with a point and an exponent, of which only some
digits are required.  The value is the exact rational number that the text denotes.

## Main definitions

* `FloatText.parse` — the reader.

## Main results

* `FloatText.parse_eq_nan_iff` — the texts that are read as NaN.
-/

namespace FloatText

/-- Whether a text has a minus in front, and what stands behind the sign. -/
def splitSign : List Char → Bool × List Char
  | '-' :: cs => (true, cs)
  | '+' :: cs => (false, cs)
  | cs => (false, cs)

/-- The value of some digits. -/
def ofDigits (digits : List Char) : ℕ := Nat.ofDigitChars 10 digits 0

/-- The exponent behind the digits: none, or the letter, a sign if any and some digits. -/
def parseExponent : List Char → Option ℤ
  | [] => some 0
  | c :: cs =>
    let (minus, digits) := splitSign cs
    if c.toLower ≠ 'e' ∨ digits = [] ∨ !digits.all Char.isDigit then none
    else some (if minus then -(ofDigits digits : ℤ) else ofDigits digits)

/-- A number without a sign: digits before a point or behind it or both. -/
def parseNumber (cs : List Char) : Option ℚ :=
  let whole := cs.takeWhile Char.isDigit
  let (fraction, rest) :=
    match cs.dropWhile Char.isDigit with
    | '.' :: rest => (rest.takeWhile Char.isDigit, rest.dropWhile Char.isDigit)
    | rest => ([], rest)
  if whole = [] ∧ fraction = [] then none
  else (parseExponent rest).map fun e : ℤ =>
    (ofDigits (whole ++ fraction) : ℚ) * (10 : ℚ) ^ (e - (fraction.length : ℤ))

/-- Read a text. -/
def parse (text : String) : Option (ExtNum ℚ) :=
  let (minus, cs) := splitSign text.toList
  let name := cs.map Char.toLower
  if name = "nan".toList then some .nan
  else if name = "inf".toList ∨ name = "infinity".toList then
    some (if minus then .negInf else .posInf)
  else (parseNumber cs).map fun q => .num (if minus then -q else q)

/-- **The texts that are read as NaN**: its name in any mixture of cases, perhaps with a sign. -/
theorem parse_eq_nan_iff (text : String) :
    parse text = some .nan ↔ (splitSign text.toList).2.map Char.toLower = "nan".toList := by
  unfold parse
  by_cases hnan : (splitSign text.toList).2.map Char.toLower = "nan".toList
  · simp [hnan]
  · simp only [hnan, if_false, iff_false]
    cases (splitSign text.toList).1 <;> cases parseNumber (splitSign text.toList).2 <;>
      split_ifs <;> simp

example : parse "-12.5E1" = some (.num (-125)) := by decide +kernel

example : parse ".5" = some (.num (1 / 2)) ∧ parse "+InFinity" = some .posInf ∧
    parse "." = none := by
  decide +kernel

end FloatText
