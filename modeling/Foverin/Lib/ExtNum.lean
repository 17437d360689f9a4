import Mathlib.Algebra.Order.Field.Basic
import Mathlib.Algebra.Order.Field.Rat
import Mathlib.Analysis.SpecialFunctions.Log.Basic
import Mathlib.Analysis.Real.Sqrt

set_option relaxedAutoImplicit false
set_option autoImplicit false

/-!
# Floating-point operations and their exact reading

`FloatOps F` lists the operations a program uses on a floating-point type, without a law, so
that a definition over it can be read in real hardware arithmetic, in exact arithmetic, or in
any other.  `ExtNum K` is the exact reading: the numbers of an ordered field `K` together with
NaN and the two infinities, with no rounding.  The sign of zero is not kept.

## Main definitions

* `FloatOps` — the operations; `FloatOps.max`, `FloatOps.min`, `FloatOps.clamp` — the derived
  ones, with the treatment of NaN of a systems language's float type.
* `LogSqrt` — the two functions that an ordered field does not provide.
* `ExtNum` — exact numbers with NaN and the infinities, and its `FloatOps` instance.
* `ExtNum.ofRat`, `ExtNum.InUnit` — rational values in another field, and the unit interval.

## Main results

* `ExtNum.clamp_num` — clamping a number is clamping in `K`.
* `ExtNum.clamp_num_of_mem` — a number within the bounds is its own clamp.
* `ExtNum.inUnit_clamp_iff` — every value but NaN is clamped into the unit interval.
* `ExtNum.foldl_max_eq_nan_iff` — the maximum is NaN only if every value is.
-/

/-- The operations of a floating-point type. -/
class FloatOps (F : Type) extends Add F, Sub F, Mul F, Div F where
  /-- Conversion of an unsigned integer. -/
  ofNat : ℕ → F
  /-- A decimal literal. -/
  lit : ℚ → F
  /-- Natural logarithm. -/
  ln : F → F
  /-- Square root. -/
  sqrt : F → F
  /-- Absolute value. -/
  abs : F → F
  /-- Negative infinity. -/
  negInf : F
  /-- The comparison `<`, false on NaN. -/
  lt : F → F → Bool
  /-- The comparison `≤`, false on NaN. -/
  le : F → F → Bool
  /-- Whether the value is NaN. -/
  isNan : F → Bool
  /-- Whether the value is neither NaN nor infinite. -/
  isFinite : F → Bool

namespace FloatOps

variable {F : Type} [FloatOps F]

/-- The larger argument; a NaN argument is ignored. -/
def max (a b : F) : F := if isNan a then b else if isNan b then a else if lt a b then b else a

/-- The smaller argument; a NaN argument is ignored. -/
def min (a b : F) : F := if isNan a then b else if isNan b then a else if lt b a then b else a

/-- Restriction to the interval `[lo, hi]`; NaN stays NaN. -/
def clamp (x lo hi : F) : F :=
  let x := if lt x lo then lo else x
  if lt hi x then hi else x

end FloatOps

/-- The logarithm and square root of a number type. -/
class LogSqrt (K : Type) where
  /-- Natural logarithm. -/
  log : K → K
  /-- Square root. -/
  sqrt : K → K

noncomputable instance : LogSqrt ℝ := ⟨Real.log, Real.sqrt⟩

/-- Numbers of `K`, NaN and the two infinities. -/
inductive ExtNum (K : Type) where
  | nan
  | negInf
  | num (x : K)
  | posInf
  deriving DecidableEq

namespace ExtNum

variable {K : Type}

/-- The number inside, or zero. -/
def toNum [Zero K] : ExtNum K → K
  | num x => x
  | _ => 0

@[simp] lemma toNum_num [Zero K] (x : K) : (num x).toNum = x := rfl

section Ops

variable [Field K] [LinearOrder K]

/-- Addition: opposite infinities have no sum. -/
protected def add : ExtNum K → ExtNum K → ExtNum K
  | nan, _ | _, nan | negInf, posInf | posInf, negInf => nan
  | negInf, _ | _, negInf => negInf
  | posInf, _ | _, posInf => posInf
  | num x, num y => num (x + y)

/-- Negation. -/
protected def neg : ExtNum K → ExtNum K
  | nan => nan
  | negInf => posInf
  | posInf => negInf
  | num x => num (-x)

/-- The infinity of a sign: NaN for zero. -/
def infOfSign (x : K) : ExtNum K := if 0 < x then posInf else if x < 0 then negInf else nan

/-- A number that has the sign of the argument. -/
def signOf : ExtNum K → K
  | nan => 0
  | negInf => -1
  | posInf => 1
  | num x => x

/-- Multiplication: zero times an infinity has no value. -/
protected def mul : ExtNum K → ExtNum K → ExtNum K
  | nan, _ | _, nan => nan
  | num x, num y => num (x * y)
  | a, b => infOfSign (signOf a * signOf b)

/-- Division: a number over zero is the infinity of its sign, over an infinity zero. -/
protected def div : ExtNum K → ExtNum K → ExtNum K
  | num x, num y => if y = 0 then infOfSign x else num (x / y)
  | num _, posInf | num _, negInf => num 0
  | posInf, num y => if y < 0 then negInf else posInf
  | negInf, num y => if y < 0 then posInf else negInf
  | _, _ => nan

/-- The strict order; NaN is below and above nothing. -/
protected def lt : ExtNum K → ExtNum K → Bool
  | nan, _ | _, nan => false
  | num x, num y => decide (x < y)
  | negInf, negInf | posInf, _ | _, negInf => false
  | negInf, _ | _, posInf => true

/-- The order; NaN is not even below itself. -/
protected def le : ExtNum K → ExtNum K → Bool
  | nan, _ | _, nan => false
  | num x, num y => decide (x ≤ y)
  | negInf, _ | _, posInf => true
  | _, negInf | posInf, _ => false

/-- Natural logarithm. -/
protected def ln [LogSqrt K] : ExtNum K → ExtNum K
  | num x => if 0 < x then num (LogSqrt.log x) else if x = 0 then negInf else nan
  | posInf => posInf
  | _ => nan

/-- Square root. -/
protected def sqrt [LogSqrt K] : ExtNum K → ExtNum K
  | num x => if 0 ≤ x then num (LogSqrt.sqrt x) else nan
  | posInf => posInf
  | _ => nan

/-- Absolute value. -/
protected def abs : ExtNum K → ExtNum K
  | nan => nan
  | num x => num |x|
  | _ => posInf

/-- Whether the value is NaN. -/
def isNan : ExtNum K → Bool
  | nan => true
  | _ => false

/-- Whether the value is a number. -/
def isFinite : ExtNum K → Bool
  | num _ => true
  | _ => false

instance [LogSqrt K] : FloatOps (ExtNum K) where
  add := ExtNum.add
  sub a b := ExtNum.add a (ExtNum.neg b)
  mul := ExtNum.mul
  div := ExtNum.div
  ofNat n := num n
  lit q := num q
  ln := ExtNum.ln
  sqrt := ExtNum.sqrt
  abs := ExtNum.abs
  negInf := negInf
  lt := ExtNum.lt
  le := ExtNum.le
  isNan := isNan
  isFinite := isFinite

end Ops

/-! ## Operations on numbers -/

section Num

variable [Field K] [LinearOrder K] [LogSqrt K]

@[simp] lemma ofNat_eq (n : ℕ) : (FloatOps.ofNat n : ExtNum K) = num (n : K) := rfl

@[simp] lemma lit_eq (q : ℚ) : (FloatOps.lit q : ExtNum K) = num (q : K) := rfl

@[simp] lemma num_add (x y : K) : (num x + num y : ExtNum K) = num (x + y) := rfl

@[simp] lemma num_sub (x y : K) : (num x - num y : ExtNum K) = num (x - y) := by
  rw [sub_eq_add_neg]
  rfl

@[simp] lemma num_mul (x y : K) : (num x * num y : ExtNum K) = num (x * y) := rfl

/-- Division by a number other than zero. -/
lemma num_div {x y : K} (hy : y ≠ 0) : (num x / num y : ExtNum K) = num (x / y) := by
  change ExtNum.div (num x) (num y) = _
  simp [ExtNum.div, hy]

/-- The logarithm of a positive number. -/
lemma ln_num {x : K} (hx : 0 < x) : FloatOps.ln (num x : ExtNum K) = num (LogSqrt.log x) := by
  change ExtNum.ln (num x) = _
  simp [ExtNum.ln, hx]

/-- The square root of a number that is not negative. -/
lemma sqrt_num {x : K} (hx : 0 ≤ x) :
    FloatOps.sqrt (num x : ExtNum K) = num (LogSqrt.sqrt x) := by
  change ExtNum.sqrt (num x) = _
  simp [ExtNum.sqrt, hx]

@[simp] lemma lt_num (x y : K) : FloatOps.lt (num x : ExtNum K) (num y) = decide (x < y) := rfl

@[simp] lemma le_num (x y : K) : FloatOps.le (num x : ExtNum K) (num y) = decide (x ≤ y) := rfl

@[simp] lemma lt_negInf_num (x : K) : FloatOps.lt (FloatOps.negInf : ExtNum K) (num x) = true :=
  rfl

@[simp] lemma isFinite_num (x : K) : FloatOps.isFinite (num x : ExtNum K) = true := rfl

@[simp] lemma abs_num (x : K) : FloatOps.abs (num x : ExtNum K) = num |x| := rfl

/-- The larger of two numbers. -/
@[simp] lemma max_num (x y : K) :
    FloatOps.max (num x : ExtNum K) (num y) = num (Max.max x y) := by
  show (if decide (x < y) = true then num y else num x) = num (Max.max x y)
  rcases lt_or_ge x y with h | h
  · simp [h, h.le]
  · simp [h, not_lt.mpr h]

/-- The smaller of two numbers. -/
@[simp] lemma min_num (x y : K) :
    FloatOps.min (num x : ExtNum K) (num y) = num (Min.min x y) := by
  show (if decide (y < x) = true then num y else num x) = num (Min.min x y)
  rcases lt_or_ge y x with h | h
  · simp [h, h.le]
  · simp [h, not_lt.mpr h]

/-- A finite value is a number. -/
lemma exists_num_of_isFinite {a : ExtNum K} (h : FloatOps.isFinite a = true) :
    ∃ x, a = num x := by
  cases a with
  | num x => exact ⟨x, rfl⟩
  | nan => cases h
  | negInf => cases h
  | posInf => cases h

/-- Clamping a number is clamping in `K`. -/
theorem clamp_num (x lo hi : K) :
    FloatOps.clamp (num x : ExtNum K) (num lo) (num hi) = num (Min.min (Max.max x lo) hi) := by
  unfold FloatOps.clamp
  rcases lt_or_ge x lo with h | h
  · rcases lt_or_ge hi lo with h' | h'
    · simp [h, h', h.le, h'.le]
    · simp [h, h', h.le, not_lt.mpr h']
  · rcases lt_or_ge hi x with h' | h'
    · simp [h, h', not_lt.mpr h, h'.le]
    · simp [h, h', not_lt.mpr h, not_lt.mpr h']

/-- A number within the bounds is its own clamp. -/
theorem clamp_num_of_mem {x lo hi : K} (h₁ : lo ≤ x) (h₂ : x ≤ hi) :
    FloatOps.clamp (num x : ExtNum K) (num lo) (num hi) = num x := by
  rw [clamp_num, max_eq_left h₁, min_eq_left h₂]

/-- A number of the unit interval is its own clamp. -/
lemma clamp_unit {x : K} (h₀ : 0 ≤ x) (h₁ : x ≤ 1) :
    FloatOps.clamp (num x : ExtNum K) (FloatOps.lit 0) (FloatOps.lit 1) = num x := by
  rw [lit_eq, lit_eq, Rat.cast_zero, Rat.cast_one, clamp_num_of_mem h₀ h₁]

end Num

/-! ## Rational values -/

/-- A value over the rational numbers, in another field. -/
def ofRat [Field K] : ExtNum ℚ → ExtNum K
  | nan => nan
  | negInf => negInf
  | num q => num q
  | posInf => posInf

@[simp] lemma ofRat_eq_nan_iff [Field K] {a : ExtNum ℚ} :
    (ofRat a : ExtNum K) = nan ↔ a = nan := by
  cases a <;> simp [ofRat]

/-! ## NaN -/

section Nan

variable [Field K] [LinearOrder K] [LogSqrt K]

/-- The maximum is NaN only if both arguments are. -/
lemma max_eq_nan_iff {a b : ExtNum K} : FloatOps.max a b = nan ↔ a = nan ∧ b = nan := by
  have hisNan : ∀ x : ExtNum K, FloatOps.isNan x = true ↔ x = nan := by
    intro x
    cases x <;> simp [FloatOps.isNan, isNan]
  unfold FloatOps.max
  by_cases ha : a = nan
  · rw [if_pos ((hisNan a).mpr ha)]
    exact ⟨fun hb => ⟨ha, hb⟩, And.right⟩
  · rw [if_neg fun h => ha ((hisNan a).mp h)]
    by_cases hb : b = nan
    · rw [if_pos ((hisNan b).mpr hb)]
      exact ⟨fun h => ⟨h, hb⟩, And.left⟩
    · rw [if_neg fun h => hb ((hisNan b).mp h)]
      split_ifs
      · exact ⟨fun h => absurd h hb, fun h => absurd h.1 ha⟩
      · exact ⟨fun h => absurd h ha, fun h => absurd h.1 ha⟩

/-- **The maximum of a list** is NaN only if every value is. -/
theorem foldl_max_eq_nan_iff (l : List (ExtNum K)) (a : ExtNum K) :
    l.foldl FloatOps.max a = nan ↔ a = nan ∧ ∀ b ∈ l, b = nan := by
  induction l generalizing a with
  | nil => simp
  | cons b l ih => rw [List.foldl_cons, ih, max_eq_nan_iff, List.forall_mem_cons, and_assoc]

/-- Subtracting a number does not bring NaN in. -/
lemma sub_num_eq_nan_iff {a : ExtNum K} {y : K} : a - num y = nan ↔ a = nan := by
  change ExtNum.add a (num (-y)) = nan ↔ a = nan
  cases a <;> simp [ExtNum.add]

/-- Dividing by a number other than zero does not bring NaN in. -/
lemma div_num_eq_nan_iff {a : ExtNum K} {y : K} (hy : y ≠ 0) : a / num y = nan ↔ a = nan := by
  change ExtNum.div a (num y) = nan ↔ a = nan
  cases a with
  | nan => simp [ExtNum.div]
  | num x => simp [ExtNum.div, hy]
  | negInf =>
    simp only [ExtNum.div, reduceCtorEq, iff_false]
    split_ifs <;> simp
  | posInf =>
    simp only [ExtNum.div, reduceCtorEq, iff_false]
    split_ifs <;> simp

end Nan

/-! ## The unit interval -/

section Unit

variable [Field K] [LinearOrder K]

/-- A number of the unit interval. -/
def InUnit (a : ExtNum K) : Prop := ∃ x : K, a = num x ∧ 0 ≤ x ∧ x ≤ 1

lemma InUnit.ne_nan {a : ExtNum K} (h : a.InUnit) : a ≠ nan := by
  obtain ⟨x, rfl, -⟩ := h
  simp

variable [LogSqrt K]

lemma InUnit.isFinite {a : ExtNum K} (h : a.InUnit) : FloatOps.isFinite a = true := by
  obtain ⟨x, rfl, -⟩ := h
  rfl

/-- **Every value but NaN** is clamped into the unit interval. -/
theorem inUnit_clamp_iff [IsStrictOrderedRing K] {a : ExtNum K} :
    (FloatOps.clamp a (FloatOps.lit 0) (FloatOps.lit 1)).InUnit ↔ a ≠ nan := by
  have hone : (0 : K) ≤ 1 := zero_le_one
  rw [lit_eq, lit_eq, Rat.cast_zero, Rat.cast_one]
  cases a with
  | nan =>
    have hclamp : FloatOps.clamp (nan : ExtNum K) (num 0) (num 1) = nan := rfl
    rw [hclamp]
    exact ⟨InUnit.ne_nan, fun h => absurd rfl h⟩
  | negInf =>
    have hclamp : FloatOps.clamp (negInf : ExtNum K) (num 0) (num 1) = num 0 := by
      have hlow : FloatOps.clamp (negInf : ExtNum K) (num 0) (num 1) =
          if FloatOps.lt (num 1 : ExtNum K) (num 0) then num 1 else num 0 := rfl
      rw [hlow, lt_num, if_neg (by simp [hone])]
    rw [hclamp]
    exact ⟨fun _ => by simp, fun _ => ⟨0, rfl, le_rfl, hone⟩⟩
  | posInf =>
    have hclamp : FloatOps.clamp (posInf : ExtNum K) (num 0) (num 1) = num 1 := rfl
    rw [hclamp]
    exact ⟨fun _ => by simp, fun _ => ⟨1, rfl, hone, le_rfl⟩⟩
  | num x =>
    rw [clamp_num]
    exact ⟨fun _ => by simp,
      fun _ => ⟨_, rfl, le_min (le_max_right x 0) hone, min_le_right _ _⟩⟩

end Unit

end ExtNum
