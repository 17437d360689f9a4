import Mathlib.Algebra.BigOperators.Group.Finset.Basic
import Mathlib.Data.UInt

set_option relaxedAutoImplicit false
set_option autoImplicit false

/-!
# Saturating machine counters

Unsigned machine integers with the saturating addition of systems languages: a sum that does
not fit stays at the largest value of the type.  The lemmas read a saturating sum as a bounded
sum of natural numbers, which is the form `omega` works with.

## Main definitions

* `UInt32.saturatingAdd`, `UInt64.saturatingAdd` — addition that stops at the maximum.

## Main results

* `UInt32.toNat_saturatingAdd`, `UInt64.toNat_saturatingAdd` — the value of a saturating sum.
* `UInt32.toNat_saturatingAdd_one_of_clamped` — a counter that equals a clamped count still
  does after counting one more.
* `Saturating.min_sum_min` — cutting off the summands of a cut-off sum changes nothing.
-/

namespace UInt32

/-- Addition that stays at the largest `UInt32` instead of wrapping. -/
def saturatingAdd (a b : UInt32) : UInt32 := ofNatClamp (a.toNat + b.toNat)

/-- The value of a clamped conversion. -/
lemma toNat_ofNatClamp' (n : ℕ) : (ofNatClamp n).toNat = min n (2 ^ 32 - 1) := by
  unfold ofNatClamp
  split_ifs with h
  · have : n < 2 ^ 32 := h
    simp only [toNat_ofNatLT]
    omega
  · have : ¬ n < 2 ^ 32 := h
    simp only [toNat_ofNatLT, UInt32.size]
    omega

/-- A saturating sum is the sum of the values, cut off at `2³² - 1`. -/
@[simp] theorem toNat_saturatingAdd (a b : UInt32) :
    (a.saturatingAdd b).toNat = min (a.toNat + b.toNat) (2 ^ 32 - 1) :=
  toNat_ofNatClamp' _

/-- A saturating counter never returns to zero. -/
lemma saturatingAdd_one_ne_zero (a : UInt32) : a.saturatingAdd 1 ≠ 0 := by
  intro h
  have := congrArg UInt32.toNat h
  simp at this

/-- Counting one more keeps a counter equal to the clamped count. -/
theorem toNat_saturatingAdd_one_of_clamped {a : UInt32} {n : ℕ}
    (h : a.toNat = min n (2 ^ 32 - 1)) :
    (a.saturatingAdd 1).toNat = min (n + 1) (2 ^ 32 - 1) := by
  simp only [toNat_saturatingAdd, h, UInt32.toNat_one]
  omega

end UInt32

namespace UInt64

/-- Addition that stays at the largest `UInt64` instead of wrapping. -/
def saturatingAdd (a b : UInt64) : UInt64 := ofNatClamp (a.toNat + b.toNat)

/-- The value of a clamped conversion. -/
lemma toNat_ofNatClamp' (n : ℕ) : (ofNatClamp n).toNat = min n (2 ^ 64 - 1) := by
  unfold ofNatClamp
  split_ifs with h
  · have : n < 2 ^ 64 := h
    simp only [toNat_ofNatLT]
    omega
  · have : ¬ n < 2 ^ 64 := h
    simp only [toNat_ofNatLT, UInt64.size]
    omega

/-- A saturating sum is the sum of the values, cut off at `2⁶⁴ - 1`. -/
@[simp] theorem toNat_saturatingAdd (a b : UInt64) :
    (a.saturatingAdd b).toNat = min (a.toNat + b.toNat) (2 ^ 64 - 1) :=
  toNat_ofNatClamp' _

/-- Counting one more keeps a counter equal to the clamped count. -/
theorem toNat_saturatingAdd_one_of_clamped {a : UInt64} {n : ℕ}
    (h : a.toNat = min n (2 ^ 64 - 1)) :
    (a.saturatingAdd 1).toNat = min (n + 1) (2 ^ 64 - 1) := by
  simp only [toNat_saturatingAdd, h, UInt64.toNat_one]
  omega

/-- A saturating counter does not decrease. -/
lemma le_saturatingAdd (a b : UInt64) : a.toNat ≤ (a.saturatingAdd b).toNat := by
  have := a.toNat_lt
  simp only [toNat_saturatingAdd]
  omega

end UInt64

namespace Saturating

/-- Cutting off the summands of a cut-off sum changes nothing. -/
theorem min_sum_min {ι : Type} (s : Finset ι) (f : ι → ℕ) (M : ℕ) :
    min (∑ i ∈ s, min (f i) M) M = min (∑ i ∈ s, f i) M := by
  classical
  induction s using Finset.induction_on with
  | empty => simp
  | insert a s ha ih =>
    rw [Finset.sum_insert ha, Finset.sum_insert ha]
    omega

end Saturating
