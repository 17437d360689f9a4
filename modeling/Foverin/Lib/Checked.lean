import Mathlib.Data.UInt

set_option relaxedAutoImplicit false
set_option autoImplicit false

/-!
# Checked machine arithmetic

Operations on unsigned machine integers that fail where the plain ones wrap around.  A chain of
checked additions fails exactly if the exact total does not fit, whichever partial sum it is that
overflows, and otherwise gives what the plain additions give.

## Main definitions

* `UInt64.checkedAdd`, `UInt64.checkedSub` — addition and subtraction that fail.

## Main results

* `UInt64.foldlM_checkedAdd` — a chain of additions.
-/

namespace UInt64

/-- Addition that fails if the sum does not fit. -/
def checkedAdd (a b : UInt64) : Option UInt64 :=
  if a.toNat + b.toNat < 2 ^ 64 then some (a + b) else none

/-- Subtraction that fails if the difference is negative. -/
def checkedSub (a b : UInt64) : Option UInt64 := if b ≤ a then some (a - b) else none

/-- The value of a sum that fits. -/
lemma toNat_add_of_lt {a b : UInt64} (h : a.toNat + b.toNat < 2 ^ 64) :
    (a + b).toNat = a.toNat + b.toNat := by
  rw [UInt64.toNat_add, Nat.mod_eq_of_lt h]

/-- **A chain of additions** fails exactly if the total does not fit. -/
theorem foldlM_checkedAdd (l : List UInt64) (a : UInt64) :
    l.foldlM checkedAdd a =
      if a.toNat + (l.map UInt64.toNat).sum < 2 ^ 64 then some (l.foldl (· + ·) a) else none := by
  induction l generalizing a with
  | nil =>
    have hfits : a.toNat + ([].map UInt64.toNat).sum < 2 ^ 64 := a.toNat_lt
    rw [if_pos hfits]
    rfl
  | cons b l ih =>
    rw [List.foldlM_cons, List.foldl_cons, List.map_cons, List.sum_cons, ← Nat.add_assoc]
    by_cases hab : a.toNat + b.toNat < 2 ^ 64
    · have hstep : checkedAdd a b = some (a + b) := if_pos hab
      rw [hstep, ← toNat_add_of_lt hab]
      exact ih (a + b)
    · have hstep : checkedAdd a b = none := if_neg hab
      rw [hstep, if_neg (by omega)]
      rfl

end UInt64
