import Mathlib.Data.UInt
import Mathlib.Data.Nat.Bitwise

set_option relaxedAutoImplicit false
set_option autoImplicit false

/-!
# Bit sets in a machine word

A `UInt64` as the set of the positions of its ones.

## Main definitions

* `Bitset.bit` — whether a position is in the set.
* `Bitset.Meets` — whether the set has a position in a range.

## Main results

* `Bitset.ext` — two words with the same bits are equal.
* `Bitset.bit_or`, `Bitset.bit_foldl` — the bits of a union, and of a word that a loop collects.
-/

namespace Bitset

/-- The bit at a position; there is none from 64 on. -/
def bit (m : UInt64) (i : ℕ) : Bool := m.toNat.testBit i

/-- Some position of a range is in the set. -/
def Meets (m : UInt64) (start stop : ℕ) : Prop := ∃ i, i < stop ∧ start ≤ i ∧ bit m i = true

instance decidableMeets (m : UInt64) (start stop : ℕ) : Decidable (Meets m start stop) :=
  inferInstanceAs (Decidable (∃ i, i < stop ∧ start ≤ i ∧ bit m i = true))

@[simp] lemma bit_zero (i : ℕ) : bit 0 i = false := by
  simp [bit]

/-- A word below a power of two has no bits from its exponent on. -/
lemma bit_of_lt {m : UInt64} {n : ℕ} (h : m.toNat < 2 ^ n) {i : ℕ} (hi : n ≤ i) :
    bit m i = false :=
  Nat.testBit_lt_two_pow (h.trans_le (Nat.pow_le_pow_right (by omega) hi))

lemma bit_of_le (m : UInt64) {i : ℕ} (h : 64 ≤ i) : bit m i = false :=
  bit_of_lt m.toNat_lt h

/-- Words with the same bits are equal. -/
theorem ext {a b : UInt64} (h : ∀ i < 64, bit a i = bit b i) : a = b := by
  apply UInt64.toNat_inj.mp
  apply Nat.eq_of_testBit_eq
  intro i
  by_cases hi : i < 64
  · exact h i hi
  · show bit a i = bit b i
    rw [bit_of_le a (not_lt.mp hi), bit_of_le b (not_lt.mp hi)]

@[simp] theorem bit_or (a b : UInt64) (i : ℕ) : bit (a ||| b) i = (bit a i || bit b i) := by
  simp [bit, UInt64.toNat_or, Nat.testBit_or]

/-- The word with a single position. -/
lemma bit_single {i : ℕ} (hi : i < 64) (j : ℕ) :
    bit (1 <<< UInt64.ofNat i) j = decide (i = j) := by
  have hshift : (1 <<< UInt64.ofNat i : UInt64).toNat = 2 ^ i := by
    have hmod : (UInt64.ofNat i).toNat % 64 = i := by
      rw [UInt64.toNat_ofNat']
      omega
    rw [UInt64.toNat_shiftLeft, hmod, UInt64.toNat_one, Nat.one_shiftLeft]
    exact Nat.mod_eq_of_lt (Nat.pow_lt_pow_right (by omega) hi)
  rw [bit, hshift, Nat.testBit_two_pow]

/-- The bits of a word that a loop collects. -/
theorem bit_foldl {α : Type} (p : α → Prop) [DecidablePred p] (position : α → ℕ) (j : ℕ) :
    ∀ (l : List α) (m : UInt64), (∀ x ∈ l, position x < 64) →
      (bit (l.foldl (fun bits x =>
          if p x then bits ||| (1 <<< UInt64.ofNat (position x)) else bits) m) j = true ↔
        bit m j = true ∨ ∃ x ∈ l, p x ∧ position x = j)
  | [], m, _ => by simp
  | x :: l, m, h => by
    rw [List.forall_mem_cons] at h
    rw [List.foldl_cons, bit_foldl p position j l _ h.2]
    by_cases hx : p x
    · simp [hx, bit_single h.1, or_assoc]
    · simp [hx]

end Bitset
