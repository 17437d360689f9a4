import Mathlib.Data.List.Basic
import Mathlib.Data.UInt

set_option relaxedAutoImplicit false
set_option autoImplicit false

/-!
# Decimal keys

Unsigned 64-bit integers as decimal text: printing without leading zeros, and a reader that
accepts an optional plus sign and any number of leading zeros, as readers of standard libraries
do.  Digits to any base up to sixteen, for text that is only printed.

## Main results

* `Decimal.parseU64_printU64` — what is printed is read back.
* `Decimal.printU64_injective` — different numbers are printed differently.
* `Decimal.toDigits_injective` — the same for other bases.
-/

namespace Decimal

/-- The decimal digits of a number. -/
def printU64 (n : UInt64) : String := Nat.repr n.toNat

/-- Read an optional plus sign and at least one decimal digit; fail on overflow. -/
def parseU64 (s : String) : Option UInt64 :=
  let digits := match s.toList with
    | '+' :: cs => cs
    | cs => cs
  if digits.isEmpty || !digits.all Char.isDigit then none
  else
    let n := Nat.ofDigitChars 10 digits 0
    if n < 2 ^ 64 then some (UInt64.ofNat n) else none

/-- A printed number does not start with a sign. -/
private lemma toDigits_ne_plus (n : ℕ) (cs : List Char) : Nat.toDigits 10 n ≠ '+' :: cs := by
  intro h
  have := Nat.isDigit_of_mem_toDigits (b := 10) (n := n) (c := '+') (by decide) (by decide)
    (by simp [h])
  simp at this

/-- A printed number is read back if it fits 64 bits, and refused otherwise. -/
lemma parseU64_repr (n : ℕ) :
    parseU64 (Nat.repr n) = if n < 2 ^ 64 then some (UInt64.ofNat n) else none := by
  have hall : (Nat.toDigits 10 n).all Char.isDigit = true :=
    List.all_eq_true.mpr fun _ hc =>
      Nat.isDigit_of_mem_toDigits (by decide) (by decide) hc
  have hmatch : (match Nat.toDigits 10 n with
      | '+' :: cs => cs
      | cs => cs) = Nat.toDigits 10 n := by
    split
    · exact absurd ‹_› (toDigits_ne_plus _ _)
    · rfl
  simp only [parseU64, Nat.toList_repr, hmatch, hall, Nat.ofDigitChars_ten_toDigits]
  simp [List.isEmpty_iff, Nat.toDigits_ne_nil]

/-- **Round trip**: a printed number is read back. -/
@[simp] theorem parseU64_printU64 (n : UInt64) : parseU64 (printU64 n) = some n := by
  rw [printU64, parseU64_repr, if_pos n.toNat_lt, UInt64.ofNat_toNat]

/-- Different numbers are printed differently. -/
theorem printU64_injective : Function.Injective printU64 := by
  intro a b h
  have := congrArg parseU64 h
  simpa using this

/-! ## Other bases -/

lemma digitChar_injective {i j : ℕ} (hi : i < 16) (hj : j < 16)
    (h : Nat.digitChar i = Nat.digitChar j) : i = j := by
  have hall : ∀ i j : Fin 16, Nat.digitChar i = Nat.digitChar j → i = j := by decide
  exact congrArg Fin.val (hall ⟨i, hi⟩ ⟨j, hj⟩ h)

/-- Different numbers have different digits: by induction on one of them, from its last digit. -/
theorem toDigits_injective {b : ℕ} (hb : 1 < b) (hb' : b ≤ 16) {m n : ℕ}
    (h : Nat.toDigits b m = Nat.toDigits b n) : m = n := by
  induction m using Nat.strongRecOn generalizing n with
  | ind m ih =>
    rw [Nat.toDigits_eq_if hb, Nat.toDigits_eq_if (n := n) hb] at h
    split_ifs at h with hm hn hn
    · exact digitChar_injective (hm.trans_le hb') (hn.trans_le hb') (List.singleton_inj.mp h)
    · have hlength := congrArg List.length h
      simp [Nat.toDigits_ne_nil] at hlength
    · have hlength := congrArg List.length h
      simp [Nat.toDigits_ne_nil] at hlength
    · obtain ⟨hinit, hlast⟩ := List.append_inj' h rfl
      have hdiv : m / b = n / b := ih (m / b) (Nat.div_lt_self (by omega) hb) hinit
      have hmod : m % b = n % b := digitChar_injective
        ((Nat.mod_lt m (by omega)).trans_le hb') ((Nat.mod_lt n (by omega)).trans_le hb')
        (List.singleton_inj.mp hlast)
      rw [← Nat.div_add_mod m b, ← Nat.div_add_mod n b, hdiv, hmod]

/-- What is no digit does not occur among the digits. -/
lemma notMem_toDigits {b : ℕ} (hb : 1 < b) (hb' : b ≤ 16) {c : Char}
    (hc : ∀ i : Fin 16, c ≠ Nat.digitChar i) (n : ℕ) : c ∉ Nat.toDigits b n := by
  have hdigit : ∀ i < b, c ∉ [Nat.digitChar i] := fun i hi hmem =>
    hc ⟨i, hi.trans_le hb'⟩ (List.mem_singleton.mp hmem)
  induction n using Nat.strongRecOn with
  | ind n ih =>
    rw [Nat.toDigits_eq_if hb]
    split_ifs with hn
    · exact hdigit n hn
    · rw [List.mem_append, not_or]
      exact ⟨ih _ (Nat.div_lt_self (by omega) hb), hdigit _ (Nat.mod_lt n (by omega))⟩

end Decimal
