import Mathlib.Algebra.Order.Field.Basic
import Mathlib.Data.List.MinMax
import Mathlib.Tactic.Ring

set_option relaxedAutoImplicit false
set_option autoImplicit false

/-!
# Exponential moving averages

The exponential moving average of a list of samples starts at the first sample and then mixes
in every later one with weight `α`.  For `0 ≤ α ≤ 1` it stays between the least and the greatest
sample, and constant samples are its fixed point.

## Main results

* `Ema.average_concat` — one more sample.
* `Ema.average_mem_Icc` — bounds on the samples are bounds on the average.
* `Ema.exists_min_average_max` — the average lies between two of the samples.
-/

namespace Ema

variable {K : Type} [Field K] [LinearOrder K] [IsStrictOrderedRing K]

/-- Mix a sample into an average with weight `α`. -/
def mix (α e r : K) : K := (1 - α) * e + α * r

/-- The moving average of a list of samples; `0` for no samples. -/
def average (α : K) : List K → K
  | [] => 0
  | r :: rs => rs.foldl (mix α) r

omit [LinearOrder K] [IsStrictOrderedRing K] in
/-- One more sample. -/
theorem average_concat (α : K) {rs : List K} (h : rs ≠ []) (r : K) :
    average α (rs ++ [r]) = mix α (average α rs) r := by
  cases rs with
  | nil => exact absurd rfl h
  | cons r₀ rs => simp [average]

omit [LinearOrder K] [IsStrictOrderedRing K] in
/-- Constant samples are a fixed point. -/
lemma mix_self (α r : K) : mix α r r = r := by
  unfold mix
  ring

/-- Mixing stays within bounds. -/
lemma mix_mem_Icc {α : K} (h₀ : 0 ≤ α) (h₁ : α ≤ 1) {lo hi e r : K} (he : lo ≤ e ∧ e ≤ hi)
    (hr : lo ≤ r ∧ r ≤ hi) : lo ≤ mix α e r ∧ mix α e r ≤ hi := by
  have h₂ : 0 ≤ 1 - α := sub_nonneg.mpr h₁
  constructor
  · calc lo = (1 - α) * lo + α * lo := by ring
      _ ≤ mix α e r :=
        add_le_add (mul_le_mul_of_nonneg_left he.1 h₂) (mul_le_mul_of_nonneg_left hr.1 h₀)
  · calc mix α e r ≤ (1 - α) * hi + α * hi :=
        add_le_add (mul_le_mul_of_nonneg_left he.2 h₂) (mul_le_mul_of_nonneg_left hr.2 h₀)
      _ = hi := by ring

/-- **Bounds.** Bounds on the samples are bounds on the average. -/
theorem average_mem_Icc {α : K} (h₀ : 0 ≤ α) (h₁ : α ≤ 1) {lo hi : K} {rs : List K}
    (hne : rs ≠ []) (h : ∀ r ∈ rs, lo ≤ r ∧ r ≤ hi) :
    lo ≤ average α rs ∧ average α rs ≤ hi := by
  induction rs using List.reverseRecOn with
  | nil => exact absurd rfl hne
  | append_singleton rs r ih =>
    have hr : lo ≤ r ∧ r ≤ hi := h r (by simp)
    rcases eq_or_ne rs [] with rfl | hrs
    · exact hr
    · rw [average_concat α hrs]
      exact mix_mem_Icc h₀ h₁ (ih hrs fun r' hr' => h r' (by simp [hr'])) hr

/-- The average lies between the least and the greatest sample.

**Proof sketch.** A nonempty list has a least and a greatest entry (`List.argmin`,
`List.argmax`); they bound every sample, hence the average. -/
theorem exists_min_average_max {α : K} (h₀ : 0 ≤ α) (h₁ : α ≤ 1) {rs : List K} (hne : rs ≠ []) :
    ∃ lo ∈ rs, ∃ hi ∈ rs, (∀ r ∈ rs, lo ≤ r ∧ r ≤ hi) ∧
      lo ≤ average α rs ∧ average α rs ≤ hi := by
  obtain ⟨lo, hlo⟩ := Option.ne_none_iff_exists'.mp
    (fun hn => hne (List.argmin_eq_none.mp hn) : rs.argmin id ≠ none)
  obtain ⟨hi, hhi⟩ := Option.ne_none_iff_exists'.mp
    (fun hn => hne (List.argmax_eq_none.mp hn) : rs.argmax id ≠ none)
  have hb : ∀ r ∈ rs, lo ≤ r ∧ r ≤ hi := fun r hr =>
    ⟨List.le_of_mem_argmin (f := id) hr hlo, List.le_of_mem_argmax (f := id) hr hhi⟩
  exact ⟨lo, List.argmin_mem hlo, hi, List.argmax_mem hhi, hb, average_mem_Icc h₀ h₁ hne hb⟩

end Ema
