import Mathlib.Analysis.Complex.ExponentialBounds

set_option relaxedAutoImplicit false
set_option autoImplicit false

/-!
# Upper confidence bounds

An arm that was tried `v` times gets the bonus `c √(L / (v + 1))`, where `L` is the logarithm of
the number of all trials plus one.  Two facts decide what a learner with these bonuses does: a
bonus that has to make up for a gap bounds the number of trials, and at the constants `0.7` and
`0.45` an untried arm beats every arm that was tried five times.

A bonus that makes up for a gap of at most one never lets an arm fall far behind: it is tried as
often as the logarithm of the trials of any other arm, up to a constant.

## Main definitions

* `Ucb.bonus` — the exploration bonus.
* `Ucb.Balanced` — an arm has not fallen behind another one.

## Main results

* `Ucb.visits_le_of_gap_le` — the trials of an arm that makes up for a gap.
* `Ucb.explored_lt_unseen` — an untried arm against one tried five times.
* `Ucb.Balanced.of_bonus_le` — an arm that is tried has not left another one behind.
* `Ucb.Balanced.log_le` — the trials of an arm that has not fallen behind.
-/

namespace Ucb

open Real

/-- The exploration bonus of an arm that was tried `v` times. -/
noncomputable def bonus (c L : ℝ) (v : ℕ) : ℝ := c * √(L / (v + 1))

lemma bonus_nonneg {c : ℝ} (hc : 0 ≤ c) (L : ℝ) (v : ℕ) : 0 ≤ bonus c L v :=
  mul_nonneg hc (sqrt_nonneg _)

/-- The bonus shrinks with every trial. -/
lemma bonus_anti {c L : ℝ} (hc : 0 ≤ c) (hL : 0 ≤ L) {v w : ℕ} (h : v ≤ w) :
    bonus c L w ≤ bonus c L v := by
  have hvw : (v : ℝ) + 1 ≤ w + 1 := by exact_mod_cast Nat.succ_le_succ h
  have hv : (0 : ℝ) < v + 1 := by positivity
  refine mul_le_mul_of_nonneg_left ?_ hc
  exact sqrt_le_sqrt (div_le_div_of_nonneg_left hL hv hvw)

/-- **Gaps.** A bonus that makes up for a gap `δ` bounds the number of trials by `c² L / δ²`. -/
theorem visits_le_of_gap_le {c L δ : ℝ} (hL : 0 ≤ L) (hδ : 0 < δ) {v : ℕ}
    (h : δ ≤ bonus c L v) : (v : ℝ) + 1 ≤ c ^ 2 * L / δ ^ 2 := by
  have hv : (0 : ℝ) < v + 1 := by positivity
  have hsq : δ ^ 2 ≤ c ^ 2 * (L / (v + 1)) := by
    calc
      δ ^ 2 ≤ bonus c L v ^ 2 := pow_le_pow_left₀ hδ.le h 2
      _ = c ^ 2 * (L / (v + 1)) := by
        rw [bonus, mul_pow, sq_sqrt (div_nonneg hL hv.le)]
  rw [le_div_iff₀ (pow_pos hδ 2)]
  calc
    ((v : ℝ) + 1) * δ ^ 2 ≤ (v + 1) * (c ^ 2 * (L / (v + 1))) :=
      mul_le_mul_of_nonneg_left hsq hv.le
    _ = c ^ 2 * L := by field_simp

/-- `ln 6 > 1.79`, because `2³¹ ≤ 6¹²`. -/
lemma log_six_gt : (1.79 : ℝ) < log 6 := by
  have hpow : log ((2 : ℝ) ^ 31) ≤ log (6 ^ 12) :=
    log_le_log (by norm_num) (by norm_num)
  rw [log_pow, log_pow] at hpow
  have := log_two_gt_d9
  push_cast at hpow
  linarith

/-- After five trials the bonus is at most `0.4083` of the bonus of an untried arm. -/
lemma sqrt_div_six_le {L : ℝ} (hL : 0 ≤ L) : √(L / 6) ≤ 0.4083 * √L := by
  have h : L / 6 ≤ (0.4083 * √L) ^ 2 := by
    rw [mul_pow, sq_sqrt hL]
    linarith
  exact sqrt_le_iff.mpr ⟨by positivity, h⟩

/-- **Exploration.** At five trials or more, of six or more trials in all counting the next, even
an arm of value one falls behind an untried arm of value `0.45`. -/
theorem explored_lt_unseen {v : ℕ} (hv : 5 ≤ v) {L : ℝ} (hL : log 6 ≤ L) :
    1 + bonus 0.7 L v < 0.45 + bonus 0.7 L 0 := by
  have hL' : (1.79 : ℝ) ≤ L := log_six_gt.le.trans hL
  have hL₀ : 0 ≤ L := by linarith
  have hfive : bonus 0.7 L v ≤ 0.7 * (0.4083 * √L) := by
    refine (bonus_anti (by norm_num) hL₀ hv).trans ?_
    refine mul_le_mul_of_nonneg_left ?_ (by norm_num)
    have h6 : ((5 : ℕ) : ℝ) + 1 = 6 := by norm_num
    rw [h6]
    exact sqrt_div_six_le hL₀
  have hzero : bonus 0.7 L 0 = 0.7 * √L := by simp [bonus]
  have hroot : (1.337 : ℝ) ≤ √L := le_sqrt_of_sq_le (by linarith)
  rw [hzero]
  linarith

/-! ## Arms that fall behind -/

/-- An arm tried `v` times has not fallen behind one tried `w` times: when the last of these
trials was chosen, its bonus was at most one more than that of the arm that was tried. -/
def Balanced (c : ℝ) (v w : ℕ) : Prop := bonus c (log w) v ≤ 1 + c * √(log w / w)

namespace Balanced

variable {c : ℝ} {v v' w : ℕ}

/-- An arm that is tried almost as often has not fallen behind. -/
lemma of_le (hc : 0 ≤ c) (h : w ≤ v + 1) : Balanced c v w := by
  have hroot : √(log w / (v + 1)) ≤ √(log w / w) := by
    rcases Nat.eq_zero_or_pos w with rfl | hw
    · simp
    · have hw' : (0 : ℝ) < w := by exact_mod_cast hw
      have hle : (w : ℝ) ≤ v + 1 := by exact_mod_cast h
      exact sqrt_le_sqrt (div_le_div_of_nonneg_left (log_natCast_nonneg w) hw' hle)
  have hscaled := mul_le_mul_of_nonneg_left hroot hc
  unfold Balanced bonus
  linarith

/-- Further trials of an arm do not make it fall behind. -/
lemma mono (hc : 0 ≤ c) (h : Balanced c v w) (hv : v ≤ v') : Balanced c v' w :=
  (bonus_anti hc (log_natCast_nonneg w) hv).trans h

/-- **Choice.** An arm is tried for the `w + 1`st time, although its value is at most one more than
that of an arm tried `v` times: this one has not fallen behind.

**Proof sketch.** What the bonuses differ by grows with the logarithm, and there have been at least
`w` trials in all. -/
theorem of_bonus_le (hc : 0 ≤ c) {L : ℝ} (hL : log ((w + 1 : ℕ) : ℝ) ≤ L)
    (h : bonus c L v ≤ 1 + bonus c L w) : Balanced c v (w + 1) := by
  rcases Nat.lt_or_ge v w with hvw | hvw
  · have hlog : 0 ≤ log ((w + 1 : ℕ) : ℝ) := log_natCast_nonneg (w + 1)
    have hv : (0 : ℝ) < v + 1 := by positivity
    have hw : (0 : ℝ) < (w : ℝ) + 1 := by positivity
    have hlt : (v : ℝ) + 1 ≤ w + 1 := by exact_mod_cast Nat.succ_le_succ hvw.le
    have hroots : 0 ≤ 1 / √((v : ℝ) + 1) - 1 / √((w : ℝ) + 1) := by
      rw [sub_nonneg]
      exact one_div_le_one_div_of_le (sqrt_pos.mpr hv) (sqrt_le_sqrt hlt)
    have hdiff : ∀ M : ℝ, 0 ≤ M → c * √(M / (v + 1)) - c * √(M / (w + 1)) =
        c * (√M * (1 / √((v : ℝ) + 1) - 1 / √((w : ℝ) + 1))) := by
      intro M hM
      rw [sqrt_div hM, sqrt_div hM]
      ring
    have hgap : c * √(log ((w + 1 : ℕ) : ℝ) / (v + 1)) - c * √(log ((w + 1 : ℕ) : ℝ) / (w + 1)) ≤
        c * √(L / (v + 1)) - c * √(L / (w + 1)) := by
      rw [hdiff _ hlog, hdiff L (hlog.trans hL)]
      have hsqrt := sqrt_le_sqrt hL
      gcongr
    unfold bonus at h
    unfold Balanced bonus
    push_cast at hgap ⊢
    linarith
  · exact of_le hc (by omega)

/-- `ln w ≤ w / e`. -/
lemma log_div_self_le (w : ℕ) : log w / w ≤ 0.368 := by
  rcases Nat.eq_zero_or_pos w with rfl | hw
  · norm_num
  · have hw' : (0 : ℝ) < w := by exact_mod_cast hw
    have he : (0 : ℝ) < exp 1 := exp_pos 1
    have hlog := log_le_sub_one_of_pos (div_pos hw' he)
    rw [log_div hw'.ne' he.ne', log_exp] at hlog
    have hdiv : (w : ℝ) / exp 1 ≤ 0.368 * w := by
      rw [div_le_iff₀ he]
      have := exp_one_gt_d9
      nlinarith
    rw [div_le_iff₀ hw']
    linarith

/-- **Trials.** At the constant `0.7` an arm that has not fallen behind one tried `w` times is tried
at least `0.24 ln w` times, counting the next. -/
theorem log_le (h : Balanced 0.7 v w) : 0.24 * log w ≤ v + 1 := by
  have hv : (0 : ℝ) < v + 1 := by positivity
  have hlog : 0 ≤ log (w : ℝ) := log_natCast_nonneg w
  have hsmall : √(log w / w) ≤ 0.607 :=
    sqrt_le_iff.mpr ⟨by norm_num, (log_div_self_le w).trans (by norm_num)⟩
  have hroot : √(log w / (v + 1)) ≤ 2.036 := by
    unfold Balanced bonus at h
    linarith
  have hquotient : log w / (v + 1) ≤ 2.036 ^ 2 := (sqrt_le_iff.mp hroot).2
  rw [div_le_iff₀ hv] at hquotient
  linarith

end Balanced

end Ucb
