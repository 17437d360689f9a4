import Foverin.Lib.Crossing
import Foverin.Reward

set_option relaxedAutoImplicit false
set_option autoImplicit false

/-!
# Governors under load

The balanced reward in exact arithmetic, as a function of the load.  A governor with a higher
performance score gains on one with a lower score as the load rises, and for each pair of scores
there is one load where the preference switches.

## Main definitions

* `Foverin.penalty`, `Foverin.rewardAt` — the power penalty and the reward as numbers.

## Main results

* `Foverin.balancedReward_num` — the balanced reward is this number.
* `Foverin.gains_of_le` — the faster governor gains.
* `Foverin.exists_crossing` — the load where the preference switches.
* `Foverin.reward_increasing_differences` — the result on the program's function.
-/

namespace Foverin

open ExtNum

variable {K : Type} [Field K] [LinearOrder K]

/-! ## The reward as a number -/

/-- The power penalty at load `b`, for the energy rate `e` and the performance score `s`. -/
def penalty (e s b : K) : K :=
  if 0 ≤ e then e * (1 - b) + (1 - e) * b * (1 / 2)
  else if 9 / 10 ≤ s then 1 - b
  else if s ≤ 1 / 10 then max (b - 4 / 10) 0 * (8 / 10)
  else |b - s| * (3 / 10)

/-- The reward at load `b`, for the thermal penalty `t`. -/
def rewardAt (t e s b : K) : K :=
  9 / 20 * (1 - |b - s|) + 7 / 20 * (1 - penalty e s b) + 2 / 10 * (1 - t)

/-- The performance scores. -/
def IsScore (s : K) : Prop := s = 0 ∨ s = 1 / 2 ∨ s = 1

/-- An energy rate as it is measured, or the mark of a missing measurement. -/
def IsEnergyRate (e : K) : Prop := 0 ≤ e ∧ e ≤ 1 ∨ e = -1

variable [IsStrictOrderedRing K]

lemma penalty_mem {e s b : K} (he : IsEnergyRate e) (hs : IsScore s) (hb : b ∈ Set.Icc 0 1) :
    penalty e s b ∈ Set.Icc 0 1 := by
  obtain ⟨hb₀, hb₁⟩ := hb
  unfold penalty
  rcases he with ⟨he₀, he₁⟩ | rfl
  · rw [if_pos he₀]
    have hwaste : 0 ≤ e * (1 - b) := mul_nonneg he₀ (by linarith)
    have hstarve : 0 ≤ (1 - e) * b := mul_nonneg (by linarith) hb₀
    constructor <;> nlinarith
  · rw [if_neg (by norm_num)]
    rcases hs with rfl | rfl | rfl
    · rw [if_neg (by norm_num), if_pos (by norm_num)]
      rcases max_cases (b - 4 / 10) 0 with ⟨h, hle⟩ | ⟨h, hlt⟩ <;>
        rw [h] <;> constructor <;> linarith
    · rw [if_neg (by norm_num), if_neg (by norm_num)]
      rcases abs_cases (b - 1 / 2) with ⟨h, hle⟩ | ⟨h, hlt⟩ <;> rw [h] <;> constructor <;> linarith
    · rw [if_pos (by norm_num)]
      constructor <;> linarith

lemma align_mem {s b : K} (hs : IsScore s) (hb : b ∈ Set.Icc 0 1) :
    1 - |b - s| ∈ Set.Icc 0 1 := by
  obtain ⟨hb₀, hb₁⟩ := hb
  rcases abs_cases (b - s) with ⟨h, hle⟩ | ⟨h, hlt⟩ <;> rw [h] <;>
    rcases hs with rfl | rfl | rfl <;> constructor <;> linarith

lemma rewardAt_mem {t e s b : K} (ht : t ∈ Set.Icc 0 1) (he : IsEnergyRate e) (hs : IsScore s)
    (hb : b ∈ Set.Icc 0 1) : rewardAt t e s b ∈ Set.Icc 0 1 := by
  obtain ⟨hp₀, hp₁⟩ := penalty_mem he hs hb
  obtain ⟨ha₀, ha₁⟩ := align_mem hs hb
  obtain ⟨ht₀, ht₁⟩ := ht
  unfold rewardAt
  constructor <;> linarith

/-! ## Gains -/

omit [IsStrictOrderedRing K] in
/-- The penalty by a measured energy rate is the same for all governors. -/
lemma penalty_measured {e s b : K} (he : 0 ≤ e) :
    penalty e s b = e * (1 - b) + (1 - e) * b * (1 / 2) := if_pos he

lemma penalty_save (b : K) : penalty (-1) 0 b = max (b - 4 / 10) 0 * (8 / 10) := by
  unfold penalty
  rw [if_neg (by norm_num), if_neg (by norm_num), if_pos (by norm_num)]

lemma penalty_mid (b : K) : penalty (-1) (1 / 2) b = |b - 1 / 2| * (3 / 10) := by
  unfold penalty
  rw [if_neg (by norm_num), if_neg (by norm_num), if_neg (by norm_num)]

lemma penalty_perf (b : K) : penalty (-1) 1 b = 1 - b := by
  unfold penalty
  rw [if_neg (by norm_num), if_pos (by norm_num)]

/-- The alignment of a faster governor gains. -/
lemma align_gains {s s' b b' : K} (hs : s ≤ s') (hb : b ≤ b') :
    |b - s| - |b - s'| ≤ |b' - s| - |b' - s'| := by
  rcases le_total s' b' with hside | hside
  · -- above both scores the alignments differ by as much as they can
    have htriangle : |b - s| ≤ |b - s'| + |s' - s| := abs_sub_le b s' s
    have hgap : |s' - s| = s' - s := abs_of_nonneg (sub_nonneg.mpr hs)
    have hright : |b' - s'| = b' - s' := abs_of_nonneg (sub_nonneg.mpr hside)
    have hleft : b' - s ≤ |b' - s| := le_abs_self _
    linarith
  · -- below the higher score its alignment grows with the load
    have htriangle : |b - s| ≤ |b - b'| + |b' - s| := abs_sub_le b b' s
    have hgap : |b - b'| = -(b - b') := abs_of_nonpos (sub_nonpos.mpr hb)
    have hright : |b' - s'| = -(b' - s') := abs_of_nonpos (sub_nonpos.mpr hside)
    have hleft : -(b - s') ≤ |b - s'| := neg_le_abs _
    linarith

lemma gains_measured {t e s s' : K} (he : 0 ≤ e) (hs : s ≤ s') :
    GainsOn (Set.Icc 0 1) (rewardAt t e s) (rewardAt t e s') := by
  intro b _ b' _ hb
  have halign := align_gains hs hb
  simp only [rewardAt, penalty_measured he]
  linarith

lemma gains_save_mid (t : K) :
    GainsOn (Set.Icc 0 1) (rewardAt t (-1) 0) (rewardAt t (-1) (1 / 2)) := by
  intro b _ b' _ hb
  have hscores : (0 : K) ≤ 1 / 2 := by norm_num
  have halign := align_gains hscores hb
  have hmono : max (b - 4 / 10) 0 ≤ max (b' - 4 / 10) 0 := max_le_max_right 0 (by linarith)
  simp only [rewardAt, penalty_save, penalty_mid]
  rcases le_total b' (1 / 2) with hside | hside
  · have hright : |b' - 1 / 2| = -(b' - 1 / 2) := abs_of_nonpos (sub_nonpos.mpr hside)
    have hleft : -(b - 1 / 2) ≤ |b - 1 / 2| := neg_le_abs _
    linarith
  · -- above one half the penalty of the slower governor grows faster
    have hright : |b' - 1 / 2| = b' - 1 / 2 := abs_of_nonneg (sub_nonneg.mpr hside)
    have hleft : b - 1 / 2 ≤ |b - 1 / 2| := le_abs_self _
    have hslow : b' - 4 / 10 ≤ max (b' - 4 / 10) 0 := le_max_left _ _
    have hpos : 0 ≤ |b - 1 / 2| := abs_nonneg _
    rcases max_cases (b - 4 / 10) 0 with ⟨h, -⟩ | ⟨h, -⟩ <;> rw [h] <;> linarith

lemma gains_mid_perf (t : K) :
    GainsOn (Set.Icc 0 1) (rewardAt t (-1) (1 / 2)) (rewardAt t (-1) 1) := by
  intro b _ b' _ hb
  have hscores : (1 / 2 : K) ≤ 1 := by norm_num
  have halign := align_gains hscores hb
  have htriangle : |b - 1 / 2| ≤ |b - b'| + |b' - 1 / 2| := abs_sub_le b b' (1 / 2)
  have hgap : |b - b'| = -(b - b') := abs_of_nonpos (sub_nonpos.mpr hb)
  simp only [rewardAt, penalty_mid, penalty_perf]
  linarith

/-- A governor with a higher score gains. -/
theorem gains_of_le {t e s s' : K} (he : IsEnergyRate e) (hs : IsScore s) (hs' : IsScore s')
    (hle : s ≤ s') : GainsOn (Set.Icc 0 1) (rewardAt t e s) (rewardAt t e s') := by
  rcases he with ⟨he₀, -⟩ | rfl
  · exact gains_measured he₀ hle
  · rcases hs with rfl | rfl | rfl <;> rcases hs' with rfl | rfl | rfl
    · exact .of_eq fun _ _ => rfl
    · exact gains_save_mid t
    · exact (gains_save_mid t).trans (gains_mid_perf t)
    · norm_num at hle
    · exact .of_eq fun _ _ => rfl
    · exact gains_mid_perf t
    · norm_num at hle
    · norm_num at hle
    · exact .of_eq fun _ _ => rfl

/-! ## Thresholds -/

/-- By a measured energy rate the preference switches half way between the two scores. -/
lemma crosses_measured {t e s s' : K} (he : 0 ≤ e) (hs : 0 ≤ s) (hs' : s' ≤ 1) (hlt : s < s') :
    CrossesAt (Set.Icc 0 1) (rewardAt t e s) (rewardAt t e s') ((s + s') / 2) := by
  refine (gains_measured he hlt.le).crossesAt ⟨by linarith, by linarith⟩ ?_ fun x _ hx => ?_
  · have hleft : |(s + s') / 2 - s| = (s + s') / 2 - s := abs_of_nonneg (by linarith)
    have hright : |(s + s') / 2 - s'| = -((s + s') / 2 - s') := abs_of_nonpos (by linarith)
    simp only [rewardAt, penalty_measured he, hleft, hright]
    ring
  · simp only [rewardAt, penalty_measured he] at hx
    rcases abs_cases (x - s) with ⟨h₁, h₁'⟩ | ⟨h₁, h₁'⟩ <;>
      rcases abs_cases (x - s') with ⟨h₂, h₂'⟩ | ⟨h₂, h₂'⟩ <;>
      linarith

lemma crosses_save_mid (t : K) :
    CrossesAt (Set.Icc 0 1) (rewardAt t (-1) 0) (rewardAt t (-1) (1 / 2)) (37 / 134) := by
  refine (gains_save_mid t).crossesAt ⟨by norm_num, by norm_num⟩ ?_ ?_
  · simp only [rewardAt, penalty_save, penalty_mid]
    norm_num
  · rintro x ⟨hx₀, hx₁⟩ hx
    simp only [rewardAt, penalty_save, penalty_mid, sub_zero, abs_of_nonneg hx₀] at hx
    rcases abs_cases (x - 1 / 2) with ⟨h₁, h₁'⟩ | ⟨h₁, h₁'⟩ <;>
      rcases max_cases (x - 4 / 10) 0 with ⟨h₂, h₂'⟩ | ⟨h₂, h₂'⟩ <;>
      linarith

lemma crosses_mid_perf (t : K) :
    CrossesAt (Set.Icc 0 1) (rewardAt t (-1) (1 / 2)) (rewardAt t (-1) 1) (431 / 542) := by
  refine (gains_mid_perf t).crossesAt ⟨by norm_num, by norm_num⟩ ?_ ?_
  · simp only [rewardAt, penalty_mid, penalty_perf]
    norm_num
  · rintro x ⟨hx₀, hx₁⟩ hx
    simp only [rewardAt, penalty_mid, penalty_perf, abs_of_nonpos (sub_nonpos.mpr hx₁)] at hx
    rcases abs_cases (x - 1 / 2) with ⟨h₁, h₁'⟩ | ⟨h₁, h₁'⟩ <;> linarith

lemma crosses_save_perf (t : K) :
    CrossesAt (Set.Icc 0 1) (rewardAt t (-1) 0) (rewardAt t (-1) 1) (152 / 255) := by
  refine ((gains_save_mid t).trans (gains_mid_perf t)).crossesAt ⟨by norm_num, by norm_num⟩ ?_ ?_
  · simp only [rewardAt, penalty_save, penalty_perf]
    norm_num
  · rintro x ⟨hx₀, hx₁⟩ hx
    simp only [rewardAt, penalty_save, penalty_perf, sub_zero, abs_of_nonneg hx₀,
      abs_of_nonpos (sub_nonpos.mpr hx₁)] at hx
    rcases max_cases (x - 4 / 10) 0 with ⟨h₂, h₂'⟩ | ⟨h₂, h₂'⟩ <;> linarith

/-- The preference between two scores switches at a load between idle and full. -/
theorem exists_crossing {t e s s' : K} (he : IsEnergyRate e) (hs : IsScore s) (hs' : IsScore s')
    (hlt : s < s') : ∃ θ, 0 < θ ∧ θ < 1 ∧
      CrossesAt (Set.Icc 0 1) (rewardAt t e s) (rewardAt t e s') θ := by
  have hs₀ : 0 ≤ s := by rcases hs with rfl | rfl | rfl <;> norm_num
  have hs₁ : s' ≤ 1 := by rcases hs' with rfl | rfl | rfl <;> norm_num
  rcases he with ⟨he₀, -⟩ | rfl
  · exact ⟨(s + s') / 2, by linarith, by linarith, crosses_measured he₀ hs₀ hs₁ hlt⟩
  · rcases hs with rfl | rfl | rfl <;> rcases hs' with rfl | rfl | rfl
    · exact absurd hlt (lt_irrefl _)
    · exact ⟨37 / 134, by norm_num, by norm_num, crosses_save_mid t⟩
    · exact ⟨152 / 255, by norm_num, by norm_num, crosses_save_perf t⟩
    · norm_num at hlt
    · exact absurd hlt (lt_irrefl _)
    · exact ⟨431 / 542, by norm_num, by norm_num, crosses_mid_perf t⟩
    · norm_num at hlt
    · norm_num at hlt
    · exact absurd hlt (lt_irrefl _)

/-! ## The program's reward -/

variable [LogSqrt K]

lemma exists_score (governor : String) :
    ∃ s : K, govPerfScore governor = (num s : ExtNum K) ∧ IsScore s := by
  have hhalf : ((0.5 : ℚ) : K) = 1 / 2 := by norm_num
  unfold govPerfScore
  simp only [lit_eq, hhalf, Rat.cast_one, Rat.cast_zero]
  split_ifs
  · exact ⟨1, rfl, Or.inr (Or.inr rfl)⟩
  · exact ⟨1 / 2, rfl, Or.inr (Or.inl rfl)⟩
  · exact ⟨0, rfl, Or.inl rfl⟩
  · exact ⟨1 / 2, rfl, Or.inr (Or.inl rfl)⟩

lemma powerPenaltyUnclamped_num (t e s b : K) :
    powerPenaltyUnclamped ⟨num b, num t, num e⟩ (num s : ExtNum K) = num (penalty e s b) := by
  have h01 : ((0.1 : ℚ) : K) = 1 / 10 := by norm_num
  have h03 : ((0.3 : ℚ) : K) = 3 / 10 := by norm_num
  have h04 : ((0.4 : ℚ) : K) = 4 / 10 := by norm_num
  have h05 : ((0.5 : ℚ) : K) = 1 / 2 := by norm_num
  have h08 : ((0.8 : ℚ) : K) = 8 / 10 := by norm_num
  have h09 : ((0.9 : ℚ) : K) = 9 / 10 := by norm_num
  unfold powerPenaltyUnclamped penalty
  simp only [lit_eq, h01, h03, h04, h05, h08, h09, Rat.cast_one, Rat.cast_zero, le_num, num_sub,
    num_mul, num_add, abs_num, max_num, decide_eq_true_eq]
  split_ifs <;> rfl

/-- The clamp of the power penalty does nothing. -/
lemma powerPenalty_num {t e s b : K} (he : IsEnergyRate e) (hs : IsScore s)
    (hb : b ∈ Set.Icc 0 1) :
    powerPenalty ⟨num b, num t, num e⟩ (num s : ExtNum K) = num (penalty e s b) := by
  obtain ⟨hp₀, hp₁⟩ := penalty_mem he hs hb
  rw [powerPenalty_eq_clamp, powerPenaltyUnclamped_num, clamp_unit hp₀ hp₁]

lemma balancedRewardUnclamped_num {t e s b : K} {governor : String}
    (hgov : govPerfScore governor = (num s : ExtNum K)) (he : IsEnergyRate e) (hs : IsScore s)
    (hb : b ∈ Set.Icc 0 1) :
    balancedRewardUnclamped ⟨num b, num t, num e⟩ governor =
      (num (rewardAt t e s b) : ExtNum K) := by
  have h045 : ((0.45 : ℚ) : K) = 9 / 20 := by norm_num
  have h035 : ((0.35 : ℚ) : K) = 7 / 20 := by norm_num
  have h020 : ((0.20 : ℚ) : K) = 2 / 10 := by norm_num
  unfold balancedRewardUnclamped rewardAt
  simp only [hgov, powerPenalty_num he hs hb, lit_eq, h045, h035, h020, Rat.cast_one,
    num_sub, num_mul, num_add, abs_num]

/-- The balanced reward is a number, and its clamp does nothing. -/
theorem balancedReward_num {t e s b : K} {governor : String}
    (hgov : govPerfScore governor = (num s : ExtNum K)) (ht : t ∈ Set.Icc 0 1)
    (he : IsEnergyRate e) (hs : IsScore s) (hb : b ∈ Set.Icc 0 1) :
    balancedReward ⟨num b, num t, num e⟩ governor = (num (rewardAt t e s b) : ExtNum K) := by
  obtain ⟨hr₀, hr₁⟩ := rewardAt_mem ht he hs hb
  rw [balancedReward_eq_clamp, balancedRewardUnclamped_num hgov he hs hb, clamp_unit hr₀ hr₁]

/-- **A faster governor gains as the load rises.** The balanced reward is a number, and for two
governors the advantage of the one with the higher score does not fall with the load.  Equal scores
give equal rewards.  If the scores differ, then the faster governor is strictly better at full load
and strictly worse on an idle CPU, and the preference switches at a single load in between.

**Proof sketch.** On scores and readings in their ranges the clamps do nothing.  With a measured
energy rate the two rewards cross in the middle of the scores; without one there are three pairs of
scores, and the load at which each pair crosses is known.  A crossing is unique. -/
theorem reward_increasing_differences {f g : String}
    (hfg : FloatOps.le (govPerfScore f : ExtNum K) (govPerfScore g) = true) {t e : K}
    (ht : 0 ≤ t ∧ t ≤ 1) (he : 0 ≤ e ∧ e ≤ 1 ∨ e = -1) :
    let R : String → K → K := fun governor b =>
      (balancedReward ⟨num b, num t, num e⟩ governor : ExtNum K).toNum
    (∀ governor, ∀ b ∈ Set.Icc (0 : K) 1,
      (balancedReward ⟨num b, num t, num e⟩ governor : ExtNum K) = num (R governor b)) ∧
    (∀ b b', 0 ≤ b → b ≤ b' → b' ≤ 1 → R g b - R f b ≤ R g b' - R f b') ∧
    ((govPerfScore f : ExtNum K) = govPerfScore g →
      ∀ m : WindowMetrics (ExtNum K), balancedReward m f = balancedReward m g) ∧
    ((govPerfScore f : ExtNum K) ≠ govPerfScore g →
      R f 1 < R g 1 ∧ R g 0 < R f 0 ∧
        ∃! θ, 0 < θ ∧ θ < 1 ∧ CrossesAt (Set.Icc 0 1) (R f) (R g) θ) := by
  intro R
  obtain ⟨s, hs, hscore⟩ := exists_score (K := K) f
  obtain ⟨s', hs', hscore'⟩ := exists_score (K := K) g
  have hR : ∀ {governor : String} {s : K}, govPerfScore governor = (num s : ExtNum K) →
      IsScore s → ∀ b ∈ Set.Icc (0 : K) 1, R governor b = rewardAt t e s b := by
    intro governor s hs hscore b hb
    have hnum := balancedReward_num hs ht he hscore hb
    exact congrArg toNum hnum
  have hle : s ≤ s' := by
    rw [hs, hs', le_num] at hfg
    exact of_decide_eq_true hfg
  refine ⟨fun governor b hb => ?_, fun b b' hb₀ hb hb₁ => ?_, fun heq m => ?_, fun hne => ?_⟩
  · obtain ⟨s, hs, hscore⟩ := exists_score (K := K) governor
    rw [hR hs hscore b hb]
    exact balancedReward_num hs ht he hscore hb
  · have hmem : b ∈ Set.Icc (0 : K) 1 := ⟨hb₀, hb.trans hb₁⟩
    have hmem' : b' ∈ Set.Icc (0 : K) 1 := ⟨hb₀.trans hb, hb₁⟩
    have hgains := gains_of_le (t := t) he hscore hscore' hle hmem hmem' hb
    rw [hR hs' hscore' b hmem, hR hs hscore b hmem, hR hs' hscore' b' hmem',
      hR hs hscore b' hmem']
    exact hgains
  · unfold balancedReward
    rw [heq]
  · have hlt : s < s' := by
      refine lt_of_le_of_ne hle fun heq => hne ?_
      rw [hs, hs', heq]
    obtain ⟨θ, hθ₀, hθ₁, hcross⟩ := exists_crossing (t := t) he hscore hscore' hlt
    have hcrossR : CrossesAt (Set.Icc 0 1) (R f) (R g) θ :=
      hcross.congr (hR hs hscore) (hR hs' hscore')
    have hzero : (0 : K) ∈ Set.Icc (0 : K) 1 := ⟨le_rfl, zero_le_one⟩
    have hone : (1 : K) ∈ Set.Icc (0 : K) 1 := ⟨zero_le_one, le_rfl⟩
    refine ⟨hcrossR.above 1 hone hθ₁, hcrossR.below 0 hzero hθ₀, θ, ⟨hθ₀, hθ₁, hcrossR⟩, ?_⟩
    rintro θ' ⟨-, -, hcross'⟩
    exact hcross'.unique hcrossR

/-- On an idle CPU without an energy counter `powersave` is better than `performance`. -/
theorem reward_idle_prefers_powersave :
    (balancedReward ⟨num 0, num 0, num (-1)⟩ "performance" : ExtNum ℝ).toNum <
      (balancedReward ⟨num 0, num 0, num (-1)⟩ "powersave" : ExtNum ℝ).toNum := by
  have hsave : (govPerfScore "powersave" : ExtNum ℝ) = num 0 := by simp [govPerfScore]
  have hperf : (govPerfScore "performance" : ExtNum ℝ) = num 1 := by simp [govPerfScore]
  have hle : FloatOps.le (govPerfScore "powersave" : ExtNum ℝ) (govPerfScore "performance") =
      true := by
    rw [hsave, hperf, le_num]
    exact decide_eq_true zero_le_one
  have hne : (govPerfScore "powersave" : ExtNum ℝ) ≠ govPerfScore "performance" := by
    rw [hsave, hperf]
    simp
  exact ((reward_increasing_differences hle ⟨le_rfl, zero_le_one⟩ (Or.inr rfl)).2.2.2 hne).2.1

end Foverin
