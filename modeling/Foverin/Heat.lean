import Foverin.Preference

set_option relaxedAutoImplicit false
set_option autoImplicit false

/-!
# The price of heat

On metrics within their ranges neither clamp of the balanced reward does anything, in exact
arithmetic.  The reward is then an affine function of the thermal penalty whose slope is the weight
of heat, whatever the governor, the load and the energy rate are.

## Main results

* `Foverin.powerPenaltyUnclamped_mem`, `Foverin.balancedRewardUnclamped_mem` — the ranges before
  the clamps.
* `Foverin.balancedReward_heat` — the reward at another thermal penalty.
* `Foverin.heat_costs_its_weight` — the clamps do nothing, and heat costs its weight.
-/

namespace Foverin

open ExtNum

variable {K : Type} [Field K] [LinearOrder K] [IsStrictOrderedRing K] [LogSqrt K]
  {b e t t' : K}

/-- The power penalty of a governor is a number of the unit interval before its clamp, and the
clamp leaves it. -/
theorem powerPenaltyUnclamped_mem (hb : b ∈ Set.Icc 0 1) (he : IsEnergyRate e) (t : K)
    (governor : String) :
    ∃ p ∈ Set.Icc (0 : K) 1,
      powerPenaltyUnclamped ⟨num b, num t, num e⟩ (govPerfScore governor : ExtNum K) = num p ∧
      powerPenalty ⟨num b, num t, num e⟩ (govPerfScore governor : ExtNum K) = num p := by
  obtain ⟨s, hs, hscore⟩ := exists_score (K := K) governor
  rw [hs]
  exact ⟨penalty e s b, penalty_mem he hscore hb, powerPenaltyUnclamped_num t e s b,
    powerPenalty_num he hscore hb⟩

/-- The reward of a governor is a number of the unit interval before its clamp, and the clamp leaves
it. -/
theorem balancedRewardUnclamped_mem (hb : b ∈ Set.Icc 0 1) (he : IsEnergyRate e)
    (ht : t ∈ Set.Icc 0 1) (governor : String) :
    ∃ r ∈ Set.Icc (0 : K) 1,
      balancedRewardUnclamped ⟨num b, num t, num e⟩ governor = (num r : ExtNum K) ∧
      balancedReward ⟨num b, num t, num e⟩ governor = (num r : ExtNum K) := by
  obtain ⟨s, hs, hscore⟩ := exists_score (K := K) governor
  exact ⟨rewardAt t e s b, rewardAt_mem ht he hscore hb,
    balancedRewardUnclamped_num hs he hscore hb, balancedReward_num hs ht he hscore hb⟩

omit [IsStrictOrderedRing K] [LogSqrt K] in
/-- The thermal penalty enters the reward with its weight only. -/
lemma rewardAt_heat (t t' e s b : K) :
    rewardAt t' e s b = rewardAt t e s b - 2 / 10 * (t' - t) := by
  unfold rewardAt
  ring

/-- **The reward at another thermal penalty.** -/
theorem balancedReward_heat (hb : b ∈ Set.Icc 0 1) (he : IsEnergyRate e) (ht : t ∈ Set.Icc 0 1)
    (ht' : t' ∈ Set.Icc 0 1) (governor : String) :
    (balancedReward ⟨num b, num t', num e⟩ governor : ExtNum K) =
      balancedReward ⟨num b, num t, num e⟩ governor -
        FloatOps.lit 0.20 * (num t' - num t) := by
  obtain ⟨s, hs, hscore⟩ := exists_score (K := K) governor
  have hweight : ((0.20 : ℚ) : K) = 2 / 10 := by norm_num
  rw [balancedReward_num hs ht' he hscore hb, balancedReward_num hs ht he hscore hb, lit_eq,
    hweight, num_sub, num_mul, num_sub, rewardAt_heat t t']

/-- **Heat costs its weight.** On metrics within their ranges the power penalty and the reward of
every governor are numbers of the unit interval before their clamps, and the clamps leave them.  A
thermal penalty that is higher by some amount lowers the reward by a fifth of this amount, and the
difference of the rewards of two governors does not depend on it.

**Proof sketch.** The weights of the alignment and of the two penalties add up to one, so that the
reward is in the unit interval before its clamp.  It is affine in the thermal penalty. -/
theorem heat_costs_its_weight (hb : 0 ≤ b ∧ b ≤ 1) (he : 0 ≤ e ∧ e ≤ 1 ∨ e = -1) :
    let m : K → WindowMetrics (ExtNum K) := fun t => ⟨num b, num t, num e⟩
    (∀ governor t, 0 ≤ t → t ≤ 1 →
      (∃ p, 0 ≤ p ∧ p ≤ 1 ∧ powerPenaltyUnclamped (m t) (govPerfScore governor) = num p ∧
        powerPenalty (m t) (govPerfScore governor) = num p) ∧
      ∃ r, 0 ≤ r ∧ r ≤ 1 ∧ balancedRewardUnclamped (m t) governor = num r ∧
        balancedReward (m t) governor = num r) ∧
    (∀ governor t t', 0 ≤ t → t ≤ t' → t' ≤ 1 →
      balancedReward (m t') governor =
        balancedReward (m t) governor - FloatOps.lit 0.20 * (num t' - num t)) ∧
    ∀ f g t t', 0 ≤ t → t ≤ 1 → 0 ≤ t' → t' ≤ 1 →
      balancedReward (m t) f - balancedReward (m t) g =
        balancedReward (m t') f - balancedReward (m t') g := by
  intro m
  refine ⟨fun governor t ht₀ ht₁ => ⟨?_, ?_⟩, fun governor t t' ht₀ hle ht₁ => ?_,
    fun f g t t' ht₀ ht₁ ht₀' ht₁' => ?_⟩
  · obtain ⟨p, ⟨hp₀, hp₁⟩, hp⟩ := powerPenaltyUnclamped_mem hb he t governor
    exact ⟨p, hp₀, hp₁, hp⟩
  · obtain ⟨r, ⟨hr₀, hr₁⟩, hr⟩ := balancedRewardUnclamped_mem hb he ⟨ht₀, ht₁⟩ governor
    exact ⟨r, hr₀, hr₁, hr⟩
  · exact balancedReward_heat hb he ⟨ht₀, hle.trans ht₁⟩ ⟨ht₀.trans hle, ht₁⟩ governor
  · have hheat : ∀ governor, balancedReward (m t') governor =
        balancedReward (m t) governor - FloatOps.lit 0.20 * (num t' - num t) :=
      balancedReward_heat hb he ⟨ht₀, ht₁⟩ ⟨ht₀', ht₁'⟩
    obtain ⟨x, -, -, hx⟩ := balancedRewardUnclamped_mem hb he ⟨ht₀, ht₁⟩ f
    obtain ⟨y, -, -, hy⟩ := balancedRewardUnclamped_mem hb he ⟨ht₀, ht₁⟩ g
    rw [hheat f, hheat g, hx, hy]
    simp only [lit_eq, num_sub, num_mul, sub_sub_sub_cancel_right]

/-- Full heat costs a busy governor one fifth. -/
theorem heat_costs_a_fifth :
    (balancedReward ⟨num (1 / 2), num 1, num (-1)⟩ "schedutil" : ExtNum ℝ) =
      balancedReward ⟨num (1 / 2), num 0, num (-1)⟩ "schedutil" -
        FloatOps.lit 0.20 * (num 1 - num 0) :=
  (heat_costs_its_weight (b := 1 / 2) (e := -1) (by norm_num) (Or.inr rfl)).2.1 "schedutil" 0 1
    le_rfl zero_le_one le_rfl

end Foverin
