import Foverin.Brain.Buckets

set_option relaxedAutoImplicit false
set_option autoImplicit false

/-!
# Trials

Over the reals no action of a bucket falls far behind another one.  Whatever the rewards in the
unit interval and the priors are, a bucket that got `n` credits for `k` actions has tried each of
them at least `0.24 ln (n / k)` times, counting the next, as long as trials can be counted.

## Main definitions

* `Foverin.Bucket.Tried` — no action of the bucket has fallen behind another one.

## Main results

* `Foverin.Bucket.Tried.rule` — no action falls behind.
* `Foverin.trials_ge_log` — the number of trials of every action.
-/

namespace Foverin

open Finmap FloatOps ExtNum

/-! ## Bounds on the bounds -/

namespace Bucket

variable {b : Bucket (ExtNum ℝ)}

/-- The visits that a selection counts. -/
lemma estimate_visits (b : Bucket (ExtNum ℝ)) (prior a : String) :
    (b.estimate prior a).1.toNat = b.visits a := by
  unfold estimate visits
  cases b.actions.lookup a <;> rfl

/-- The value that a selection takes for an action lies in the unit interval. -/
lemma Sound.estimate_mem (h : b.Sound) (prior a : String) :
    0 ≤ (b.estimate prior a).2.toNum ∧ (b.estimate prior a).2.toNum ≤ 1 := by
  unfold estimate
  cases hs : b.actions.lookup a with
  | none =>
    dsimp only
    split_ifs <;> simp only [lit_eq, toNum_num] <;> norm_num
  | some s =>
    obtain ⟨x, hx, h₀, h₁⟩ := h.ema a s hs
    dsimp only
    rw [hx, toNum_num]
    exact ⟨h₀, h₁⟩

/-- The bonus of the selected action is at most one less than that of any other. -/
lemma Sound.bonus_le (h : b.Sound) (prior : String) {actions : List String}
    (hne : actions ≠ []) {a : String} (ha : a ∈ actions) :
    Ucb.bonus 0.7 b.logTotal (b.visits a) ≤
      1 + Ucb.bonus 0.7 b.logTotal (b.visits (b.scan prior actions hne).bestGov) := by
  have hle := score_le_scan h.numeric prior hne ha
  have hlow := (h.estimate_mem prior a).1
  have hhigh := (h.estimate_mem prior (b.scan prior actions hne).bestGov).2
  rw [score, score, estimate_visits, estimate_visits] at hle
  linarith

/-- There have been as many trials in all as of any governor. -/
lemma Sound.log_visits_le (h : b.Sound) (g : String) :
    Real.log ((b.visits g + 1 : ℕ) : ℝ) ≤ b.logTotal := by
  have htotal := h.visits_le g
  have hle : b.visits g + 1 ≤ max b.totalVisits.toNat 1 + 1 := by omega
  have hpos : (0 : ℝ) < (b.visits g + 1 : ℕ) := by positivity
  exact Real.log_le_log hpos (by exact_mod_cast hle)

end Bucket

/-! ## No action falls behind -/

/-- No action of the list has fallen behind another one, nor will it when the governor in `due`
gets its credit. -/
structure Bucket.Tried (actions : List String) (due : Option String)
    (b : Bucket (ExtNum ℝ)) : Prop where
  sound : b.Sound
  mem : ∀ g, b.visits g ≠ 0 → g ∈ actions
  balanced : ∀ a ∈ actions, ∀ g, Ucb.Balanced 0.7 (b.visits a) (b.visits g)
  room : ∀ g ∈ due, ∀ a ∈ actions, Ucb.Balanced 0.7 (b.visits a) (b.visits g + 1)

namespace Bucket.Tried

variable {actions : List String} {due : Option String} {b : Bucket (ExtNum ℝ)}

lemma new (actions : List String) (tick : UInt64) :
    (Bucket.new tick : Bucket (ExtNum ℝ)).Tried actions none := by
  have hvisits : ∀ g, (Bucket.new tick : Bucket (ExtNum ℝ)).visits g = 0 := fun g =>
    Bucket.visits_of_notMem (lookup_empty g)
  refine ⟨.new tick, fun g hg => absurd (hvisits g) hg, fun a _ g => ?_, nofun⟩
  rw [hvisits, hvisits]
  exact Ucb.Balanced.of_le (by norm_num) (Nat.zero_le _)

/-- **Selection.** The credit of the selected governor leaves no action behind. -/
theorem selected (h : b.Tried actions none) (t : UInt64) (prior : String) (hne : actions ≠ []) :
    Bucket.Tried actions (some (Bucket.scan { b with lastUsed := t } prior actions hne).bestGov)
      { b with lastUsed := t } := by
  have hsound := h.sound.withLastUsed t
  refine ⟨hsound, h.mem, h.balanced, fun g hg a ha => ?_⟩
  rw [← Option.some.inj hg]
  exact Ucb.Balanced.of_bonus_le (by norm_num) (hsound.log_visits_le _)
    (hsound.bonus_le prior hne ha)

/-- **Credit.**

**Proof sketch.** A visit of the credited governor uses up the room that its selection left, unless
its counter is already saturated and stays where it is; the visits of the others do not change. -/
theorem record {g : String} (h : b.Tried actions (some g)) (hg : g ∈ actions) {x : ℝ}
    (h₀ : 0 ≤ x) (h₁ : x ≤ 1) (tick : UInt64) :
    (b.record tick g (.num x)).Tried actions none where
  sound := h.sound.record tick g h₀ h₁
  mem := Bucket.mem_of_visits_record h.mem hg tick _
  balanced a ha g' := by
    -- the visits of `a` do not decrease
    have hmore : b.visits a ≤ (b.record tick g (.num x)).visits a := by
      have hle : b.visits a ≤ 2 ^ 32 - 1 := by
        have := h.sound.visits_le a
        have := b.totalVisits.toNat_lt
        omega
      rw [Bucket.visits_record]
      split_ifs with heq
      · subst heq
        omega
      · exact le_rfl
    refine Ucb.Balanced.mono (by norm_num) ?_ hmore
    rw [Bucket.visits_record]
    split_ifs with heq
    · -- a governor that was visited as often as can be counted stays where it is
      rcases Nat.lt_or_ge (b.visits g) (2 ^ 32 - 1) with hlt | hge
      · rw [Nat.min_eq_left hlt]
        exact h.room g rfl a ha
      · have hsame : min (b.visits g + 1) (2 ^ 32 - 1) = b.visits g := by
          have := h.sound.visits_le g
          have := b.totalVisits.toNat_lt
          omega
        rw [hsame]
        exact h.balanced a ha g
    · exact h.balanced a ha g'
  room := nofun

/-- **No action falls behind.** -/
theorem rule (actions : List String) : BucketRule actions (Bucket.Tried actions) where
  new := .new actions
  settled h := ⟨h.sound, h.mem, h.balanced, nofun⟩
  selected h := h.selected
  record h hg _ h₀ h₁ := h.record hg h₀ h₁

end Bucket.Tried

/-! ## The number of trials -/

/-- Some governor of a bucket got its share of the credits. -/
lemma Bucket.Replays.exists_share {C : List (String × ExtNum ℝ)} {b : Bucket (ExtNum ℝ)}
    (h : b.Replays C) (hC : C ≠ []) {actions : Finset String} (hmem : b.actions.keys ⊆ actions) :
    ∃ g, min ((C.length : ℝ) / actions.card) (2 ^ 32 - 1) ≤ b.visits g := by
  have hlength : 0 < C.length := List.length_pos_of_ne_nil hC
  have hsum := sum_count_credits C
  rw [← h.keys] at hsum
  have hkeys : b.actions.keys.Nonempty := by
    rw [Finset.nonempty_iff_ne_empty]
    intro hempty
    rw [hempty, Finset.sum_empty] at hsum
    omega
  have hcard : 0 < (actions.card : ℝ) := by
    exact_mod_cast Finset.card_pos.mpr (hkeys.mono hmem)
  have hshare : ∑ _g ∈ b.actions.keys, (C.length : ℝ) / actions.card ≤
      ∑ g ∈ b.actions.keys, ((rewardsOf g C).length : ℝ) := by
    have htotal : ∑ g ∈ b.actions.keys, ((rewardsOf g C).length : ℝ) = C.length := by
      rw [← hsum]
      push_cast [rewardsOf, List.length_map]
      rfl
    have hle : (b.actions.keys.card : ℝ) ≤ actions.card := by
      exact_mod_cast Finset.card_le_card hmem
    rw [htotal, Finset.sum_const, nsmul_eq_mul, mul_div_assoc', div_le_iff₀ hcard, mul_comm]
    exact mul_le_mul_of_nonneg_left hle (Nat.cast_nonneg _)
  obtain ⟨g, hg, hle⟩ := Finset.exists_le_of_sum_le hkeys hshare
  obtain ⟨s, hs⟩ := Finmap.mem_iff.mp (Finmap.mem_keys.mp hg)
  refine ⟨g, ?_⟩
  rw [Bucket.visits_of_lookup hs, h.visits g s hs, Nat.cast_min]
  refine le_min ((min_le_left _ _).trans hle) ((min_le_right _ _).trans ?_)
  norm_num

section Runs

variable (serde : Serde (ExtNum ℝ)) {cs : List (Cycle (ExtNum ℝ))}

/-- **The number of trials.** Along every run of cycles that starts without a memory file, with
rewards in the unit interval and any priors, windows and evictions: a bucket that got `n` credits
since it was created, for a list of `k` actions, has visited every action of the list at least
`0.24 ln (n / k) - 1` times, as long as visits can be counted.

**Proof sketch.** Some governor got its share `n / k` of the credits.  When the last of them was
chosen, its bound was the greatest, so that the bonus of every other action was at most one more;
that leaves no action further behind than the logarithm. -/
theorem trials_ge_log (path : MemoryPath) (actions : List String)
    (hcs : ∀ c ∈ cs, c.RewardInUnit) :
    let M := cycleMachine serde
    let p := M.final (.fresh path actions) cs
    let calls := (M.outputs (.fresh path actions) cs).flatMap Cycled.calls
    ∀ fp b, p.engine.memory.buckets.lookup fp = some b → ∀ a ∈ p.engine.memory.actions,
      let credits := (ledgerFresh serde path actions fp calls).credits
      0.24 * Real.log (min ((credits.length : ℝ) / p.engine.memory.actions.toFinset.card)
        (2 ^ 32 - 1)) ≤ b.visits a + 1 := by
  intro M p calls fp b hb a ha credits
  obtain ⟨hactions, hbuckets⟩ := BucketRule.run serde path actions (Bucket.Tried.rule _) hcs
  have htried := hbuckets fp b hb
  rw [← hactions] at htried
  by_cases hnone : credits = []
  · rw [hnone, List.length_nil, Nat.cast_zero, zero_div, min_eq_left (by norm_num), Real.log_zero,
      mul_zero]
    positivity
  · have hreplays := cycleMachine_replays serde path actions hcs hb
    obtain ⟨g, hg⟩ := hreplays.exists_share hnone (htried.sound.keys_subset htried.mem)
    have hpos : 0 < min ((credits.length : ℝ) / p.engine.memory.actions.toFinset.card)
        (2 ^ 32 - 1) := by
      have hcard := Finset.card_pos.mpr ⟨a, List.mem_toFinset.mpr ha⟩
      have hlength := List.length_pos_of_ne_nil hnone
      exact lt_min (by positivity) (by norm_num)
    have hlog := Real.log_le_log hpos hg
    have htrials := (htried.balanced a ha g).log_le
    linarith

/-! ## One window -/

/-- A cycle on the window of the pending credit adds this credit to the ledger. -/
lemma Policy.length_credits_cycle {p : Policy (ExtNum ℝ)} (hinv : p.Inv) {prev : PendingCredit}
    (hp : p.engine.pending = some prev) {c : Cycle (ExtNum ℝ)}
    (hc : c.fingerprint = prev.fingerprint) (l : Ledger (ExtNum ℝ)) :
    (ledger serde prev.fingerprint p.stored l (p.cycle serde c).2.calls).credits.length =
      l.credits.length + 1 := by
  have hmem : prev.fingerprint ∈ p.stored.memory.buckets := hinv.resident prev hp
  have hafter : prev.fingerprint ∈ (p.stored.step serde (.update c.env.updateOrder c.env.io
      prev.fingerprint prev.governor (c.reward prev.governor))).1.memory.buckets := by
    rw [(Stored.step_update serde p.stored _ _ _ _ _).1]
    exact mem_of_lookup_eq_some (EpisodeMemory.lookup_credit ..)
  rw [Policy.cycle_calls, Policy.due_eq hinv, hp, hc]
  simp only [List.cons_append, List.nil_append, ledger, Ledger.record, Ledger.carried, if_true,
    if_pos hmem, if_pos hafter, List.length_append, List.length_singleton]

/-- A run of cycles on one window credits it in every cycle but the first. -/
lemma length_credits_of_one_window (path : MemoryPath) (actions : List String) {fp : UInt64}
    (hfp : ∀ c ∈ cs, c.fingerprint = fp) :
    (ledgerFresh serde path actions fp (((cycleMachine serde).outputs (.fresh path actions)
      cs).flatMap Cycled.calls)).credits.length = cs.length - 1 := by
  induction cs using List.reverseRecOn with
  | nil => rfl
  | append_singleton cs c ih =>
    have hc : c.fingerprint = fp := hfp c (by simp)
    have hcs : ∀ c ∈ cs, c.fingerprint = fp := fun c h => hfp c (by simp [h])
    have hbefore := cycleMachine_stored serde (.fresh path actions) cs
    rw [Machine.outputs_concat, List.flatMap_append, List.flatMap_singleton, ledgerFresh,
      ledger_append, List.length_append, List.length_singleton, Nat.add_sub_cancel]
    change (ledger serde fp ((storeMachine serde).final (Policy.fresh path actions).stored _)
      (ledgerFresh serde path actions fp _)
      (Policy.cycle serde ((cycleMachine serde).final (.fresh path actions) cs) c).2.calls
        ).credits.length = _
    rw [← hbefore]
    rcases List.eq_nil_or_concat' cs with rfl | ⟨cs', prev, rfl⟩
    · -- the first cycle makes no update
      have hcalls : ((Policy.fresh path actions).cycle serde c).2.calls =
        [.select c.env.selectOrder c.fingerprint (c.prior
          (EpisodeMemory.fresh (F := ExtNum ℝ) path actions).actions)] := rfl
      rw [Machine.final_nil, hcalls]
      simp [ledger, Ledger.record, Ledger.carried, ledgerFresh, hc]
    · -- every later one credits the cycle before it
      have hprev : prev.fingerprint = fp := hcs prev (by simp)
      have hlength := ih hcs
      rw [List.length_append, List.length_singleton, Nat.add_sub_cancel] at hlength
      rw [List.length_append, List.length_singleton]
      let q := (cycleMachine serde).final (.fresh path actions) cs'
      have hq : (cycleMachine serde).final (.fresh path actions) (cs' ++ [prev]) =
          (q.cycle serde prev).1 := Machine.final_concat ..
      have hadded := Policy.length_credits_cycle serde (Policy.cycle_inv serde q prev)
        (Policy.cycle_pending serde q prev) (hc.trans hprev.symm)
        (ledgerFresh serde path actions fp
          (((cycleMachine serde).outputs (.fresh path actions) (cs' ++ [prev])).flatMap
            Cycled.calls))
      rw [hlength] at hadded
      rw [hq, ← hadded, hprev]

end Runs

/-- The window of 16385 cycles, in which `powersave` never pays: `0.24 ln 8192 > 2`. -/
theorem trials_ge_log_one_window :
    let c : Cycle (ExtNum ℝ) :=
      ⟨.idle, fun g => if g = "performance" then .num 1 else .num 0, 7, fun _ => "performance"⟩
    let p := (cycleMachine Serde.idle).final (.fresh defaultMemoryPath [])
      (List.replicate 16385 c)
    ∃ b, p.engine.memory.buckets.lookup 7 = some b ∧ 2 ≤ b.visits "performance" ∧
      2 ≤ b.visits "powersave" := by
  intro c p
  have hlength : (List.replicate 16385 c).length = 16385 := List.length_replicate
  have hall : ∀ c' ∈ List.replicate 16385 c, c' = c := fun c' h => List.eq_of_mem_replicate h
  have hp : p = (cycleMachine Serde.idle).final (.fresh defaultMemoryPath [])
    (List.replicate 16385 c) := rfl
  clear_value p
  generalize List.replicate 16385 c = cs at hlength hall hp
  have hunit : c.RewardInUnit := by
    intro g
    by_cases hg : g = "performance"
    · exact ⟨1, if_pos hg, zero_le_one, le_rfl⟩
    · exact ⟨0, if_neg hg, le_rfl, zero_le_one⟩
  have hcs : ∀ c' ∈ cs, c'.RewardInUnit := fun c' h => hall c' h ▸ hunit
  have hwindow : ∀ c' ∈ cs, c'.fingerprint = 7 := fun c' h => by rw [hall c' h]
  obtain ⟨b, hb⟩ : ∃ b, p.engine.memory.buckets.lookup 7 = some b := by
    rcases List.eq_nil_or_concat' cs with rfl | ⟨cs', last, rfl⟩
    · cases hlength
    · rw [hp, Machine.final_concat, ← hwindow last (by simp)]
      exact ⟨_, EpisodeMemory.lookup_touch ..⟩
  have hactions : p.engine.memory.actions = ["performance", "powersave"] := by
    rw [hp]
    exact (BucketRule.run Serde.idle defaultMemoryPath [] (Bucket.Tried.rule _) hcs).1
  have hcard : p.engine.memory.actions.toFinset.card = 2 := by
    rw [hactions]
    rfl
  have hcredits := length_credits_of_one_window Serde.idle defaultMemoryPath [] hwindow
  have htwo : ∀ a ∈ p.engine.memory.actions, 2 ≤ b.visits a := by
    intro a ha
    subst hp
    have htrials := trials_ge_log Serde.idle defaultMemoryPath [] hcs 7 b hb a ha
    dsimp only at htrials
    rw [hcredits, hlength, hcard] at htrials
    have hmin : min (((16385 - 1 : ℕ) : ℝ) / (2 : ℕ)) (2 ^ 32 - 1) = 2 ^ 13 := by norm_num
    have hlog := Real.log_two_gt_d9
    rw [hmin, Real.log_pow] at htrials
    push_cast at htrials
    have hvisits : (1 : ℝ) < b.visits a := by linarith
    exact_mod_cast hvisits
  exact ⟨b, hb, htwo _ (by simp [hactions]), htwo _ (by simp [hactions])⟩

end Foverin
