import Foverin.Brain.Buckets

set_option relaxedAutoImplicit false
set_option autoImplicit false

/-!
# Exploration

Over the reals no available governor is starved by the priors of untried actions: while an
action of the list is unseen in a bucket, no action of that bucket is visited more than five
times, whatever the rewards in the unit interval and the priors are.

## Main definitions

* `Foverin.Bucket.Explored` — what holds of a bucket with a credit due or not.

## Main results

* `Foverin.Bucket.Explored.rule` — the two halves of a cycle keep it.
* `Foverin.no_governor_starved` — the bound along every run, and when all actions are visited.
-/

namespace Foverin

open Finmap FloatOps ExtNum

/-! ## One bucket -/

/-- What holds of a bucket when the credit of the governor in `due` has not been made yet. -/
structure Bucket.Explored (actions : List String) (due : Option String)
    (b : Bucket (ExtNum ℝ)) : Prop where
  sound : b.Sound
  mem : ∀ g, b.visits g ≠ 0 → g ∈ actions
  /-- While an action is unseen, no governor has more than five visits. -/
  le_five : ∀ a ∈ actions, b.visits a = 0 → ∀ g, b.visits g ≤ 5
  /-- And there is room for the credit that is due. -/
  room : ∀ g ∈ due, ∀ a ∈ actions, b.visits a = 0 → b.visits g < 5

namespace Bucket.Explored

variable {actions : List String} {due : Option String} {b : Bucket (ExtNum ℝ)}

lemma new (actions : List String) (due : Option String) (tick : UInt64) :
    (Bucket.new tick : Bucket (ExtNum ℝ)).Explored actions due := by
  have hvisits : ∀ g, (Bucket.new tick : Bucket (ExtNum ℝ)).visits g = 0 := fun g =>
    Bucket.visits_of_notMem (lookup_empty g)
  refine ⟨.new tick, fun g hg => absurd (hvisits g) hg, fun a _ _ g => ?_, fun g _ a _ _ => ?_⟩
  · rw [hvisits]
    omega
  · rw [hvisits]
    omega

/-- Without a credit that is due. -/
lemma settled (h : b.Explored actions due) : b.Explored actions none :=
  ⟨h.sound, h.mem, h.le_five, nofun⟩

/-- **Selection.** There is room for a credit of the selected governor. -/
theorem selected (h : b.Explored actions due) (t : UInt64) (prior : String)
    (hne : actions ≠ []) :
    Bucket.Explored actions (some (Bucket.scan { b with lastUsed := t } prior actions hne).bestGov)
      { b with lastUsed := t } := by
  have hsound := h.sound.withLastUsed t
  refine ⟨hsound, h.mem, h.le_five, fun g hg a ha hunseen => ?_⟩
  rw [← Option.some.inj hg]
  exact Bucket.visits_lt_five_of_unseen hsound hne ha hunseen

/-- **Credit.** The credit that is due takes no governor past five visits while an action is
unseen. -/
theorem record {g : String} (h : b.Explored actions (some g)) (hg : g ∈ actions) {x : ℝ}
    (h₀ : 0 ≤ x) (h₁ : x ≤ 1) (tick : UInt64) :
    (b.record tick g (.num x)).Explored actions none where
  sound := h.sound.record tick g h₀ h₁
  mem := Bucket.mem_of_visits_record h.mem hg tick _
  le_five a ha hunseen g' := by
    rw [Bucket.visits_record] at hunseen ⊢
    have hne : a ≠ g := by
      intro heq
      rw [if_pos heq] at hunseen
      omega
    rw [if_neg hne] at hunseen
    split_ifs with heq
    · have := h.room g rfl a ha hunseen
      omega
    · exact h.le_five a ha hunseen g'
  room := nofun

/-- **No action is starved** by either half of a cycle. -/
theorem rule (actions : List String) : BucketRule actions (Bucket.Explored actions) where
  new := .new actions none
  settled := settled
  selected h := h.selected
  record h hg _ h₀ h₁ := h.record hg h₀ h₁

end Bucket.Explored

/-! ## Runs -/

section Runs

variable (serde : Serde (ExtNum ℝ)) {cs : List (Cycle (ExtNum ℝ))}

/-- A bucket without more than five visits of any governor replays at most five credits for
every governor that was visited. -/
lemma Bucket.Replays.length_le {C : List (String × ExtNum ℝ)} {b : Bucket (ExtNum ℝ)}
    (h : b.Replays C) (hfive : ∀ g, b.visits g ≤ 5) : C.length ≤ 5 * b.actions.keys.card := by
  rw [← sum_count_credits, ← h.keys, mul_comm, ← smul_eq_mul]
  refine Finset.sum_le_card_nsmul _ _ 5 fun g hg => ?_
  obtain ⟨s, hs⟩ := Finmap.mem_iff.mp (Finmap.mem_keys.mp hg)
  have hvisits := h.visits g s hs
  rw [rewardsOf, List.length_map] at hvisits
  have := hfive g
  rw [Bucket.visits_of_lookup hs] at this
  omega

/-- **No governor is starved.** Along every run of cycles that starts without a memory file,
with rewards in the unit interval: while an action of the list is unseen in a resident bucket,
no governor has more than five visits there; and a bucket that received more than five credits
for every action but one has seen all of them.

**Proof sketch.** Every bucket is `Explored` along the run: a governor is selected a sixth time
only if no action is unseen.  While one is unseen, the credits are spread over the other actions
with at most five for each, which bounds their number. -/
theorem no_governor_starved (path : MemoryPath) (actions : List String)
    (hcs : ∀ c ∈ cs, c.RewardInUnit) :
    let M := cycleMachine serde
    let p := M.final (.fresh path actions) cs
    let calls := (M.outputs (.fresh path actions) cs).flatMap Cycled.calls
    ∀ fp b, p.engine.memory.buckets.lookup fp = some b →
      (∀ a ∈ p.engine.memory.actions, b.visits a = 0 → ∀ g, b.visits g ≤ 5) ∧
      (5 * (p.engine.memory.actions.toFinset.card - 1) <
          (ledgerFresh serde path actions fp calls).credits.length →
        ∀ a ∈ p.engine.memory.actions, b.visits a ≠ 0) := by
  intro M p calls fp b hb
  obtain ⟨hactions, hbuckets⟩ := BucketRule.run serde path actions (Bucket.Explored.rule _) hcs
  have hexplored := hbuckets fp b hb
  rw [← hactions] at hexplored
  refine ⟨hexplored.le_five, fun hmany a ha hunseen => ?_⟩
  have hlength := (cycleMachine_replays serde path actions hcs hb).length_le
    (hexplored.le_five a ha hunseen)
  -- the governors with statistics are actions other than the unseen one
  have hkeys : b.actions.keys ⊆ p.engine.memory.actions.toFinset.erase a := by
    refine Finset.subset_erase.mpr ⟨hexplored.sound.keys_subset hexplored.mem, fun hmem => ?_⟩
    obtain ⟨s, hs⟩ := Finmap.mem_iff.mp (Finmap.mem_keys.mp hmem)
    rw [Bucket.visits_of_lookup hs] at hunseen
    exact hexplored.sound.visited a s hs (UInt32.toNat_inj.mp hunseen)
  have hcard := Finset.card_le_card hkeys
  rw [Finset.card_erase_of_mem (List.mem_toFinset.mpr ha)] at hcard
  have : 5 * (p.engine.memory.actions.toFinset.card - 1) < 5 * b.actions.keys.card :=
    lt_of_lt_of_le hmany hlength
  omega

end Runs

/-- Two cycles on one window: the credit of the first leaves the other action unseen. -/
theorem no_governor_starved_two_cycles :
    let c : Cycle (ExtNum ℝ) := ⟨.idle, fun _ => .num 1, 7, fun _ => "performance"⟩
    let p := (cycleMachine Serde.idle).final (.fresh defaultMemoryPath []) [c, c]
    ∃ b, p.engine.memory.buckets.lookup 7 = some b ∧
      (b.visits "powersave" = 0 → b.visits "performance" ≤ 5) := by
  intro c p
  have hc : c.RewardInUnit := fun g => ⟨1, rfl, zero_le_one, le_rfl⟩
  have hcs : ∀ c' ∈ [c, c], c'.RewardInUnit := by
    simp only [List.mem_cons, List.not_mem_nil, or_false, or_self, forall_eq, hc]
  have hb := EpisodeMemory.lookup_touch byFingerprint 7
    (((cycleMachine Serde.idle).final (.fresh defaultMemoryPath []) [c]).credited
      Serde.idle c).memory
  have hmem : "powersave" ∈ p.engine.memory.actions := by
    have hactions : p.engine.memory.actions = ["performance", "powersave"] :=
      (Policy.cycle_actions Serde.idle _ c).trans (Policy.cycle_actions Serde.idle _ c)
    rw [hactions]
    exact List.mem_cons_of_mem _ (List.mem_singleton.mpr rfl)
  have h := no_governor_starved Serde.idle defaultMemoryPath [] hcs 7 _ hb
  exact ⟨_, hb, fun hunseen => h.1 "powersave" hmem hunseen "performance"⟩

end Foverin
