import Foverin.Brain.Credit

set_option relaxedAutoImplicit false
set_option autoImplicit false

/-!
# Buckets along runs

What a cycle does to a bucket falls into two halves: a selection stamps a bucket, new or resident,
and leaves a credit due on it; the next cycle makes this credit.  A property of single buckets that
both halves keep holds of every bucket along every run, whatever is evicted.

## Main definitions

* `Foverin.BucketRule` — a property of buckets that the halves of a cycle keep.
* `Foverin.Policy.EveryBucket` — it holds of every bucket, with the pending credit due.

## Main results

* `Foverin.BucketRule.cycle`, `Foverin.BucketRule.run` — such a property along every run.
* `Foverin.cycleMachine_replays` — every bucket replays its credits.
-/

namespace Foverin

open Finmap FloatOps ExtNum

/-! ## Credits that are due -/

/-- The governor whose credit is due on a fingerprint. -/
def Policy.dueOn {F : Type} (p : Policy F) (fp : UInt64) : Option String :=
  p.engine.pending.bind fun c => if c.fingerprint = fp then some c.governor else none

/-- The rewards of a cycle lie in the unit interval. -/
def Cycle.RewardInUnit (c : Cycle (ExtNum ℝ)) : Prop :=
  ∀ g, ∃ x : ℝ, c.reward g = .num x ∧ 0 ≤ x ∧ x ≤ 1

/-- The calls of a cycle credit rewards in the unit interval. -/
lemma Policy.cycle_calls_inUnit (serde : Serde (ExtNum ℝ)) {p : Policy (ExtNum ℝ)}
    {c : Cycle (ExtNum ℝ)} (hc : c.RewardInUnit) :
    ∀ op ∈ (p.cycle serde c).2.calls, op.RewardInUnit := by
  intro op hop
  have hrewards : op.Rewards InUnit := cycle_calls_rewards (R := InUnit) serde p c hc op hop
  cases op with
  | update order io fp g r => exact hrewards
  | select order fp prior => trivial
  | save io => trivial

/-! ## Properties of buckets -/

/-- A property of the buckets of a store with these actions, with the governor whose credit is due,
holds of a new bucket and is kept by both halves of a cycle. -/
structure BucketRule (actions : List String)
    (P : Option String → Bucket (ExtNum ℝ) → Prop) : Prop where
  new : ∀ tick, P none (.new tick)
  settled : ∀ {due b}, P due b → P none b
  selected : ∀ {b}, P none b → ∀ (t : UInt64) (prior : String) (hne : actions ≠ []),
    P (some (Bucket.scan { b with lastUsed := t } prior actions hne).bestGov)
      { b with lastUsed := t }
  record : ∀ {b g}, P (some g) b → g ∈ actions → ∀ {x : ℝ}, 0 ≤ x → x ≤ 1 → ∀ tick,
    P none (b.record tick g (.num x))

/-- Every bucket has the property, with the pending credit due. -/
def Policy.EveryBucket (P : Option String → Bucket (ExtNum ℝ) → Prop)
    (p : Policy (ExtNum ℝ)) : Prop :=
  ∀ fp b, p.engine.memory.buckets.lookup fp = some b → P (p.dueOn fp) b

namespace BucketRule

variable {P : Option String → Bucket (ExtNum ℝ) → Prop} (serde : Serde (ExtNum ℝ))

section Cycle

variable {p : Policy (ExtNum ℝ)} {c : Cycle (ExtNum ℝ)}

/-- The credit that is due is made: no other one is. -/
lemma credited (rule : BucketRule p.engine.memory.actions P) (hinv : p.Inv)
    (h : p.EveryBucket P) (hc : c.RewardInUnit) {fp : UInt64} {b : Bucket (ExtNum ℝ)}
    (hb : (p.credited serde c).memory.buckets.lookup fp = some b) : P none b := by
  rw [Policy.credited, Policy.due_eq hinv] at hb
  cases hp : p.engine.pending with
  | none =>
    rw [hp] at hb
    exact rule.settled (h fp b hb)
  | some prev =>
    rw [hp, Machine.final_cons, Machine.final_nil] at hb
    change (p.stored.step serde (.update c.env.updateOrder c.env.io prev.fingerprint
      prev.governor (c.reward prev.governor))).1.memory.buckets.lookup fp = some b at hb
    rcases Stored.lookup_step serde hb with ⟨-, hsame⟩ | ⟨_, _, hop, -⟩ | ⟨_, _, g, r, hop, rfl⟩
    · exact rule.settled (h fp b hsame)
    · cases hop
    · cases hop
      obtain ⟨x, hx, h₀, h₁⟩ := hc prev.governor
      obtain ⟨b₀, hb₀⟩ := Finmap.mem_iff.mp (hinv.resident prev hp)
      have hdue : p.dueOn prev.fingerprint = some prev.governor := by
        rw [Policy.dueOn, hp, Option.bind_some, if_pos rfl]
      have hbefore := h prev.fingerprint b₀ hb₀
      rw [hdue] at hbefore
      rw [show entryOrNew prev.fingerprint p.stored.memory.tick p.stored.memory.buckets = b₀ from
        entryOrNew_of_lookup hb₀, hx, clamp_unit h₀ h₁]
      exact rule.record hbefore (hinv.governor prev hp) h₀ h₁ _

/-- **One cycle** keeps the property of every bucket.

**Proof sketch.** The call first makes the credit that is due and then selects.  On the fingerprint
of the call the selection stamps the bucket that the credit left, or a new one.  Every other bucket
is as the credit left it, unless it was evicted, and nothing is due on it any more. -/
theorem cycle (rule : BucketRule p.engine.memory.actions P) (hinv : p.Inv)
    (h : p.EveryBucket P) (hc : c.RewardInUnit) : (p.cycle serde c).1.EveryBucket P := by
  intro fp b hb
  rw [Policy.cycle_memory] at hb
  by_cases hfp : c.fingerprint = fp
  · subst hfp
    have hdue : (p.cycle serde c).1.dueOn c.fingerprint =
        some (p.cycle serde c).2.selection.governor := by
      rw [Policy.dueOn, Policy.cycle_pending, Option.bind_some, if_pos rfl]
    have hentry : P none (entryOrNew c.fingerprint
        ((p.credited serde c).memory.tick.saturatingAdd 1) (p.credited serde c).memory.buckets) :=
      entryOrNew_induction (rule.new _) fun b hb => rule.credited serde hinv h hc hb
    rw [EpisodeMemory.lookup_touch] at hb
    rw [← Policy.credited_actions serde p c] at rule
    rw [hdue, Policy.cycle_selection, EpisodeMemory.select_fst, ← Option.some.inj hb]
    exact rule.selected hentry _ _ (p.credited serde c).memory.actions_ne
  · have hdue : (p.cycle serde c).1.dueOn fp = none := by
      rw [Policy.dueOn, Policy.cycle_pending, Option.bind_some, if_neg hfp]
    rw [hdue]
    rcases EpisodeMemory.lookup_touch_of_ne c.env.selectOrder (Ne.symm hfp)
      (p.credited serde c).memory with hnone | hsame
    · rw [hnone] at hb
      cases hb
    · rw [hsame] at hb
      exact rule.credited serde hinv h hc hb

end Cycle

/-- **Runs.** Along every run that starts without a memory file every bucket has the property. -/
theorem run (path : MemoryPath) (actions : List String) {cs : List (Cycle (ExtNum ℝ))}
    (rule : BucketRule (Policy.fresh (F := ExtNum ℝ) path actions).engine.memory.actions P)
    (hcs : ∀ c ∈ cs, c.RewardInUnit) :
    let p := (cycleMachine serde).final (.fresh path actions) cs
    p.engine.memory.actions = (Policy.fresh (F := ExtNum ℝ) path actions).engine.memory.actions ∧
      p.EveryBucket P := by
  intro p
  have hempty : (Policy.fresh path actions).EveryBucket P := by
    intro fp b hb
    rw [show (Policy.fresh (F := ExtNum ℝ) path actions).engine.memory.buckets = ∅ from rfl,
      lookup_empty] at hb
    cases hb
  have hrun := (cycleMachine serde).run_invariant (P := fun p => p.Inv ∧
      p.engine.memory.actions = (Policy.fresh (F := ExtNum ℝ) path actions).engine.memory.actions ∧
      p.EveryBucket P) ⟨Policy.inv_fresh path actions, rfl, hempty⟩
    (fun p c hc hp => ⟨Policy.cycle_inv serde p c, (Policy.cycle_actions serde p c).trans hp.2.1,
      BucketRule.cycle serde (hp.2.1.symm ▸ rule) hp.1 hp.2.2 hc⟩) hcs
  exact hrun.2

end BucketRule

/-! ## Credits -/

section Runs

variable (serde : Serde (ExtNum ℝ)) {cs : List (Cycle (ExtNum ℝ))}

lemma cycleMachine_calls_inUnit (p : Policy (ExtNum ℝ)) (hcs : ∀ c ∈ cs, c.RewardInUnit) :
    ∀ op ∈ ((cycleMachine serde).outputs p cs).flatMap Cycled.calls, op.RewardInUnit := by
  induction cs generalizing p with
  | nil => simp
  | cons c cs ih =>
    rw [List.forall_mem_cons] at hcs
    rw [Machine.outputs_cons, List.flatMap_cons]
    intro op hop
    rcases List.mem_append.mp hop with hop | hop
    · exact Policy.cycle_calls_inUnit serde hcs.1 op hop
    · exact ih _ hcs.2 op hop

/-- Along every run that starts without a memory file a bucket replays the credits of its ledger. -/
theorem cycleMachine_replays (path : MemoryPath) (actions : List String)
    (hcs : ∀ c ∈ cs, c.RewardInUnit) {fp : UInt64} {b : Bucket (ExtNum ℝ)}
    (hb : ((cycleMachine serde).final (.fresh path actions) cs).engine.memory.buckets.lookup fp =
      some b) :
    b.Replays (ledgerFresh serde path actions fp
      (((cycleMachine serde).outputs (.fresh path actions) cs).flatMap Cycled.calls)).credits := by
  have hstored := cycleMachine_stored serde (.fresh path actions) cs
  refine (ledgerFresh_describes serde path actions fp
    (cycleMachine_calls_inUnit serde (.fresh path actions) hcs) b ?_).1
  change ((cycleMachine serde).final (.fresh path actions) cs).stored.memory.buckets.lookup
    fp = some b at hb
  rw [hstored] at hb
  exact hb

end Runs

/-! ## Visited governors -/

namespace Bucket

variable {b : Bucket (ExtNum ℝ)} {actions : List String}

/-- The governors with statistics are those visited. -/
lemma Sound.keys_subset (h : b.Sound) (hmem : ∀ g, b.visits g ≠ 0 → g ∈ actions) :
    b.actions.keys ⊆ actions.toFinset := by
  intro g hg
  obtain ⟨s, hs⟩ := Finmap.mem_iff.mp (Finmap.mem_keys.mp hg)
  refine List.mem_toFinset.mpr (hmem g ?_)
  rw [visits_of_lookup hs]
  exact fun hzero => h.visited g s hs (UInt32.toNat_inj.mp hzero)

/-- A credit visits no other governor. -/
lemma mem_of_visits_record {g : String} (hmem : ∀ g, b.visits g ≠ 0 → g ∈ actions)
    (hg : g ∈ actions) (tick : UInt64) (r : ExtNum ℝ) :
    ∀ g', (b.record tick g r).visits g' ≠ 0 → g' ∈ actions := by
  intro g' hg'
  rw [visits_record] at hg'
  split_ifs at hg' with heq
  · rw [heq]
    exact hg
  · exact hmem g' hg'

end Bucket

end Foverin
