import Foverin.Brain.Encoding
import Foverin.Brain.Policy
import Foverin.Memory.Argmax
import Foverin.Memory.Averages
import Foverin.Preference

set_option relaxedAutoImplicit false
set_option autoImplicit false

/-!
# Delayed credit

Every call of `decide` but the first makes exactly one update: it credits what the previous call
selected, with the reward of the window in between.  The bucket of a pending credit is always
resident, so that no credit creates a bucket or evicts one, however full the store is.

## Main definitions

* `Foverin.Policy.Inv` — what holds between two calls.

## Main results

* `Foverin.Policy.cycle_inv` — every call establishes it.
* `Foverin.Policy.credited_keys` — the credit that is due leaves the set of buckets as it is.
* `Foverin.Policy.decide_new` — a window without a bucket gets its prior.
* `Foverin.exists_cycles` — runs of `decide` are runs of cycles.
* `Foverin.delayed_credit_exact` — the calls on the store along a run of `decide`.
-/

namespace Foverin

open Finmap FloatOps

variable {F : Type}

/-- Without a file the engine is new. -/
lemma policyOpen_none (serde : Serde F) (readOk : Bool) (order : IterOrder String (Bucket F))
    (path : MemoryPath) (actions : List String) :
    PolicyEngine.open serde readOk order none path actions =
      .ok (Policy.fresh path actions).engine := rfl

/-- An engine that has been opened has an opened store, and nothing else. -/
lemma policyOpen_eq_ok {serde : Serde F} {readOk : Bool} {order : IterOrder String (Bucket F)}
    {disk : Disk} {path : MemoryPath} {actions : List String} {e : PolicyEngine F}
    (h : PolicyEngine.open serde readOk order disk path actions = .ok e) :
    ∃ m, EpisodeMemory.open serde readOk order disk path actions = .ok m ∧
      e = ⟨m, .new, none, false⟩ := by
  unfold PolicyEngine.open at h
  cases hm : EpisodeMemory.open serde readOk order disk path actions with
  | error err =>
    rw [hm] at h
    cases h
  | ok m =>
    rw [hm] at h
    cases h
    exact ⟨m, rfl, rfl⟩

namespace Policy

/-! ## The invariant -/

/-- A credit is pending once the engine is primed; it is for an action of the list and for a
resident bucket. -/
structure Inv (p : Policy F) : Prop where
  primed : p.engine.pending.isSome = p.engine.primed
  governor : ∀ c ∈ p.engine.pending, c.governor ∈ p.engine.memory.actions
  resident : ∀ c ∈ p.engine.pending, c.fingerprint ∈ p.engine.memory.buckets

lemma inv_fresh (path : MemoryPath) (actions : List String) :
    (Policy.fresh path actions : Policy F).Inv := ⟨rfl, nofun, nofun⟩

/-- An engine that has just been opened has no credit pending. -/
lemma inv_of_open {serde : Serde F} {readOk : Bool} {order : IterOrder String (Bucket F)}
    {disk : Disk} {path : MemoryPath} {actions : List String} {e : PolicyEngine F}
    (h : PolicyEngine.open serde readOk order disk path actions = .ok e) :
    (⟨e, disk⟩ : Policy F).Inv ∧ e.pending = none := by
  obtain ⟨m, -, rfl⟩ := policyOpen_eq_ok h
  exact ⟨⟨rfl, nofun, nofun⟩, rfl⟩

/-! ## The credit that is due -/

/-- The credit that is due between two calls. -/
lemma due_eq {p : Policy F} (h : p.Inv) (c : Cycle F) :
    p.engine.due c =
      match p.engine.pending with
      | some prev => [.update c.env.updateOrder c.env.io prev.fingerprint prev.governor
          (c.reward prev.governor)]
      | none => [] := by
  have hprimed := h.primed
  unfold PolicyEngine.due
  cases hp : p.engine.pending with
  | none => split_ifs <;> rfl
  | some prev =>
    rw [hp] at hprimed
    rw [← hprimed, Option.isSome_some, if_pos rfl]

variable [FloatOps F]

/-- **No bucket comes or goes** when the credit that is due is made. -/
theorem credited_keys (serde : Serde F) {p : Policy F} (h : p.Inv) (c : Cycle F) :
    (p.credited serde c).memory.buckets.keys = p.engine.memory.buckets.keys := by
  rw [credited, due_eq h]
  cases hp : p.engine.pending with
  | none => rfl
  | some prev =>
    rw [Machine.final_cons, Machine.final_nil]
    have hlearned := Stored.step_update serde p.stored c.env.updateOrder c.env.io
      prev.fingerprint prev.governor (c.reward prev.governor)
    exact (congrArg Finmap.keys hlearned.1).trans
      (EpisodeMemory.keys_credit_of_mem _ (h.resident prev hp) _ _)

lemma credited_actions (serde : Serde F) (p : Policy F) (c : Cycle F) :
    (p.credited serde c).memory.actions = p.engine.memory.actions :=
  (storeMachine serde).run_invariant (P := fun w => w.memory.actions = p.engine.memory.actions)
    (A := fun _ => True) rfl (fun w op _ hw => (Stored.step_actions serde w op).trans hw)
    fun _ _ => trivial

/-! ## One call -/

section Cycle

variable (serde : Serde F) (p : Policy F) (c : Cycle F)

lemma cycle_memory : (p.cycle serde c).1.engine.memory =
    (p.credited serde c).memory.touch c.env.selectOrder c.fingerprint := rfl

lemma cycle_selection : (p.cycle serde c).2.selection =
    ((p.credited serde c).memory.select c.env.selectOrder c.fingerprint
      (c.prior (p.credited serde c).memory.actions)).1 := rfl

lemma cycle_pending : (p.cycle serde c).1.engine.pending =
    some ⟨c.fingerprint, (p.cycle serde c).2.selection.governor⟩ := rfl

lemma cycle_calls : (p.cycle serde c).2.calls = p.engine.due c ++
    [.select c.env.selectOrder c.fingerprint (c.prior (p.credited serde c).memory.actions)] := rfl

/-- What holds of the rewards of a cycle holds of those that its calls credit. -/
lemma cycle_calls_rewards {R : F → Prop} (h : ∀ governor, R (c.reward governor)) :
    ∀ op ∈ (p.cycle serde c).2.calls, op.Rewards R := by
  rw [cycle_calls]
  intro op hop
  rcases List.mem_append.mp hop with hop | hop
  · unfold PolicyEngine.due at hop
    split_ifs at hop
    · cases hp : p.engine.pending with
      | none =>
        rw [hp] at hop
        cases hop
      | some prev =>
        rw [hp] at hop
        rw [List.mem_singleton.mp hop]
        exact h prev.governor
    · cases hop
  · rw [List.mem_singleton.mp hop]
    trivial

/-- The calls that a cycle reports are those that the store went through. -/
lemma cycle_stored : (p.cycle serde c).1.stored =
    (storeMachine serde).final p.stored (p.cycle serde c).2.calls := by
  rw [cycle_calls, Machine.final_concat]
  rfl

lemma cycle_actions :
    (p.cycle serde c).1.engine.memory.actions = p.engine.memory.actions := by
  rw [cycle_memory, EpisodeMemory.touch_actions, credited_actions]

/-- **One call** leaves a pending credit for its own selection, on a resident bucket. -/
theorem cycle_inv : (p.cycle serde c).1.Inv where
  primed := rfl
  governor prev hprev := by
    rw [cycle_pending] at hprev
    rw [← Option.some.inj hprev, cycle_selection, cycle_actions, ← credited_actions serde p c]
    exact EpisodeMemory.select_mem ..
  resident prev hprev := by
    rw [cycle_pending] at hprev
    rw [← Option.some.inj hprev, cycle_memory]
    exact mem_of_lookup_eq_some (EpisodeMemory.lookup_touch ..)

end Cycle

/-! ## `decide` as a cycle -/

section Decide

variable (serde : Serde F) (p : Policy F) (env : DecideEnv F) (events : List ProcessEvent)

/-- The policy after the sensors were read. -/
def sampled : Policy F :=
  { p with engine := { p.engine with metrics := (p.engine.metrics.sample env.readings).2 } }

/-- The cycle that `decide` goes through: the rewards of its metrics, the fingerprint of its
window and the prior of its label. -/
def decideCycle : Cycle F where
  env := env
  reward := balancedReward (p.engine.metrics.sample env.readings).1
  fingerprint := fingerprintBits (encodeEvents events)
  prior := resolvePrior env.listedGovernors (softLabel (encodeEvents events))

lemma decide_fst : (p.decide serde env events).1 =
    ((p.sampled env).cycle serde (p.decideCycle env events)).1 := rfl

lemma decide_fingerprint : (p.decide serde env events).2.decision.fingerprint =
    fingerprintBits (encodeEvents events) := rfl

lemma decide_pending : (p.decide serde env events).1.engine.pending =
    some ⟨(p.decide serde env events).2.decision.fingerprint,
      (p.decide serde env events).2.decision.governor⟩ := rfl

lemma decide_inv : (p.decide serde env events).1.Inv := cycle_inv serde _ _

lemma decide_stored : (p.decide serde env events).1.stored =
    (storeMachine serde).final p.stored (p.decide serde env events).2.calls :=
  cycle_stored serde (p.sampled env) (p.decideCycle env events)

/-- The calls of `decide`, given the credit that is pending. -/
lemma decide_calls_eq (h : p.Inv) :
    ∃ prior, (p.decide serde env events).2.calls =
      (match p.engine.pending with
        | some prev => [StoreOp.update env.updateOrder env.io prev.fingerprint prev.governor
            (balancedReward (p.decide serde env events).2.metrics prev.governor)]
        | none => []) ++
      [.select env.selectOrder (fingerprintBits (encodeEvents events)) prior] := by
  have hinv : (p.sampled env).Inv := ⟨h.primed, h.governor, h.resident⟩
  have hcalls := cycle_calls serde (p.sampled env) (p.decideCycle env events)
  rw [due_eq hinv] at hcalls
  exact ⟨_, hcalls⟩

/-- Without a pending credit `decide` selects from the store as it is. -/
lemma decide_of_pending_none (h : p.Inv) (hpending : p.engine.pending = none) :
    let d := (p.decide serde env events).2.decision
    (⟨d.governor, d.confidence⟩ : Selection F) =
      (p.engine.memory.select env.selectOrder (fingerprintBits (encodeEvents events))
        (resolvePrior env.listedGovernors (softLabel (encodeEvents events))
          p.engine.memory.actions)).1 := by
  have hsampled : (p.sampled env).Inv := ⟨h.primed, h.governor, h.resident⟩
  have hdue : (p.sampled env).engine.due (p.decideCycle env events) = [] := by
    rw [due_eq hsampled, show (p.sampled env).engine.pending = none from hpending]
  have hcredited : (p.sampled env).credited serde (p.decideCycle env events) = p.stored := by
    rw [credited, hdue]
    rfl
  have hselection := cycle_selection serde (p.sampled env) (p.decideCycle env events)
  rw [hcredited] at hselection
  exact hselection

lemma decide_governor (h : p.Inv) (hpending : p.engine.pending = none) :
    (p.decide serde env events).2.decision.governor =
      (p.engine.memory.select env.selectOrder (fingerprintBits (encodeEvents events))
        (resolvePrior env.listedGovernors (softLabel (encodeEvents events))
          p.engine.memory.actions)).1.governor :=
  congrArg Selection.governor (decide_of_pending_none serde p env events h hpending)

/-- A call makes one update if a credit is pending, and none otherwise. -/
lemma decide_countP_isUpdate (h : p.Inv) :
    (p.decide serde env events).2.calls.countP StoreOp.isUpdate =
      if p.engine.pending.isSome then 1 else 0 := by
  obtain ⟨prior, hcalls⟩ := decide_calls_eq serde p env events h
  rw [hcalls]
  cases p.engine.pending <;> rfl

/-- No call saves on its own. -/
lemma decide_calls_fingerprint (h : p.Inv) :
    ∀ op ∈ (p.decide serde env events).2.calls, op.fingerprint ≠ none := by
  obtain ⟨prior, hcalls⟩ := decide_calls_eq serde p env events h
  rw [hcalls]
  intro op hop
  rcases List.mem_append.mp hop with hdue | hselect
  · cases hprev : p.engine.pending with
    | none =>
      rw [hprev] at hdue
      cases hdue
    | some prev =>
      rw [hprev, List.mem_singleton] at hdue
      rw [hdue]
      exact nofun
  · rw [List.mem_singleton] at hselect
    rw [hselect]
    exact nofun

end Decide

/-- **A window without a bucket.** The decision is its prior: the credit that is due makes no
bucket. -/
theorem decide_new (serde : Serde (ExtNum ℝ)) {p : Policy (ExtNum ℝ)} (hinv : p.Inv)
    (env : DecideEnv (ExtNum ℝ)) {batch : List ProcessEvent} {prior : String}
    (hnew : fingerprintBits (encodeEvents batch) ∉ p.engine.memory.buckets)
    (hprior : resolvePrior env.listedGovernors (softLabel (encodeEvents batch))
      p.engine.memory.actions = prior) (hmem : prior ∈ p.engine.memory.actions) :
    (p.decide serde env batch).2.decision.governor = prior := by
  let c := p.decideCycle env batch
  let m := ((p.sampled env).credited serde c).memory
  have hactions : m.actions = p.engine.memory.actions :=
    Policy.credited_actions serde (p.sampled env) c
  have hsampled : (p.sampled env).Inv := ⟨hinv.primed, hinv.governor, hinv.resident⟩
  have hkeys : m.buckets.keys = p.engine.memory.buckets.keys :=
    Policy.credited_keys serde hsampled c
  have hnotMem : fingerprintBits (encodeEvents batch) ∉ m.buckets := by
    rwa [← Finmap.mem_keys, hkeys, Finmap.mem_keys]
  have hselected : m.selected (fingerprintBits (encodeEvents batch)) =
      { Bucket.new (m.tick.saturatingAdd 1) with lastUsed := m.tick.saturatingAdd 1 } := by
    rw [EpisodeMemory.selected, entryOrNew_of_notMem hnotMem]
  have hcycle : c.prior m.actions = prior := by
    rw [hactions]
    exact hprior
  show (m.select c.env.selectOrder (fingerprintBits (encodeEvents batch))
    (c.prior m.actions)).1.governor = prior
  rw [EpisodeMemory.select_fst, hselected, hcycle]
  exact Bucket.scan_new _ m.actions_ne (hactions ▸ hmem)

end Policy

/-! ## Runs -/

section Runs

variable [FloatOps F] (serde : Serde F)

/-- The store after a run is the one that the reported calls lead to. -/
lemma policyMachine_stored (p : Policy F) (ins : List (DecideEnv F × List ProcessEvent)) :
    ((policyMachine serde).final p ins).stored = (storeMachine serde).final p.stored
      (((policyMachine serde).outputs p ins).flatMap Decided.calls) := by
  induction ins generalizing p with
  | nil => rfl
  | cons i ins ih =>
    rw [Machine.final_cons, Machine.outputs_cons, List.flatMap_cons, Machine.final_append, ih]
    exact congrArg (fun w => (storeMachine serde).final w _)
      (Policy.decide_stored serde p i.1 i.2)

lemma cycleMachine_stored (p : Policy F) (cs : List (Cycle F)) :
    ((cycleMachine serde).final p cs).stored = (storeMachine serde).final p.stored
      (((cycleMachine serde).outputs p cs).flatMap Cycled.calls) := by
  induction cs generalizing p with
  | nil => rfl
  | cons c cs ih =>
    rw [Machine.final_cons, Machine.outputs_cons, List.flatMap_cons, Machine.final_append, ih]
    exact congrArg (fun w => (storeMachine serde).final w _) (Policy.cycle_stored serde p c)

/-- **`decide` goes in cycles.** Every run of `decide` makes the calls of a run of cycles. -/
theorem exists_cycles (ins : List (DecideEnv F × List ProcessEvent)) {p p₀ : Policy F}
    (hs : p.stored = p₀.stored) (hpending : p.engine.pending = p₀.engine.pending)
    (hprimed : p.engine.primed = p₀.engine.primed) :
    ∃ cs : List (Cycle F),
      ((policyMachine serde).outputs p ins).map Decided.calls =
          ((cycleMachine serde).outputs p₀ cs).map Cycled.calls ∧
        ((policyMachine serde).final p ins).stored =
          ((cycleMachine serde).final p₀ cs).stored := by
  induction ins generalizing p p₀ with
  | nil => exact ⟨[], rfl, hs⟩
  | cons i ins ih =>
    obtain ⟨⟨memory, metrics, pending, primed⟩, disk⟩ := p
    obtain ⟨⟨memory₀, metrics₀, pending₀, primed₀⟩, disk₀⟩ := p₀
    cases hs
    cases hpending
    cases hprimed
    let c := Policy.decideCycle (⟨⟨memory, metrics, pending, primed⟩, disk⟩ : Policy F) i.1 i.2
    obtain ⟨cs, hcalls, hstored⟩ := @ih
      (Policy.decide serde ⟨⟨memory, metrics, pending, primed⟩, disk⟩ i.1 i.2).1
      (Policy.cycle serde ⟨⟨memory, metrics₀, pending, primed⟩, disk⟩ c).1 rfl rfl rfl
    exact ⟨c :: cs, congrArg₂ List.cons rfl hcalls, hstored⟩

/-- Between calls the invariant holds. -/
lemma policyMachine_inv {p : Policy F} (h : p.Inv)
    (ins : List (DecideEnv F × List ProcessEvent)) : ((policyMachine serde).final p ins).Inv :=
  (policyMachine serde).run_invariant (A := fun _ => True) h
    (fun p i _ _ => Policy.decide_inv serde p i.1 i.2) fun _ _ => trivial

/-- One update for every call, except the first call of an engine that is not primed. -/
lemma countP_isUpdate {p : Policy F} (h : p.Inv)
    (ins : List (DecideEnv F × List ProcessEvent)) :
    (((policyMachine serde).outputs p ins).flatMap Decided.calls).countP StoreOp.isUpdate =
      if p.engine.primed then ins.length else ins.length - 1 := by
  induction ins generalizing p with
  | nil => simp
  | cons i ins ih =>
    have hcalls := Policy.decide_countP_isUpdate serde p i.1 i.2 h
    rw [h.primed] at hcalls
    have hrest := ih (Policy.decide_inv serde p i.1 i.2)
    have hprimed : (p.decide serde i.1 i.2).1.engine.primed = true := rfl
    rw [hprimed, if_pos rfl] at hrest
    rw [Machine.outputs_cons, List.flatMap_cons, List.countP_append, List.length_cons]
    change (p.decide serde i.1 i.2).2.calls.countP StoreOp.isUpdate + _ = _
    rw [hcalls]
    change _ + (((policyMachine serde).outputs (p.decide serde i.1 i.2).1 ins).flatMap
      Decided.calls).countP StoreOp.isUpdate = _
    rw [hrest]
    split_ifs <;> omega

/-- What the `k + 1`-st call finds pending is what the `k`-th call returned. -/
lemma pending_after {p : Policy F} {ins : List (DecideEnv F × List ProcessEvent)} {k : ℕ}
    {i : DecideEnv F × List ProcessEvent} {o : Decided F} (hi : ins[k]? = some i)
    (ho : ((policyMachine serde).outputs p ins)[k]? = some o) :
    ((policyMachine serde).final p (ins.take (k + 1))).engine.pending =
      some ⟨o.decision.fingerprint, o.decision.governor⟩ := by
  rw [Machine.final_take_succ _ hi, Machine.output_eq _ hi ho]
  exact Policy.decide_pending serde _ i.1 i.2

/-- The first call only selects. -/
lemma calls_zero {p : Policy F} (h : p.Inv) (hpending : p.engine.pending = none)
    {ins : List (DecideEnv F × List ProcessEvent)} {env : DecideEnv F}
    {events : List ProcessEvent} {o : Decided F} (hi : ins[0]? = some (env, events))
    (ho : ((policyMachine serde).outputs p ins)[0]? = some o) :
    ∃ prior, o.calls = [.select env.selectOrder (fingerprintBits (encodeEvents events)) prior] := by
  obtain ⟨prior, hcalls⟩ := Policy.decide_calls_eq serde p env events h
  rw [hpending] at hcalls
  rw [Machine.output_eq _ hi ho]
  exact ⟨prior, hcalls⟩

/-- Every later call credits what the call before it selected, then selects. -/
lemma calls_succ {p : Policy F} (h : p.Inv) {ins : List (DecideEnv F × List ProcessEvent)}
    {k : ℕ} {env : DecideEnv F} {events : List ProcessEvent} {prev o : Decided F}
    (hi : ins[k + 1]? = some (env, events))
    (hprev : ((policyMachine serde).outputs p ins)[k]? = some prev)
    (ho : ((policyMachine serde).outputs p ins)[k + 1]? = some o) :
    ∃ prior, o.calls = [.update env.updateOrder env.io prev.decision.fingerprint
        prev.decision.governor (balancedReward o.metrics prev.decision.governor),
      .select env.selectOrder (fingerprintBits (encodeEvents events)) prior] := by
  obtain ⟨i, hik⟩ : ∃ i, ins[k]? = some i :=
    ⟨_, List.getElem?_eq_getElem (Nat.lt_of_succ_lt (List.getElem?_eq_some_iff.mp hi).1)⟩
  obtain ⟨prior, hcalls⟩ := Policy.decide_calls_eq serde
    ((policyMachine serde).final p (ins.take (k + 1))) env events (policyMachine_inv serde h _)
  rw [pending_after serde hik hprev] at hcalls
  rw [Machine.output_eq _ hi ho]
  exact ⟨prior, hcalls⟩

/-- What the sampler keeps after some calls: the readings of the last one. -/
def samplerAfter (s : MetricSampler) (ins : List (DecideEnv F × List ProcessEvent)) :
    MetricSampler :=
  ins.foldl (fun s i => (s.sample i.1.readings).2) s

lemma policyMachine_metrics (p : Policy F) (ins : List (DecideEnv F × List ProcessEvent)) :
    ((policyMachine serde).final p ins).engine.metrics = samplerAfter p.engine.metrics ins := by
  induction ins generalizing p with
  | nil => rfl
  | cons i ins ih => exact ih (p.decide serde i.1 i.2).1

/-- Two calls: the second one credits the first, with the reward of what it has sampled. -/
lemma two_calls {p : Policy F} (h : p.Inv) (hpending : p.engine.pending = none)
    (i i' : DecideEnv F × List ProcessEvent) :
    let d := (p.decide serde i.1 i.2).2.decision
    let metrics := ((p.engine.metrics.sample i.1.readings).2.sample i'.1.readings).1
    ∃ prior prior', ((policyMachine serde).outputs p [i, i']).flatMap Decided.calls =
      [.select i.1.selectOrder (fingerprintBits (encodeEvents i.2)) prior,
        .update i'.1.updateOrder i'.1.io d.fingerprint d.governor
          (balancedReward metrics d.governor),
        .select i'.1.selectOrder (fingerprintBits (encodeEvents i'.2)) prior'] := by
  intro d metrics
  obtain ⟨prior, hcalls⟩ := Policy.decide_calls_eq serde p i.1 i.2 h
  obtain ⟨prior', hcalls'⟩ := Policy.decide_calls_eq serde (p.decide serde i.1 i.2).1 i'.1 i'.2
    (Policy.decide_inv serde p i.1 i.2)
  rw [hpending] at hcalls
  rw [Policy.decide_pending] at hcalls'
  refine ⟨prior, prior', ?_⟩
  rw [Machine.outputs_cons, Machine.outputs_cons, Machine.outputs_nil, List.flatMap_cons,
    List.flatMap_singleton]
  exact congrArg₂ (· ++ ·) hcalls hcalls'

/-- **Delayed credit is exact.** Along every run of `decide` on an opened engine: the store goes
through the calls that are reported; those are one update for every call but the first; the
first call selects for its window, and every later call first credits the selection of the call
before it with the reward of the metrics that it has sampled, and then selects for its window.
The metrics of a call are those of its readings, against the readings of the call before it.
Between calls a credit is pending exactly if the engine is primed; it is for an action of the
list and for a resident bucket, and making it leaves the set of buckets as it is.

**Proof sketch.** The invariant of the engine says that a credit is pending exactly if the engine
is primed, for an action of the list and a resident bucket.  Each part is then a fact on one
`decide` at the state that the run has reached, and the number of updates is that of the primed
calls. -/
theorem delayed_credit_exact {readOk : Bool} {order : IterOrder String (Bucket F)} {disk : Disk}
    {path : MemoryPath} {actions : List String} {e : PolicyEngine F}
    (hopen : PolicyEngine.open serde readOk order disk path actions = .ok e)
    (ins : List (DecideEnv F × List ProcessEvent)) :
    let M := policyMachine serde
    let outs : List (Decided F) := M.outputs ⟨e, disk⟩ ins
    let p : Policy F := M.final ⟨e, disk⟩ ins
    p.stored = (storeMachine serde).final ⟨e.memory, disk⟩ (outs.flatMap Decided.calls) ∧
    (outs.flatMap Decided.calls).countP StoreOp.isUpdate = ins.length - 1 ∧
    (∀ env events (o : Decided F), ins[0]? = some (env, events) → outs[0]? = some o → ∃ prior,
      o.calls = [.select env.selectOrder (fingerprintBits (encodeEvents events)) prior]) ∧
    (∀ (k : ℕ) env events (prev o : Decided F), ins[k + 1]? = some (env, events) →
      outs[k]? = some prev → outs[k + 1]? = some o → ∃ prior,
      o.calls = [.update env.updateOrder env.io prev.decision.fingerprint prev.decision.governor
          (balancedReward o.metrics prev.decision.governor),
        .select env.selectOrder (fingerprintBits (encodeEvents events)) prior]) ∧
    (∀ (k : ℕ) env events (o : Decided F), ins[k]? = some (env, events) → outs[k]? = some o →
      o.decision.fingerprint = fingerprintBits (encodeEvents events) ∧
        o.metrics = ((samplerAfter .new (ins.take k)).sample env.readings).1) ∧
    p.Inv ∧
    ∀ c, (p.credited serde c).memory.buckets.keys = p.engine.memory.buckets.keys := by
  intro M outs p
  obtain ⟨hinv, hpending⟩ := Policy.inv_of_open hopen
  have hprimed : e.primed = false := by
    have h := hinv.primed
    change e.pending.isSome = e.primed at h
    rw [← h, hpending]
    rfl
  have hp : p.Inv := policyMachine_inv serde hinv ins
  refine ⟨policyMachine_stored serde _ ins, ?_, fun env events o hi ho => ?_,
    fun k env events prev o hi hprev ho => ?_, fun k env events o hi ho => ?_, hp,
    fun c => Policy.credited_keys serde hp c⟩
  · have h := countP_isUpdate serde hinv ins
    rwa [show (⟨e, disk⟩ : Policy F).engine.primed = false from hprimed] at h
  · exact calls_zero serde hinv hpending hi ho
  · exact calls_succ serde hinv hi hprev ho
  · rw [M.output_eq hi ho]
    refine ⟨Policy.decide_fingerprint serde _ env events, ?_⟩
    have hmetrics := policyMachine_metrics serde ⟨e, disk⟩ (ins.take k)
    obtain ⟨m, -, rfl⟩ := policyOpen_eq_ok hopen
    exact congrArg (fun sampler => (sampler.sample env.readings).1) hmetrics

end Runs

/-! ## A busy machine -/

/-- What is read on a machine that was idle for 100 units since boot. -/
def busyReadings (total : UInt64) : SensorReadings F := ⟨some ⟨100, total⟩, none, none⟩

/-- The answers of this machine, which writes its files. -/
def DecideEnv.busy (total : UInt64) : DecideEnv F :=
  { DecideEnv.idle with readings := busyReadings total }

/-- A window without idle time pays in full for the fastest governor. -/
lemma busy_reward (sampler : MetricSampler) {total total' : UInt64} (h : total < total') :
    balancedReward ((sampler.sample (F := ExtNum ℝ) (busyReadings total)).2.sample
      (busyReadings total')).1 "performance" = (ExtNum.num 1 : ExtNum ℝ) := by
  have hbusy : busyFraction ⟨100, total⟩ ⟨100, total'⟩ = (ExtNum.num 1 : ExtNum ℝ) := by
    have hlt : total.toNat < total'.toNat := UInt64.lt_iff_toNat_lt.mp h
    have hne : ((total'.toNat - total.toNat : ℕ) : ℝ) ≠ 0 := by
      rw [Nat.cast_ne_zero]
      omega
    have hshare : (lit 1 - ExtNum.num 0 : ExtNum ℝ) = ExtNum.num 1 := by simp
    unfold busyFraction
    dsimp only
    rw [if_neg (by omega), Nat.sub_self, ExtNum.ofNat_eq, ExtNum.ofNat_eq, ExtNum.num_div hne,
      Nat.cast_zero, zero_div, hshare, ExtNum.clamp_unit zero_le_one le_rfl]
  have hmetrics : ((sampler.sample (F := ExtNum ℝ) (busyReadings total)).2.sample
      (busyReadings total')).1 = (⟨.num 1, .num 0, .num (-1)⟩ : WindowMetrics (ExtNum ℝ)) := by
    have hzero : (lit 0 : ExtNum ℝ) = .num 0 := by simp
    have hminus : (lit (-1) : ExtNum ℝ) = .num (-1) := by simp
    rw [← hbusy, ← hzero, ← hminus]
    rfl
  have hscore : govPerfScore "performance" = (ExtNum.num 1 : ExtNum ℝ) := by simp [govPerfScore]
  rw [hmetrics, balancedReward_num hscore ⟨le_rfl, zero_le_one⟩ (Or.inr rfl) (Or.inr (Or.inr rfl))
    ⟨zero_le_one, le_rfl⟩]
  norm_num [rewardAt, penalty_perf]

/-- Two calls on an engine without a file make one update. -/
theorem delayed_credit_two_calls :
    (((policyMachine (F := ExtNum ℝ) Serde.idle).outputs
      (.fresh defaultMemoryPath []) [(.idle, []), (.idle, [])]).flatMap Decided.calls).countP
      StoreOp.isUpdate = 1 := by
  have hopen := policyOpen_none (F := ExtNum ℝ) Serde.idle true (IterOrder.sorted (· ≤ ·))
    defaultMemoryPath []
  exact (delayed_credit_exact Serde.idle hopen [(.idle, []), (.idle, [])]).2.1

end Foverin
