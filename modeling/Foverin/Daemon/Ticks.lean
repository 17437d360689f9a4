import Foverin.Brain.Credit
import Foverin.Daemon.State

set_option relaxedAutoImplicit false
set_option autoImplicit false

/-!
# Ticks of the sensor loop

The tick branch of `sensor_loop`: decide for the window that has just ended, then try to put the
selected governor in force.  The pending credit is left by `decide`, before the actuation is
attempted, and no branch of the loop takes it back when the actuation fails: the next tick
credits the selected governor in any case.

## Main definitions

* `Foverin.Sensor`, `Foverin.Sensor.tick` — the tick branch.
* `Foverin.tickMachine` — runs of ticks.
* `Foverin.OnlyInForce` — every credited governor was put in force by the tick before.

## Main results

* `Foverin.onlyInForce_iff` — exactly if every tick but the last puts its governor in force.
* `Foverin.credit_after_failed_actuation` — a credit for a governor that was never in force.
-/

namespace Foverin

open Finmap

variable {F : Type}

/-! ## The tick branch -/

/-- The state of `sensor_loop` at a tick, and the nodes that it writes to. -/
structure Sensor (F : Type) where
  policy : Policy F
  app : AppState F
  nodes : CpuNodes

/-- What one tick is given: the window, and the answers of the system. -/
structure TickInput (F : Type) where
  batch : List ProcessEvent
  env : DecideEnv F
  cpufreq : Cpufreq

/-- What one tick did: its decision with the calls on the store, and the outcome of the
actuation. -/
structure Ticked (F : Type) where
  decided : Decided F
  actuated : Except IoError ActuatorReport

variable [FloatOps F]

/-- The tick branch of `sensor_loop`. -/
def Sensor.tick (serde : Serde F) (s : Sensor F) (i : TickInput F) : Sensor F × Ticked F :=
  let (policy, decided) := s.policy.decide serde i.env i.batch
  let (actuated, nodes) := setScalingGovernor i.cpufreq decided.decision.governor s.nodes
  ({ policy := policy
     app := s.app.apply (SensorRound.tick decided.decision actuated).changes
     nodes := nodes },
    ⟨decided, actuated⟩)

/-- Runs of ticks. -/
def tickMachine (serde : Serde F) : Machine (Sensor F) (TickInput F) (Ticked F) :=
  ⟨Sensor.tick serde⟩

/-! ## Credits along a run -/

/-- Every credit of a run of ticks is for the governor that the tick before put in force. -/
def OnlyInForce (outs : List (Ticked F)) : Prop :=
  ∀ (k : ℕ) (o : Ticked F), outs[k]? = some o →
    ∀ order io fp g r, StoreOp.update order io fp g r ∈ o.decided.calls →
      ∃ j prev report, k = j + 1 ∧ outs[j]? = some prev ∧ prev.actuated = .ok report ∧
        report.governor = g

section Runs

variable (serde : Serde F) {s : Sensor F} {ins : List (TickInput F)} {k : ℕ}

/-- A run of ticks decides as a run of `decide` on the same windows. -/
lemma tickMachine_decided (s : Sensor F) (ins : List (TickInput F)) :
    ((tickMachine serde).outputs s ins).map Ticked.decided =
      (policyMachine serde).outputs s.policy (ins.map fun i => (i.env, i.batch)) := by
  induction ins generalizing s with
  | nil => rfl
  | cons i ins ih =>
    rw [Machine.outputs_cons, List.map_cons, List.map_cons, Machine.outputs_cons, ih]
    rfl

lemma policyMachine_output {o : Ticked F}
    (ho : ((tickMachine serde).outputs s ins)[k]? = some o) :
    ((policyMachine serde).outputs s.policy (ins.map fun i => (i.env, i.batch)))[k]? =
      some o.decided := by
  rw [← tickMachine_decided, List.getElem?_map, ho]
  rfl

/-- The first tick credits nothing. -/
lemma tick_calls_zero (h : s.policy.Inv) (hpending : s.policy.engine.pending = none)
    {i : TickInput F} {o : Ticked F} (hi : ins[0]? = some i)
    (ho : ((tickMachine serde).outputs s ins)[0]? = some o) :
    ∀ order io fp g r, StoreOp.update order io fp g r ∉ o.decided.calls := by
  have hinput : (ins.map fun i => (i.env, i.batch))[0]? = some (i.env, i.batch) := by
    rw [List.getElem?_map, hi]
    rfl
  obtain ⟨prior, hcalls⟩ := calls_zero serde h hpending hinput (policyMachine_output serde ho)
  intro order io fp g r hmem
  rw [hcalls] at hmem
  simp at hmem

/-- Every later tick credits what the tick before it selected, and nothing else. -/
lemma tick_calls_succ (h : s.policy.Inv) {i : TickInput F} {o prev : Ticked F}
    (hi : ins[k + 1]? = some i) (hprev : ((tickMachine serde).outputs s ins)[k]? = some prev)
    (ho : ((tickMachine serde).outputs s ins)[k + 1]? = some o) :
    (∃ order io fp r, StoreOp.update order io fp prev.decided.decision.governor r ∈
        o.decided.calls) ∧
      ∀ order io fp g r, StoreOp.update order io fp g r ∈ o.decided.calls →
        g = prev.decided.decision.governor := by
  have hinput : (ins.map fun i => (i.env, i.batch))[k + 1]? = some (i.env, i.batch) := by
    rw [List.getElem?_map, hi]
    rfl
  obtain ⟨prior, hcalls⟩ := calls_succ serde h hinput (policyMachine_output serde hprev)
    (policyMachine_output serde ho)
  rw [hcalls]
  constructor
  · exact ⟨_, _, _, _, List.mem_cons_self⟩
  · intro order io fp g r hmem
    simp only [List.mem_cons, StoreOp.update.injEq, List.not_mem_nil, or_false,
      reduceCtorEq] at hmem
    exact hmem.2.2.2.1

/-- The actuation of a tick is for the governor that it selected, and it succeeds exactly if some
node accepts it. -/
lemma tick_actuated {i : TickInput F} {o : Ticked F} (hi : ins[k]? = some i)
    (ho : ((tickMachine serde).outputs s ins)[k]? = some o) :
    (∃ report, o.actuated = .ok report ∧ report.governor = o.decided.decision.governor) ↔
      i.cpufreq.Accepts := by
  rw [Machine.output_eq _ hi ho]
  generalize (tickMachine serde).final s (ins.take k) = s'
  change (∃ report, (setScalingGovernor i.cpufreq
    (s'.policy.decide serde i.env i.batch).2.decision.governor s'.nodes).1 = .ok report ∧
      report.governor = (s'.policy.decide serde i.env i.batch).2.decision.governor) ↔ _
  simp only [setScalingGovernor_eq_ok_iff]
  constructor
  · rintro ⟨report, ⟨haccepts, -⟩, -⟩
    exact haccepts
  · intro haccepts
    exact ⟨_, ⟨haccepts, rfl⟩, rfl⟩

/-- **Credits and actuations.** In a run of ticks of an opened engine only governors that were
put in force are credited exactly if at every tick but the last the listing of the nodes succeeds
and some node accepts the write.

**Proof sketch.** A tick credits the governor of the tick before it and no other, and the first
tick credits none.  That governor was put in force exactly if the listing succeeded and a node
accepted it, so both directions follow by comparing each tick with its successor. -/
theorem onlyInForce_iff {readOk : Bool} {order : IterOrder String (Bucket F)} {disk : Disk}
    {path : MemoryPath} {actions : List String} {e : PolicyEngine F}
    (hopen : PolicyEngine.open serde readOk order disk path actions = .ok e) (app : AppState F)
    (nodes : CpuNodes) (ins : List (TickInput F)) :
    OnlyInForce ((tickMachine serde).outputs ⟨⟨e, disk⟩, app, nodes⟩ ins) ↔
      ∀ k i, ins[k]? = some i → k + 1 < ins.length → i.cpufreq.Accepts := by
  obtain ⟨hinv, hpending⟩ : (⟨e, disk⟩ : Policy F).Inv ∧ e.pending = none :=
    Policy.inv_of_open hopen
  generalize hs : (⟨⟨e, disk⟩, app, nodes⟩ : Sensor F) = s
  have hsinv : s.policy.Inv := by rw [← hs]; exact hinv
  have hspending : s.policy.engine.pending = none := by rw [← hs]; exact hpending
  have hlength := (tickMachine serde).length_outputs s ins
  have hout : ∀ k < ins.length, ∃ i o, ins[k]? = some i ∧
      ((tickMachine serde).outputs s ins)[k]? = some o := fun k hk =>
    ⟨_, _, List.getElem?_eq_getElem hk, List.getElem?_eq_getElem (hlength.symm ▸ hk)⟩
  constructor
  · intro h k i hi hk
    obtain ⟨i', o, hi', ho⟩ := hout (k + 1) hk
    obtain ⟨i₀, prev, hi₀, hprev⟩ := hout k (Nat.lt_of_succ_lt hk)
    obtain rfl : i₀ = i := Option.some.inj (hi₀.symm.trans hi)
    obtain ⟨⟨order, io, fp, r, hmem⟩, -⟩ := tick_calls_succ serde hsinv hi' hprev ho
    obtain ⟨j, prev', report, hj, hprev', hok, hgov⟩ := h (k + 1) o ho order io fp _ r hmem
    obtain rfl : k = j := Nat.succ.inj hj
    obtain rfl : prev = prev' := Option.some.inj (hprev.symm.trans hprev')
    exact (tick_actuated serde hi hprev).mp ⟨report, hok, hgov⟩
  · intro h k o ho order io fp g r hmem
    have hk : k < ins.length := hlength ▸ (List.getElem?_eq_some_iff.mp ho).1
    obtain ⟨i, -, hi, -⟩ := hout k hk
    cases k with
    | zero => exact absurd hmem (tick_calls_zero serde hsinv hspending hi ho order io fp g r)
    | succ k =>
      obtain ⟨i₀, prev, hi₀, hprev⟩ := hout k (Nat.lt_of_succ_lt hk)
      have hg := (tick_calls_succ serde hsinv hi hprev ho).2 order io fp g r hmem
      obtain ⟨report, hok, hgov⟩ := (tick_actuated serde hi₀ hprev).mpr (h k i₀ hi₀ hk)
      exact ⟨k, prev, report, rfl, hprev, hok, hgov.trans hg.symm⟩

end Runs

/-! ## One CPU -/

/-- A machine with one CPU, whose node answers every write with `writeError`. -/
def oneCpu (writeError : Option IoError) : Cpufreq :=
  ⟨.ok [.ok ⟨"cpu0", true⟩], fun _ => writeError⟩

/-- What an unprivileged write is answered. -/
def permissionDenied : IoError := ⟨.other, "Permission denied (os error 13)"⟩

lemma oneCpu_accepts : (oneCpu none).Accepts := by
  have hnames : listedNames [⟨"cpu0", true⟩] = ["cpu0"] := by decide
  refine ⟨[governorPath "cpu0"], ?_, governorPath "cpu0", List.mem_singleton_self _, rfl⟩
  refine ((cpufreqGovernorPaths_listing (oneCpu none).dir).ok_iff _).mpr
    ⟨[⟨"cpu0", true⟩], ["cpu0"], rfl, ?_, List.pairwise_singleton _ _, rfl⟩
  rw [hnames]

lemma oneCpu_not_accepts (err : IoError) : ¬ (oneCpu (some err)).Accepts := by
  rintro ⟨paths, -, path, -, hnone⟩
  cases hnone

/-- Two ticks whose writes are accepted. -/
theorem onlyInForce_two_ticks :
    OnlyInForce ((tickMachine (F := ExtNum ℝ) Serde.idle).outputs
      ⟨.fresh defaultMemoryPath [], .new "powersave", fun _ => "powersave"⟩
      [⟨[], .idle, oneCpu none⟩, ⟨[], .idle, oneCpu none⟩]) := by
  have hopen := policyOpen_none (F := ExtNum ℝ) Serde.idle true (IterOrder.sorted (· ≤ ·))
    defaultMemoryPath []
  refine (onlyInForce_iff Serde.idle hopen _ _ _).mpr fun k i hi _ => ?_
  have hmem := List.mem_of_getElem? hi
  simp only [List.mem_cons, List.not_mem_nil, or_false, or_self] at hmem
  rw [hmem]
  exact oneCpu_accepts

/-- **A governor that was never in force is credited.** The only node is at `performance` and
refuses the write of the first tick; the second tick credits the governor all the same. -/
theorem credit_after_failed_actuation :
    ¬ OnlyInForce ((tickMachine (F := ExtNum ℝ) Serde.idle).outputs
      ⟨.fresh defaultMemoryPath [], .new "performance", fun _ => "performance"⟩
      [⟨[], .idle, oneCpu (some permissionDenied)⟩,
        ⟨[], .idle, oneCpu (some permissionDenied)⟩]) := by
  intro h
  generalize hs : (⟨.fresh defaultMemoryPath [], .new "performance", fun _ => "performance"⟩ :
    Sensor (ExtNum ℝ)) = s at h
  have hinv : s.policy.Inv := by
    rw [← hs]
    exact Policy.inv_fresh defaultMemoryPath []
  have hrefused : [(⟨[], .idle, oneCpu (some permissionDenied)⟩ : TickInput (ExtNum ℝ)),
      ⟨[], .idle, oneCpu (some permissionDenied)⟩][0]? =
        some ⟨[], .idle, oneCpu (some permissionDenied)⟩ := rfl
  have hcredited : [(⟨[], .idle, oneCpu (some permissionDenied)⟩ : TickInput (ExtNum ℝ)),
      ⟨[], .idle, oneCpu (some permissionDenied)⟩][0 + 1]? =
        some ⟨[], .idle, oneCpu (some permissionDenied)⟩ := rfl
  -- the credit of the second tick is for the selection of the first
  obtain ⟨⟨order, io, fp, r, hmem⟩, -⟩ := tick_calls_succ (k := 0) Serde.idle hinv hcredited rfl rfl
  obtain ⟨j, prev, report, hj, hprev, hok, hgov⟩ := h 1 _ rfl order io fp _ r hmem
  obtain rfl : 0 = j := Nat.succ.inj hj
  obtain rfl := Option.some.inj hprev
  exact oneCpu_not_accepts permissionDenied
    ((tick_actuated Serde.idle hrefused rfl).mp ⟨report, hok, hgov⟩)

end Foverin
