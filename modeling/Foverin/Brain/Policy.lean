import Foverin.Brain.Fingerprint
import Foverin.Memory.Persist
import Foverin.Reward

set_option relaxedAutoImplicit false
set_option autoImplicit false

/-!
# The policy engine

`PolicyEngine` of `foverin/src/brain.rs`: every call of `decide` credits the governor that the
previous call selected with the reward of the window that has just ended, and selects one for
the next window.

`Policy.cycle` is `decide` without its sensors and its encoder: it takes the rewards, the
fingerprint and the prior as they come.  Every call reports the store calls that it makes.

## Main definitions

* `Foverin.PolicyEngine`, `Foverin.Policy` — the engine, and the engine with its file.
* `Foverin.Policy.cycle`, `Foverin.Policy.decide` — one call.
* `Foverin.cycleMachine`, `Foverin.policyMachine` — runs of calls.
-/

namespace Foverin

open Finmap

variable {F : Type}

/-! ## The engine -/

/-- `PendingCredit`: the selection that the next call credits. -/
structure PendingCredit where
  fingerprint : UInt64
  governor : String
  deriving DecidableEq

/-- `PolicyEngine`: episodic memory and delayed reward credit. -/
structure PolicyEngine (F : Type) where
  memory : EpisodeMemory F
  metrics : MetricSampler
  pending : Option PendingCredit
  primed : Bool

/-- `PolicyEngine::open` on the given actions and path. -/
def PolicyEngine.open (serde : Serde F) (readOk : Bool) (order : IterOrder String (Bucket F))
    (disk : Disk) (path : MemoryPath) (actions : List String) : Except String (PolicyEngine F) := do
  let memory ← EpisodeMemory.open serde readOk order disk path actions
  return { memory := memory, metrics := .new, pending := none, primed := false }

/-- The engine together with the file at the store's path. -/
structure Policy (F : Type) where
  engine : PolicyEngine F
  disk : Disk

/-- The policy that `open` starts with where there is no memory file. -/
def Policy.fresh (path : MemoryPath) (actions : List String) : Policy F :=
  ⟨{ memory := .fresh path actions, metrics := .new, pending := none, primed := false }, none⟩

/-- The store of a policy with its file. -/
def Policy.stored (p : Policy F) : Stored F := ⟨p.engine.memory, p.disk⟩

/-- `PolicyEngine::flush`. -/
def Policy.flush (serde : Serde F) (io : SaveIo F) (p : Policy F) : Except String Unit × Policy F :=
  let r := p.engine.memory.save serde io p.disk
  (r.result, ⟨{ p.engine with memory := r.memory }, r.disk⟩)

/-! ## One call -/

/-- The answers of the environment during one call of `decide`. -/
structure DecideEnv (F : Type) where
  readings : SensorReadings F
  /-- The iteration order of an eviction inside `update`. -/
  updateOrder : BucketOrder F
  /-- The answers to the autosave of `update`. -/
  io : SaveIo F
  /-- The iteration order of an eviction inside `select`. -/
  selectOrder : BucketOrder F
  /-- The words of cpu0's list of governors, if it can be read. -/
  listedGovernors : Option (List String)
  /-- The elapsed time. -/
  inferenceUs : ℕ

/-- Answers for runs that read no sensor and write no file. -/
def DecideEnv.idle : DecideEnv F :=
  { readings := ⟨none, none, none⟩
    updateOrder := byFingerprint
    io := SaveIo.idle
    selectOrder := byFingerprint
    listedGovernors := none
    inferenceUs := 0 }

/-- What a call works on: the reward of a governor under the last window, the fingerprint of the
new one, and its prior for a list of actions. -/
structure Cycle (F : Type) where
  env : DecideEnv F
  reward : String → F
  fingerprint : UInt64
  prior : List String → String

/-- `PolicyDecision`. -/
structure PolicyDecision (F : Type) where
  detectedWorkload : Workload
  confidence : F
  reason : String
  inferenceUs : ℕ
  governor : String
  fingerprint : UInt64

/-- What a cycle returns: the selection, and the calls that it made on the store. -/
structure Cycled (F : Type) where
  selection : Selection F
  calls : List (StoreOp F)

/-- What `decide` returns, with the metrics that it sampled and the calls that it made on the
store. -/
structure Decided (F : Type) where
  decision : PolicyDecision F
  metrics : WindowMetrics F
  calls : List (StoreOp F)

/-- The update that is due at the start of a call. -/
def PolicyEngine.due (e : PolicyEngine F) (c : Cycle F) : List (StoreOp F) :=
  if e.primed then
    match e.pending with
    | some prev =>
      [.update c.env.updateOrder c.env.io prev.fingerprint prev.governor (c.reward prev.governor)]
    | none => []
  else []

/-- The reason that `decide` reports. -/
def reasonText (fingerprint : UInt64) (multiHot : List ℚ) (governor : String) : String :=
  let bucket := "memory bucket 0x" ++ String.ofList (Nat.toDigits 16 fingerprint.toNat)
  let active := ((vocab.zip multiHot).filter fun e => 0 < e.2).map Prod.fst
  if active.isEmpty then
    bucket ++ " → " ++ governor ++ " (empty / unrecognized window)"
  else bucket ++ " hits=[" ++ String.intercalate ", " active ++ "] → " ++ governor

variable [FloatOps F]

namespace Policy

/-- The store after the credit that is due. -/
def credited (serde : Serde F) (p : Policy F) (c : Cycle F) : Stored F :=
  (storeMachine serde).final p.stored (p.engine.due c)

/-- Credit the previous selection, then select for the new window. -/
def cycle (serde : Serde F) (p : Policy F) (c : Cycle F) : Policy F × Cycled F :=
  let w := p.credited serde c
  let prior := c.prior w.memory.actions
  let (selection, memory) := w.memory.select c.env.selectOrder c.fingerprint prior
  ({ engine := { p.engine with
      memory := memory
      pending := some ⟨c.fingerprint, selection.governor⟩
      primed := true }
     disk := w.disk },
    ⟨selection, p.engine.due c ++ [.select c.env.selectOrder c.fingerprint prior]⟩)

/-- `PolicyEngine::decide`. -/
def decide (serde : Serde F) (p : Policy F) (env : DecideEnv F) (events : List ProcessEvent) :
    Policy F × Decided F :=
  let (metrics, sampler) := p.engine.metrics.sample env.readings
  let multiHot := encodeEvents events
  let fingerprint := fingerprintBits multiHot
  let workload := softLabel multiHot
  let (p', cycled) := cycle serde { p with engine := { p.engine with metrics := sampler } }
    { env := env
      reward := balancedReward metrics
      fingerprint := fingerprint
      prior := resolvePrior env.listedGovernors workload }
  (p',
    { decision :=
        { detectedWorkload := workload
          confidence := cycled.selection.confidence
          reason := reasonText fingerprint multiHot cycled.selection.governor
          inferenceUs := env.inferenceUs
          governor := cycled.selection.governor
          fingerprint := fingerprint }
      metrics := metrics
      calls := cycled.calls })

end Policy

/-- Cycles with any rewards, fingerprints and priors. -/
def cycleMachine (serde : Serde F) : Machine (Policy F) (Cycle F) (Cycled F) :=
  ⟨Policy.cycle serde⟩

/-- Calls of `decide`. -/
def policyMachine (serde : Serde F) :
    Machine (Policy F) (DecideEnv F × List ProcessEvent) (Decided F) :=
  ⟨fun p i => p.decide serde i.1 i.2⟩

end Foverin
