import Foverin.Actuator
import Foverin.Brain.Policy
import Foverin.Ebpf.Probe

set_option relaxedAutoImplicit false
set_option autoImplicit false

/-!
# The shared state

`AppState` of `foverin/src/state.rs`, which the sensor task changes under a lock and every task
may take snapshots of, and the changes that one round of `sensor_loop` makes to it.

## Main definitions

* `Foverin.AppState`, `Foverin.AppState.snapshot` — the state and what clients see of it.
* `Foverin.SensorRound`, `Foverin.SensorRound.changes` — the changes of one round of the sensor
  loop, each made in one critical section.

## Main results

* `Foverin.parseProcessEvent_record_append` — a record is read as it was written.
-/

namespace Foverin

variable {F : Type}

/-! ## The state -/

/-- `PROCESS_STREAM_CAP`. -/
def processStreamCap : ℕ := 50

/-- `DecisionSnapshot`: the latest decision, for display. -/
structure DecisionSnapshot (F : Type) where
  workload : Workload
  confidence : F
  latencyUs : UInt64

/-- `AppState`. -/
structure AppState (F : Type) where
  /-- The latest process lines, oldest first. -/
  processStream : List String
  lastDecision : Option (DecisionSnapshot F)
  activeGovernor : String
  status : String

/-- `StateSnapshot`: what is sent to clients. -/
structure StateSnapshot (F : Type) where
  processStream : List String
  workload : Option String
  confidence : F
  latencyUs : UInt64
  activeGovernor : String
  status : String
  deriving DecidableEq

namespace AppState

/-- `AppState::new`. -/
def new (activeGovernor : String) : AppState F :=
  ⟨[], none, activeGovernor, "sensors online — watching sched_process_exec"⟩

/-- `AppState::push_process`. -/
def pushProcess (line : String) (s : AppState F) : AppState F :=
  let stream := if processStreamCap ≤ s.processStream.length then s.processStream.tail
    else s.processStream
  { s with processStream := stream ++ [line] }

/-- `AppState::set_decision`. -/
def setDecision (workload : Workload) (confidence : F) (latencyUs : UInt64) (s : AppState F) :
    AppState F := { s with lastDecision := some ⟨workload, confidence, latencyUs⟩ }

/-- `AppState::set_governor`. -/
def setGovernor (governor : String) (s : AppState F) : AppState F :=
  { s with activeGovernor := governor }

/-- The status line is a public field. -/
def setStatus (status : String) (s : AppState F) : AppState F := { s with status := status }

/-- `AppState::snapshot`. -/
def snapshot [FloatOps F] (s : AppState F) : StateSnapshot F :=
  let (workload, confidence, latencyUs) :=
    match s.lastDecision with
    | some d => (some d.workload.asStr, d.confidence, d.latencyUs)
    | none => (none, FloatOps.lit 0, 0)
  { processStream := s.processStream
    workload := workload
    confidence := confidence
    latencyUs := latencyUs
    activeGovernor := s.activeGovernor
    status := s.status }

end AppState

/-! ## Records -/

/-- `parse_process_event`: the first bytes of a record that is long enough, the process number in
little-endian order. -/
def parseProcessEvent (bytes : List UInt8) : Option ProcessEvent :=
  if h : 4 + filenameLen ≤ bytes.length then
    some {
      pid := (bytes.take 4).foldr (fun b n => n * 256 + b.toUInt32) 0
      filename := ⟨((bytes.drop 4).take filenameLen).toArray, by
        simp only [List.size_toArray, List.length_take, List.length_drop]
        omega⟩ }
  else none

/-- Bytes are read as an event exactly if there are enough of them. -/
lemma parseProcessEvent_isSome_iff (bytes : List UInt8) :
    (parseProcessEvent bytes).isSome = true ↔ 4 + filenameLen ≤ bytes.length := by
  unfold parseProcessEvent
  split_ifs with h <;> simp [h]

/-- Four bytes in little-endian order make up the number they are taken from. -/
lemma littleEndian_pid (pid : UInt32) :
    [pid.toUInt8, (pid >>> 8).toUInt8, (pid >>> 16).toUInt8, (pid >>> 24).toUInt8].foldr
      (fun b n => n * 256 + b.toUInt32) 0 = pid := by
  have hlt := pid.toNat_lt
  apply UInt32.toNat_inj.mp
  simp only [List.foldr_cons, List.foldr_nil, UInt32.toNat_add, UInt32.toNat_mul,
    UInt8.toNat_toUInt32, UInt32.toNat_toUInt8, UInt32.toNat_shiftRight,
    Nat.shiftRight_eq_div_pow, UInt32.toNat_ofNat]
  norm_num
  omega

/-- A record is read as it was written, whatever bytes come after it. -/
theorem parseProcessEvent_record_append (e : ProcessEvent) (rest : List UInt8) :
    parseProcessEvent (e.record ++ rest) = some e := by
  obtain ⟨pid, filename⟩ := e
  have hname : filename.toList.length = filenameLen := Vector.length_toList
  have hlength : 4 + filenameLen ≤ (ProcessEvent.record ⟨pid, filename⟩ ++ rest).length := by
    rw [ProcessEvent.record, List.length_append, List.length_append, hname]
    simp only [List.length_cons, List.length_nil]
    omega
  have hdrop : (ProcessEvent.record ⟨pid, filename⟩ ++ rest).drop 4 = filename.toList ++ rest := rfl
  unfold parseProcessEvent
  rw [dif_pos hlength]
  refine congrArg some (congrArg₂ ProcessEvent.mk (littleEndian_pid pid) ?_)
  apply Vector.toList_inj.mp
  show ((ProcessEvent.record ⟨pid, filename⟩ ++ rest).drop 4).take filenameLen = filename.toList
  rw [hdrop, List.take_append_of_le_length hname.ge, List.take_of_length_le hname.le]

/-- A record is read as it was written. -/
lemma parseProcessEvent_record (e : ProcessEvent) : parseProcessEvent e.record = some e := by
  have h := parseProcessEvent_record_append e []
  rwa [List.append_nil] at h

/-- Records are read as they were written. -/
lemma filterMap_parse_records (events : List ProcessEvent) :
    (events.map ProcessEvent.record).filterMap parseProcessEvent = events := by
  rw [List.filterMap_map, Function.comp_def]
  simp only [parseProcessEvent_record, List.filterMap_some]

/-- The line that is displayed for an event: the process number, padded on the right to six
characters, and the name. -/
def processLine (e : ProcessEvent) : String :=
  let pid := toString e.pid
  "pid=" ++ pid ++ String.ofList (List.replicate (6 - pid.length) ' ') ++ " " ++
    filenameStr e.filename.toList

/-! ## Rounds of the sensor loop -/

/-- What a round of `sensor_loop` has to report: the records of a wake-up, or the decision of a
tick with the outcome of its actuation. -/
inductive SensorRound (F : Type) where
  | readable (records : List (List UInt8))
  | tick (decision : PolicyDecision F) (actuated : Except IoError ActuatorReport)

/-- The changes that a round makes to the shared state, one for every critical section. -/
def SensorRound.changes : SensorRound F → List (AppState F → AppState F)
  | .readable records =>
    (records.filterMap parseProcessEvent).map fun e => AppState.pushProcess (processLine e)
  | .tick decision actuated =>
    [fun s => (s.setDecision decision.detectedWorkload decision.confidence
        (UInt64.ofNat decision.inferenceUs)).setStatus decision.reason,
      match actuated with
      | .ok report => AppState.setGovernor report.governor
      | .error err => AppState.setStatus ("actuator failed: " ++ err.text)]

/-- The shared state after some changes. -/
def AppState.apply (s : AppState F) (changes : List (AppState F → AppState F)) : AppState F :=
  changes.foldl (fun s change => change s) s

end Foverin
