import Foverin.Daemon.Ticks
import Mathlib.Data.List.DropRight

set_option relaxedAutoImplicit false
set_option autoImplicit false

/-!
# The sensor loop

`sensor_loop` of `foverin/src/bin/foverin-daemon.rs` as a whole: the loop wakes up for the
shutdown signal, for records in the ring buffer, or for a tick of the timer, in any order, and
returns at the shutdown signal or when the ring buffer reports an error.

## Main definitions

* `Foverin.WakeUp` — what the `select!` of the loop may choose.
* `Foverin.SensorLoop`, `Foverin.SensorLoop.step` — the loop.
* `Foverin.received` — the events of the records that a run has read.

## Main results

* `Foverin.SensorLoop.drain_eq` — a drain makes the changes of a readable round.
* `Foverin.SensorLoop.final_handled` — the run ends with the wake-up that makes the loop return.
* `Foverin.windows_exact` — no event is lost, read twice or moved to another window.
-/

namespace Foverin

variable {F : Type}

/-! ## The loop -/

/-- A branch of the `select!`, with what it is given. -/
inductive WakeUp (F : Type) where
  | shutdown (io : SaveIo F)
  /-- `readable_mut`: an error, or the records that the ring buffer holds. -/
  | readable (ready : Except IoError (List (List UInt8)))
  | tick (env : DecideEnv F) (cpufreq : Cpufreq)

/-- The local variables of `sensor_loop`, with what it works on. -/
structure SensorLoop (F : Type) where
  sensor : Sensor F
  buffer : List ProcessEvent
  /-- What the loop has returned, once it has. -/
  returned : Option (Except IoError Unit)

/-- What the loop did when it woke up. -/
inductive LoopRound (F : Type) where
  | flushed (io : SaveIo F) (result : Except String Unit)
  | failed (err : IoError)
  | drained
  | ticked (batch : List ProcessEvent) (done : Ticked F)
  /-- It had returned before. -/
  | nothing

/-- The line that the loop starts with. -/
def attachedStatus : String := "eBPF attached — aggregating every 5s"

namespace SensorLoop

/-- The loop when it starts, on the state that `main` has set up: the governor that was read, and
the path of the memory file in the status line. -/
def start (policy : Policy F) (governor memoryPath : String) (nodes : CpuNodes) : SensorLoop F :=
  let app := (AppState.new governor).setStatus ("memory policy — " ++ memoryPath)
  { sensor := ⟨policy, app.setStatus attachedStatus, nodes⟩
    buffer := []
    returned := none }

/-- One item of the ring buffer: a record that is too short is skipped. -/
def deliver (s : SensorLoop F) (bytes : List UInt8) : SensorLoop F :=
  match parseProcessEvent bytes with
  | none => s
  | some event =>
    { s with
      sensor := { s.sensor with app := s.sensor.app.pushProcess (processLine event) }
      buffer := s.buffer ++ [event] }

/-- The inner loop over the ring buffer. -/
def drain (s : SensorLoop F) (records : List (List UInt8)) : SensorLoop F :=
  records.foldl deliver s

variable [FloatOps F]

/-- One round of the loop. -/
def step (serde : Serde F) (s : SensorLoop F) (i : WakeUp F) : SensorLoop F × LoopRound F :=
  match s.returned with
  | some _ => (s, .nothing)
  | none =>
    match i with
    | .shutdown io =>
      let (result, policy) := s.sensor.policy.flush serde io
      ({ s with sensor := { s.sensor with policy := policy }, returned := some (.ok ()) },
        .flushed io result)
    | .readable (.error err) => ({ s with returned := some (.error err) }, .failed err)
    | .readable (.ok records) => (s.drain records, .drained)
    | .tick env cpufreq =>
      let (sensor, done) := s.sensor.tick serde ⟨s.buffer, env, cpufreq⟩
      ({ s with sensor := sensor, buffer := [] }, .ticked s.buffer done)

end SensorLoop

/-- Runs of the loop. -/
def sensorLoop [FloatOps F] (serde : Serde F) : Machine (SensorLoop F) (WakeUp F) (LoopRound F) :=
  ⟨SensorLoop.step serde⟩

/-! ## Inputs -/

namespace WakeUp

/-- The loop goes on after this wake-up. -/
def continues : WakeUp F → Bool
  | .shutdown _ => false
  | .readable (.error _) => false
  | .readable (.ok _) => true
  | .tick _ _ => true

def isTick : WakeUp F → Bool
  | .tick _ _ => true
  | _ => false

/-- The events of the records that are read. -/
def events : WakeUp F → List ProcessEvent
  | .readable (.ok records) => records.filterMap parseProcessEvent
  | _ => []

end WakeUp

/-- The wake-ups before the one that makes the loop return. -/
def handled (ins : List (WakeUp F)) : List (WakeUp F) := ins.takeWhile WakeUp.continues

/-- The events that the loop has received. -/
def received (ins : List (WakeUp F)) : List ProcessEvent := (handled ins).flatMap WakeUp.events

/-- The wake-ups since the last tick. -/
def sinceTick (ins : List (WakeUp F)) : List (WakeUp F) :=
  ins.rtakeWhile fun i => !i.isTick

/-- The window of a round of the loop. -/
def LoopRound.batch : LoopRound F → List ProcessEvent
  | .ticked batch _ => batch
  | _ => []

/-- The lines of the last 50 events, oldest first. -/
def lastLines (events : List ProcessEvent) : List String :=
  (events.map processLine).rtake processStreamCap

lemma handled_of_continues {ins : List (WakeUp F)} (h : ∀ i ∈ ins, i.continues = true) :
    handled ins = ins := List.takeWhile_eq_self_iff.mpr h

lemma continues_of_mem_handled (ins : List (WakeUp F)) :
    ∀ i ∈ handled ins, i.continues = true := fun _ hi => List.mem_takeWhile_imp hi

/-- A run either never makes the loop return, or some wake-up does. -/
lemma handled_cases (ins : List (WakeUp F)) :
    handled ins = ins ∨
      ∃ i rest, ins = handled ins ++ i :: rest ∧ i.continues = false := by
  have hsplit := @List.takeWhile_append_dropWhile _ WakeUp.continues ins
  cases hrest : ins.dropWhile WakeUp.continues with
  | nil =>
    rw [hrest, List.append_nil] at hsplit
    exact Or.inl hsplit
  | cons i rest =>
    rw [hrest] at hsplit
    refine Or.inr ⟨i, rest, hsplit.symm, ?_⟩
    have h := List.dropWhile_get_zero_not WakeUp.continues ins (by rw [hrest]; simp)
    simpa [hrest] using h

/-! ## Delivering records -/

/-- The bounded stream keeps the latest lines. -/
lemma pushProcess_rtake {s : AppState F} {lines : List String}
    (h : s.processStream = lines.rtake processStreamCap) (line : String) :
    (s.pushProcess line).processStream = (lines ++ [line]).rtake processStreamCap := by
  have hconcat : (lines ++ [line]).rtake processStreamCap = lines.rtake 49 ++ [line] :=
    List.rtake_concat_succ ..
  have hlength : s.processStream.length = min 50 lines.length := by
    rw [h, List.rtake, List.length_drop, processStreamCap]
    omega
  rw [hconcat]
  unfold AppState.pushProcess
  dsimp only
  congr 1
  split_ifs with hcap
  · rw [processStreamCap] at hcap
    rw [h, List.rtake, List.rtake, List.tail_drop, processStreamCap]
    congr 1
    omega
  · rw [processStreamCap] at hcap
    rw [h, List.rtake, List.rtake, processStreamCap]
    congr 1
    omega

namespace SensorLoop

/-- A drain makes the changes of a readable round, and keeps the events for the next window. -/
theorem drain_eq (s : SensorLoop F) (records : List (List UInt8)) :
    s.drain records =
      { s with
        sensor := { s.sensor with
          app := s.sensor.app.apply (SensorRound.readable records : SensorRound F).changes }
        buffer := s.buffer ++ records.filterMap parseProcessEvent } := by
  unfold drain
  induction records generalizing s with
  | nil => simp [SensorRound.changes, AppState.apply]
  | cons bytes records ih =>
    rw [List.foldl_cons, ih]
    unfold deliver
    cases hparse : parseProcessEvent bytes with
    | none => simp [SensorRound.changes, hparse]
    | some event => simp [SensorRound.changes, AppState.apply, hparse]

/-- A drain shows the latest lines. -/
lemma drain_stream {s : SensorLoop F} {events : List ProcessEvent}
    (h : s.sensor.app.processStream = lastLines events) (records : List (List UInt8)) :
    (s.drain records).sensor.app.processStream =
      lastLines (events ++ records.filterMap parseProcessEvent) := by
  unfold drain
  induction records generalizing s events with
  | nil => simpa using h
  | cons bytes records ih =>
    rw [List.foldl_cons]
    cases hparse : parseProcessEvent bytes with
    | none =>
      have hdeliver : s.deliver bytes = s := by
        simp only [deliver, hparse]
      rw [hdeliver, List.filterMap_cons_none hparse]
      exact ih h
    | some event =>
      have hstream : (s.deliver bytes).sensor.app.processStream =
          lastLines (events ++ [event]) := by
        simp only [deliver, hparse]
        rw [pushProcess_rtake h, lastLines, List.map_append, List.map_singleton]
      rw [List.filterMap_cons_some hparse, ih hstream, List.append_assoc, List.singleton_append]

end SensorLoop

/-! ## Rounds and runs -/

section Runs

variable [FloatOps F] (serde : Serde F)

namespace SensorLoop

/-- Once it has returned the loop does nothing any more. -/
lemma final_returned {s : SensorLoop F} (h : s.returned ≠ none) (ins : List (WakeUp F)) :
    (sensorLoop serde).final s ins = s ∧
      ∀ o ∈ (sensorLoop serde).outputs s ins, o = .nothing := by
  have hstep : ∀ i, (sensorLoop serde).step s i = (s, .nothing) := by
    intro i
    obtain ⟨r, hr⟩ := Option.ne_none_iff_exists'.mp h
    show step serde s i = _
    simp only [step, hr]
  induction ins with
  | nil => exact ⟨rfl, nofun⟩
  | cons i ins ih =>
    rw [Machine.final_cons, Machine.outputs_cons, hstep]
    refine ⟨ih.1, ?_⟩
    rw [List.forall_mem_cons]
    exact ⟨rfl, ih.2⟩

/-- A wake-up that makes the loop return leaves the shared state and the buffer alone. -/
lemma step_returns {s : SensorLoop F} (h : s.returned = none) {i : WakeUp F}
    (hi : i.continues = false) :
    (s.step serde i).1.returned ≠ none ∧ (s.step serde i).1.buffer = s.buffer ∧
      (s.step serde i).1.sensor.app = s.sensor.app ∧
      (s.step serde i).1.sensor.nodes = s.sensor.nodes ∧
      ∀ batch done, (s.step serde i).2 ≠ .ticked batch done := by
  cases i with
  | shutdown io => simp [step, h]
  | tick env cpufreq => cases hi
  | readable ready =>
    cases ready with
    | error err => simp [step, h]
    | ok records => cases hi

lemma step_readable {s : SensorLoop F} (h : s.returned = none) (records : List (List UInt8)) :
    s.step serde (.readable (.ok records)) = (s.drain records, .drained) := by
  simp only [step, h]

lemma step_tick {s : SensorLoop F} (h : s.returned = none) (env : DecideEnv F)
    (cpufreq : Cpufreq) :
    s.step serde (.tick env cpufreq) =
      ({ s with sensor := (s.sensor.tick serde ⟨s.buffer, env, cpufreq⟩).1, buffer := [] },
        .ticked s.buffer (s.sensor.tick serde ⟨s.buffer, env, cpufreq⟩).2) := by
  simp only [step, h]

lemma step_returned {s : SensorLoop F} {r : Except IoError Unit} (h : s.returned = some r)
    (i : WakeUp F) : s.step serde i = (s, .nothing) := by
  simp only [step, h]

lemma step_shutdown {s : SensorLoop F} (h : s.returned = none) (io : SaveIo F) :
    s.step serde (.shutdown io) =
      ({ s with
          sensor := { s.sensor with policy := (s.sensor.policy.flush serde io).2 }
          returned := some (.ok ()) },
        .flushed io (s.sensor.policy.flush serde io).1) := by
  simp only [step, h]

lemma step_failed {s : SensorLoop F} (h : s.returned = none) (err : IoError) :
    s.step serde (.readable (.error err)) =
      ({ s with returned := some (.error err) }, .failed err) := by
  simp only [step, h]

omit [FloatOps F] in
/-- No change of a tick shows a line. -/
lemma apply_tick_stream (app : AppState F) (decision : PolicyDecision F)
    (actuated : Except IoError ActuatorReport) (n : ℕ) :
    (app.apply ((SensorRound.tick decision actuated).changes.take n)).processStream =
      app.processStream := by
  match n with
  | 0 => rfl
  | 1 => rfl
  | n + 2 =>
    simp only [SensorRound.changes, List.take_succ_cons, List.take_nil]
    cases actuated <;> rfl

end SensorLoop

/-- What holds after wake-ups that the loop handles: the buffer has the events since the last tick,
and the latest lines are shown. -/
structure Handles (s : SensorLoop F) (ins : List (WakeUp F)) : Prop where
  running : s.returned = none
  buffer : s.buffer = (sinceTick ins).flatMap WakeUp.events
  stream : s.sensor.app.processStream = lastLines (ins.flatMap WakeUp.events)

/-- One more wake-up that the loop handles. -/
lemma Handles.step {s : SensorLoop F} {ins : List (WakeUp F)} (h : Handles s ins) {i : WakeUp F}
    (hi : i.continues = true) : Handles (s.step serde i).1 (ins ++ [i]) := by
  cases i with
  | shutdown io => cases hi
  | tick env cpufreq =>
    rw [SensorLoop.step_tick serde h.running]
    refine ⟨h.running, ?_, ?_⟩
    · rw [sinceTick, List.rtakeWhile_concat_neg _ _ _ (by simp [WakeUp.isTick])]
      rfl
    · have hevents : (WakeUp.tick env cpufreq : WakeUp F).events = [] := rfl
      rw [List.flatMap_append, List.flatMap_singleton, hevents, List.append_nil, ← h.stream]
      exact SensorLoop.apply_tick_stream s.sensor.app _ _ 2
  | readable ready =>
    cases ready with
    | error err => cases hi
    | ok records =>
      rw [SensorLoop.step_readable serde h.running]
      refine ⟨?_, ?_, ?_⟩
      · rw [SensorLoop.drain_eq]
        exact h.running
      · rw [SensorLoop.drain_eq, sinceTick, List.rtakeWhile_concat_pos _ _ _ (by rfl),
          List.flatMap_append, List.flatMap_singleton, WakeUp.events, ← sinceTick, ← h.buffer]
      · rw [List.flatMap_append, List.flatMap_singleton, WakeUp.events]
        exact SensorLoop.drain_stream h.stream records

variable (policy : Policy F) (governor memoryPath : String) (nodes : CpuNodes)

omit [FloatOps F] in
lemma Handles.start : Handles (.start policy governor memoryPath nodes) ([] : List (WakeUp F)) :=
  ⟨rfl, rfl, rfl⟩

/-- A run of wake-ups that the loop handles. -/
lemma Handles.run {ins : List (WakeUp F)} (h : ∀ i ∈ ins, i.continues = true) :
    Handles ((sensorLoop serde).final (.start policy governor memoryPath nodes) ins) ins := by
  induction ins using List.reverseRecOn with
  | nil => exact Handles.start ..
  | append_singleton ins i ih =>
    rw [Machine.final_concat]
    exact (ih fun j hj => h j (by simp [hj])).step serde (h i (by simp))

/-- **The end of a run** is where the loop returns: nothing that comes later is received, decided
or shown.

**Proof sketch.** Either the loop handles all wake-ups or there is a first one at which it returns;
from then on every round is empty. -/
theorem SensorLoop.final_handled (ins : List (WakeUp F)) :
    let M := sensorLoop serde
    let s := M.final (.start policy governor memoryPath nodes) (handled ins)
    let s' := M.final (.start policy governor memoryPath nodes) ins
    s'.buffer = s.buffer ∧ s'.sensor.app = s.sensor.app ∧ s'.sensor.nodes = s.sensor.nodes ∧
      ∃ rest, M.outputs (.start policy governor memoryPath nodes) ins =
          M.outputs (.start policy governor memoryPath nodes) (handled ins) ++ rest ∧
        ∀ o ∈ rest, ∀ batch done, o ≠ .ticked batch done := by
  intro M s s'
  rcases handled_cases ins with hall | ⟨i, rest, hsplit, hi⟩
  · have hs : s' = s := congrArg (M.final _) hall.symm
    rw [hs]
    refine ⟨rfl, rfl, rfl, [], ?_, nofun⟩
    rw [hall, List.append_nil]
  · have hrun := Handles.run serde policy governor memoryPath nodes
      (continues_of_mem_handled ins)
    obtain ⟨hreturned, hbuffer, happ, hnodes, hticked⟩ :=
      SensorLoop.step_returns serde hrun.running hi
    obtain ⟨hfinal, hnothing⟩ := SensorLoop.final_returned serde hreturned rest
    have hs : s' = (M.step s i).1 := by
      show M.final _ ins = _
      rw [hsplit, Machine.final_append, Machine.final_cons]
      exact hfinal
    have houts : M.outputs (.start policy governor memoryPath nodes) ins =
        M.outputs (.start policy governor memoryPath nodes) (handled ins) ++
          (M.step s i).2 :: M.outputs (M.step s i).1 rest := by
      conv_lhs => rw [hsplit, Machine.outputs_append, Machine.outputs_cons]
    rw [hs]
    refine ⟨hbuffer, happ, hnodes, _, houts, ?_⟩
    rw [List.forall_mem_cons]
    refine ⟨hticked, fun o ho => ?_⟩
    rw [hnothing o ho]
    exact nofun

omit [FloatOps F] in
lemma LoopRound.batch_of_not_ticked {o : LoopRound F} (h : ∀ batch done, o ≠ .ticked batch done) :
    o.batch = [] := by
  cases o with
  | ticked batch done => exact absurd rfl (h batch done)
  | _ => rfl

/-- One round hands on what it was given and what it has read. -/
lemma SensorLoop.step_batch {s : SensorLoop F} (hrunning : s.returned = none) {i : WakeUp F}
    (hi : i.continues = true) :
    (s.step serde i).2.batch ++ (s.step serde i).1.buffer = s.buffer ++ i.events := by
  cases i with
  | shutdown io => cases hi
  | tick env cpufreq =>
    rw [step_tick serde hrunning]
    rfl
  | readable ready =>
    cases ready with
    | error err => cases hi
    | ok records =>
      rw [step_readable serde hrunning, drain_eq]
      rfl

/-- The windows of a run of wake-ups that the loop handles, with the buffer after them. -/
lemma batches_append_buffer {ins : List (WakeUp F)} (h : ∀ i ∈ ins, i.continues = true) :
    ((sensorLoop serde).outputs (.start policy governor memoryPath nodes) ins).flatMap
        LoopRound.batch ++
      ((sensorLoop serde).final (.start policy governor memoryPath nodes) ins).buffer =
        ins.flatMap WakeUp.events := by
  induction ins using List.reverseRecOn with
  | nil => rfl
  | append_singleton ins i ih =>
    have hins : ∀ j ∈ ins, j.continues = true := fun j hj => h j (by simp [hj])
    have hrunning := (Handles.run serde policy governor memoryPath nodes hins).running
    have hstep := SensorLoop.step_batch serde hrunning (h i (by simp))
    rw [Machine.outputs_concat, Machine.final_concat, List.flatMap_append, List.flatMap_append,
      List.flatMap_singleton, List.flatMap_singleton, ← ih hins, List.append_assoc,
      List.append_assoc]
    exact congrArg _ hstep

omit [FloatOps F] in
/-- Before the end of a run its wake-ups are those that were handled. -/
lemma take_handled {ins : List (WakeUp F)} {k : ℕ} {i : WakeUp F}
    (hk : (handled ins)[k]? = some i) :
    ins[k]? = some i ∧ ∀ j ∈ ins.take k, j.continues = true := by
  obtain ⟨rest, hrest⟩ : handled ins <+: ins := List.takeWhile_prefix _
  have hlt := (List.getElem?_eq_some_iff.mp hk).1
  rw [← hrest]
  constructor
  · rw [List.getElem?_append_left hlt, hk]
  · rw [List.take_append_of_le_length hlt.le]
    exact fun j hj => continues_of_mem_handled ins j (List.mem_of_mem_take hj)

omit [FloatOps F] in
lemma received_of_continues {ins : List (WakeUp F)} (h : ∀ i ∈ ins, i.continues = true) :
    received ins = ins.flatMap WakeUp.events := by
  rw [received, handled_of_continues h]

/-- The window of a tick is what was received since the tick before. -/
lemma window_of_tick {ins : List (WakeUp F)} {k : ℕ} {env : DecideEnv F} {cpufreq : Cpufreq}
    (hk : (handled ins)[k]? = some (.tick env cpufreq)) :
    let M := sensorLoop serde
    let s := M.final (.start policy governor memoryPath nodes) (ins.take k)
    let window := received (sinceTick (ins.take k))
    ∃ done, (M.outputs (.start policy governor memoryPath nodes) ins)[k]? =
        some (.ticked window done) ∧
      done.decided = (s.sensor.policy.decide serde env window).2 := by
  intro M s window
  obtain ⟨hi, htake⟩ := take_handled hk
  have hrun := Handles.run serde policy governor memoryPath nodes htake
  have hwindow : s.buffer = window := by
    have hsince : ∀ i ∈ sinceTick (ins.take k), i.continues = true := fun i hmem =>
      htake i (List.rtakeWhile_suffix _ _ |>.subset hmem)
    show s.buffer = received _
    rw [received_of_continues hsince]
    exact hrun.buffer
  refine ⟨(s.sensor.tick serde ⟨window, env, cpufreq⟩).2, ?_, rfl⟩
  rw [Machine.getElem?_outputs, hi, Option.map_some, ← hwindow]
  exact congrArg (fun r => some r.2) (SensorLoop.step_tick serde hrun.running env cpufreq)

/-- **No event is lost, read twice or moved to another window.** In every run of the loop the
windows that were decided for, followed by the buffer, are the events of the well-formed records
that were received, in order; the window of a tick is what was received since the tick before;
and the process stream shows the lines of the latest 50 events, after every round, after every
record of a wake-up and after every change of a tick.  A record is well formed exactly if it has
the bytes of an event, which are those that the event is read from.

**Proof sketch.** The invariant `Handles` says of a run that has not returned that the buffer is
what was received since the latest tick and that the stream shows the latest lines.  It gives the
window of every tick at the prefix of the run before it; the rounds after the return have no
window. -/
theorem windows_exact (ins : List (WakeUp F)) :
    let M := sensorLoop serde
    let s₀ := SensorLoop.start policy governor memoryPath nodes
    (∀ bytes, (parseProcessEvent bytes).isSome = true ↔ 4 + filenameLen ≤ bytes.length) ∧
    (∀ (e : ProcessEvent) rest, parseProcessEvent (e.record ++ rest) = some e) ∧
    ((M.outputs s₀ ins).flatMap LoopRound.batch ++ (M.final s₀ ins).buffer = received ins) ∧
    (∀ k env cpufreq, (handled ins)[k]? = some (.tick env cpufreq) →
      ∃ done, (M.outputs s₀ ins)[k]? =
          some (.ticked (received (sinceTick (ins.take k))) done) ∧
        done.decided = ((M.final s₀ (ins.take k)).sensor.policy.decide serde env
          (received (sinceTick (ins.take k)))).2 ∧
        ∀ n, ((M.final s₀ (ins.take k)).sensor.app.apply
          ((SensorRound.tick done.decided.decision done.actuated).changes.take n)).processStream =
            lastLines (received (ins.take k))) ∧
    (M.final s₀ ins).sensor.app.processStream = lastLines (received ins) ∧
    ∀ k records, (handled ins)[k]? = some (.readable (.ok records)) → ∀ n,
      ((M.final s₀ (ins.take k)).drain (records.take n)).sensor.app.processStream =
        lastLines (received (ins.take k) ++ (records.take n).filterMap parseProcessEvent) := by
  intro M s₀
  have hcontinues := continues_of_mem_handled ins
  obtain ⟨hbuffer, happ, -, rest, houts, hrest⟩ :=
    SensorLoop.final_handled serde policy governor memoryPath nodes ins
  have hrun := Handles.run serde policy governor memoryPath nodes hcontinues
  refine ⟨parseProcessEvent_isSome_iff, parseProcessEvent_record_append, ?_,
    fun k env cpufreq hk => ?_, ?_, fun k records hk n => ?_⟩
  · have hnone : rest.flatMap LoopRound.batch = [] :=
      List.flatMap_eq_nil_iff.mpr fun o ho => LoopRound.batch_of_not_ticked (hrest o ho)
    rw [houts, hbuffer, List.flatMap_append, hnone, List.append_nil, received]
    exact batches_append_buffer serde policy governor memoryPath nodes hcontinues
  · obtain ⟨done, hout, hdecided⟩ :=
      window_of_tick serde policy governor memoryPath nodes hk
    refine ⟨done, hout, hdecided, fun n => ?_⟩
    obtain ⟨-, htake⟩ := take_handled hk
    rw [SensorLoop.apply_tick_stream, received_of_continues htake]
    exact (Handles.run serde policy governor memoryPath nodes htake).stream
  · rw [happ, hrun.stream, received]
  · obtain ⟨-, htake⟩ := take_handled hk
    rw [received_of_continues htake]
    exact SensorLoop.drain_stream
      (Handles.run serde policy governor memoryPath nodes htake).stream _

end Runs

/-! ## Two windows of a compiler -/

/-- The wake-ups of one window. -/
def windowWakeUps (w : List (List UInt8) × DecideEnv F × Cpufreq) : List (WakeUp F) :=
  [.readable (.ok w.1), .tick w.2.1 w.2.2]

/-- Two windows with records of `rustc` and `cargo`, on a busy machine. -/
def compileWindows : List (List (List UInt8) × DecideEnv (ExtNum ℝ) × Cpufreq) :=
  let records := (windowOf 3).map ProcessEvent.record
  [(records, .busy 1000, oneCpu none), (records, .busy 1100, oneCpu none)]

end Foverin
