import Foverin.Daemon.Sensing
import Foverin.Daemon.SensorLoop

set_option relaxedAutoImplicit false
set_option autoImplicit false

/-!
# From the kernel to the policy

The probe and the sensor loop with the ring buffer between them: programs are executed at any time,
the probe appends its records, and the loop takes records from the front whenever it wakes up for
them, all of them or only some.

An event that the probe submits is in the ring buffer, in the loop's buffer or in the window of one
tick, never in two of them and never nowhere, in the order in which the programs were executed.

## Main definitions

* `Foverin.Pipeline`, `Foverin.TraceEvent`, `Foverin.Pipeline.step` — probe, ring buffer and loop.
* `Foverin.submitted` — the events that the probe has submitted.
* `Foverin.Pipeline.Carries` — where they are.

## Main results

* `Foverin.Pipeline.Carries.step` — one step.
* `Foverin.exec_to_window` — every run.
-/

namespace Foverin

open Bitset

variable {F : Type}

/-! ## The pipeline -/

/-- What may happen next. -/
inductive TraceEvent (F : Type) where
  /-- A program is executed and the probe runs. -/
  | exec (k : Kernel)
  /-- The loop wakes up for the ring buffer, and takes so many records or all that there are. -/
  | readable (n : ℕ)
  | fails (err : IoError)
  | shutdown (io : SaveIo F)
  | tick (env : DecideEnv F) (cpufreq : Cpufreq)

/-- The records in the ring buffer, oldest first, and the loop. -/
structure Pipeline (F : Type) where
  ring : List (List UInt8)
  loop : SensorLoop F

/-- The event that the probe submits. -/
def TraceEvent.submitted (offsets : TaskOffsets) : TraceEvent F → List ProcessEvent
  | .exec k => (tryFoverin offsets k).2.toList
  | _ => []

/-- The events that the probe has submitted. -/
def submitted (offsets : TaskOffsets) (ins : List (TraceEvent F)) : List ProcessEvent :=
  ins.flatMap (TraceEvent.submitted offsets)

section Step

variable [FloatOps F]

/-- A wake-up of the loop that leaves these records in the ring buffer. -/
def Pipeline.wake (serde : Serde F) (s : Pipeline F) (ring : List (List UInt8)) (i : WakeUp F) :
    Pipeline F × LoopRound F :=
  (⟨ring, (s.loop.step serde i).1⟩, (s.loop.step serde i).2)

/-- One step. -/
def Pipeline.step (serde : Serde F) (offsets : TaskOffsets) (s : Pipeline F) :
    TraceEvent F → Pipeline F × LoopRound F
  | .exec k =>
    match (tryFoverin offsets k).2 with
    | none => (s, .nothing)
    | some event => ({ s with ring := s.ring ++ [event.record] }, .nothing)
  | .readable n =>
    match s.loop.returned with
    | some _ => (s, .nothing)
    | none => s.wake serde (s.ring.drop n) (.readable (.ok (s.ring.take n)))
  | .fails err => s.wake serde s.ring (.readable (.error err))
  | .shutdown io => s.wake serde s.ring (.shutdown io)
  | .tick env cpufreq => s.wake serde s.ring (.tick env cpufreq)

/-- Runs of the pipeline. -/
def pipeline (serde : Serde F) (offsets : TaskOffsets) :
    Machine (Pipeline F) (TraceEvent F) (LoopRound F) := ⟨Pipeline.step serde offsets⟩

end Step

/-- Where the submitted events are: in windows, in the loop's buffer, or unread. -/
structure Pipeline.Carries (s : Pipeline F) (windows events unread : List ProcessEvent) : Prop where
  conserved : windows ++ s.loop.buffer ++ unread = events
  ring : s.ring = unread.map ProcessEvent.record
  stream : s.loop.sensor.app.processStream = lastLines (windows ++ s.loop.buffer)

/-! ## One step -/

section Cases

variable [FloatOps F] (serde : Serde F) (offsets : TaskOffsets) {s : Pipeline F}

/-- The probe submits nothing. -/
lemma Pipeline.step_exec_none {k : Kernel} (h : (tryFoverin offsets k).2 = none) :
    s.step serde offsets (.exec k) = (s, .nothing) := by
  simp only [step, h]

/-- The probe submits an event. -/
lemma Pipeline.step_exec_some {k : Kernel} {e : ProcessEvent}
    (h : (tryFoverin offsets k).2 = some e) :
    s.step serde offsets (.exec k) = ({ s with ring := s.ring ++ [e.record] }, .nothing) := by
  simp only [step, h]

lemma Pipeline.step_readable_returned {r : Except IoError Unit} (h : s.loop.returned = some r)
    (n : ℕ) : s.step serde offsets (.readable n) = (s, .nothing) := by
  simp only [step, h]

lemma Pipeline.step_readable (h : s.loop.returned = none) (n : ℕ) :
    s.step serde offsets (.readable n) =
      s.wake serde (s.ring.drop n) (.readable (.ok (s.ring.take n))) := by
  simp only [step, h]

/-- A wake-up of a loop that has returned. -/
lemma Pipeline.wake_returned {r : Except IoError Unit} (h : s.loop.returned = some r)
    (i : WakeUp F) : s.wake serde s.ring i = (s, .nothing) := by
  unfold wake
  rw [SensorLoop.step_returned serde h]

end Cases

lemma LoopRound.batch_nothing : (.nothing : LoopRound F).batch = [] := rfl

namespace Pipeline.Carries

variable [FloatOps F] (serde : Serde F) (offsets : TaskOffsets)
  {s : Pipeline F} {windows events unread : List ProcessEvent}

omit [FloatOps F] in
/-- An execution: the event is unread. -/
lemma exec (h : s.Carries windows events unread) (e : ProcessEvent) :
    Carries { s with ring := s.ring ++ [e.record] } windows (events ++ [e]) (unread ++ [e]) where
  conserved := by
    rw [← h.conserved]
    exact (List.append_assoc ..).symm
  ring := by
    rw [h.ring, List.map_append]
    rfl
  stream := h.stream

/-- A drain: what was taken is in the buffer. -/
lemma drain (h : s.Carries windows events unread) (hrunning : s.loop.returned = none) (n : ℕ) :
    (s.wake serde (s.ring.drop n) (.readable (.ok (s.ring.take n)))).1.Carries windows events
      (unread.drop n) := by
  have htaken : (s.ring.take n).filterMap parseProcessEvent = unread.take n := by
    rw [h.ring, ← List.map_take, filterMap_parse_records]
  have hbuffer : (s.loop.drain (s.ring.take n)).buffer = s.loop.buffer ++ unread.take n := by
    rw [SensorLoop.drain_eq, htaken]
  have hstream := SensorLoop.drain_stream h.stream (s.ring.take n)
  rw [htaken, List.append_assoc] at hstream
  unfold Pipeline.wake
  rw [SensorLoop.step_readable serde hrunning]
  refine ⟨?_, ?_, ?_⟩
  · dsimp only
    rw [hbuffer, ← h.conserved]
    simp only [List.append_assoc, List.take_append_drop]
  · dsimp only
    rw [h.ring, List.map_drop]
  · dsimp only
    rw [hbuffer]
    exact hstream

/-- A tick: the buffer becomes a window. -/
lemma tick (h : s.Carries windows events unread) (hrunning : s.loop.returned = none)
    (env : DecideEnv F) (cpufreq : Cpufreq) :
    (s.wake serde s.ring (.tick env cpufreq)).1.Carries
      (windows ++ (s.wake serde s.ring (.tick env cpufreq)).2.batch) events unread := by
  unfold Pipeline.wake
  rw [SensorLoop.step_tick serde hrunning]
  refine ⟨?_, h.ring, ?_⟩
  · show windows ++ s.loop.buffer ++ [] ++ unread = events
    rw [List.append_nil]
    exact h.conserved
  · show _ = lastLines (windows ++ s.loop.buffer ++ [])
    rw [List.append_nil, ← h.stream]
    exact SensorLoop.apply_tick_stream s.loop.sensor.app _ _ 2

/-- A wake-up that makes the loop return, or comes after it has: nothing moves. -/
lemma leave (h : s.Carries windows events unread) {i : WakeUp F} (hi : i.continues = false) :
    (s.wake serde s.ring i).1.Carries (windows ++ (s.wake serde s.ring i).2.batch) events
      unread := by
  cases hreturned : s.loop.returned with
  | some r =>
    rw [Pipeline.wake_returned serde hreturned, LoopRound.batch_nothing, List.append_nil]
    exact h
  | none =>
    obtain ⟨-, hbuffer, happ, -, hticked⟩ := SensorLoop.step_returns serde hreturned hi
    have hbatch : (s.wake serde s.ring i).2.batch = [] := LoopRound.batch_of_not_ticked hticked
    rw [hbatch, List.append_nil]
    refine ⟨?_, h.ring, ?_⟩
    · show windows ++ (s.loop.step serde i).1.buffer ++ unread = events
      rw [hbuffer]
      exact h.conserved
    · show (s.loop.step serde i).1.sensor.app.processStream =
        lastLines (windows ++ (s.loop.step serde i).1.buffer)
      rw [hbuffer, happ]
      exact h.stream

/-- **One step** keeps track of every event.

**Proof sketch.** An execution adds what it submits to the unread events, a wake-up moves the first
`n` of them to the buffer, and a tick moves the buffer to the windows. -/
theorem step (h : s.Carries windows events unread) (i : TraceEvent F) :
    ∃ unread', (s.step serde offsets i).1.Carries
      (windows ++ (s.step serde offsets i).2.batch) (events ++ i.submitted offsets) unread' := by
  cases i with
  | exec k =>
    cases hevent : (tryFoverin offsets k).2 with
    | none =>
      refine ⟨unread, ?_⟩
      rw [Pipeline.step_exec_none serde offsets hevent, TraceEvent.submitted, hevent]
      simpa [LoopRound.batch_nothing] using h
    | some e =>
      refine ⟨unread ++ [e], ?_⟩
      rw [Pipeline.step_exec_some serde offsets hevent, TraceEvent.submitted, hevent,
        LoopRound.batch_nothing, List.append_nil]
      exact h.exec e
  | readable n =>
    show ∃ unread', Pipeline.Carries _ _ (events ++ []) unread'
    rw [List.append_nil]
    cases hreturned : s.loop.returned with
    | some r =>
      refine ⟨unread, ?_⟩
      rw [Pipeline.step_readable_returned serde offsets hreturned, LoopRound.batch_nothing,
        List.append_nil]
      exact h
    | none =>
      refine ⟨unread.drop n, ?_⟩
      have hbatch : (s.wake serde (s.ring.drop n) (.readable (.ok (s.ring.take n)))).2.batch =
          [] := by
        unfold Pipeline.wake
        rw [SensorLoop.step_readable serde hreturned]
        rfl
      rw [Pipeline.step_readable serde offsets hreturned, hbatch, List.append_nil]
      exact h.drain serde hreturned n
  | fails err =>
    show ∃ unread', Pipeline.Carries _ _ (events ++ []) unread'
    rw [List.append_nil]
    exact ⟨unread, h.leave serde rfl⟩
  | shutdown io =>
    show ∃ unread', Pipeline.Carries _ _ (events ++ []) unread'
    rw [List.append_nil]
    exact ⟨unread, h.leave serde rfl⟩
  | tick env cpufreq =>
    show ∃ unread', Pipeline.Carries _ _ (events ++ []) unread'
    rw [List.append_nil]
    refine ⟨unread, ?_⟩
    cases hreturned : s.loop.returned with
    | some r =>
      show (s.wake serde s.ring _).1.Carries (windows ++ (s.wake serde s.ring _).2.batch) _ _
      rw [Pipeline.wake_returned serde hreturned, LoopRound.batch_nothing, List.append_nil]
      exact h
    | none => exact h.tick serde hreturned env cpufreq

end Pipeline.Carries

/-! ## Runs -/

section Runs

variable [FloatOps F] (serde : Serde F) (offsets : TaskOffsets) (policy : Policy F)
  (governor memoryPath : String) (nodes : CpuNodes)

/-- The pipeline when the loop starts. -/
def Pipeline.start : Pipeline F := ⟨[], .start policy governor memoryPath nodes⟩

/-- The windows that the policy has decided for. -/
def windows (ins : List (TraceEvent F)) : List ProcessEvent :=
  ((pipeline serde offsets).outputs (.start policy governor memoryPath nodes) ins).flatMap
    LoopRound.batch

/-- Along a run every event is kept track of. -/
lemma Pipeline.Carries.run (ins : List (TraceEvent F)) :
    ∃ unread, ((pipeline serde offsets).final
      (.start policy governor memoryPath nodes) ins).Carries
        (windows serde offsets policy governor memoryPath nodes ins) (submitted offsets ins)
        unread := by
  induction ins using List.reverseRecOn with
  | nil => exact ⟨[], rfl, rfl, rfl⟩
  | append_singleton ins i ih =>
    obtain ⟨unread, h⟩ := ih
    obtain ⟨unread', h'⟩ := h.step serde offsets i
    refine ⟨unread', ?_⟩
    rw [Machine.final_concat, windows, Machine.outputs_concat, submitted, List.flatMap_append,
      List.flatMap_append, List.flatMap_singleton, List.flatMap_singleton]
    exact h'

/-- Only a tick of a running loop decides: for what is in the buffer. -/
lemma Pipeline.wake_ticked (s : Pipeline F) (ring : List (List UInt8)) (i : WakeUp F)
    {batch : List ProcessEvent} {done : Ticked F}
    (h : (s.wake serde ring i).2 = .ticked batch done) :
    ∃ env cpufreq, i = .tick env cpufreq ∧ s.loop.returned = none ∧ batch = s.loop.buffer ∧
      done = (s.loop.sensor.tick serde ⟨s.loop.buffer, env, cpufreq⟩).2 := by
  unfold wake at h
  cases hreturned : s.loop.returned with
  | some r =>
    rw [SensorLoop.step_returned serde hreturned] at h
    cases h
  | none =>
    cases i with
    | tick env cpufreq =>
      rw [SensorLoop.step_tick serde hreturned] at h
      cases h
      exact ⟨env, cpufreq, rfl, rfl, rfl, rfl⟩
    | shutdown io =>
      rw [SensorLoop.step_shutdown serde hreturned] at h
      cases h
    | readable ready =>
      cases ready with
      | error err =>
        rw [SensorLoop.step_failed serde hreturned] at h
        cases h
      | ok records =>
        rw [SensorLoop.step_readable serde hreturned] at h
        cases h

lemma Pipeline.step_ticked (s : Pipeline F) (i : TraceEvent F) {batch : List ProcessEvent}
    {done : Ticked F} (h : (s.step serde offsets i).2 = .ticked batch done) :
    ∃ env cpufreq, i = .tick env cpufreq ∧ s.loop.returned = none ∧ batch = s.loop.buffer ∧
      done = (s.loop.sensor.tick serde ⟨s.loop.buffer, env, cpufreq⟩).2 := by
  cases i with
  | exec k =>
    cases hevent : (tryFoverin offsets k).2 with
    | none =>
      rw [step_exec_none serde offsets hevent] at h
      cases h
    | some e =>
      rw [step_exec_some serde offsets hevent] at h
      cases h
  | readable n =>
    cases hreturned : s.loop.returned with
    | some r =>
      rw [step_readable_returned serde offsets hreturned] at h
      cases h
    | none =>
      rw [step_readable serde offsets hreturned] at h
      obtain ⟨_, _, hi, -⟩ := s.wake_ticked serde _ _ h
      cases hi
  | fails err =>
    obtain ⟨_, _, hi, -⟩ := s.wake_ticked serde _ _ h
    cases hi
  | shutdown io =>
    obtain ⟨_, _, hi, -⟩ := s.wake_ticked serde _ _ h
    cases hi
  | tick env cpufreq =>
    obtain ⟨env', cpufreq', hi, hdone⟩ := s.wake_ticked serde _ _ h
    cases hi
    exact ⟨env, cpufreq, rfl, hdone⟩

/-- A tick decides for its window. -/
lemma Pipeline.step_decision (s : Pipeline F) (i : TraceEvent F) {batch : List ProcessEvent}
    {done : Ticked F} (h : (s.step serde offsets i).2 = .ticked batch done) :
    done.decided.decision.fingerprint = fingerprint batch := by
  obtain ⟨env, cpufreq, -, -, rfl, rfl⟩ := s.step_ticked serde offsets i h
  rfl

/-- Once the loop has returned nothing happens to it. -/
lemma Pipeline.step_loop_of_returned {s : Pipeline F} {r : Except IoError Unit}
    (h : s.loop.returned = some r) (i : TraceEvent F) :
    (s.step serde offsets i).1.loop = s.loop := by
  have hwake : ∀ i, (s.wake serde s.ring i).1.loop = s.loop := by
    intro i
    rw [wake_returned serde h]
  cases i with
  | exec k =>
    cases hevent : (tryFoverin offsets k).2 with
    | none => rw [step_exec_none serde offsets hevent]
    | some e => rw [step_exec_some serde offsets hevent]
  | readable n => rw [step_readable_returned serde offsets h]
  | fails err => exact hwake _
  | shutdown io => exact hwake _
  | tick env cpufreq => exact hwake _

/-- **From the kernel to the policy.** However executions and wake-ups interleave, and however much
a wake-up takes from the ring buffer: the windows that were decided for, the loop's buffer and the
ring buffer hold the events that the probe has submitted, each once and in the order of the
executions, and the latest lines of those that were taken are shown.  A tick decides for the
fingerprint of its window, whose bits stand for programs that the probe has submitted.  A wake-up
that takes all that there is leaves nothing unread, and once the loop has returned nothing is taken
any more.

**Proof sketch.** The invariant `Carries` says that windows, buffer and unread events are together
what was submitted.  A bit of the fingerprint of a window comes from an event of the window, which
by the invariant was submitted. -/
theorem exec_to_window (ins : List (TraceEvent F)) :
    let M := pipeline serde offsets
    let s₀ := Pipeline.start policy governor memoryPath nodes
    let s := M.final s₀ ins
    let decided := windows serde offsets policy governor memoryPath nodes ins
    (∃ unread, decided ++ s.loop.buffer ++ unread = submitted offsets ins ∧
      s.ring = unread.map ProcessEvent.record) ∧
    s.loop.sensor.app.processStream = lastLines (decided ++ s.loop.buffer) ∧
    (∀ batch done, .ticked batch done ∈ M.outputs s₀ ins →
      done.decided.decision.fingerprint = fingerprint batch ∧
      ∀ i, bit (fingerprint batch) i = true → ∃ e ∈ batch, e ∈ submitted offsets ins ∧
        vocab[i]? = some e.word) ∧
    (s.loop.returned = none → ∀ n, s.ring.length ≤ n →
      let s' := (M.step s (.readable n)).1
      decided ++ s'.loop.buffer = submitted offsets ins ∧ s'.ring = []) ∧
    (s.loop.returned ≠ none → ∀ i, (M.step s i).1.loop = s.loop) := by
  intro M s₀ s decided
  obtain ⟨unread, hcarries⟩ := Pipeline.Carries.run serde offsets policy governor memoryPath nodes
    ins
  refine ⟨⟨unread, hcarries.conserved, hcarries.ring⟩, hcarries.stream, ?_, ?_, ?_⟩
  · intro batch done hmem
    have hdecision := M.run_outputs (s := s₀) (P := fun _ => True) (Q := fun o => ∀ batch done,
      o = .ticked batch done → done.decided.decision.fingerprint = fingerprint batch) trivial
      (fun t i _ => ⟨trivial, fun _ _ h => t.step_decision serde offsets i h⟩) ins
    refine ⟨hdecision _ hmem batch done rfl, fun i hi => ?_⟩
    obtain ⟨e, he, hword⟩ := (bit_fingerprint batch i).mp hi
    have hwindow : e ∈ decided := List.mem_flatMap.mpr ⟨_, hmem, he⟩
    refine ⟨e, he, ?_, hword⟩
    rw [← hcarries.conserved, List.append_assoc]
    exact List.mem_append_left _ hwindow
  · intro hrunning n hn s'
    have hdrained := hcarries.drain serde hrunning n
    rw [← Pipeline.step_readable serde offsets hrunning] at hdrained
    have hlength : unread.length ≤ n := by
      rw [hcarries.ring, List.length_map] at hn
      exact hn
    have hconserved := hdrained.conserved
    have hring := hdrained.ring
    rw [List.drop_eq_nil_of_le hlength] at hconserved hring
    rw [List.append_nil] at hconserved
    exact ⟨hconserved, hring⟩
  · intro hreturned i
    obtain ⟨r, hr⟩ := Option.ne_none_iff_exists'.mp hreturned
    exact Pipeline.step_loop_of_returned serde offsets hr i

end Runs

end Foverin
