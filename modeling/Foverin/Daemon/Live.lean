import Foverin.Daemon.Offered
import Foverin.Daemon.Tasks

set_option relaxedAutoImplicit false
set_option autoImplicit false

/-!
# The daemon as it runs

The tasks of the daemon side by side, with a sensor task that runs `sensor_loop`: it wakes up,
works on its own variables, and then makes its changes to the shared state, one critical section
after another, while the other tasks take snapshots in between.

The daemon refines the loop on its own: whatever the other tasks do, the sensor task goes through
a run of the loop, and the snapshots that it publishes are those of the states between two rounds,
each of them once and in order.

## Main definitions

* `Foverin.Live`, `Foverin.Live.Step`, `Foverin.live` — the system.
* `Foverin.Live.Inv` — what ties the shared state to the loop.

## Main results

* `Foverin.Live.Inv.step` — every step keeps it.
* `Foverin.live_refines_loop` — every run of the system follows a run of the loop.
* `Foverin.exists_live_run` — every run of the loop is followed.
-/

namespace Foverin

variable {F : Type}

/-! ## The system -/

/-- What the sensor task does after a round of the loop: the changes of the round, or nothing any
more. -/
def WakeUp.task : WakeUp F → LoopRound F → SensorTask F
  | .readable (.ok records), _ => .changing (SensorRound.readable records : SensorRound F).changes
  | .tick _ _, .ticked _ done =>
    .changing (SensorRound.tick done.decided.decision done.actuated).changes
  | _, _ => .exited

/-- The changes that the sensor task has not made yet. -/
def SensorTask.todo : SensorTask F → List (AppState F → AppState F)
  | .changing todo => todo
  | _ => []

/-- The daemon, the variables of its sensor task, and the wake-ups of that task so far. -/
structure Live (F : Type) where
  daemon : Daemon F
  loop : SensorLoop F
  woken : List (WakeUp F)

section System

variable [FloatOps F] (serde : Serde F) (toJson : StateSnapshot F → Except String String)

/-- The steps: those of the other tasks, the critical sections and publications of the sensor
task, and its wake-ups. -/
inductive Live.Step (s : Live F) : Live F → Prop where
  | task {d : Daemon F} (hstep : s.daemon.Step toJson d)
      (hwaits : s.daemon.sensor = .waiting → d.sensor = .waiting) : Step s { s with daemon := d }
  | wake (i : WakeUp F) (hwaiting : s.daemon.sensor = .waiting) :
      Step s
        { daemon := { s.daemon with sensor := i.task (s.loop.step serde i).2 }
          loop := (s.loop.step serde i).1
          woken := s.woken ++ [i] }

/-- The daemon with a policy, under a governor and with a memory file. -/
def live (policy : Policy F) (governor memoryPath : String) (nodes : CpuNodes) : Lts (Live F) where
  init s := s = ⟨.start governor memoryPath, .start policy governor memoryPath nodes, []⟩
  step := Live.Step serde toJson

end System

/-! ## Rounds -/

namespace SensorLoop

variable [FloatOps F] (serde : Serde F) {s : SensorLoop F}

/-- **A round** changes the shared state as the sensor task does after it, and the task goes on
exactly if the loop does. -/
theorem step_task (h : s.returned = none) (i : WakeUp F) :
    (s.step serde i).1.sensor.app = s.sensor.app.apply (i.task (s.step serde i).2).todo ∧
      ((s.step serde i).1.returned = none ↔ i.task (s.step serde i).2 ≠ .exited) ∧
      (∀ line, i.task (s.step serde i).2 ≠ .publishing line) ∧
      i.task (s.step serde i).2 ≠ .waiting := by
  cases i with
  | shutdown io =>
    rw [step_shutdown serde h]
    exact ⟨rfl, by simp [WakeUp.task], nofun, nofun⟩
  | readable ready =>
    cases ready with
    | error err =>
      rw [step_failed serde h]
      exact ⟨rfl, by simp [WakeUp.task], nofun, nofun⟩
    | ok records =>
      rw [step_readable serde h, drain_eq]
      exact ⟨rfl, by simp [h, WakeUp.task], nofun, nofun⟩
  | tick env cpufreq =>
    rw [step_tick serde h]
    exact ⟨Sensor.tick_app serde s.sensor ⟨s.buffer, env, cpufreq⟩, by simp [h, WakeUp.task], nofun,
      nofun⟩

end SensorLoop

/-! ## The invariant -/

/-- The lines that a list of messages has from the sensor task. -/
def sensorLines (sent : List Message) : List String :=
  (sent.filter fun m => m.publisher = .sensor).map Message.line

lemma sensorLines_main (sent : List Message) (line : String) :
    sensorLines (sent ++ [⟨.main, line⟩]) = sensorLines sent := by
  simp [sensorLines]

lemma sensorLines_sensor (sent : List Message) (line : String) :
    sensorLines (sent ++ [⟨.sensor, line⟩]) = sensorLines sent ++ [line] := by
  simp [sensorLines]

/-- How many states between two rounds the sensor task has published, or tried to. -/
def SensorTask.rounds (task : SensorTask F) (woken : List (WakeUp F)) : ℕ :=
  match task with
  | .waiting => woken.length + 1
  | _ => woken.length

lemma SensorTask.rounds_of_ne {task : SensorTask F} (h : task ≠ .waiting)
    (woken : List (WakeUp F)) : task.rounds woken = woken.length := by
  cases task with
  | waiting => exact absurd rfl h
  | _ => rfl

section Invariant

variable [FloatOps F] (serde : Serde F) (toJson : StateSnapshot F → Except String String)

/-- The line of the state after the first `k` wake-ups, if it can be serialised. -/
def lineAfter (start : SensorLoop F) (woken : List (WakeUp F)) (k : ℕ) : Option String :=
  (snapshotJson toJson ((sensorLoop serde).final start (woken.take k)).sensor.app).toOption

/-- What ties the shared state to the loop. -/
structure Live.Inv (start : SensorLoop F) (s : Live F) : Prop where
  loop : s.loop = (sensorLoop serde).final start s.woken
  running : s.loop.returned = none ↔ s.daemon.sensor ≠ .exited
  /-- The state of the loop is reached once the remaining changes are made. -/
  app : s.loop.sensor.app = s.daemon.app.apply s.daemon.sensor.todo
  publishing : ∀ line, s.daemon.sensor = .publishing line →
    snapshotJson toJson s.loop.sensor.app = .ok line
  sent : sensorLines s.daemon.bus.sent =
    (List.range (s.daemon.sensor.rounds s.woken)).filterMap
      (lineAfter serde toJson start s.woken)

variable {serde toJson} {start : SensorLoop F} {s s' : Live F}

/-- The state after all wake-ups is the state of the loop. -/
lemma Live.Inv.lineAfter_length (h : s.Inv serde toJson start) :
    lineAfter serde toJson start s.woken s.woken.length =
      (snapshotJson toJson s.loop.sensor.app).toOption := by
  rw [lineAfter, List.take_length, ← h.loop]

/-- A state between two earlier rounds stays what it was. -/
lemma lineAfter_concat (start : SensorLoop F) (woken : List (WakeUp F)) (i : WakeUp F) {k : ℕ}
    (hk : k ≤ woken.length) :
    lineAfter serde toJson start (woken ++ [i]) k = lineAfter serde toJson start woken k := by
  rw [lineAfter, lineAfter, List.take_append_of_le_length hk]

/-- A wake-up. -/
lemma Live.Inv.wake (h : s.Inv serde toJson start) (i : WakeUp F)
    (hwaiting : s.daemon.sensor = .waiting) :
    Live.Inv serde toJson start
      { daemon := { s.daemon with sensor := i.task (s.loop.step serde i).2 }
        loop := (s.loop.step serde i).1
        woken := s.woken ++ [i] } := by
  have hrunning : s.loop.returned = none := by
    rw [h.running, hwaiting]
    exact nofun
  have happ := h.app
  have hsent := h.sent
  rw [hwaiting] at happ hsent
  obtain ⟨hafter, hreturned, hnotpublishing, hnotwaiting⟩ := s.loop.step_task serde hrunning i
  refine ⟨?_, hreturned, ?_, fun line hline => absurd hline (hnotpublishing line), ?_⟩
  · rw [Machine.final_concat, ← h.loop]
    rfl
  · rw [hafter, happ]
    rfl
  · have hrounds : (i.task (s.loop.step serde i).2).rounds (s.woken ++ [i]) =
        s.woken.length + 1 := by
      rw [SensorTask.rounds_of_ne hnotwaiting, List.length_append, List.length_singleton]
    dsimp only
    rw [hrounds, hsent]
    apply List.filterMap_congr
    intro k hk
    have hle : k ≤ s.woken.length := Nat.le_of_lt_succ (List.mem_range.mp hk)
    rw [lineAfter_concat start s.woken i hle]

/-- A step of another task, or of the sensor task between two wake-ups. -/
lemma Live.Inv.task (h : s.Inv serde toJson start) {d : Daemon F}
    (hstep : s.daemon.Step toJson d) (hwaits : s.daemon.sensor = .waiting → d.sensor = .waiting) :
    Live.Inv serde toJson start { s with daemon := d } := by
  have happ := h.app
  have hsent := h.sent
  have hrunning := h.running
  cases hstep with
  | sensorRound round hsensor | sensorExit hsensor => exact absurd (hwaits hsensor) nofun
  | sensorChange hsensor =>
    rw [hsensor] at happ hsent hrunning
    exact ⟨h.loop, hrunning.trans (by simp), happ, nofun, hsent⟩
  | sensorSnapshot hsensor hjson =>
    rw [hsensor] at happ hsent hrunning
    refine ⟨h.loop, hrunning.trans (by simp), happ, ?_, hsent⟩
    rintro line ⟨⟩
    rw [happ]
    exact hjson
  | sensorSkip hsensor hjson =>
    rw [hsensor] at happ hsent hrunning
    refine ⟨h.loop, hrunning.trans (by simp), happ, nofun, ?_⟩
    have hnone : lineAfter serde toJson start s.woken s.woken.length = none := by
      rw [h.lineAfter_length, happ]
      show (snapshotJson toJson s.daemon.app).toOption = none
      rw [hjson]
      rfl
    show sensorLines s.daemon.bus.sent = (List.range (s.woken.length + 1)).filterMap _
    rw [List.range_succ, List.filterMap_append, List.filterMap_cons_none hnone, hsent]
    exact (List.append_nil _).symm
  | @sensorSend line hsensor =>
    have hjson := h.publishing _ hsensor
    rw [hsensor] at happ hsent hrunning
    refine ⟨h.loop, hrunning.trans (by simp), happ, nofun, ?_⟩
    have hline : lineAfter serde toJson start s.woken s.woken.length = some line := by
      rw [h.lineAfter_length, hjson]
      rfl
    show sensorLines (s.daemon.bus.sent ++ [_]) = (List.range (s.woken.length + 1)).filterMap _
    rw [sensorLines_sensor, List.range_succ, List.filterMap_append,
      List.filterMap_cons_some hline, hsent]
    rfl
  | mainSend hmain =>
    refine ⟨h.loop, hrunning, happ, h.publishing, ?_⟩
    exact (sensorLines_main s.daemon.bus.sent _).trans hsent
  | _ => exact ⟨h.loop, hrunning, happ, h.publishing, hsent⟩

/-- **Every step** keeps the invariant. -/
theorem Live.Inv.step (h : s.Inv serde toJson start) (hstep : s.Step serde toJson s') :
    s'.Inv serde toJson start := by
  cases hstep with
  | task hstep hwaits => exact h.task hstep hwaits
  | wake i hwaiting => exact h.wake i hwaiting

end Invariant

/-! ## Runs -/

/-- After a round the sensor task has the changes of a round to make, or exits. -/
lemma WakeUp.task_cases (i : WakeUp F) (o : LoopRound F) :
    i.task o = .exited ∨ ∃ round : SensorRound F, i.task o = .changing round.changes := by
  unfold task
  split
  · exact Or.inr ⟨_, rfl⟩
  · exact Or.inr ⟨_, rfl⟩
  · exact Or.inl rfl

section Runs

open Relation

variable [FloatOps F] (serde : Serde F) (toJson : StateSnapshot F → Except String String)

/-- A step of the system is a step of the daemon. -/
lemma Live.Step.daemon {s s' : Live F} (h : s.Step serde toJson s') :
    s.daemon.Step toJson s'.daemon := by
  cases h with
  | task hstep => exact hstep
  | wake i hwaiting =>
    dsimp only
    rcases i.task_cases (s.loop.step serde i).2 with hexit | ⟨round, hround⟩
    · rw [hexit]
      exact .sensorExit hwaiting
    · rw [hround]
      exact .sensorRound round hwaiting

/-- The sensor task gets back to its `select!`, whether its state can be serialised or not. -/
lemma Live.settles {s : Live F} {todo : List (AppState F → AppState F)}
    (hsensor : s.daemon.sensor = .changing todo) :
    ∃ d : Daemon F, ReflTransGen (Live.Step serde toJson) s { s with daemon := d } ∧
      d.sensor = .waiting := by
  induction todo generalizing s with
  | nil =>
    cases hjson : snapshotJson toJson s.daemon.app with
    | error err =>
      refine ⟨_, .single (.task (.sensorSkip hsensor hjson) ?_), rfl⟩
      exact fun _ => rfl
    | ok line =>
      have hsnapshot : s.Step serde toJson
          { s with daemon := { s.daemon with sensor := .publishing line } } :=
        .task (.sensorSnapshot hsensor hjson) (by rw [hsensor]; exact nofun)
      exact ⟨_, (ReflTransGen.single hsnapshot).tail (.task (.sensorSend rfl) nofun), rfl⟩
  | cons change todo ih =>
    have hchange : s.Step serde toJson
        { s with daemon := { s.daemon with
          app := change s.daemon.app, sensor := .changing todo } } :=
      .task (.sensorChange hsensor) (by rw [hsensor]; exact nofun)
    obtain ⟨d, hsteps, hwaiting⟩ := ih (s := { s with daemon := { s.daemon with
      app := change s.daemon.app, sensor := .changing todo } }) rfl
    exact ⟨d, .head hchange hsteps, hwaiting⟩

variable (policy : Policy F) (governor memoryPath : String) (nodes : CpuNodes)

lemma Live.Inv.of_reachable {s : Live F}
    (h : (live serde toJson policy governor memoryPath nodes).Reachable s) :
    s.Inv serde toJson (.start policy governor memoryPath nodes) := by
  refine Lts.invariant
    (P := fun s => Live.Inv serde toJson (.start policy governor memoryPath nodes) s) ?_ ?_ h
  · rintro s rfl
    exact ⟨rfl, by simp [SensorLoop.start, Daemon.start], rfl, nofun, rfl⟩
  · intro s s' hinv hstep
    exact hinv.step hstep

/-- What the daemon goes through in the system it may go through on its own. -/
lemma Live.daemon_reachable {s : Live F}
    (h : (live serde toJson policy governor memoryPath nodes).Reachable s) :
    (Foverin.daemon toJson).Reachable s.daemon := by
  refine Lts.invariant (P := fun s => (Foverin.daemon toJson).Reachable s.daemon) ?_ ?_ h
  · rintro s rfl
    exact .init ⟨governor, memoryPath, rfl⟩
  · intro s s' hreachable hstep
    exact hreachable.step hstep.daemon

/-- Every run of the loop that does not make it return is followed. -/
theorem exists_live_run {ins : List (WakeUp F)} (h : ∀ i ∈ ins, i.continues = true) :
    ∃ s, (live serde toJson policy governor memoryPath nodes).Reachable s ∧ s.woken = ins ∧
      s.daemon.sensor = .waiting := by
  have hsettled : ∀ {s : Live F}, (live serde toJson policy governor memoryPath nodes).Reachable s →
      ∀ {todo}, s.daemon.sensor = .changing todo →
        ∃ s', (live serde toJson policy governor memoryPath nodes).Reachable s' ∧
          s'.woken = s.woken ∧ s'.daemon.sensor = .waiting := by
    rintro s ⟨s₀, hinit, hsteps⟩ todo hsensor
    obtain ⟨d, hmore, hwaiting⟩ := Live.settles serde toJson hsensor
    exact ⟨_, ⟨s₀, hinit, hsteps.trans hmore⟩, rfl, hwaiting⟩
  induction ins using List.reverseRecOn with
  | nil =>
    exact hsettled (.init rfl) rfl
  | append_singleton ins i ih =>
    obtain ⟨s, hreachable, hwoken, hwaiting⟩ := ih fun j hj => h j (by simp [hj])
    have hinv := Live.Inv.of_reachable serde toJson policy governor memoryPath nodes hreachable
    have hrunning : s.loop.returned = none := by
      rw [hinv.running, hwaiting]
      exact nofun
    have hwake := hreachable.step (.wake i hwaiting)
    have hgoes : ∃ todo, i.task (s.loop.step serde i).2 = .changing todo := by
      rcases i.task_cases (s.loop.step serde i).2 with hexit | ⟨round, hround⟩
      · have hreturned := (s.loop.step_task serde hrunning i).2.1.not.mpr (not_not.mpr hexit)
        have hrun := (Handles.run serde policy governor memoryPath nodes h).running
        rw [Machine.final_concat, ← hwoken, ← hinv.loop] at hrun
        exact absurd hrun hreturned
      · exact ⟨_, hround⟩
    obtain ⟨todo, htodo⟩ := hgoes
    obtain ⟨s', hs', hwoken', hwaiting'⟩ := hsettled hwake htodo
    refine ⟨s', hs', ?_, hwaiting'⟩
    rw [hwoken']
    exact congrArg (· ++ [i]) hwoken

/-- **The daemon refines its sensor loop.** However its tasks interleave: what it goes through is a
run of the daemon, and its sensor task follows a run of the loop on its own.  The shared state is
that of the loop, up to the changes of the current round that are still to be made.  The snapshots
that the sensor task has published are those of the states between two rounds, all of them that can
be serialised, each once and in order, and none of a state in the middle of a round.  Conversely
every run of the loop that goes on is followed.

**Proof sketch.** The invariant `Live.Inv` holds the loop in step with the wake-ups and counts a
line as published when the sensor task goes back to waiting.  For the converse the sensor task is
run on its own after every wake-up until it waits again. -/
theorem live_refines_loop :
    (∀ s, (live serde toJson policy governor memoryPath nodes).Reachable s →
      let start := SensorLoop.start policy governor memoryPath nodes
      (daemon toJson).Reachable s.daemon ∧
      s.loop = (sensorLoop serde).final start s.woken ∧
      (s.loop.returned = none ↔ s.daemon.sensor ≠ .exited) ∧
      s.loop.sensor.app = s.daemon.app.apply s.daemon.sensor.todo ∧
      sensorLines s.daemon.bus.sent =
        (List.range (s.daemon.sensor.rounds s.woken)).filterMap fun k =>
          (snapshotJson toJson
            ((sensorLoop serde).final start (s.woken.take k)).sensor.app).toOption) ∧
    ∀ ins : List (WakeUp F), (∀ i ∈ ins, i.continues = true) →
      ∃ s, (live serde toJson policy governor memoryPath nodes).Reachable s ∧ s.woken = ins ∧
        s.daemon.sensor = .waiting := by
  refine ⟨fun s hs => ?_, fun ins hins => ?_⟩
  · intro start
    have hinv := Live.Inv.of_reachable serde toJson policy governor memoryPath nodes hs
    exact ⟨Live.daemon_reachable serde toJson policy governor memoryPath nodes hs, hinv.loop,
      hinv.running, hinv.app, hinv.sent⟩
  · exact exists_live_run serde toJson policy governor memoryPath nodes hins

end Runs

end Foverin
