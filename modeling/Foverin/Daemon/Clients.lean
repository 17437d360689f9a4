import Foverin.Daemon.Tasks

set_option relaxedAutoImplicit false
set_option autoImplicit false

/-!
# What clients have seen

Every change of the shared state is followed by a publication, and `accept_loop` subscribes
before it takes the snapshot that it greets a client with.  A client that has caught up has
therefore seen the current state, whatever it has missed in between: its last line is the
greeting, if nothing was sent since its subscription, and the latest message otherwise.

## Main definitions

* `Foverin.Daemon.Fresh` — a greeting is up to date until something is sent.
* `Foverin.Daemon.Serves` — what a client was sent, against the bus.
* `Foverin.Daemon.Inv` — the invariant.

## Main results

* `Foverin.Daemon.Step.shared` — what a step may do to the state, the bus and the sensor task.
* `Foverin.Daemon.Inv.step` — every step keeps the invariant.
* `Foverin.no_stale_final_view` — the last line of a client that has caught up.
-/

namespace Foverin

variable {F : Type} [FloatOps F]

/-! ## Definitions -/

/-- The line that a forwarding task has read and not written yet. -/
def ForwardTask.inFlight : ForwardTask → List String
  | .writing line => [line]
  | .receiving | .stopped => []

/-- How often `main` has published. -/
def MainTask.published : MainTask → ℕ
  | .online => 1
  | .starting | .publishing _ => 0

/-- The forwarding task of a client waits in `recv`, and nothing is left to read. -/
def Client.Drained (bus : Broadcast broadcastCap Message) (c : Client) : Prop :=
  c.task = .receiving ∧ bus.Drained c.next

namespace Daemon

/-- The sensor task has sent a snapshot after the publication of `main`. -/
def SensorAfterMain (d : Daemon F) : Prop :=
  ∃ earlier later : List Message, ∃ m : Message, d.bus.sent = earlier ++ m :: later ∧
    m.publisher = .main ∧ ∃ m' ∈ later, m'.publisher = .sensor

variable (toJson : StateSnapshot F → Except String String)

/-- The greeting of a client that subscribed at `start` is up to date until something is sent. -/
def Fresh (d : Daemon F) (start : ℕ) (greeting : String) : Prop :=
  start ≤ d.bus.sent.length ∧
    (d.sensor = .waiting → d.bus.sent.length = start →
      snapshotJson toJson d.app = .ok greeting)

/-- A client without a write error was sent its greeting and then what its receiver got. -/
def Serves (d : Daemon F) (c : Client) : Prop :=
  c.writeError = false → ∃ start greeting got, d.Fresh toJson start greeting ∧
    d.bus.Follows start c.next got ∧
    c.lines ++ c.task.inFlight = greeting :: got.map Message.line

/-- The client that `accept_loop` is busy with. -/
def Accepts (d : Daemon F) : AcceptTask → Prop
  | .subscribed next => d.bus.Follows next next []
  | .greeting next line => d.Fresh toJson next line ∧ d.bus.Follows next next []
  | .listening | .exited => True

/-- The invariant. -/
structure Inv (d : Daemon F) : Prop where
  mainOnce : (d.bus.sent.countP fun m => m.publisher = .main) ≤ d.main.published
  sending : ∀ line, d.sensor = .publishing line → snapshotJson toJson d.app = .ok line
  sent : d.sensor = .waiting → ∀ m, d.bus.sent.getLast? = some m → m.publisher = .sensor →
    snapshotJson toJson d.app = .ok m.line
  accepts : d.Accepts toJson d.accept
  serves : ∀ c ∈ d.clients, d.Serves toJson c

/-! ## Steps -/

variable {toJson} (hjson : ∀ s, ∃ line, toJson s = .ok line) {d d' : Daemon F}

include hjson in
/-- A snapshot can always be serialised. -/
lemma snapshotJson_ne_error (s : AppState F) (err : String) :
    snapshotJson toJson s ≠ .error err := by
  obtain ⟨line, hline⟩ := hjson s.snapshot
  unfold snapshotJson
  rw [hline]
  exact nofun

include hjson in
/-- **What a step shares.** It leaves the state, the bus and the sensor task alone, or it is one of
the sensor task that does not lead to its `select!`, or it sends something. -/
theorem Step.shared (h : Step toJson d d') :
    (d'.app = d.app ∧ d'.bus = d.bus ∧ d'.sensor = d.sensor) ∨
      (d'.bus = d.bus ∧ d'.sensor ≠ .waiting) ∨ ∃ m, d'.bus = d.bus.send m := by
  cases h with
  | sensorRound | sensorChange | sensorSnapshot | sensorExit => exact .inr (.inl ⟨rfl, nofun⟩)
  | sensorSkip _ herr => exact absurd herr (snapshotJson_ne_error hjson _ _)
  | mainSend | sensorSend => exact .inr (.inr ⟨_, rfl⟩)
  | _ => exact .inl ⟨rfl, rfl, rfl⟩

include hjson in
lemma Step.follows (h : Step toJson d d') {start next : ℕ} {got : List Message}
    (hfollows : d.bus.Follows start next got) : d'.bus.Follows start next got := by
  rcases h.shared hjson with ⟨-, hbus, -⟩ | ⟨hbus, -⟩ | ⟨m, hbus⟩
  · rwa [hbus]
  · rwa [hbus]
  · rw [hbus]
    exact hfollows.send m

include hjson in
/-- A greeting stays up to date until something is sent. -/
lemma Fresh.step (h : Step toJson d d') {start : ℕ} {greeting : String}
    (hfresh : d.Fresh toJson start greeting) : d'.Fresh toJson start greeting := by
  obtain ⟨hstart, hgreeting⟩ := hfresh
  unfold Fresh
  rcases h.shared hjson with ⟨happ, hbus, hsensor⟩ | ⟨hbus, hsensor⟩ | ⟨m, hbus⟩
  · rw [happ, hbus, hsensor]
    exact ⟨hstart, hgreeting⟩
  · rw [hbus]
    exact ⟨hstart, fun hwaiting => absurd hwaiting hsensor⟩
  · rw [hbus, Broadcast.length_send]
    exact ⟨by omega, fun _ hlength => by omega⟩

include hjson in
lemma Serves.step (h : Step toJson d d') {c : Client} (hserves : d.Serves toJson c) :
    d'.Serves toJson c := by
  intro herror
  obtain ⟨start, greeting, got, hfresh, hfollows, hlines⟩ := hserves herror
  exact ⟨start, greeting, got, hfresh.step hjson h, h.follows hjson hfollows, hlines⟩

/-- **A step of a forwarding task**: a lagging receiver goes on, so that its client is still
served. -/
theorem Serves.forward {c c' : Client} (hserves : d.Serves toJson c) (h : c.Step d.bus c') :
    d.Serves toJson c' := by
  have hcap : 0 < broadcastCap := by decide
  intro herror
  cases h with
  | receive htask hrecv =>
    obtain ⟨start, greeting, got, hfresh, hfollows, hlines⟩ := hserves herror
    have hgot := hfollows.recv hcap
    rw [hrecv] at hgot
    refine ⟨start, greeting, _, hfresh, hgot, ?_⟩
    rw [htask] at hlines
    simp only [ForwardTask.inFlight, List.append_nil] at hlines
    simp [ForwardTask.inFlight, Broadcast.Answer.messages, hlines]
  | lagged htask hrecv =>
    obtain ⟨start, greeting, got, hfresh, hfollows, hlines⟩ := hserves herror
    have hgot := hfollows.recv hcap
    rw [hrecv] at hgot
    refine ⟨start, greeting, _, hfresh, hgot, ?_⟩
    simpa [Broadcast.Answer.messages] using hlines
  | write htask =>
    obtain ⟨start, greeting, got, hfresh, hfollows, hlines⟩ := hserves herror
    refine ⟨start, greeting, got, hfresh, hfollows, ?_⟩
    rw [htask] at hlines
    simpa [ForwardTask.inFlight] using hlines
  | writeError htask => cases herror

include hjson in
lemma Accepts.step (h : Step toJson d d') {task : AcceptTask}
    (haccepts : d.Accepts toJson task) : d'.Accepts toJson task := by
  cases task with
  | subscribed next => exact h.follows hjson haccepts
  | greeting next line => exact ⟨haccepts.1.step hjson h, h.follows hjson haccepts.2⟩
  | listening => trivial
  | exited => trivial

/-! ## The invariant -/

/-- The start. -/
lemma Inv.start (governor memoryPath : String) :
    (Daemon.start governor memoryPath : Daemon F).Inv toJson where
  mainOnce := le_rfl
  sending _ h := by cases h
  sent h := by cases h
  accepts := trivial
  serves _ h := by cases h

include hjson in
/-- Where `accept_loop` stands after a step: it subscribes at the end of the history, and takes the
snapshot afterwards. -/
lemma Inv.accepts_step (hinv : d.Inv toJson) (h : Step toJson d d') :
    d'.Accepts toJson d'.accept := by
  have haccepts := Accepts.step hjson h hinv.accepts
  cases h with
  | acceptSubscribe => exact Broadcast.Follows.subscribe d.bus
  | acceptSnapshot htask hsnapshot =>
    rw [htask] at haccepts
    exact ⟨⟨haccepts.le_length, fun _ _ => hsnapshot⟩, haccepts⟩
  | acceptSkip | acceptWrite | acceptWriteError | acceptExit => trivial
  | _ => exact haccepts

include hjson in
/-- The clients after a step: those before it, one of them maybe a step further, and the one that
was accepted. -/
lemma Inv.serves_step (hinv : d.Inv toJson) (h : Step toJson d d') {c : Client}
    (hc : c ∈ d'.clients) : d'.Serves toJson c := by
  have hserves : ∀ c ∈ d.clients, d'.Serves toJson c :=
    fun c hc => (hinv.serves c hc).step hjson h
  have haccepts := Accepts.step hjson h hinv.accepts
  cases h with
  | acceptWrite htask =>
    rcases List.mem_append.mp hc with hc | hc
    · exact hserves c hc
    · rw [htask] at haccepts
      rw [List.mem_singleton.mp hc]
      exact fun _ => ⟨_, _, [], haccepts.1, haccepts.2, rfl⟩
  | acceptWriteError =>
    rcases List.mem_append.mp hc with hc | hc
    · exact hserves c hc
    · rw [List.mem_singleton.mp hc]
      exact fun herror => absurd herror nofun
  | acceptSkip _ herr => exact absurd herr (snapshotJson_ne_error hjson _ _)
  | forward hclient hstep =>
    rcases List.mem_or_eq_of_mem_set hc with hc | rfl
    · exact hserves c hc
    · have hbefore := hinv.serves _ (List.mem_of_getElem? hclient)
      exact hbefore.forward hstep
  | _ => exact hserves c hc

include hjson in
/-- **Every step keeps the invariant.**

**Proof sketch.** Only the sensor task and `main` send, and they send what they have just taken;
the parts on the accepting task and on the clients are lemmas of their own. -/
theorem Inv.step (hinv : d.Inv toJson) (h : Step toJson d d') : d'.Inv toJson where
  mainOnce := by
    have hmain := hinv.mainOnce
    cases h with
    | mainSend htask =>
      rw [htask] at hmain
      simpa [MainTask.published] using hmain
    | mainSnapshot htask =>
      rw [htask] at hmain
      exact hmain
    | mainSkip _ herr => exact absurd herr (snapshotJson_ne_error hjson _ _)
    | sensorSend => simpa using hmain
    | _ => exact hmain
  sending line hline := by
    cases h with
    | sensorSnapshot _ hsnapshot =>
      cases hline
      exact hsnapshot
    | sensorRound | sensorChange | sensorSkip | sensorSend | sensorExit => cases hline
    | _ => exact hinv.sending line hline
  sent hwaiting m hm hpublisher := by
    cases h with
    | mainSend =>
      rw [Broadcast.sent_send, List.getLast?_concat] at hm
      cases hm
      cases hpublisher
    | sensorSend htask =>
      rw [Broadcast.sent_send, List.getLast?_concat] at hm
      cases hm
      exact hinv.sending _ htask
    | sensorRound | sensorChange | sensorSnapshot | sensorExit => cases hwaiting
    | sensorSkip _ herr => exact absurd herr (snapshotJson_ne_error hjson _ _)
    | _ => exact hinv.sent hwaiting m hm hpublisher
  accepts := hinv.accepts_step hjson h
  serves _ hc := hinv.serves_step hjson h hc

include hjson in
lemma Inv.of_reachable (h : (daemon toJson).Reachable d) : d.Inv toJson :=
  Lts.invariant (P := fun d => d.Inv toJson)
    (fun _ ⟨governor, memoryPath, hstart⟩ => hstart ▸ Inv.start governor memoryPath)
    (fun _ _ hinv hstep => hinv.step hjson hstep) h

/-- The latest message comes from the sensor task once it has sent one after `main`. -/
lemma SensorAfterMain.getLast? (hafter : d.SensorAfterMain) (hinv : d.Inv toJson) :
    ∃ m, d.bus.sent.getLast? = some m ∧ m.publisher = .sensor := by
  obtain ⟨earlier, later, m, hsent, hmain, m', hm', -⟩ := hafter
  have honce : (later.countP fun m => m.publisher = .main) = 0 := by
    have hcount := hinv.mainOnce
    have hpublished : d.main.published ≤ 1 := by
      cases d.main with
      | starting | publishing _ => exact Nat.zero_le 1
      | online => exact le_rfl
    rw [hsent, List.countP_append, List.countP_cons_of_pos (by simpa using hmain)] at hcount
    omega
  obtain ⟨last, hlast⟩ : ∃ last, later.getLast? = some last :=
    Option.isSome_iff_exists.mp (List.getLast?_isSome.mpr (List.ne_nil_of_mem hm'))
  refine ⟨last, ?_, ?_⟩
  · rw [hsent, List.getLast?_append, List.getLast?_cons, hlast]
    rfl
  · have hnot := List.countP_eq_zero.mp honce last (List.mem_of_getLast? hlast)
    cases hlast : last.publisher with
    | main => simp [hlast] at hnot
    | sensor => rfl

/-! ## The last line -/

/-- The last line of a client that has caught up is the snapshot of the current state.

**Proof sketch.** If its receiver has got anything, then the last line is the latest message, and
this comes from the sensor task.  If not, then nothing was sent since the subscription, so that
the greeting is still up to date. -/
lemma Inv.last_line (hinv : d.Inv toJson) (hwaiting : d.sensor = .waiting)
    (hafter : d.SensorAfterMain) {c : Client} (hc : c ∈ d.clients) (hdrained : c.Drained d.bus)
    (herror : c.writeError = false) :
    ∃ line, snapshotJson toJson d.app = .ok line ∧ c.lines.getLast? = some line := by
  obtain ⟨start, greeting, got, ⟨hstart, hgreeting⟩, hfollows, hlines⟩ := hinv.serves c hc herror
  rw [hdrained.1, ForwardTask.inFlight, List.append_nil] at hlines
  obtain ⟨m, hm, hpublisher⟩ := hafter.getLast? hinv
  rw [hlines, List.getLast?_cons, List.getLast?_map, hfollows.getLast?_of_drained hdrained.2,
    List.getLast?_drop]
  split_ifs with hold
  · exact ⟨greeting, hgreeting hwaiting (le_antisymm hold hstart), rfl⟩
  · rw [hm]
    exact ⟨m.line, hinv.sent hwaiting m hm hpublisher, rfl⟩

end Daemon

/-- **No stale final view.** In every reachable state in which the sensor task waits in its
`select!` and has sent a snapshot after the publication of `main`, the last line of every client
that has caught up without a write error is the snapshot of the current state. -/
theorem no_stale_final_view {toJson : StateSnapshot F → Except String String}
    (hjson : ∀ s, ∃ line, toJson s = .ok line) {d : Daemon F}
    (hreachable : (daemon toJson).Reachable d) (hwaiting : d.sensor = .waiting)
    (hafter : d.SensorAfterMain) {c : Client} (hc : c ∈ d.clients)
    (hdrained : c.Drained d.bus) (herror : c.writeError = false) :
    ∃ line, snapshotJson toJson d.app = .ok line ∧ c.lines.getLast? = some line :=
  (Daemon.Inv.of_reachable hjson hreachable).last_line hwaiting hafter hc hdrained herror

/-- The text of a snapshot without process lines and without a decision, whose other fields need
no escapes. -/
def plainJson (s : StateSnapshot F) : Except String String :=
  .ok ("\x7b\"process_stream\":[],\"workload\":null,\"confidence\":0.0,\"latency_us\":0," ++
    "\"active_governor\":\"" ++ s.activeGovernor ++ "\",\"status\":\"" ++ s.status ++ "\"\x7d")

/-- A client that has connected before the first publication and has read both. -/
theorem no_stale_final_view_two_lines :
    ∃ d : Daemon (ExtNum ℝ), d.bus.sent.length = 2 ∧ ∃ c ∈ d.clients, c.lines.length = 3 ∧
      ∃ line, snapshotJson plainJson d.app = .ok line ∧ c.lines.getLast? = some line := by
  have hstart : (daemon plainJson).Reachable
      (Daemon.start "powersave" "foverin_memory.json" : Daemon (ExtNum ℝ)) := .init ⟨_, _, rfl⟩
  have hgreeted := (hstart.step (.acceptSubscribe rfl)).step (.acceptSnapshot rfl rfl)
  have hconnected := hgreeted.step (.acceptWrite rfl)
  have hmain := (hconnected.step (.mainSnapshot rfl rfl)).step (.mainSend rfl)
  have hchanged := hmain.step (.sensorChange rfl)
  have hsensor := (hchanged.step (.sensorSnapshot rfl rfl)).step (.sensorSend rfl)
  have hfirst := (hsensor.step (.forward (i := 0) rfl (.receive rfl rfl))).step
    (.forward (i := 0) rfl (.write rfl))
  have hsecond := (hfirst.step (.forward (i := 0) rfl (.receive rfl rfl))).step
    (.forward (i := 0) rfl (.write rfl))
  exact ⟨_, rfl, _, List.mem_singleton_self _, rfl, no_stale_final_view (fun _ => ⟨_, rfl⟩)
    hsecond rfl ⟨[], [_], _, rfl, rfl, _, List.mem_singleton_self _, rfl⟩
    (List.mem_singleton_self _) ⟨rfl, rfl⟩ rfl⟩

end Foverin
