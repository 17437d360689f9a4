import Foverin.Daemon.Clients

set_option relaxedAutoImplicit false
set_option autoImplicit false

/-!
# The order of a client's snapshots

Each change of the shared state makes a new version of it.  An observer of the daemon notes for
every snapshot the version that it was taken of, and for every client the snapshots that were
written to it.  A snapshot is taken under the lock and sent after it is released, so that a client
may be shown an older state after a newer one, in two windows: `main` may be late with its only
publication, and what was sent between the subscription of a client and its greeting is written
after the greeting.

## Main definitions

* `Foverin.Views`, `Foverin.Views.after` — what the observer knows, and what it notes at a step.
* `Foverin.View.Before` — the order in which snapshots are written.

## Main results

* `Foverin.Views.Inv.step` — every step keeps the invariant of the observer.
* `Foverin.views_ordered` — the snapshots of a client, in every reachable state.
* `Foverin.view_goes_back` — a client whose versions fall twice.
-/

namespace Foverin

variable {F : Type}

/-! ## The observer -/

/-- What the observer notes about a message on the bus. -/
structure Stamp where
  publisher : Publisher
  version : ℕ

/-- How a snapshot gets to a client. -/
inductive View.Source where
  /-- As the greeting, which was taken when so many messages had been sent. -/
  | greeting (sentBefore : ℕ)
  | bus (position : ℕ) (publisher : Publisher)

/-- A snapshot that gets to a client. -/
structure View where
  version : ℕ
  source : View.Source

/-- `x` may be written before `y`, which is a message: it is not newer, unless `y` is the
publication of `main`, or `x` is a greeting and `y` had been sent before its snapshot was taken. -/
def View.Before (x y : View) : Prop :=
  ∃ k p, y.source = .bus k p ∧
    match x.source with
    | .greeting n => x.version ≤ y.version ∨ p = .main ∨ k < n
    | .bus k' _ => k' < k ∧ (x.version ≤ y.version ∨ p = .main)

/-- The snapshots of a client: those that were written, and the one that is being written. -/
structure ClientViews where
  lines : List View
  writing : Option View

/-- What the observer knows. -/
structure Views (F : Type) where
  /-- The states that were changed, oldest first; the version of a state is its position. -/
  past : List (AppState F)
  /-- The version of the snapshot that `main` is about to send. -/
  main : ℕ
  /-- The version of the snapshot that the sensor task is about to send. -/
  sensor : ℕ
  /-- The greeting that `accept_loop` is about to write. -/
  greeting : View
  sent : List Stamp
  clients : ℕ → ClientViews

namespace Views

/-- The observer at the start. -/
def start : Views F := ⟨[], 0, 0, ⟨0, .greeting 0⟩, [], fun _ => ⟨[], none⟩⟩

/-- The version of the current state. -/
def version (v : Views F) : ℕ := v.past.length

/-- The stamp of a message that is sent now. -/
def stamp (v : Views F) (m : Message) : Stamp :=
  match m.publisher with
  | .main => ⟨.main, v.main⟩
  | .sensor => ⟨.sensor, v.sensor⟩

/-- A message on the bus, as a snapshot of the client that receives it. -/
def message (v : Views F) (k : ℕ) : Option View :=
  v.sent[k]?.map fun s => ⟨s.version, .bus k s.publisher⟩

end Views

/-- `main` has taken its snapshot. -/
def MainTask.takes : MainTask → MainTask → Bool
  | .starting, .publishing _ => true
  | _, _ => false

/-- The sensor task has taken a snapshot. -/
def SensorTask.takes : SensorTask F → SensorTask F → Bool
  | .changing _, .publishing _ => true
  | _, _ => false

/-- The sensor task has made a change. -/
def SensorTask.changes : SensorTask F → SensorTask F → Bool
  | .changing todo, .changing todo' => decide (todo'.length < todo.length)
  | _, _ => false

/-- `accept_loop` has taken a snapshot. -/
def AcceptTask.takes : AcceptTask → AcceptTask → Bool
  | .subscribed _, .greeting _ _ => true
  | _, _ => false

/-- What is noted about a client: its forwarding task has read a message, or the write of it has
ended. -/
def ClientViews.after (v : Views F) (c c' : Client) (g : ClientViews) : ClientViews :=
  match c.task, c'.task with
  | .receiving, .writing _ => { g with writing := v.message c.next }
  | .writing _, .receiving => ⟨g.lines ++ g.writing.toList, none⟩
  | .writing _, .stopped => { g with writing := none }
  | _, _ => g

/-- What is noted at a step. -/
def Views.after (d d' : Daemon F) (v : Views F) : Views F :=
  { past := if d.sensor.changes d'.sensor then v.past ++ [d.app] else v.past
    main := if d.main.takes d'.main then v.version else v.main
    sensor := if d.sensor.takes d'.sensor then v.version else v.sensor
    greeting :=
      if d.accept.takes d'.accept then ⟨v.version, .greeting d.bus.sent.length⟩ else v.greeting
    sent := v.sent ++ (d'.bus.sent.drop d.bus.sent.length).map v.stamp
    clients i :=
      match d.clients[i]?, d'.clients[i]? with
      | some c, some c' => (v.clients i).after v c c'
      | none, some c' => ⟨c'.lines.map fun _ => v.greeting, none⟩
      | _, none => v.clients i }

/-! ## What is noted -/

@[simp] lemma SensorTask.changes_self (task : SensorTask F) : task.changes task = false := by
  cases task <;> simp [SensorTask.changes]

@[simp] lemma SensorTask.takes_self (task : SensorTask F) : task.takes task = false := by
  cases task <;> rfl

@[simp] lemma MainTask.takes_self (task : MainTask) : task.takes task = false := by
  cases task <;> rfl

@[simp] lemma AcceptTask.takes_self (task : AcceptTask) : task.takes task = false := by
  cases task <;> rfl

@[simp] lemma ClientViews.after_self (v : Views F) (c : Client) (g : ClientViews) :
    g.after v c c = g := by
  unfold ClientViews.after
  cases c.task <;> rfl

namespace Views

variable {d d' : Daemon F} {v : Views F}

/-- Only a change adds to the states. -/
lemma states_of_unchanged (h : d.sensor.changes d'.sensor = false) (happ : d'.app = d.app) :
    v.past ++ [d.app] <+: (v.after d d').past ++ [d'.app] := by
  simp [after, h, happ]

lemma after_sent_of_eq (h : d'.bus = d.bus) : (v.after d d').sent = v.sent := by
  simp [after, h]

lemma after_sent_of_send {m : Message} (h : d'.bus = d.bus.send m) :
    (v.after d d').sent = v.sent ++ [v.stamp m] := by
  simp [after, h]

/-- Nothing is noted about a client that does not step. -/
lemma after_clients_of_eq {i : ℕ} (h : d'.clients[i]? = d.clients[i]?) :
    (v.after d d').clients i = v.clients i := by
  unfold after
  dsimp only
  rw [h]
  cases d.clients[i]? <;> simp

/-- What is noted about a client that has been accepted. -/
lemma after_clients_of_accept {i : ℕ} {c' : Client} (h : d.clients[i]? = none)
    (h' : d'.clients[i]? = some c') :
    (v.after d d').clients i = ⟨c'.lines.map fun _ => v.greeting, none⟩ := by
  unfold after
  dsimp only
  rw [h, h']

/-- What is noted about a client whose forwarding task steps. -/
lemma after_clients_of_step {i : ℕ} {c c' : Client} (h : d.clients[i]? = some c)
    (h' : d'.clients[i]? = some c') :
    (v.after d d').clients i = (v.clients i).after v c c' := by
  unfold after
  dsimp only
  rw [h, h']

end Views

variable [FloatOps F] (toJson : StateSnapshot F → Except String String)

/-- The daemon with its observer. -/
def observedDaemon : Lts (Daemon F × Views F) :=
  (daemon toJson).observe (fun _ => .start) Views.after

/-! ## The invariant -/

namespace Views

/-- The line is the snapshot of this version of the state. -/
def Shows (d : Daemon F) (v : Views F) (n : ℕ) (line : String) : Prop :=
  ∃ app, (v.past ++ [d.app])[n]? = some app ∧ snapshotJson toJson app = .ok line

/-- A snapshot of a client that is about to read the message at `next`. -/
def Knows (v : Views F) (next : ℕ) (w : View) : Prop :=
  match w.source with
  | .bus k p => k < next ∧ v.sent[k]? = some ⟨p, w.version⟩
  | .greeting n => w.version ≤ v.version ∧
      ∀ k s, n ≤ k → v.sent[k]? = some s → s.publisher = .sensor → w.version ≤ s.version

/-- The snapshots of a client. -/
structure Viewed (d : Daemon F) (v : Views F) (c : Client) (g : ClientViews) : Prop where
  lines : List.Forall₂ (fun line w => v.Shows toJson d w.version line) c.lines g.lines
  writing : List.Forall₂ (fun line w => v.Shows toJson d w.version line) c.task.inFlight
    g.writing.toList
  ordered : (g.lines ++ g.writing.toList).Pairwise View.Before
  known : ∀ w ∈ g.lines ++ g.writing.toList, v.Knows c.next w

/-- The invariant. -/
structure Inv (d : Daemon F) (v : Views F) : Prop where
  bus : List.Forall₂ (fun m s => s.publisher = m.publisher ∧ v.Shows toJson d s.version m.line)
    d.bus.sent v.sent
  ordered : v.sent.Pairwise fun x y => y.publisher = .main ∨ x.version ≤ y.version
  main : ∀ line, d.main = .publishing line → v.Shows toJson d v.main line
  sensor : ∀ line, d.sensor = .publishing line →
    v.sensor = v.version ∧ v.Shows toJson d v.sensor line
  greeting : ∀ next line, d.accept = .greeting next line →
    v.Shows toJson d v.greeting.version line ∧ ∃ n, v.greeting.source = .greeting n ∧
      v.Knows next v.greeting
  clients : ∀ i c, d.clients[i]? = some c → Viewed toJson d v c (v.clients i)

end Views

/-! ## What a step does -/

namespace Daemon.Step

variable {toJson} {d d' : Daemon F}

lemma bus_cases (h : Step toJson d d') :
    d'.bus = d.bus ∨ (∃ line, d.main = .publishing line ∧ d'.bus = d.bus.send ⟨.main, line⟩) ∨
      ∃ line, d.sensor = .publishing line ∧ d'.bus = d.bus.send ⟨.sensor, line⟩ := by
  cases h with
  | mainSend htask => exact Or.inr (Or.inl ⟨_, htask, rfl⟩)
  | sensorSend htask => exact Or.inr (Or.inr ⟨_, htask, rfl⟩)
  | _ => exact Or.inl rfl

lemma main_cases (h : Step toJson d d') :
    d'.main = d.main ∨ d'.main = .online ∨ ∃ line, d.main = .starting ∧
      d'.main = .publishing line ∧ snapshotJson toJson d.app = .ok line := by
  cases h with
  | mainSnapshot htask hjson => exact Or.inr (Or.inr ⟨_, htask, rfl, hjson⟩)
  | mainSkip | mainSend => exact Or.inr (Or.inl rfl)
  | _ => exact Or.inl rfl

lemma sensor_cases (h : Step toJson d d') :
    d'.sensor = d.sensor ∨ (∀ line, d'.sensor ≠ .publishing line) ∨ ∃ line,
      d.sensor = .changing [] ∧ d'.sensor = .publishing line ∧
        snapshotJson toJson d.app = .ok line := by
  cases h with
  | sensorSnapshot htask hjson => exact Or.inr (Or.inr ⟨_, htask, rfl, hjson⟩)
  | sensorRound | sensorChange | sensorSkip | sensorSend | sensorExit => exact Or.inr (Or.inl nofun)
  | _ => exact Or.inl rfl

lemma accept_cases (h : Step toJson d d') :
    d'.accept = d.accept ∨ (∀ next line, d'.accept ≠ .greeting next line) ∨ ∃ next line,
      d.accept = .subscribed next ∧ d'.accept = .greeting next line ∧ d'.bus = d.bus ∧
        snapshotJson toJson d.app = .ok line := by
  cases h with
  | acceptSnapshot htask hjson => exact Or.inr (Or.inr ⟨_, _, htask, rfl, rfl, hjson⟩)
  | acceptSubscribe | acceptSkip | acceptWrite | acceptWriteError | acceptExit =>
    exact Or.inr (Or.inl nofun)
  | _ => exact Or.inl rfl

/-- A step leaves the clients alone, or adds one, or is one of a forwarding task. -/
lemma clients_cases (h : Step toJson d d') :
    d'.clients = d.clients ∨
      (∃ c, d'.clients = d.clients ++ [c] ∧ c.task = .receiving ∧
        (c.lines = [] ∨ ∃ line, d.accept = .greeting c.next line ∧ c.lines = [line])) ∨
      ∃ i c c', d.clients[i]? = some c ∧ d'.clients = d.clients.set i c' ∧ c.Step d.bus c' := by
  cases h with
  | acceptSkip | acceptWriteError => exact Or.inr (Or.inl ⟨_, rfl, rfl, Or.inl rfl⟩)
  | acceptWrite htask => exact Or.inr (Or.inl ⟨_, rfl, rfl, Or.inr ⟨_, htask, rfl⟩⟩)
  | forward hclient hstep => exact Or.inr (Or.inr ⟨_, _, _, hclient, rfl, hstep⟩)
  | _ => exact Or.inl rfl

end Daemon.Step

namespace Views

variable {toJson} {d d' : Daemon F} {v v' : Views F}

/-! ## What a step adds -/

/-- The states and the messages only grow, and a message of the sensor task that is added shows the
current state. -/
structure Grows (d d' : Daemon F) (v v' : Views F) : Prop where
  states : v.past ++ [d.app] <+: v'.past ++ [d'.app]
  sent : v'.sent = v.sent ∨
    ∃ s, v'.sent = v.sent ++ [s] ∧ (s.publisher = .sensor → s.version = v.version)

omit [FloatOps F] in
lemma Grows.version_le (h : Grows d d' v v') : v.version ≤ v'.version := by
  have hlength := h.states.length_le
  simp only [List.length_append, List.length_singleton] at hlength
  unfold version
  omega

lemma Grows.shows (h : Grows d d' v v') {n : ℕ} {line : String}
    (hshows : v.Shows toJson d n line) : v'.Shows toJson d' n line := by
  obtain ⟨app, happ, hline⟩ := hshows
  obtain ⟨later, hlater⟩ := h.states
  refine ⟨app, ?_, hline⟩
  rw [← hlater, List.getElem?_append_left (List.getElem?_eq_some_iff.mp happ).1, happ]

omit [FloatOps F] in
lemma Grows.getElem?_sent (h : Grows d d' v v') {k : ℕ} {s : Stamp}
    (hs : v.sent[k]? = some s) : v'.sent[k]? = some s := by
  rcases h.sent with hsent | ⟨s', hsent, -⟩
  · rwa [hsent]
  · rw [hsent, List.getElem?_append_left (List.getElem?_eq_some_iff.mp hs).1, hs]

omit [FloatOps F] in
/-- A snapshot that was taken before is not newer than a message that the sensor task adds. -/
lemma Grows.knows (h : Grows d d' v v') {next : ℕ} {w : View} (hknows : v.Knows next w) :
    v'.Knows next w := by
  unfold Knows at *
  cases hsource : w.source with
  | bus k p =>
    rw [hsource] at hknows
    exact ⟨hknows.1, h.getElem?_sent hknows.2⟩
  | greeting n =>
    rw [hsource] at hknows
    obtain ⟨hversion, hlater⟩ := hknows
    refine ⟨hversion.trans h.version_le, fun k s hk hs hpublisher => ?_⟩
    rcases h.sent with hsent | ⟨s', hsent, hnew⟩
    · rw [hsent] at hs
      exact hlater k s hk hs hpublisher
    · rw [hsent] at hs
      by_cases hold : k < v.sent.length
      · rw [List.getElem?_append_left hold] at hs
        exact hlater k s hk hs hpublisher
      · rw [List.getElem?_append_right (not_lt.mp hold)] at hs
        obtain rfl : s = s' := List.mem_singleton.mp (List.mem_of_getElem? hs)
        rw [hnew hpublisher]
        exact hversion

lemma Grows.viewed (h : Grows d d' v v') {c : Client} {g : ClientViews}
    (hviewed : Viewed toJson d v c g) : Viewed toJson d' v' c g where
  lines := hviewed.lines.imp fun _ _ hshows => h.shows hshows
  writing := hviewed.writing.imp fun _ _ hshows => h.shows hshows
  ordered := hviewed.ordered
  known w hw := h.knows (hviewed.known w hw)

/-- **What a step adds.** -/
theorem grows_of_step (hsensor : ∀ line, d.sensor = .publishing line → v.sensor = v.version)
    (h : Daemon.Step toJson d d') : Grows d d' v (v.after d d') := by
  cases h with
  | sensorChange htask =>
    refine ⟨?_, Or.inl (after_sent_of_eq rfl)⟩
    simp [after, htask, SensorTask.changes]
  | sensorSend htask =>
    have hunchanged : d.sensor.changes .waiting = false := by rw [htask]; rfl
    exact ⟨states_of_unchanged hunchanged rfl,
      Or.inr ⟨_, after_sent_of_send rfl, fun _ => hsensor _ htask⟩⟩
  | sensorRound round htask | sensorSnapshot htask | sensorSkip htask | sensorExit htask =>
    refine ⟨states_of_unchanged ?_ rfl, Or.inl (after_sent_of_eq rfl)⟩
    rw [htask]
    rfl
  | mainSend htask =>
    exact ⟨states_of_unchanged (by simp) rfl, Or.inr ⟨_, after_sent_of_send rfl, nofun⟩⟩
  | _ => exact ⟨states_of_unchanged (by simp) rfl, Or.inl (after_sent_of_eq rfl)⟩

/-! ## Forwarding -/

lemma Shows.version_le {n : ℕ} {line : String} (h : v.Shows toJson d n line) : n ≤ v.version := by
  obtain ⟨app, happ, -⟩ := h
  have hlt := (List.getElem?_eq_some_iff.mp happ).1
  rw [List.length_append, List.length_singleton] at hlt
  exact Nat.le_of_lt_succ hlt

/-- A snapshot that is taken now. -/
lemma Shows.current {line : String} (h : snapshotJson toJson d.app = .ok line) :
    v.Shows toJson d v.version line := by
  refine ⟨d.app, ?_, h⟩
  rw [version, List.getElem?_concat_length]

/-- What is known about a message on the bus. -/
lemma Inv.message (hinv : Inv toJson d v) {k : ℕ} {m : Message} (hm : d.bus.sent[k]? = some m) :
    ∃ s, v.sent[k]? = some s ∧ s.publisher = m.publisher ∧ v.Shows toJson d s.version m.line := by
  obtain ⟨hk, rfl⟩ := List.getElem?_eq_some_iff.mp hm
  have hk' : k < v.sent.length := by
    rw [← hinv.bus.length_eq]
    exact hk
  exact ⟨_, List.getElem?_eq_getElem hk', hinv.bus.get hk hk'⟩

/-- **Order.** The message that a client reads next comes after all its snapshots. -/
theorem Inv.before (hinv : Inv toJson d v) {next : ℕ} {s : Stamp} (hs : v.sent[next]? = some s)
    {w : View} (hknows : v.Knows next w) : w.Before ⟨s.version, .bus next s.publisher⟩ := by
  refine ⟨next, s.publisher, rfl, ?_⟩
  unfold Knows at hknows
  cases hsource : w.source with
  | bus k p =>
    rw [hsource] at hknows
    obtain ⟨hk, hsent⟩ := hknows
    obtain ⟨hlt, hleft⟩ := List.getElem?_eq_some_iff.mp hsent
    obtain ⟨hlt', hright⟩ := List.getElem?_eq_some_iff.mp hs
    have hordered := List.pairwise_iff_getElem.mp hinv.ordered k next hlt hlt' hk
    rw [hleft, hright] at hordered
    exact ⟨hk, hordered.symm⟩
  | greeting n =>
    rw [hsource] at hknows
    rcases lt_or_ge next n with hlt | hge
    · exact Or.inr (Or.inr hlt)
    · cases hpublisher : s.publisher with
      | main => exact Or.inr (Or.inl rfl)
      | sensor => exact Or.inl (hknows.2 next s hge hs hpublisher)

omit [FloatOps F] in
lemma Knows.mono {next next' : ℕ} {w : View} (h : v.Knows next w) (hle : next ≤ next') :
    v.Knows next' w := by
  unfold Knows at *
  cases hsource : w.source with
  | bus k p =>
    rw [hsource] at h
    exact ⟨h.1.trans_le hle, h.2⟩
  | greeting n =>
    rw [hsource] at h
    exact h

/-- **A step of a forwarding task.**

**Proof sketch.** A message that is received was sent after everything that the client has seen, so
that it is not older, except for the two cases that `View.Before` allows; writing moves it to the
lines, and a lagging receiver only skips. -/
theorem Viewed.forward (hinv : Inv toJson d v) {c c' : Client} {g : ClientViews}
    (hviewed : Viewed toJson d v c g) (h : c.Step d.bus c') :
    Viewed toJson d v c' (g.after v c c') := by
  obtain ⟨hlines, hwriting, hordered, hknown⟩ := hviewed
  cases h with
  | @receive m next htask hrecv =>
    obtain ⟨hm, rfl⟩ := Broadcast.recv_message hrecv
    obtain ⟨s, hs, hpublisher, hshows⟩ := hinv.message hm
    have hidle : g.writing.toList = [] := by
      rw [htask] at hwriting
      exact List.forall₂_nil_left_iff.mp hwriting
    have hafter : g.after v c { c with next := c.next + 1, task := .writing m.line } =
        { g with writing := some ⟨s.version, .bus c.next s.publisher⟩ } := by
      unfold ClientViews.after
      rw [htask, Views.message, hs]
      rfl
    rw [hidle, List.append_nil] at hordered hknown
    rw [hafter]
    refine ⟨hlines, .cons hshows .nil, ?_, ?_⟩
    · show (g.lines ++ [_]).Pairwise View.Before
      rw [List.pairwise_append]
      refine ⟨hordered, List.pairwise_singleton _ _, fun w hw y hy => ?_⟩
      rw [List.mem_singleton.mp hy]
      exact hinv.before hs (hknown w hw)
    · show ∀ w ∈ g.lines ++ [_], v.Knows (c.next + 1) w
      intro w hw
      rcases List.mem_append.mp hw with hw | hw
      · exact (hknown w hw).mono (Nat.le_succ _)
      · rw [List.mem_singleton.mp hw]
        exact ⟨Nat.lt_succ_self _, hs⟩
  | @lagged missed next htask hrecv =>
    have hafter : g.after v c { c with next := next } = g := by
      unfold ClientViews.after
      rw [htask]
    rw [hafter]
    exact ⟨hlines, hwriting, hordered,
      fun w hw => (hknown w hw).mono (Broadcast.le_of_recv_lagged hrecv)⟩
  | @write line htask =>
    have hafter : g.after v c { c with task := .receiving, lines := c.lines ++ [line] } =
        ⟨g.lines ++ g.writing.toList, none⟩ := by
      unfold ClientViews.after
      rw [htask]
    rw [htask] at hwriting
    rw [hafter]
    refine ⟨List.rel_append hlines hwriting, .nil, ?_, ?_⟩
    · rwa [Option.toList_none, List.append_nil]
    · rwa [Option.toList_none, List.append_nil]
  | @writeError line htask =>
    have hafter : g.after v c { c with task := .stopped, writeError := true } =
        { g with writing := none } := by
      unfold ClientViews.after
      rw [htask]
    rw [hafter]
    refine ⟨hlines, .nil, ?_, fun w hw => hknown w ?_⟩
    · rw [Option.toList_none, List.append_nil]
      exact hordered.sublist (List.sublist_append_left _ _)
    · rw [Option.toList_none, List.append_nil] at hw
      exact List.mem_append_left _ hw

/-! ## The invariant -/

lemma Inv.start (governor memoryPath : String) :
    Inv toJson (Daemon.start governor memoryPath) (.start : Views F) where
  bus := .nil
  ordered := .nil
  main _ h := by cases h
  sensor _ h := by cases h
  greeting _ _ h := by cases h
  clients _ _ h := by cases h

/-- The messages after a step. -/
lemma Inv.bus_step (hinv : Inv toJson d v) (h : Daemon.Step toJson d d')
    (hgrows : Grows d d' v (v.after d d')) :
    List.Forall₂ (fun m s => s.publisher = m.publisher ∧
      (v.after d d').Shows toJson d' s.version m.line) d'.bus.sent (v.after d d').sent := by
  have hold := hinv.bus.imp fun _ _ hm => And.intro hm.1 (hgrows.shows hm.2)
  rcases h.bus_cases with hbus | ⟨line, htask, hbus⟩ | ⟨line, htask, hbus⟩
  · rw [after_sent_of_eq hbus, hbus]
    exact hold
  · rw [after_sent_of_send hbus, hbus]
    exact List.rel_append hold (.cons ⟨rfl, hgrows.shows (hinv.main line htask)⟩ .nil)
  · rw [after_sent_of_send hbus, hbus]
    exact List.rel_append hold (.cons ⟨rfl, hgrows.shows (hinv.sensor line htask).2⟩ .nil)

/-- The order of the messages after a step: one of the sensor task shows the current state. -/
lemma Inv.ordered_step (hinv : Inv toJson d v) (h : Daemon.Step toJson d d') :
    (v.after d d').sent.Pairwise fun x y => y.publisher = .main ∨ x.version ≤ y.version := by
  have hversion : ∀ x ∈ v.sent, x.version ≤ v.version := by
    intro x hx
    obtain ⟨k, hk, rfl⟩ := List.mem_iff_getElem.mp hx
    have hk' : k < d.bus.sent.length := by rwa [hinv.bus.length_eq]
    exact (hinv.bus.get hk' hk).2.version_le
  rcases h.bus_cases with hbus | ⟨line, htask, hbus⟩ | ⟨line, htask, hbus⟩
  · rw [after_sent_of_eq hbus]
    exact hinv.ordered
  · rw [after_sent_of_send hbus, List.pairwise_append]
    refine ⟨hinv.ordered, List.pairwise_singleton _ _, fun x _ y hy => Or.inl ?_⟩
    rw [List.mem_singleton.mp hy]
    rfl
  · have hcurrent : v.sensor = v.version := (hinv.sensor line htask).1
    rw [after_sent_of_send hbus, List.pairwise_append]
    refine ⟨hinv.ordered, List.pairwise_singleton _ _, fun x hx y hy => Or.inr ?_⟩
    rw [List.mem_singleton.mp hy]
    show x.version ≤ v.sensor
    rw [hcurrent]
    exact hversion x hx

lemma Inv.main_step (hinv : Inv toJson d v) (h : Daemon.Step toJson d d')
    (hgrows : Grows d d' v (v.after d d')) {line : String} (hline : d'.main = .publishing line) :
    (v.after d d').Shows toJson d' (v.after d d').main line := by
  rcases h.main_cases with hmain | hmain | ⟨line', hbefore, hmain, hjson⟩
  · rw [show (v.after d d').main = v.main by simp [after, hmain]]
    rw [hmain] at hline
    exact hgrows.shows (hinv.main line hline)
  · rw [hmain] at hline
    cases hline
  · rw [show (v.after d d').main = v.version by simp [after, hbefore, hmain, MainTask.takes]]
    rw [hmain] at hline
    cases hline
    exact hgrows.shows (.current hjson)

lemma Inv.sensor_step (hinv : Inv toJson d v) (h : Daemon.Step toJson d d')
    (hgrows : Grows d d' v (v.after d d')) {line : String}
    (hline : d'.sensor = .publishing line) :
    (v.after d d').sensor = (v.after d d').version ∧
      (v.after d d').Shows toJson d' (v.after d d').sensor line := by
  rcases h.sensor_cases with hsensor | hsensor | ⟨line', hbefore, hsensor, hjson⟩
  · have hnoted : (v.after d d').sensor = v.sensor ∧ (v.after d d').version = v.version := by
      simp [after, version, hsensor]
    rw [hsensor] at hline
    rw [hnoted.1, hnoted.2]
    exact ⟨(hinv.sensor line hline).1, hgrows.shows (hinv.sensor line hline).2⟩
  · exact absurd hline (hsensor line)
  · have hnoted : (v.after d d').sensor = v.version ∧ (v.after d d').version = v.version := by
      simp [after, version, hbefore, hsensor, SensorTask.takes, SensorTask.changes]
    rw [hsensor] at hline
    cases hline
    rw [hnoted.1, hnoted.2]
    exact ⟨rfl, hgrows.shows (.current hjson)⟩

/-- A greeting is not newer than a message that is sent after its snapshot was taken. -/
lemma Inv.greeting_step (hinv : Inv toJson d v) (h : Daemon.Step toJson d d')
    (hgrows : Grows d d' v (v.after d d')) {next : ℕ} {line : String}
    (hline : d'.accept = .greeting next line) :
    (v.after d d').Shows toJson d' (v.after d d').greeting.version line ∧
      ∃ n, (v.after d d').greeting.source = .greeting n ∧
        (v.after d d').Knows next (v.after d d').greeting := by
  rcases h.accept_cases with haccept | haccept | ⟨next', line', hbefore, haccept, hbus, hjson⟩
  · rw [show (v.after d d').greeting = v.greeting by simp [after, haccept]]
    rw [haccept] at hline
    obtain ⟨hshows, n, hsource, hknows⟩ := hinv.greeting next line hline
    exact ⟨hgrows.shows hshows, n, hsource, hgrows.knows hknows⟩
  · exact absurd hline (haccept next line)
  · rw [show (v.after d d').greeting = ⟨v.version, .greeting d.bus.sent.length⟩ by
      simp [after, hbefore, haccept, AcceptTask.takes]]
    rw [haccept] at hline
    cases hline
    refine ⟨hgrows.shows (.current hjson), d.bus.sent.length, rfl, hgrows.version_le, ?_⟩
    intro k s hk hs
    rw [after_sent_of_eq hbus] at hs
    have hlt := (List.getElem?_eq_some_iff.mp hs).1
    rw [← hinv.bus.length_eq] at hlt
    omega

/-- The clients after a step.

**Proof sketch.** A client is unchanged, has just been accepted with its greeting, or takes a step
of its own. -/
lemma Inv.clients_step (hinv : Inv toJson d v) (h : Daemon.Step toJson d d')
    (hgrows : Grows d d' v (v.after d d')) {i : ℕ} {c : Client} (hc : d'.clients[i]? = some c) :
    Viewed toJson d' (v.after d d') c ((v.after d d').clients i) := by
  have hsame : d'.clients[i]? = d.clients[i]? →
      Viewed toJson d' (v.after d d') c ((v.after d d').clients i) := by
    intro heq
    rw [after_clients_of_eq heq]
    rw [heq] at hc
    exact hgrows.viewed (hinv.clients i c hc)
  rcases h.clients_cases with heq | ⟨c₀, heq, htask, hlines⟩ | ⟨i₀, c₀, c', hbefore, heq, hstep⟩
  · exact hsame (by rw [heq])
  · by_cases hi : i < d.clients.length
    · exact hsame (by rw [heq, List.getElem?_append_left hi])
    · -- the client that has just been accepted
      have hnone : d.clients[i]? = none := List.getElem?_eq_none (not_lt.mp hi)
      rw [after_clients_of_accept hnone hc]
      rw [heq, List.getElem?_append_right (not_lt.mp hi)] at hc
      obtain rfl : c = c₀ := List.mem_singleton.mp (List.mem_of_getElem? hc)
      have hidle : c.task.inFlight = [] := by
        rw [htask]
        rfl
      rcases hlines with hnil | ⟨line, haccept, hline⟩
      · rw [hnil]
        exact ⟨by rw [hnil]; exact .nil, by rw [hidle]; exact .nil, .nil, nofun⟩
      · obtain ⟨hshows, -, -, hknows⟩ := hinv.greeting c.next line haccept
        rw [hline]
        refine ⟨?_, by rw [hidle]; exact .nil, List.pairwise_singleton _ _, fun w hw => ?_⟩
        · rw [hline]
          exact .cons (hgrows.shows hshows) .nil
        · rw [List.mem_singleton.mp hw]
          exact hgrows.knows hknows
  · by_cases hi : i = i₀
    · subst hi
      rw [after_clients_of_step hbefore hc]
      rw [heq, List.getElem?_set_self (List.getElem?_eq_some_iff.mp hbefore).1] at hc
      obtain rfl := Option.some.inj hc
      exact hgrows.viewed ((hinv.clients i c₀ hbefore).forward hinv hstep)
    · exact hsame (by rw [heq, List.getElem?_set_ne (Ne.symm hi)])

/-- **Every step keeps the invariant.** -/
theorem Inv.step (hinv : Inv toJson d v) (h : Daemon.Step toJson d d') :
    Inv toJson d' (v.after d d') := by
  have hgrows : Grows d d' v (v.after d d') :=
    grows_of_step (fun line hline => (hinv.sensor line hline).1) h
  exact
    { bus := hinv.bus_step h hgrows
      ordered := hinv.ordered_step h
      main := fun _ hline => hinv.main_step h hgrows hline
      sensor := fun _ hline => hinv.sensor_step h hgrows hline
      greeting := fun _ _ hline => hinv.greeting_step h hgrows hline
      clients := fun _ _ hc => hinv.clients_step h hgrows hc }

lemma Inv.of_reachable (h : (observedDaemon toJson).Reachable (d, v)) : Inv toJson d v := by
  refine Lts.invariant (P := fun s : Daemon F × Views F => Inv toJson s.1 s.2) ?_ ?_ h
  · rintro ⟨d, v⟩ ⟨⟨governor, memoryPath, hstart⟩, hv⟩
    dsimp only at hstart hv
    rw [hstart, hv]
    exact Inv.start governor memoryPath
  · rintro ⟨d, v⟩ ⟨d', v'⟩ hinv ⟨hstep, hv⟩
    dsimp only at hstep hv hinv ⊢
    rw [hv]
    exact hinv.step hstep

end Views

/-! ## The order of the snapshots -/

/-- **The order of a client's snapshots.** In every reachable state the lines that were written to a
client are the snapshots that the observer has noted, each of the version of the state that it
notes.  The greeting is the first of them, and the others are messages in the order in which they
were sent.  Of two snapshots the later one is not older, unless it is the publication of `main`, or
the earlier one is the greeting and the later one had been sent before the snapshot of the greeting
was taken.  Every run of the daemon can be observed.

**Proof sketch.** The observer changes nothing, so that it can watch every run.  Its invariant
orders the lines of a client together with the one that is being written, and the lines are a part
of them. -/
theorem views_ordered (toJson : StateSnapshot F → Except String String) :
    (∀ d, (daemon toJson).Reachable d → ∃ v, (observedDaemon toJson).Reachable (d, v)) ∧
    ∀ d v, (observedDaemon toJson).Reachable (d, v) → (daemon toJson).Reachable d ∧
      ∀ i c, d.clients[i]? = some c →
        List.Forall₂ (fun line w => v.Shows toJson d w.version line) c.lines
          (v.clients i).lines ∧
        (v.clients i).lines.Pairwise View.Before := by
  refine ⟨fun d h => h.observe, fun d v h => ⟨h.of_observe, fun i c hc => ?_⟩⟩
  have hviewed := (Views.Inv.of_reachable h).clients i c hc
  exact ⟨hviewed.lines, hviewed.ordered.sublist (List.sublist_append_left _ _)⟩

/-- The text of a snapshot without a decision, whose lines need no escapes. -/
def streamJson (s : StateSnapshot F) : Except String String :=
  .ok ("\x7b\"process_stream\":[" ++
    ",".intercalate (s.processStream.map fun line => "\"" ++ line ++ "\"") ++
    "],\"workload\":null,\"confidence\":0.0,\"latency_us\":0,\"active_governor\":\"" ++
    s.activeGovernor ++ "\",\"status\":\"" ++ s.status ++ "\"\x7d")

lemma observed_step {toJson : StateSnapshot F → Except String String} {d d' : Daemon F}
    {v : Views F} (h : (observedDaemon toJson).Reachable (d, v)) (hstep : Daemon.Step toJson d d') :
    (observedDaemon toJson).Reachable (d', v.after d d') :=
  h.step ⟨hstep, rfl⟩

/-- **A client's view goes back in time**, twice.  It has subscribed before the sensor task
publishes version 1, is greeted with version 2, and then reads version 1 and what `main` has taken
at the start. -/
theorem view_goes_back :
    ∃ (d : Daemon (ExtNum ℝ)) (v : Views (ExtNum ℝ)) (c : Client),
      (observedDaemon streamJson).Reachable (d, v) ∧ d.clients[0]? = some c ∧
        c.lines.length = 3 ∧ (v.clients 0).lines.map View.version = [2, 1, 0] := by
  obtain ⟨event, hbytes⟩ : ∃ event,
      parseProcessEvent (List.replicate (4 + filenameLen) 0) = some event :=
    ⟨_, dif_pos (by rw [List.length_replicate])⟩
  have hchanges : (SensorRound.readable [List.replicate (4 + filenameLen) 0] :
      SensorRound (ExtNum ℝ)).changes = [AppState.pushProcess (processLine event)] := by
    simp [SensorRound.changes, hbytes]
  have hstart : (observedDaemon streamJson).Reachable
      ((Daemon.start "powersave" "foverin_memory.json" : Daemon (ExtNum ℝ)), .start) :=
    .init ⟨⟨_, _, rfl⟩, rfl⟩
  have hsubscribed := observed_step hstart (.acceptSubscribe rfl)
  have hmain := observed_step hsubscribed (.mainSnapshot rfl rfl)
  have hchanged := observed_step hmain (.sensorChange rfl)
  have hsensor := observed_step (observed_step hchanged (.sensorSnapshot rfl rfl)) (.sensorSend rfl)
  have hround := observed_step hsensor
    (.sensorRound (.readable [List.replicate (4 + filenameLen) 0]) rfl)
  rw [hchanges] at hround
  have hgreeting := observed_step (observed_step hround (.sensorChange rfl))
    (.acceptSnapshot rfl rfl)
  have hsent := observed_step (observed_step hgreeting (.acceptWrite rfl)) (.mainSend rfl)
  have hfirst := observed_step (observed_step hsent (.forward (i := 0) rfl (.receive rfl rfl)))
    (.forward (i := 0) rfl (.write rfl))
  have hsecond := observed_step (observed_step hfirst (.forward (i := 0) rfl (.receive rfl rfl)))
    (.forward (i := 0) rfl (.write rfl))
  exact ⟨_, _, _, hsecond, rfl, rfl, rfl⟩

end Foverin
