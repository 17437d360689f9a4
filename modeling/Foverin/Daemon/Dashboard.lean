import Foverin.Cli
import Foverin.Daemon.Live
import Foverin.Daemon.Views
import Foverin.Memory.Selection
import Foverin.Ui

set_option relaxedAutoImplicit false
set_option autoImplicit false

/-!
# From the sensor loop to the screen

The whole way of a snapshot: the sensor task changes the shared state, the daemon sends snapshots of
it to its clients, a client reads them from its socket in chunks, and the dashboard draws the one
that it shows.

## Main definitions

* `Foverin.observedLive` — the running daemon with its observer.
* `Foverin.AppState.Displayable` — what every state that can be shown has in common.
* `Foverin.Live.Displays` — it holds of all states up to now, and of the next one.

## Main results

* `Foverin.Scan.confidence_mem` — a confidence is a number, whatever the store holds.
* `Foverin.Live.Displays.step` — every step keeps the states displayable.
* `Foverin.dashboard_truthful` — what is on the screen.
-/

namespace Foverin

open FloatOps ExtNum

/-! ## Confidence -/

section Confidence

variable {K : Type} [Field K] [LinearOrder K] [IsStrictOrderedRing K] [LogSqrt K]

omit [IsStrictOrderedRing K] in
/-- The larger of anything and zero is a number that is not negative, or infinite. -/
lemma max_zero_cases (a : ExtNum K) :
    (∃ x : K, 0 ≤ x ∧ FloatOps.max a (num 0) = num x) ∨ FloatOps.max a (num 0) = .posInf := by
  cases a with
  | nan => exact Or.inl ⟨0, le_rfl, rfl⟩
  | negInf => exact Or.inl ⟨0, le_rfl, rfl⟩
  | posInf => exact Or.inr rfl
  | num x => exact Or.inl ⟨_, le_max_right x 0, max_num x 0⟩

/-- The part of the confidence that comes from the lead of the selected action. -/
lemma margin_cases {margin : ExtNum K}
    (h : (∃ x : K, 0 ≤ x ∧ margin = num x) ∨ margin = .posInf) :
    ∃ x : K, FloatOps.min (margin * lit 80) (lit 100) = num x := by
  rcases h with ⟨x, -, rfl⟩ | rfl
  · rw [lit_eq, lit_eq, num_mul, min_num]
    exact ⟨_, rfl⟩
  · have hinf : (.posInf * lit 80 : ExtNum K) = .posInf := by
      have hpos : (0 : K) < 1 * ((80 : ℚ) : K) := by
        rw [Rat.cast_ofNat, one_mul]
        norm_num
      exact if_pos hpos
    rw [hinf, lit_eq]
    exact ⟨_, rfl⟩

/-- **Confidence.** Whatever the store holds, the confidence of a selection is a number between 5
and 100. -/
theorem Scan.confidence_mem (s : Scan (ExtNum K)) :
    ∃ x : K, s.confidence = num x ∧ 5 ≤ x ∧ x ≤ 100 := by
  have hmargin : ∀ best second : ExtNum K,
      (∃ x : K, 0 ≤ x ∧ (if FloatOps.isFinite second then FloatOps.max (best - second) (lit 0)
        else lit 1) = num x) ∨
      (if FloatOps.isFinite second then FloatOps.max (best - second) (lit 0) else lit 1) =
        .posInf := by
    intro best second
    rw [lit_eq, lit_eq, Rat.cast_zero, Rat.cast_one]
    split_ifs
    · exact max_zero_cases _
    · exact Or.inl ⟨1, zero_le_one, rfl⟩
  obtain ⟨m, hm⟩ := margin_cases (hmargin s.bestUcb s.secondUcb)
  unfold Scan.confidence
  dsimp only
  rw [hm, ofNat_eq, lit_eq, lit_eq, num_mul, min_num, max_num, clamp_num]
  have hfive : ((5 : ℚ) : K) = 5 := by norm_num
  have hhundred : ((100 : ℚ) : K) = 100 := by norm_num
  rw [hfive, hhundred]
  have hbounds : (5 : K) ≤ 100 := by norm_num
  exact ⟨_, rfl, le_min (le_max_right _ _) hbounds, min_le_right _ _⟩

end Confidence

/-! ## States that can be shown -/

section Displayable

variable {K : Type} [Field K] [LinearOrder K] [LogSqrt K]

/-- A state whose snapshot can be drawn: few lines, and a confidence between 5 and 100 if there has
been a decision. -/
structure AppState.Displayable (s : AppState (ExtNum K)) : Prop where
  stream : s.processStream.length ≤ processStreamCap
  confidence : ∀ d ∈ s.lastDecision, ∃ x : K, d.confidence = num x ∧ 5 ≤ x ∧ x ≤ 100

namespace AppState.Displayable

variable {s : AppState (ExtNum K)}

omit [LogSqrt K] in
lemma new (governor : String) : (AppState.new governor : AppState (ExtNum K)).Displayable :=
  ⟨Nat.zero_le _, nofun⟩

omit [LogSqrt K] in
lemma setStatus (h : s.Displayable) (status : String) : (s.setStatus status).Displayable :=
  ⟨h.stream, h.confidence⟩

omit [LogSqrt K] in
lemma setGovernor (h : s.Displayable) (governor : String) :
    (s.setGovernor governor).Displayable := ⟨h.stream, h.confidence⟩

omit [LogSqrt K] in
lemma pushProcess (h : s.Displayable) (line : String) : (s.pushProcess line).Displayable := by
  refine ⟨?_, h.confidence⟩
  have hstream := h.stream
  unfold AppState.pushProcess
  dsimp only
  split_ifs with hcap
  · rw [List.length_append, List.length_tail, List.length_singleton]
    unfold processStreamCap at *
    omega
  · rw [List.length_append, List.length_singleton]
    omega

/-- What is sent of it. -/
lemma snapshot (h : s.Displayable) :
    s.snapshot.processStream.length ≤ processStreamCap ∧
      ((s.snapshot.workload = none ∧ s.snapshot.confidence = lit 0) ∨
        ∃ x : K, s.snapshot.confidence = num x ∧ 5 ≤ x ∧ x ≤ 100) := by
  refine ⟨h.stream, ?_⟩
  unfold AppState.snapshot
  cases hlast : s.lastDecision with
  | none => exact Or.inl ⟨rfl, rfl⟩
  | some d => exact Or.inr (h.confidence d hlast)

end AppState.Displayable

/-- A change that keeps states displayable. -/
def Keeps (change : AppState (ExtNum K) → AppState (ExtNum K)) : Prop :=
  ∀ s, s.Displayable → (change s).Displayable

omit [LogSqrt K] in
lemma keeps_readable (records : List (List UInt8)) :
    ∀ change ∈ (SensorRound.readable records : SensorRound (ExtNum K)).changes, Keeps change := by
  intro change hchange
  obtain ⟨e, -, rfl⟩ := List.mem_map.mp hchange
  exact fun s hs => hs.pushProcess _

omit [LogSqrt K] in
lemma keeps_tick {decision : PolicyDecision (ExtNum K)}
    (h : ∃ x : K, decision.confidence = num x ∧ 5 ≤ x ∧ x ≤ 100)
    (actuated : Except IoError ActuatorReport) :
    ∀ change ∈ (SensorRound.tick decision actuated).changes, Keeps change := by
  intro change hchange
  rcases List.mem_cons.mp hchange with rfl | hchange
  · intro s hs
    refine ⟨hs.stream, ?_⟩
    rintro d ⟨⟩
    exact h
  · obtain rfl := List.mem_singleton.mp hchange
    intro s hs
    cases actuated with
    | ok report => exact hs.setGovernor _
    | error err => exact hs.setStatus _

end Displayable

/-! ## Rounds of the loop -/

section Loop

variable {K : Type} [Field K] [LinearOrder K] [IsStrictOrderedRing K] [LogSqrt K]
  (serde : Serde (ExtNum K))

/-- **Decisions.** Every decision has a confidence between 5 and 100. -/
theorem Policy.decide_confidence (p : Policy (ExtNum K)) (env : DecideEnv (ExtNum K))
    (events : List ProcessEvent) :
    ∃ x : K, (p.decide serde env events).2.decision.confidence = num x ∧ 5 ≤ x ∧ x ≤ 100 := by
  unfold decide
  dsimp only
  rw [cycle_selection, EpisodeMemory.select_fst]
  exact Scan.confidence_mem _

/-- The changes that a round leaves to the sensor task keep states displayable. -/
lemma SensorLoop.keeps_task {s : SensorLoop (ExtNum K)} (h : s.returned = none)
    (i : WakeUp (ExtNum K)) : ∀ change ∈ (i.task (s.step serde i).2).todo, Keeps change := by
  cases i with
  | shutdown io => exact nofun
  | readable ready =>
    cases ready with
    | error err => exact nofun
    | ok records => exact keeps_readable records
  | tick env cpufreq =>
    rw [step_tick serde h]
    exact keeps_tick (s.sensor.policy.decide_confidence serde env s.buffer) _

end Loop

/-! ## The running daemon -/

section Observed

variable {F : Type} [FloatOps F] (serde : Serde F)
  (toJson : StateSnapshot F → Except String String) (policy : Policy F)
  (governor memoryPath : String) (nodes : CpuNodes)

/-- The running daemon with the observer of its clients. -/
def observedLive : Lts (Live F × Views F) :=
  (live serde toJson policy governor memoryPath nodes).observe (fun _ => .start)
    fun s s' v => v.after s.daemon s'.daemon

variable {serde toJson policy governor memoryPath nodes} {s : Live F} {v : Views F}

lemma observedLive_step
    (h : (observedLive serde toJson policy governor memoryPath nodes).Reachable (s, v))
    {d : Daemon F} (hstep : Daemon.Step toJson s.daemon d)
    (hwaits : s.daemon.sensor = .waiting → d.sensor = .waiting) :
    (observedLive serde toJson policy governor memoryPath nodes).Reachable
      (⟨d, s.loop, s.woken⟩, v.after s.daemon d) :=
  h.step ⟨.task hstep hwaits, rfl⟩

/-- What is observed of the daemon is a run of the daemon with its observer. -/
lemma observedLive_daemon
    (h : (observedLive serde toJson policy governor memoryPath nodes).Reachable (s, v)) :
    (observedDaemon toJson).Reachable (s.daemon, v) := by
  refine Lts.invariant
    (P := fun p : Live F × Views F => (observedDaemon toJson).Reachable (p.1.daemon, p.2)) ?_ ?_ h
  · rintro ⟨s, v⟩ ⟨hs, hv⟩
    dsimp only at hs hv ⊢
    rw [hs, hv]
    exact .init ⟨⟨governor, memoryPath, rfl⟩, rfl⟩
  · rintro ⟨s, v⟩ ⟨s', v'⟩ hreachable ⟨hstep, hv⟩
    exact hreachable.step ⟨hstep.daemon, hv⟩

omit [FloatOps F] in
/-- The states after a step are those before it, and the current one. -/
lemma Views.mem_states {d d' : Daemon F} {app : AppState F}
    (h : app ∈ (v.after d d').past ++ [d'.app]) : app ∈ v.past ++ [d.app] ∨ app = d'.app := by
  rcases List.mem_append.mp h with hpast | hcurrent
  · unfold Views.after at hpast
    dsimp only at hpast
    split_ifs at hpast
    · exact Or.inl hpast
    · exact Or.inl (List.mem_append_left _ hpast)
  · exact Or.inr (List.mem_singleton.mp hcurrent)

/-- Between two wake-ups the sensor task makes the changes that it has to make, and no other task
changes the state. -/
lemma Daemon.Step.todo {d d' : Daemon F} (h : Daemon.Step toJson d d')
    (hwaits : d.sensor = .waiting → d'.sensor = .waiting) :
    (d'.app = d.app ∨ ∃ change ∈ d.sensor.todo, d'.app = change d.app) ∧
      ∀ change ∈ d'.sensor.todo, change ∈ d.sensor.todo := by
  cases h with
  | sensorRound round hsensor | sensorExit hsensor => exact absurd (hwaits hsensor) nofun
  | sensorChange hsensor =>
    rw [hsensor]
    refine ⟨Or.inr ⟨_, List.mem_cons_self, rfl⟩, fun change hchange => ?_⟩
    exact List.mem_cons_of_mem _ hchange
  | sensorSnapshot | sensorSkip | sensorSend => exact ⟨Or.inl rfl, nofun⟩
  | _ => exact ⟨Or.inl rfl, fun _ h => h⟩

end Observed

section Displays

variable {K : Type} [Field K] [LinearOrder K] [IsStrictOrderedRing K] [LogSqrt K]

omit [IsStrictOrderedRing K] [LogSqrt K] in
/-- All states up to now can be shown, and so can the next one. -/
structure Live.Displays (s : Live (ExtNum K)) (v : Views (ExtNum K)) : Prop where
  states : ∀ app ∈ v.past ++ [s.daemon.app], app.Displayable
  todo : ∀ change ∈ s.daemon.sensor.todo, Keeps change

variable {serde : Serde (ExtNum K)} {toJson : StateSnapshot (ExtNum K) → Except String String}
  {policy : Policy (ExtNum K)} {governor memoryPath : String} {nodes : CpuNodes}
  {s s' : Live (ExtNum K)} {v : Views (ExtNum K)}

/-- **Every step** keeps the states displayable. -/
theorem Live.Displays.step (h : s.Displays v) {start : SensorLoop (ExtNum K)}
    (hinv : s.Inv serde toJson start) (hstep : s.Step serde toJson s') :
    s'.Displays (v.after s.daemon s'.daemon) := by
  have hcurrent : s.daemon.app.Displayable := h.states _ (by simp)
  cases hstep with
  | task hstep hwaits =>
    obtain ⟨happ, htodo⟩ := hstep.todo hwaits
    refine ⟨fun app hmem => ?_, fun change hchange => h.todo change (htodo change hchange)⟩
    rcases Views.mem_states hmem with hold | rfl
    · exact h.states app hold
    · rcases happ with happ | ⟨change, hchange, happ⟩
      · rw [happ]
        exact hcurrent
      · rw [happ]
        exact h.todo change hchange _ hcurrent
  | wake i hwaiting =>
    have hrunning : s.loop.returned = none := by
      rw [hinv.running, hwaiting]
      exact nofun
    refine ⟨fun app hmem => ?_, SensorLoop.keeps_task serde hrunning i⟩
    rcases Views.mem_states hmem with hold | rfl
    · exact h.states app hold
    · exact hcurrent

lemma Live.Displays.of_reachable
    (h : (observedLive serde toJson policy governor memoryPath nodes).Reachable (s, v)) :
    s.Displays v := by
  refine (Lts.invariant (P := fun p : Live (ExtNum K) × Views (ExtNum K) =>
    p.1.Inv serde toJson (.start policy governor memoryPath nodes) ∧ p.1.Displays p.2) ?_ ?_ h).2
  · rintro ⟨s, v⟩ ⟨hs, hv⟩
    dsimp only at hs hv ⊢
    rw [hs, hv]
    refine ⟨Live.Inv.of_reachable serde toJson policy governor memoryPath nodes (.init rfl),
      fun app hmem => ?_, fun change hchange => ?_⟩
    · obtain rfl := List.mem_singleton.mp hmem
      exact (AppState.Displayable.new governor).setStatus _
    · obtain rfl := List.mem_singleton.mp hchange
      exact fun app happ => happ.setStatus _
  · rintro ⟨s, v⟩ ⟨s', v'⟩ ⟨hinv, hdisplays⟩ ⟨hstep, hv⟩
    dsimp only at hstep hv hinv hdisplays ⊢
    rw [hv]
    exact ⟨hinv.step hstep, hdisplays.step hinv hstep⟩

end Displays

/-! ## The screen -/

section Screen

variable {F : Type} [FloatOps F]

/-- The line of a state carries its snapshot. -/
lemma Sent.of_snapshotJson {serde : SnapshotSerde F} {app : AppState F} {line : String}
    (h : snapshotJson serde.toText app = .ok line)
    (hserde : ∀ text, serde.toText app.snapshot = .ok text → serde.Carries app.snapshot text) :
    Sent serde line app.snapshot := by
  unfold snapshotJson at h
  cases htext : serde.toText app.snapshot with
  | error err =>
    rw [htext] at h
    cases h
  | ok text =>
    rw [htext] at h
    cases h
    exact ⟨text, hserde text htext, rfl⟩

/-- The lines that were written to a client carry snapshots of states of the daemon. -/
lemma Views.Inv.sent {serde : SnapshotSerde F} {d : Daemon F} {v : Views F}
    (hinv : Views.Inv serde.toText d v)
    (hserde : ∀ app ∈ v.past ++ [d.app], ∀ text, serde.toText app.snapshot = .ok text →
      serde.Carries app.snapshot text) {i : ℕ} {c : Client} (hc : d.clients[i]? = some c) :
    ∃ apps : List (AppState F), (∀ app ∈ apps, app ∈ v.past ++ [d.app]) ∧
      List.Forall₂ (Sent serde) c.lines (apps.map AppState.snapshot) := by
  have hlines := (hinv.clients i c hc).lines
  generalize c.lines = lines at hlines ⊢
  generalize (v.clients i).lines = views at hlines
  induction hlines with
  | nil => exact ⟨[], nofun, .nil⟩
  | @cons line w lines views hshows _ ih =>
    obtain ⟨apps, hmem, hsent⟩ := ih
    obtain ⟨app, happ, hline⟩ := hshows
    have happ' := List.mem_of_getElem? happ
    refine ⟨app :: apps, ?_, .cons (.of_snapshotJson hline (hserde app happ')) hsent⟩
    rw [List.forall_mem_cons]
    exact ⟨happ', hmem⟩

omit [FloatOps F] in
/-- The last line carries the last snapshot. -/
lemma Sent.getLast? {serde : SnapshotSerde F} {lines : List String}
    {snaps : List (StateSnapshot F)} (h : List.Forall₂ (Sent serde) lines snaps) {line : String}
    (hline : lines.getLast? = some line) :
    ∃ snap, snaps.getLast? = some snap ∧ Sent serde line snap := by
  rw [List.getLast?_eq_head?_reverse] at hline
  rw [List.getLast?_eq_head?_reverse]
  have hreverse := List.forall₂_reverse_iff.mpr h
  generalize lines.reverse = lines at hline hreverse
  generalize snaps.reverse = snaps at hreverse ⊢
  cases hreverse with
  | nil => cases hline
  | cons hsent _ =>
    cases hline
    exact ⟨_, rfl, hsent⟩

omit [FloatOps F] in
/-- A line carries at most one snapshot. -/
lemma Sent.unique {serde : SnapshotSerde F} {line : String} {snap snap' : StateSnapshot F}
    (h : Sent serde line snap) (h' : Sent serde line snap') : snap = snap' := by
  obtain ⟨text, hcarries, rfl⟩ := h
  obtain ⟨text', hcarries', hpush⟩ := h'
  have htext : text = text' := by
    have hlist := congrArg String.toList hpush
    rw [String.toList_push, String.toList_push] at hlist
    exact String.toList_inj.mp (List.append_cancel_right hlist)
  have hread := hcarries.readsBack
  rw [htext, hcarries'.readsBack] at hread
  exact (Option.some.inj hread).symm

end Screen

section Truthful

variable {K : Type} [Field K] [LinearOrder K] [IsStrictOrderedRing K] [FloorRing K] [LogSqrt K]

/-- What is drawn of a snapshot of a state that can be shown, or before any has come. -/
lemma draw_displayable {gauge : ExtNum K → Option (ExtNum K)} (hgauge : TakesUnit gauge)
    (fmt : ExtNum K → String) {snap : StateSnapshot (ExtNum K)}
    (h : snap = .default ∨ ∃ app : AppState (ExtNum K), app.Displayable ∧ snap = app.snapshot) :
    ∃ shown, draw gauge fmt snap = some shown ∧ shown.stream.length ≤ 50 ∧ ∃ (r : K) (filled : ℕ),
      shown.inference.ratio = .num r ∧ 0 ≤ r ∧ r ≤ 1 ∧
      shown.inference.bar =
        "[" ++ String.ofList (barCells filled) ++ "] " ++ fmt snap.confidence ++ "%" ∧
      filled ≤ 10 ∧ |(filled : K) / 10 - r| ≤ 1 / 20 ∧ (snap.workload ≠ none → 1 ≤ filled) := by
  have hsnap : snap.processStream.length ≤ processStreamCap ∧
      ((snap.workload = none ∧ snap.confidence = lit 0) ∨
        ∃ x : K, snap.confidence = num x ∧ 5 ≤ x ∧ x ≤ 100) := by
    rcases h with rfl | ⟨app, happ, rfl⟩
    · exact ⟨Nat.zero_le _, Or.inl ⟨rfl, rfl⟩⟩
    · exact happ.snapshot
  obtain ⟨hstream, hconfidence⟩ := hsnap
  have hnumber : snap.confidence ≠ .nan := by
    rcases hconfidence with ⟨-, hzero⟩ | ⟨x, hx, -⟩
    · rw [hzero]
      exact nofun
    · rw [hx]
      exact nofun
  obtain ⟨shown, hshown, hlines, r, filled, hratio, h₀, h₁, hten, hbar, hclose, hfive⟩ :=
    draw_exact hgauge fmt hnumber
  refine ⟨shown, hshown, ?_, r, filled, hratio, h₀, h₁, hbar, hten, hclose, fun hdecided => ?_⟩
  · rw [hlines, drawStream, List.length_map, List.length_reverse]
    exact hstream
  · rcases hconfidence with ⟨hnone, -⟩ | ⟨x, hx, hlow, -⟩
    · exact absurd hnone hdecided
    · exact hfive x hx hlow

variable {L : Type} {R : LineReader L}

/-- **What is on the screen.** In every reachable state of the running daemon, and whatever part of
its lines a client has read in whatever chunks: the client shows what it started with or the
snapshot of a state that the daemon has been in, and nothing else.  The gauge takes it without a
panic; at most 50 lines are drawn, and a bar that agrees with the gauge up to half a cell and is not
empty once there has been a decision.  When nothing is under way and the client has read everything,
it shows the current state of the sensor loop.

**Proof sketch.** The lines of a client carry snapshots of past states, so that the client shows the
latest of them whose line feed has come.  All past states have few lines and a confidence that can
be drawn, since every change of the state keeps this.  The last line of a client that has caught up
is the snapshot of the current state, which is that of the loop when the sensor task waits. -/
theorem dashboard_truthful (hR : R.Documented) {gauge : ExtNum K → Option (ExtNum K)}
    (hgauge : TakesUnit gauge) {serde : Serde (ExtNum K)} {json : SnapshotSerde (ExtNum K)}
    {policy : Policy (ExtNum K)} {governor memoryPath : String} {nodes : CpuNodes}
    {s : Live (ExtNum K)} {v : Views (ExtNum K)}
    (h : (observedLive serde json.toText policy governor memoryPath nodes).Reachable (s, v))
    (hjson : ∀ app ∈ v.past ++ [s.daemon.app], ∀ text, json.toText app.snapshot = .ok text →
      json.Carries app.snapshot text)
    {i : ℕ} {c : Client} (hc : s.daemon.clients[i]? = some c) {chunks : List (List UInt8)}
    (hchunks : chunks.flatten <+: wire c.lines) (fmt : ExtNum K → String) :
    let cli := (cliMachine json R).final (.start R) (chunks.map .data)
    (cli.snapshot = .default ∨ ∃ app ∈ v.past ++ [s.daemon.app], cli.snapshot = app.snapshot) ∧
    (∃ shown, draw gauge fmt cli.snapshot = some shown ∧ shown.stream.length ≤ 50 ∧
      ∃ (r : K) (filled : ℕ), shown.inference.ratio = .num r ∧ 0 ≤ r ∧ r ≤ 1 ∧
        shown.inference.bar =
          "[" ++ String.ofList (barCells filled) ++ "] " ++ fmt cli.snapshot.confidence ++ "%" ∧
        filled ≤ 10 ∧ |(filled : K) / 10 - r| ≤ 1 / 20 ∧
        (cli.snapshot.workload ≠ none → 1 ≤ filled)) ∧
    ((∀ snap, ∃ text, json.toText snap = .ok text) → s.daemon.sensor = .waiting →
      s.daemon.SensorAfterMain → c.Drained s.daemon.bus → c.writeError = false →
      chunks.flatten = wire c.lines → cli.snapshot = s.loop.sensor.app.snapshot) := by
  intro cli
  have hobserved := observedLive_daemon h
  have hdisplays := Live.Displays.of_reachable h
  obtain ⟨apps, hmem, hsent⟩ := (Views.Inv.of_reachable hobserved).sent hjson hc
  obtain ⟨-, hend, hshown⟩ := Cli.run_sent hR hsent hchunks
  have hcli : cli.snapshot =
      latest ((apps.map AppState.snapshot).take (chunks.flatten.count 10)) :=
    congrArg Cli.snapshot hshown
  have hcases : cli.snapshot = .default ∨
      ∃ app ∈ v.past ++ [s.daemon.app], cli.snapshot = app.snapshot := by
    rw [hcli, latest]
    cases hlast : ((apps.map AppState.snapshot).take (chunks.flatten.count 10)).getLast? with
    | none => exact Or.inl rfl
    | some snap =>
      have hsnap := List.mem_of_mem_take (List.mem_of_getLast? hlast)
      obtain ⟨app, happ, rfl⟩ := List.mem_map.mp hsnap
      exact Or.inr ⟨app, hmem app happ, rfl⟩
  refine ⟨hcases, ?_, ?_⟩
  · refine draw_displayable hgauge fmt ?_
    rcases hcases with hdefault | ⟨app, happ, hsnap⟩
    · exact Or.inl hdefault
    · exact Or.inr ⟨app, hdisplays.states app happ, hsnap⟩
  · intro htotal hwaiting hafter hdrained herror hall
    have hreachable : (daemon json.toText).Reachable s.daemon := hobserved.of_observe
    obtain ⟨line, hcurrent, hline⟩ := (Daemon.Inv.of_reachable htotal hreachable).last_line hwaiting
      hafter (List.mem_of_getElem? hc) hdrained herror
    obtain ⟨snap, hlast, hcarried⟩ := Sent.getLast? hsent hline
    have hsnap : snap = s.daemon.app.snapshot :=
      hcarried.unique (.of_snapshotJson hcurrent (hjson _ (by simp)))
    have happ := (Live.Inv.of_reachable serde json.toText policy governor memoryPath nodes
      h.of_observe).app
    rw [hwaiting] at happ
    rw [hcli, hend.mpr hall, List.take_length, latest, hlast, hsnap, happ]
    rfl

end Truthful

/-! ## Rounds and clients -/

section Rounds

variable {F : Type} [FloatOps F] {serde : Serde F} {toJson : StateSnapshot F → Except String String}
  {policy : Policy F} {governor memoryPath : String} {nodes : CpuNodes} {s : Live F} {v : Views F}

/-- The sensor task makes its changes, publishes if it can, and waits again. -/
lemma observedLive_round
    (h : (observedLive serde toJson policy governor memoryPath nodes).Reachable (s, v))
    {todo : List (AppState F → AppState F)} (hsensor : s.daemon.sensor = .changing todo) :
    ∃ (d : Daemon F) (v' : Views F),
      (observedLive serde toJson policy governor memoryPath nodes).Reachable
        (⟨d, s.loop, s.woken⟩, v') ∧
      d.sensor = .waiting ∧ d.app = s.daemon.app.apply todo ∧ d.accept = s.daemon.accept ∧
      d.clients = s.daemon.clients := by
  have hbusy : s.daemon.sensor ≠ .waiting := by
    rw [hsensor]
    exact nofun
  induction todo generalizing s v with
  | nil =>
    cases hjson : snapshotJson toJson s.daemon.app with
    | error err =>
      have hskipped := observedLive_step h (.sensorSkip hsensor hjson) fun hwaits =>
        absurd hwaits hbusy
      exact ⟨_, _, hskipped, rfl, rfl, rfl, rfl⟩
    | ok line =>
      have htaken := observedLive_step h (.sensorSnapshot hsensor hjson) fun hwaits =>
        absurd hwaits hbusy
      have hsent := observedLive_step htaken (.sensorSend rfl) nofun
      exact ⟨_, _, hsent, rfl, rfl, rfl, rfl⟩
  | cons change todo ih =>
    have hchanged := observedLive_step h (.sensorChange hsensor) fun hwaits =>
      absurd hwaits hbusy
    exact ih hchanged rfl nofun

/-- The sensor task wakes up and goes through a round. -/
lemma observedLive_wake
    (h : (observedLive serde toJson policy governor memoryPath nodes).Reachable (s, v))
    (hwaiting : s.daemon.sensor = .waiting) {i : WakeUp F}
    {todo : List (AppState F → AppState F)}
    (htask : i.task (s.loop.step serde i).2 = .changing todo) :
    ∃ (d : Daemon F) (v' : Views F),
      (observedLive serde toJson policy governor memoryPath nodes).Reachable
        (⟨d, (s.loop.step serde i).1, s.woken ++ [i]⟩, v') ∧
      d.sensor = .waiting ∧ d.app = s.daemon.app.apply todo ∧ d.accept = s.daemon.accept ∧
      d.clients = s.daemon.clients := by
  have hwoken : (observedLive serde toJson policy governor memoryPath nodes).Reachable
      (⟨{ s.daemon with sensor := i.task (s.loop.step serde i).2 }, (s.loop.step serde i).1,
        s.woken ++ [i]⟩, v.after s.daemon { s.daemon with
          sensor := i.task (s.loop.step serde i).2 }) := h.step ⟨.wake i hwaiting, rfl⟩
  exact observedLive_round hwoken htask

/-- A tick whose decision is put in force. -/
lemma WakeUp.task_tick {s : SensorLoop F} (h : s.returned = none) (env : DecideEnv F)
    {cpufreq : Cpufreq} (haccepts : cpufreq.Accepts) :
    let d := (s.sensor.policy.decide serde env s.buffer).2.decision
    (WakeUp.tick env cpufreq).task (s.step serde (.tick env cpufreq)).2 =
      .changing (SensorRound.tick d (.ok ⟨"", d.governor⟩)).changes := by
  intro d
  have hactuated : (setScalingGovernor cpufreq d.governor s.sensor.nodes).1 =
      .ok ⟨"", d.governor⟩ :=
    (setScalingGovernor_eq_ok_iff cpufreq d.governor s.sensor.nodes _).mpr ⟨haccepts, rfl⟩
  rw [SensorLoop.step_tick serde h, ← hactuated]
  rfl

/-- A client that connects is greeted with the current state. -/
lemma observedLive_connect
    (h : (observedLive serde toJson policy governor memoryPath nodes).Reachable (s, v))
    (haccept : s.daemon.accept = .listening) (hclients : s.daemon.clients = []) {line : String}
    (hjson : snapshotJson toJson s.daemon.app = .ok line) :
    ∃ (d : Daemon F) (v' : Views F) (c : Client),
      (observedLive serde toJson policy governor memoryPath nodes).Reachable
        (⟨d, s.loop, s.woken⟩, v') ∧ d.clients[0]? = some c ∧ c.lines = [line] := by
  have hsubscribed := observedLive_step h (.acceptSubscribe haccept) id
  have hgreeting := observedLive_step hsubscribed (.acceptSnapshot rfl hjson) id
  have hconnected := observedLive_step hgreeting (.acceptWrite rfl) id
  refine ⟨_, _, ⟨s.daemon.bus.subscribe, .receiving, [line], false⟩, hconnected, ?_, rfl⟩
  dsimp only
  rw [hclients]
  rfl

end Rounds

/-! ## A decision on the screen -/

/-- A gauge that panics outside of the unit interval. -/
noncomputable def unitGauge (ratio : ExtNum ℝ) : Option (ExtNum ℝ) :=
  if FloatOps.le (lit 0) ratio && FloatOps.le ratio (lit 1) then some ratio else none

lemma unitGauge_takesUnit : TakesUnit unitGauge := by
  intro r h₀ h₁
  unfold unitGauge
  rw [lit_eq, lit_eq, Rat.cast_zero, Rat.cast_one, le_num, le_num, decide_eq_true h₀,
    decide_eq_true h₁]
  rfl

/-- The decision for a window of a compiler, where there is nothing but `performance`. -/
lemma fresh_decision :
    (Policy.decide Serde.idle (.fresh defaultMemoryPath ["performance"]) (.busy 1000)
      (windowOf 3)).2.decision =
        (⟨.compiling, .num 80, "memory bucket 0x3 hits=[rustc, cargo] → performance", 0,
          "performance", 3⟩ : PolicyDecision (ExtNum ℝ)) := by
  have hfingerprint : fingerprintBits (encodeEvents (windowOf 3)) = 3 :=
    fingerprint_windowOf (by decide)
  have hworkload : softLabel (encodeEvents (windowOf 3)) = .compiling := by decide +kernel
  have hreason : reasonText 3 (encodeEvents (windowOf 3)) "performance" =
      "memory bucket 0x3 hits=[rustc, cargo] → performance" := by decide +kernel
  have hselection := Policy.decide_of_pending_none (F := ExtNum ℝ) Serde.idle
    (.fresh defaultMemoryPath ["performance"]) (.busy 1000) (windowOf 3)
    (Policy.inv_fresh defaultMemoryPath ["performance"]) rfl
  have hdecision : ∀ (p : Policy (ExtNum ℝ)) (env : DecideEnv (ExtNum ℝ)),
      (p.decide Serde.idle env (windowOf 3)).2.decision =
        ⟨softLabel (encodeEvents (windowOf 3)),
          (p.decide Serde.idle env (windowOf 3)).2.decision.confidence,
          reasonText (fingerprintBits (encodeEvents (windowOf 3))) (encodeEvents (windowOf 3))
            (p.decide Serde.idle env (windowOf 3)).2.decision.governor,
          env.inferenceUs, (p.decide Serde.idle env (windowOf 3)).2.decision.governor,
          fingerprintBits (encodeEvents (windowOf 3))⟩ := fun _ _ => rfl
  have hselected := hselection.trans ((EpisodeMemory.select_fst ..).trans
    (Bucket.scan_new_singleton 1 _ "performance" (List.cons_ne_nil _ _)))
  rw [Selection.mk.injEq] at hselected
  rw [hdecision, hselected.1, hselected.2, hworkload, hfingerprint, hreason]
  rfl

/-- The state after a window of a compiler and the tick that decides it. -/
lemma compile_snapshot {app : AppState (ExtNum ℝ)} (hstream : app.processStream = []) :
    let d := (Policy.decide (F := ExtNum ℝ) Serde.idle (.fresh defaultMemoryPath ["performance"])
      (.busy 1000) (windowOf 3)).2.decision
    ((app.apply (SensorRound.readable (F := ExtNum ℝ)
      ((windowOf 3).map ProcessEvent.record)).changes).apply
        (SensorRound.tick d (.ok ⟨"", d.governor⟩)).changes).snapshot = decidedSnapshot := by
  intro d
  have hlines : (windowOf 3).map processLine = ["pid=0      rustc", "pid=0      cargo"] := by
    decide +kernel
  have hread : (SensorRound.readable (F := ExtNum ℝ)
      ((windowOf 3).map ProcessEvent.record)).changes =
        ["pid=0      rustc", "pid=0      cargo"].map AppState.pushProcess := by
    rw [← hlines, SensorRound.changes, filterMap_parse_records, List.map_map]
    rfl
  rw [hread, show d = _ from fresh_decision]
  obtain ⟨_, _, _, _⟩ := app
  obtain rfl : _ = [] := hstream
  rfl

/-- A client that connects after the first decision gets its greeting in two chunks. -/
theorem dashboard_truthful_decided :
    ∃ (s : Live (ExtNum ℝ)) (v : Views (ExtNum ℝ)) (c : Client),
      (observedLive Serde.idle exampleSerde.toText (.fresh defaultMemoryPath ["performance"])
        "powersave" "foverin_memory.json" fun _ => "powersave").Reachable (s, v) ∧
      s.daemon.clients[0]? = some c ∧
      let cli := (cliMachine exampleSerde LineReader.buffered).final (.start LineReader.buffered)
        [.data ((wire c.lines).take 7), .data ((wire c.lines).drop 7)]
      cli.snapshot = decidedSnapshot ∧
        ∃ shown, draw unitGauge (fun _ => " 80.0") cli.snapshot = some shown ∧
          ∃ filled ≥ 1, shown.inference.bar =
            "[" ++ String.ofList (barCells filled) ++ "] " ++ " 80.0" ++ "%" := by
  have hstart : (observedLive Serde.idle (exampleSerde (F := ExtNum ℝ)).toText
      (.fresh defaultMemoryPath ["performance"]) "powersave" "foverin_memory.json"
        fun _ => "powersave").Reachable
        (⟨.start "powersave" "foverin_memory.json", .start _ _ _ _, []⟩, .start) := .init ⟨rfl, rfl⟩
  let records := (windowOf 3).map ProcessEvent.record
  have hevents : records.filterMap parseProcessEvent = windowOf 3 :=
    filterMap_parse_records _
  obtain ⟨d₁, v₁, hattached, hwaiting₁, happ₁, haccept₁, hclients₁⟩ :=
    observedLive_round hstart rfl
  obtain ⟨d₂, v₂, hread, hwaiting₂, happ₂, haccept₂, hclients₂⟩ :=
    observedLive_wake hattached hwaiting₁ (i := .readable (.ok records)) rfl
  -- the loop has the window, and the policy that it started with
  have hloop := SensorLoop.step_readable (F := ExtNum ℝ) Serde.idle (s := .start
    (.fresh defaultMemoryPath ["performance"]) "powersave" "foverin_memory.json"
      fun _ => "powersave") rfl records
  rw [SensorLoop.drain_eq, hevents] at hloop
  obtain ⟨d₃, v₃, hticked, hwaiting₃, happ₃, haccept₃, hclients₃⟩ :=
    observedLive_wake hread hwaiting₂ (i := .tick (.busy 1000) (oneCpu none))
      (WakeUp.task_tick (by rw [hloop]; rfl) (.busy 1000) oneCpu_accepts)
  have hsnapshot : d₃.app.snapshot = decidedSnapshot := by
    rw [happ₃, happ₂, happ₁, hloop]
    exact compile_snapshot rfl
  have hjson : snapshotJson exampleSerde.toText d₃.app = .ok (decidedText.push '\n') := by
    rw [snapshotJson, hsnapshot, exampleSerde_decided]
    rfl
  obtain ⟨d, v, c, hconnected, hc, hlines⟩ := observedLive_connect hticked
    (haccept₃.trans (haccept₂.trans haccept₁)) (hclients₃.trans (hclients₂.trans hclients₁)) hjson
  refine ⟨_, v, c, hconnected, hc, ?_⟩
  have hall : [(wire c.lines).take 7, (wire c.lines).drop 7].flatten = wire c.lines := by simp
  have hsent : List.Forall₂ (Sent (exampleSerde (F := ExtNum ℝ))) c.lines [decidedSnapshot] := by
    rw [hlines]
    exact .cons ⟨_, exampleSerde_carries exampleSerde_decided, rfl⟩ .nil
  obtain ⟨-, hend, hshown⟩ := Cli.run_sent buffered_documented hsent (by rw [hall])
  rw [hend.mpr hall] at hshown
  intro cli
  have hcli : cli.snapshot = decidedSnapshot := congrArg Cli.snapshot hshown
  obtain ⟨-, ⟨shown, hdrawn, -, r, filled, -, -, -, hbar, -, -, hfilled⟩, -⟩ :=
    dashboard_truthful buffered_documented unitGauge_takesUnit hconnected
      (fun _ _ _ => exampleSerde_carries) hc (by rw [hall]) fun _ => " 80.0"
  have hworkload : cli.snapshot.workload ≠ none := by
    rw [hcli]
    exact nofun
  exact ⟨hcli, shown, hdrawn, filled, hfilled hworkload, hbar⟩

end Foverin
