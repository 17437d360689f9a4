import Foverin.Daemon.SensorLoop

set_option relaxedAutoImplicit false
set_option autoImplicit false

/-!
# The displayed governor

Every tick of the sensor loop tries to put a governor in force, on any set of nodes and with any
pattern of refused writes.  The shared state shows the governor of the latest attempt that
succeeded.

## Main definitions

* `Foverin.LoopRound.inForce` — the governor that a round has put in force.
* `Foverin.displayed` — the governor of the latest successful attempt.

## Main results

* `Foverin.Actuation.of_call` — what one attempt does, whatever the nodes answer.
* `Foverin.activeGovernor_eq` — what is displayed after a run.
* `Foverin.displayed_governor_truthful` — both, and which nodes there are.
-/

namespace Foverin

variable {F : Type}

/-! ## One attempt -/

/-- What a call of `set_scaling_governor` does: `paths` are the nodes it lists, `result` and `after`
its outcome and the governors in force afterwards. -/
structure Actuation (cpufreq : Cpufreq) (governor : String) (before : CpuNodes)
    (result : Except IoError ActuatorReport) (after : CpuNodes) : Prop where
  /-- It succeeds if the listing does and some node accepts the governor. -/
  ok_iff : (∃ report, result = .ok report) ↔
    ∃ paths, cpufreqGovernorPaths cpufreq.dir = .ok paths ∧
      ∃ path ∈ paths, cpufreq.writeError path = none
  /-- It reports the governor, which is in force on the nodes that accept it, and on no other
  because of this call. -/
  of_ok : ∀ report, result = .ok report → report.governor = governor ∧
    ∃ paths, cpufreqGovernorPaths cpufreq.dir = .ok paths ∧
      ∀ path, after path =
        if path ∈ paths ∧ cpufreq.writeError path = none then governor else before path
  /-- A failure leaves the nodes alone, and has the error of the listing, or that of the last node
  in sorted order, or says that there is none. -/
  of_error : ∀ err, result = .error err → after = before ∧
    match cpufreqGovernorPaths cpufreq.dir with
    | .error e => err = e
    | .ok paths =>
      (∃ names : List String, names.Pairwise (· ≤ ·) ∧ paths = names.map governorPath) ∧
      match paths.getLast? with
      | none => err.kind = .notFound
      | some path => cpufreq.writeError path = some err

theorem Actuation.of_call (cpufreq : Cpufreq) (governor : String) (nodes : CpuNodes) :
    Actuation cpufreq governor nodes (setScalingGovernor cpufreq governor nodes).1
      (setScalingGovernor cpufreq governor nodes).2 where
  ok_iff := by
    simp only [setScalingGovernor_eq_ok_iff, Cpufreq.Accepts]
    constructor
    · rintro ⟨report, haccepts, -⟩
      exact haccepts
    · intro haccepts
      exact ⟨_, haccepts, rfl⟩
  of_ok report h := by
    obtain ⟨⟨paths, hpaths, -⟩, rfl⟩ :=
      (setScalingGovernor_eq_ok_iff cpufreq governor nodes report).mp h
    refine ⟨rfl, paths, hpaths, fun path => ?_⟩
    rw [setScalingGovernor_snd hpaths]
  of_error err h := by
    refine ⟨setScalingGovernor_nodes_of_error h, ?_⟩
    have herror := setScalingGovernor_error h
    cases hpaths : cpufreqGovernorPaths cpufreq.dir with
    | error e =>
      rw [hpaths] at herror
      exact herror
    | ok paths =>
      rw [hpaths] at herror
      obtain ⟨entries, names, -, -, hsorted, hnodes⟩ :=
        ((cpufreqGovernorPaths_listing cpufreq.dir).ok_iff paths).mp hpaths
      refine ⟨⟨names, hsorted, hnodes⟩, ?_⟩
      dsimp only at herror ⊢
      cases hlast : paths.getLast? with
      | none =>
        rw [hlast] at herror
        rw [herror]
      | some path =>
        rw [hlast] at herror
        exact herror

/-! ## Runs -/

/-- The governor that a round has put in force: the argument of a call that succeeded. -/
def LoopRound.inForce : LoopRound F → Option String
  | .ticked _ done =>
    match done.actuated with
    | .ok _ => some done.decided.decision.governor
    | .error _ => none
  | _ => none

/-- The governor of the latest call that succeeded, or the one that was read at the start. -/
def displayed (governor : String) (rounds : List (LoopRound F)) : String :=
  (rounds.filterMap LoopRound.inForce).getLast?.getD governor

lemma displayed_concat (governor : String) (rounds : List (LoopRound F)) (o : LoopRound F) :
    displayed governor (rounds ++ [o]) = o.inForce.getD (displayed governor rounds) := by
  unfold displayed
  rw [List.filterMap_append]
  cases ho : o.inForce with
  | none => simp [ho]
  | some g => simp [ho]

/-- A drain does not touch the display. -/
lemma SensorLoop.drain_activeGovernor (s : SensorLoop F) (records : List (List UInt8)) :
    (s.drain records).sensor.app.activeGovernor = s.sensor.app.activeGovernor := by
  unfold drain
  induction records generalizing s with
  | nil => rfl
  | cons bytes records ih =>
    rw [List.foldl_cons, ih]
    unfold deliver
    cases parseProcessEvent bytes <;> rfl

/-- A tick shows the governor that was reported, if the call succeeded. -/
lemma apply_tick_activeGovernor (app : AppState F) (decision : PolicyDecision F)
    (actuated : Except IoError ActuatorReport) :
    (app.apply (SensorRound.tick decision actuated).changes).activeGovernor =
      match actuated with
      | .ok report => report.governor
      | .error _ => app.activeGovernor := by
  cases actuated <;> rfl

section Runs

variable [FloatOps F] (serde : Serde F)

/-- What a tick reports is the governor that it has decided for. -/
lemma tick_report {s : Sensor F} {i : TickInput F} {report : ActuatorReport}
    (h : (s.tick serde i).2.actuated = .ok report) :
    report.governor = (s.tick serde i).2.decided.decision.governor := by
  have hreport := (setScalingGovernor_eq_ok_iff i.cpufreq
    (s.tick serde i).2.decided.decision.governor s.nodes report).mp h
  exact congrArg ActuatorReport.governor hreport.2

/-- A round shows the governor that it has put in force, and otherwise what was shown before. -/
lemma SensorLoop.step_activeGovernor {s : SensorLoop F} (hrunning : s.returned = none)
    {i : WakeUp F} (hi : i.continues = true) :
    (s.step serde i).1.sensor.app.activeGovernor =
      (s.step serde i).2.inForce.getD s.sensor.app.activeGovernor := by
  cases i with
  | shutdown io => cases hi
  | tick env cpufreq =>
    rw [step_tick serde hrunning]
    let done := (s.sensor.tick serde ⟨s.buffer, env, cpufreq⟩).2
    have hshown := apply_tick_activeGovernor s.sensor.app done.decided.decision done.actuated
    refine hshown.trans ?_
    show _ = (LoopRound.inForce (.ticked s.buffer done)).getD _
    unfold LoopRound.inForce
    cases h : done.actuated with
    | error err =>
      simp only [h]
      rfl
    | ok report =>
      simp only [h]
      exact tick_report serde h
  | readable ready =>
    cases ready with
    | error err => cases hi
    | ok records =>
      rw [step_readable serde hrunning]
      exact drain_activeGovernor s records

variable (policy : Policy F) (governor memoryPath : String) (nodes : CpuNodes)

/-- **The display** after a run of wake-ups that the loop handles. -/
theorem activeGovernor_eq {ins : List (WakeUp F)} (h : ∀ i ∈ ins, i.continues = true) :
    ((sensorLoop serde).final (.start policy governor memoryPath nodes)
        ins).sensor.app.activeGovernor =
      displayed governor
        ((sensorLoop serde).outputs (.start policy governor memoryPath nodes) ins) := by
  induction ins using List.reverseRecOn with
  | nil => rfl
  | append_singleton ins i ih =>
    have hins : ∀ j ∈ ins, j.continues = true := fun j hj => h j (by simp [hj])
    have hrunning := (Handles.run serde policy governor memoryPath nodes hins).running
    rw [Machine.final_concat, Machine.outputs_concat, displayed_concat, ← ih hins]
    exact SensorLoop.step_activeGovernor serde hrunning (h i (by simp))

/-- **The displayed governor is truthful.** An attempt succeeds exactly if the listing does and
some node accepts the governor; it then is in force on exactly the nodes that accept it, and a
failed attempt changes no node and reports the error of the listing or of the last node.  In every
run each tick makes one attempt, for the governor that was decided, and after every run the state
shows the governor of the latest attempt that succeeded, or the one that was read at the start.
The listing is that of the nodes of all CPUs, sorted by name; a CPU is an entry whose name is `cpu`
and digits.

**Proof sketch.** A call of the actuator is described by `Actuation`.  The wake-ups that are
handled each take one step of the loop, and folding what the ticks report gives the governor that
is displayed; after the return there is nothing to report. -/
theorem displayed_governor_truthful :
    (∀ dir, Listing dir (cpufreqGovernorPaths dir)) ∧
    (∀ name, isCpuName name = true ↔
      ∃ digits, name.toList = "cpu".toList ++ digits ∧ ∀ c ∈ digits, c.isDigit = true) ∧
    (∀ (cpufreq : Cpufreq) (g : String) (before : CpuNodes),
      Actuation cpufreq g before (setScalingGovernor cpufreq g before).1
        (setScalingGovernor cpufreq g before).2) ∧
    ∀ ins : List (WakeUp F),
      let M := sensorLoop serde
      let s₀ := SensorLoop.start policy governor memoryPath nodes
      (∀ k env cpufreq, (handled ins)[k]? = some (.tick env cpufreq) →
        ∃ batch done, (M.outputs s₀ ins)[k]? = some (.ticked batch done) ∧
          (done.actuated, (M.final s₀ (ins.take (k + 1))).sensor.nodes) =
            setScalingGovernor cpufreq done.decided.decision.governor
              (M.final s₀ (ins.take k)).sensor.nodes) ∧
      (M.final s₀ ins).sensor.app.activeGovernor = displayed governor (M.outputs s₀ ins) := by
  refine ⟨cpufreqGovernorPaths_listing, isCpuName_iff, Actuation.of_call, fun ins => ?_⟩
  intro M s₀
  constructor
  · intro k env cpufreq hk
    obtain ⟨hi, htake⟩ := take_handled hk
    have hrun := Handles.run serde policy governor memoryPath nodes htake
    have hstep := SensorLoop.step_tick serde hrun.running env cpufreq
    refine ⟨(M.final s₀ (ins.take k)).buffer,
      ((M.final s₀ (ins.take k)).sensor.tick serde
        ⟨(M.final s₀ (ins.take k)).buffer, env, cpufreq⟩).2, ?_, ?_⟩
    · rw [Machine.getElem?_outputs, hi, Option.map_some]
      exact congrArg (fun r => some r.2) hstep
    · rw [Machine.final_take_succ _ hi]
      exact congrArg (fun r => (_, r.1.sensor.nodes)) hstep
  · obtain ⟨-, happ, -, rest, houts, hrest⟩ :=
      SensorLoop.final_handled serde policy governor memoryPath nodes ins
    have hnone : rest.filterMap LoopRound.inForce = [] := by
      rw [List.filterMap_eq_nil_iff]
      intro o ho
      cases o with
      | ticked batch done => exact absurd rfl (hrest _ ho batch done)
      | _ => rfl
    rw [happ, houts, activeGovernor_eq serde policy governor memoryPath nodes
      (continues_of_mem_handled ins)]
    unfold displayed
    rw [List.filterMap_append, hnone, List.append_nil]

end Runs

end Foverin
