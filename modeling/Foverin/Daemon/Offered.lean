import Foverin.Brain.Location
import Foverin.Daemon.Governors

set_option relaxedAutoImplicit false
set_option autoImplicit false

/-!
# Only governors that are offered

The actions of the policy are read from the kernel when the engine is opened.  The memory file may
have been written elsewhere and know other governors; they are never selected, never written to a
node and never learned about again.

## Main definitions

* `Foverin.EpisodeMemory.Knows` — the governors that a store has statistics of.
* `Foverin.SensorLoop.Offering` — what holds of the sensor loop after every round.

## Main results

* `Foverin.SensorLoop.Offering.step` — every round keeps it.
* `Foverin.only_offered_governors` — whole runs.
-/

namespace Foverin

open Finmap FloatOps

variable {F : Type}

/-! ## Statistics -/

/-- A store has statistics only of some governors, and of those that another store has in the same
bucket. -/
def EpisodeMemory.Knows (actions : List String) (m₀ m : EpisodeMemory F) : Prop :=
  ∀ fp b, m.buckets.lookup fp = some b → ∀ g ∈ b.actions,
    g ∈ actions ∨ ∃ b₀, m₀.buckets.lookup fp = some b₀ ∧ g ∈ b₀.actions

/-- A call is not an update for a governor outside a list. -/
def StoreOp.Credits (actions : List String) : StoreOp F → Prop
  | .update _ _ _ g _ => g ∈ actions
  | _ => True

section Store

variable [FloatOps F] {actions : List String} {m₀ : EpisodeMemory F}

omit [FloatOps F] in
lemma EpisodeMemory.Knows.entryOrNew {m : EpisodeMemory F} (h : m₀.Knows actions m)
    (fp tick : UInt64) :
    ∀ g ∈ (entryOrNew fp tick m.buckets).actions,
      g ∈ actions ∨ ∃ b₀, m₀.buckets.lookup fp = some b₀ ∧ g ∈ b₀.actions := by
  unfold Foverin.entryOrNew
  cases hb : m.buckets.lookup fp with
  | none =>
    intro g hg
    exact absurd hg (Finmap.notMem_empty)
  | some b => exact h fp b hb

/-- A call adds at most the governor that it credits. -/
lemma Stored.knows_step (serde : Serde F) {w : Stored F} (h : m₀.Knows actions w.memory)
    {op : StoreOp F} (hop : op.Credits actions) :
    m₀.Knows actions (w.step serde op).1.memory := by
  intro fp b hb g hg
  rcases lookup_step serde hb with ⟨-, hsame⟩ | ⟨order, prior, rfl, rfl⟩ |
    ⟨order, io, g', r, rfl, rfl⟩
  · exact h fp b hsame g hg
  · exact h.entryOrNew fp _ g hg
  · rcases Finmap.mem_insert.mp hg with rfl | hg
    · exact Or.inl hop
    · exact h.entryOrNew fp _ g hg

namespace Policy

variable (serde : Serde F) {p : Policy F} (env : DecideEnv F) (events : List ProcessEvent)

/-- `decide` does not change the list of actions. -/
lemma decide_actions : (p.decide serde env events).1.engine.memory.actions =
    p.engine.memory.actions := cycle_actions serde _ _

/-- `decide` selects an action. -/
lemma decide_governor_mem :
    (p.decide serde env events).2.decision.governor ∈ p.engine.memory.actions := by
  have hmem := (decide_inv serde p env events).governor _ (decide_pending serde p env events)
  rwa [decide_actions] at hmem

/-- `decide` credits an action. -/
lemma knows_decide (hinv : p.Inv) (h : m₀.Knows p.engine.memory.actions p.engine.memory) :
    m₀.Knows p.engine.memory.actions (p.decide serde env events).1.engine.memory := by
  have hstored := congrArg Stored.memory (decide_stored serde p env events)
  obtain ⟨prior, hcalls⟩ := decide_calls_eq serde p env events hinv
  have hcredits : ∀ op ∈ (p.decide serde env events).2.calls,
      op.Credits p.engine.memory.actions := by
    rw [hcalls]
    intro op hop
    rcases List.mem_append.mp hop with hdue | hselect
    · cases hprev : p.engine.pending with
      | none =>
        rw [hprev] at hdue
        cases hdue
      | some prev =>
        rw [hprev, List.mem_singleton] at hdue
        rw [hdue]
        exact hinv.governor prev hprev
    · rw [List.mem_singleton.mp hselect]
      trivial
  have hmemory : (p.decide serde env events).1.engine.memory =
      ((storeMachine serde).final p.stored (p.decide serde env events).2.calls).memory := hstored
  rw [hmemory]
  exact (storeMachine serde).run_invariant
    (P := fun w => m₀.Knows p.engine.memory.actions w.memory)
    (A := fun op => op.Credits p.engine.memory.actions) h
    (fun w op hop hw => Stored.knows_step serde hw hop) hcredits

end Policy

end Store

/-! ## Nodes -/

/-- After a call a node holds what it held before, or the governor of the call. -/
lemma setScalingGovernor_nodes (cpufreq : Cpufreq) (governor : String) (nodes : CpuNodes)
    (path : String) :
    (setScalingGovernor cpufreq governor nodes).2 path = nodes path ∨
      (setScalingGovernor cpufreq governor nodes).2 path = governor := by
  cases hpaths : cpufreqGovernorPaths cpufreq.dir with
  | error err =>
    left
    unfold setScalingGovernor setAllGovernors
    rw [hpaths]
  | ok paths =>
    rw [setScalingGovernor_snd hpaths]
    dsimp only
    split_ifs
    · exact Or.inr rfl
    · exact Or.inl rfl

/-! ## Rounds -/

/-- After a round: the actions are what they were, and the nodes, the display and the statistics
hold what they held at the start, or an action. -/
structure SensorLoop.Offering (actions : List String) (s₀ s : SensorLoop F) : Prop where
  inv : s.sensor.policy.Inv
  actions_eq : s.sensor.policy.engine.memory.actions = actions
  nodes : ∀ path, s.sensor.nodes path = s₀.sensor.nodes path ∨ s.sensor.nodes path ∈ actions
  shown : s.sensor.app.activeGovernor = s₀.sensor.app.activeGovernor ∨
    s.sensor.app.activeGovernor ∈ actions
  knows : s₀.sensor.policy.engine.memory.Knows actions s.sensor.policy.engine.memory

section Rounds

variable [FloatOps F] (serde : Serde F) {actions : List String}

omit [FloatOps F] in
/-- A flush keeps what was learned and what is pending. -/
lemma Policy.Inv.flush {p : Policy F} (h : p.Inv) (io : SaveIo F) :
    (p.flush serde io).2.Inv ∧
      (p.flush serde io).2.engine.memory.SameLearned p.engine.memory := by
  have hsame := EpisodeMemory.save_sameLearned serde io p.engine.memory p.disk
  refine ⟨⟨h.primed, fun c hc => ?_, fun c hc => ?_⟩, hsame⟩
  · have hactions : (p.flush serde io).2.engine.memory.actions = p.engine.memory.actions :=
      hsame.2.2.1
    rw [hactions]
    exact h.governor c hc
  · have hbuckets : (p.flush serde io).2.engine.memory.buckets = p.engine.memory.buckets := hsame.1
    rw [hbuckets]
    exact h.resident c hc

/-- The nodes after a tick. -/
lemma Sensor.tick_nodes (s : Sensor F) (i : TickInput F) : (s.tick serde i).1.nodes =
    (setScalingGovernor i.cpufreq (s.tick serde i).2.decided.decision.governor s.nodes).2 := rfl

/-- The shared state after a tick. -/
lemma Sensor.tick_app (s : Sensor F) (i : TickInput F) : (s.tick serde i).1.app =
    s.app.apply (SensorRound.tick (s.tick serde i).2.decided.decision
      (s.tick serde i).2.actuated).changes := rfl

namespace SensorLoop

variable {s₀ s : SensorLoop F}

/-- A tick. -/
lemma Offering.tick (h : Offering actions s₀ s) (i : TickInput F) :
    Offering actions s₀ { s with sensor := (s.sensor.tick serde i).1, buffer := [] } ∧
      (s.sensor.tick serde i).2.decided.decision.governor ∈ actions := by
  have hgovernor : (s.sensor.tick serde i).2.decided.decision.governor ∈ actions := by
    rw [← h.actions_eq]
    exact Policy.decide_governor_mem serde i.env i.batch
  refine ⟨?_, hgovernor⟩
  constructor
  · exact Policy.decide_inv serde _ _ _
  · exact (Policy.decide_actions serde i.env i.batch).trans h.actions_eq
  · intro path
    dsimp only
    rw [Sensor.tick_nodes]
    rcases setScalingGovernor_nodes i.cpufreq (s.sensor.tick serde i).2.decided.decision.governor
      s.sensor.nodes path with hsame | hwritten
    · rw [hsame]
      exact h.nodes path
    · rw [hwritten]
      exact Or.inr hgovernor
  · dsimp only
    rw [Sensor.tick_app, apply_tick_activeGovernor]
    cases hactuated : (s.sensor.tick serde i).2.actuated with
    | error err => exact h.shown
    | ok report =>
      right
      show report.governor ∈ actions
      rw [tick_report serde hactuated]
      exact hgovernor
  · have hknows := h.knows
    rw [← h.actions_eq] at hknows ⊢
    exact Policy.knows_decide serde i.env i.batch h.inv hknows

/-- **Every round** keeps the governors that are offered, and decides for one of them.

**Proof sketch.** A tick decides for an action, and what it writes and shows is what it decided;
the other wake-ups leave the nodes, the governor that is shown and the statistics alone. -/
theorem Offering.step (h : Offering actions s₀ s) (i : WakeUp F) :
    Offering actions s₀ (s.step serde i).1 ∧
      ∀ batch done, (s.step serde i).2 = .ticked batch done →
        done.decided.decision.governor ∈ actions := by
  cases hreturned : s.returned with
  | some r =>
    rw [step_returned serde hreturned]
    exact ⟨h, nofun⟩
  | none =>
    cases i with
    | shutdown io =>
      rw [step_shutdown serde hreturned]
      obtain ⟨hinv, hbuckets, -, hactions, -⟩ := h.inv.flush serde io
      refine ⟨⟨hinv, hactions.trans h.actions_eq, h.nodes, h.shown, ?_⟩, nofun⟩
      intro fp b hb
      exact h.knows fp b (hbuckets ▸ hb)
    | readable ready =>
      cases ready with
      | error err =>
        rw [step_failed serde hreturned]
        exact ⟨⟨h.inv, h.actions_eq, h.nodes, h.shown, h.knows⟩, nofun⟩
      | ok records =>
        rw [step_readable serde hreturned]
        have hshown := drain_activeGovernor s records
        refine ⟨?_, nofun⟩
        rw [drain_eq] at hshown ⊢
        refine ⟨h.inv, h.actions_eq, h.nodes, ?_, h.knows⟩
        dsimp only at hshown ⊢
        rw [hshown]
        exact h.shown
    | tick env cpufreq =>
      rw [step_tick serde hreturned]
      obtain ⟨hafter, hgovernor⟩ := h.tick serde ⟨s.buffer, env, cpufreq⟩
      refine ⟨hafter, ?_⟩
      rintro batch done ⟨⟩
      exact hgovernor

end SensorLoop

end Rounds

/-! ## Runs -/

section Runs

variable [FloatOps F] (serde : Serde F)

omit [FloatOps F] in
/-- A daemon that has opened its engine has its actions from the kernel. -/
lemma SensorLoop.Offering.start {env : Surroundings} {readOk : Bool}
    {order : IterOrder String (Bucket F)} {files : Files} {e : PolicyEngine F}
    (hopen : PolicyEngine.openIn serde env readOk order files = .ok e)
    (governor memoryPath : String) (nodes : CpuNodes) :
    SensorLoop.Offering (availableGovernors env.governors)
      (.start (Life.policy env files e) governor memoryPath nodes)
      (.start (Life.policy env files e) governor memoryPath nodes) := by
  have hactions : e.memory.actions = availableGovernors env.governors := by
    refine (PolicyEngine.open_path_actions hopen).2.trans ?_
    rw [actionsOrDefault, dif_neg (availableGovernors_ne_nil env.governors)]
  obtain ⟨hinv, -⟩ := Policy.inv_of_open hopen
  exact ⟨⟨hinv.primed, hinv.governor, hinv.resident⟩, hactions, fun _ => Or.inl rfl,
    Or.inl rfl, fun _ b hb _ hg => Or.inr ⟨b, hb, hg⟩⟩

/-- **Only governors that are offered.** Whatever the memory file holds, a daemon that has opened it
decides only for governors that the kernel offers.  After any run a node holds what it held before
or a governor that is offered, so does the display, and the statistics of a governor that is not
offered come from the file.

**Proof sketch.** The actions of an opened engine are governors that are offered and never change.
In every round the invariant `Offering` bounds the nodes, the display and the statistics by
them. -/
theorem only_offered_governors {env : Surroundings} {readOk : Bool}
    {order : IterOrder String (Bucket F)} {files : Files} {e : PolicyEngine F}
    (hopen : PolicyEngine.openIn serde env readOk order files = .ok e)
    (governor memoryPath : String) (nodes : CpuNodes) (ins : List (WakeUp F)) :
    let M := sensorLoop serde
    let s₀ := SensorLoop.start (Life.policy env files e) governor memoryPath nodes
    let s := M.final s₀ ins
    (∀ batch done, .ticked batch done ∈ M.outputs s₀ ins →
      Offers env.governors done.decided.decision.governor) ∧
    (∀ path, s.sensor.nodes path = nodes path ∨ Offers env.governors (s.sensor.nodes path)) ∧
    (s.sensor.app.activeGovernor = governor ∨
      Offers env.governors s.sensor.app.activeGovernor) ∧
    ∀ fp b, s.sensor.policy.engine.memory.buckets.lookup fp = some b → ∀ g ∈ b.actions,
      Offers env.governors g ∨ ∃ b₀, e.memory.buckets.lookup fp = some b₀ ∧ g ∈ b₀.actions := by
  intro M s₀ s
  have hstart : SensorLoop.Offering (availableGovernors env.governors) s₀ s₀ :=
    SensorLoop.Offering.start serde hopen governor memoryPath nodes
  have hrun : SensorLoop.Offering (availableGovernors env.governors) s₀ s :=
    M.run_invariant (A := fun _ => True) hstart (fun t i _ ht => (ht.step serde i).1)
      fun _ _ => trivial
  have houts := M.run_outputs (Q := fun o => ∀ batch done, o = .ticked batch done →
    done.decided.decision.governor ∈ availableGovernors env.governors) hstart
    (fun t i ht => ht.step serde i) ins
  refine ⟨fun batch done hmem => ?_, fun path => ?_, ?_, fun fp b hb g hg => ?_⟩
  · exact offers_of_mem (houts _ hmem batch done rfl)
  · exact (hrun.nodes path).imp id offers_of_mem
  · exact hrun.shown.imp id offers_of_mem
  · exact (hrun.knows fp b hb g hg).imp offers_of_mem id

end Runs

/-! ## Another kernel -/

/-- A kernel that offers nothing but `schedutil`, with the memory file in the working directory. -/
def schedutilOnly : Surroundings := ⟨none, none, some "schedutil\n", fun _ => 0⟩

/-- The file with two buckets. -/
def savedFiles : Files := fun _ => some savedText.toUTF8

/-- The engine that is opened from it: its statistics are of governors that are not offered. -/
noncomputable def schedutilEngine : PolicyEngine (ExtNum ℝ) :=
  ⟨{ savedBuckets with actions := ["schedutil"], actions_ne := List.cons_ne_nil _ _ }, .new, none,
    false⟩

lemma schedutilEngine_open : PolicyEngine.openIn (.resaves savedBuckets savedText) schedutilOnly
    true (IterOrder.sorted (· ≤ ·)) savedFiles = .ok schedutilEngine := by
  have hactions : availableGovernors (some "schedutil\n") = ["schedutil"] := by decide +kernel
  have hopen : EpisodeMemory.open (.resaves savedBuckets savedText) true
      (IterOrder.sorted (· ≤ ·)) (some savedText.toUTF8) defaultMemoryPath ["schedutil"] =
        .ok schedutilEngine.memory :=
    resaves_opens (IterOrder.sorted (· ≤ ·)) schedutilEngine.memory rfl rfl rfl
  show PolicyEngine.open _ true _ (some savedText.toUTF8) defaultMemoryPath
    (availableGovernors (some "schedutil\n")) = _
  rw [hactions, PolicyEngine.open, hopen]
  rfl

lemma offers_schedutilOnly {g : String} (h : Offers schedutilOnly.governors g) :
    g = "schedutil" := by
  have hlisted : listedGovernors "schedutil\n" = ["schedutil"] := by decide +kernel
  rcases h with hmem | ⟨hnone, -⟩
  · rw [hlisted] at hmem
    exact List.mem_singleton.mp hmem
  · rw [hlisted] at hnone
    cases hnone

/-- The statistics of `performance` and `powersave` stay in the store, and no window is decided for
them; the display starts with what cpu0 has in force. -/
theorem only_offered_governors_schedutil :
    let s₀ : SensorLoop (ExtNum ℝ) :=
      .start (Life.policy schedutilOnly savedFiles schedutilEngine)
        (currentGovernor (some "performance\n")) "foverin_memory.json" fun _ => "performance"
    let ins := compileWindows.flatMap windowWakeUps
    let M := sensorLoop (.resaves savedBuckets savedText)
    let s := M.final s₀ ins
    (∀ batch done, .ticked batch done ∈ M.outputs s₀ ins →
      done.decided.decision.governor = "schedutil") ∧
    s.sensor.nodes (governorPath "cpu0") ∈ ["performance", "schedutil"] ∧
    s.sensor.app.activeGovernor ∈ ["performance", "schedutil"] ∧
    ∀ b, s.sensor.policy.engine.memory.buckets.lookup 3 = some b → ∀ g ∈ b.actions,
      g ∈ ["schedutil", "performance", "powersave"] := by
  intro s₀ ins M s
  have hcurrent : currentGovernor (some "performance\n") = "performance" := by decide +kernel
  obtain ⟨hdecided, hnodes, hshown, hknows⟩ := only_offered_governors (.resaves savedBuckets
    savedText) schedutilEngine_open (currentGovernor (some "performance\n")) "foverin_memory.json"
      (fun _ => "performance") ins
  refine ⟨fun batch done hmem => offers_schedutilOnly (hdecided batch done hmem), ?_⟩
  have hfinal : (sensorLoop (.resaves savedBuckets savedText)).final (.start
      (Life.policy schedutilOnly savedFiles schedutilEngine)
      (currentGovernor (some "performance\n")) "foverin_memory.json" fun _ => "performance") ins =
        s := rfl
  rw [hfinal] at hnodes hshown hknows
  rw [hcurrent] at hshown
  clear_value s
  refine ⟨?_, ?_, fun b hb g hg => ?_⟩
  · rcases hnodes (governorPath "cpu0") with hbefore | hoffered
    · exact List.mem_pair.mpr (Or.inl hbefore)
    · exact List.mem_pair.mpr (Or.inr (offers_schedutilOnly hoffered))
  · rcases hshown with hbefore | hoffered
    · exact List.mem_pair.mpr (Or.inl hbefore)
    · exact List.mem_pair.mpr (Or.inr (offers_schedutilOnly hoffered))
  · rcases hknows 3 b hb g hg with hoffered | ⟨b₀, hb₀, hg₀⟩
    · rw [offers_schedutilOnly hoffered]
      exact List.mem_cons_self
    · have hbucket : savedBuckets.buckets.lookup 3 = some b₀ := hb₀
      obtain rfl := Option.some.inj ((lookup_twoBuckets ..).symm.trans hbucket)
      simp only [compileBucket, Finmap.mem_insert, Finmap.notMem_empty, or_false] at hg₀
      rcases hg₀ with rfl | rfl
      · exact List.mem_cons_of_mem _ List.mem_cons_self
      · exact List.mem_cons_of_mem _ (List.mem_cons_of_mem _ List.mem_cons_self)

end Foverin
