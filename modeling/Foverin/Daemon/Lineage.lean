import Foverin.Daemon.Offered
import Foverin.Daemon.Pipeline
import Foverin.Ebpf.Build
import Foverin.Memory.Argmax

set_option relaxedAutoImplicit false
set_option autoImplicit false

/-!
# Games that Steam starts

The purpose of the token that the probe writes for a child of Steam: a program that is in no
vocabulary counts as a game, and the first decision for such a window is the governor `performance`.
The layers below are put together: the probe, the ring buffer, the loop, the label, the prior and
the selection in a bucket without statistics.

## Main results

* `Foverin.softLabel_of_steamApp` — the token makes a window a game, unless it has met a compiler.
* `Foverin.Pipeline.run_loop` — what every step of the loop keeps holds after every run.
* `Foverin.steam_child_gets_performance` — from the execution to the governor.
-/

namespace Foverin

open Bitset Finmap

/-! ## The label -/

/-- The token is in the second group of the vocabulary. -/
theorem softLabel_of_steamApp {batch : List ProcessEvent} {e : ProcessEvent} (he : e ∈ batch)
    (hword : e.word = "steam_app") :
    softLabel (encodeEvents batch) = .compiling ∨ softLabel (encodeEvents batch) = .gaming := by
  obtain ⟨i, hi, hgroup⟩ : ∃ i, vocab[i]? = some "steam_app" ∧ 17 ≤ i ∧ i < 31 := by
    refine ⟨vocab.idxOf "steam_app", ?_⟩
    decide +kernel
  have hmeets : Meets (fingerprint batch) 17 31 :=
    ⟨i, hgroup.2, hgroup.1, (bit_fingerprint batch i).mpr ⟨e, he, by rw [hi, hword]⟩⟩
  rw [softLabel_eq, if_pos hmeets]
  split_ifs
  · exact .inl rfl
  · exact .inr rfl

/-- The prior of a heavy workload, if it is an action. -/
lemma resolvePrior_performance {listed : Option (List String)} {w : Workload}
    {actions : List String} (hw : w = .compiling ∨ w = .gaming) (h : "performance" ∈ actions) :
    resolvePrior listed w actions = "performance" := by
  have hwant : w.priorGovernor listed = "performance" := by
    rcases hw with rfl | rfl <;> rfl
  unfold resolvePrior
  dsimp only
  rw [hwant, if_pos (List.contains_iff_mem.mpr h)]

/-! ## Along a run -/

section Runs

variable {F : Type} [FloatOps F] (serde : Serde F) (offsets : TaskOffsets) {actions : List String}

/-- A step of the pipeline is a round of the loop or leaves it alone. -/
lemma Pipeline.step_loop (s : Pipeline F) (i : TraceEvent F) :
    (s.step serde offsets i).1.loop = s.loop ∨
      ∃ w, (s.step serde offsets i).1.loop = (s.loop.step serde w).1 := by
  cases i with
  | exec k =>
    cases hevent : (tryFoverin offsets k).2 with
    | none =>
      rw [step_exec_none serde offsets hevent]
      exact .inl rfl
    | some e =>
      rw [step_exec_some serde offsets hevent]
      exact .inl rfl
  | readable n =>
    cases hreturned : s.loop.returned with
    | some r =>
      rw [step_readable_returned serde offsets hreturned]
      exact .inl rfl
    | none =>
      rw [step_readable serde offsets hreturned]
      exact .inr ⟨_, rfl⟩
  | fails err => exact .inr ⟨_, rfl⟩
  | shutdown io => exact .inr ⟨_, rfl⟩
  | tick env cpufreq => exact .inr ⟨_, rfl⟩

/-- What every step of the loop keeps holds after every run of the pipeline. -/
theorem Pipeline.run_loop {P : SensorLoop F → Prop} {s : Pipeline F} (h₀ : P s.loop)
    (hstep : ∀ l w, P l → P (SensorLoop.step serde l w).1) (ins : List (TraceEvent F)) :
    P ((pipeline serde offsets).final s ins).loop := by
  refine (pipeline serde offsets).run_invariant (P := fun s => P s.loop) (A := fun _ => True) h₀
    (fun s i _ hs => ?_) fun _ _ => trivial
  show P (s.step serde offsets i).1.loop
  rcases s.step_loop serde offsets i with hsame | ⟨w, hround⟩
  · rwa [hsame]
  · rw [hround]
    exact hstep _ w hs

end Runs

/-! ## From the execution to the governor -/

/-- What is submitted for a child of Steam. -/
lemma tryFoverin_steam {offsets : TaskOffsets} {k : Kernel} {e : ProcessEvent}
    (hsteam : k.SteamParent offsets) (h : (tryFoverin offsets k).2 = some e) :
    e = ⟨k.tgid, padded steamApp⟩ := by
  rw [← k.parentCommIsSteam_iff offsets] at hsteam
  unfold tryFoverin at h
  cases hloc : k.dataLoc with
  | error err =>
    rw [hloc] at h
    split_ifs at h
  | ok dataLoc =>
    rw [hloc] at h
    dsimp only at h
    rw [if_pos hsteam] at h
    split_ifs at h
    exact (Option.some.inj h).symm

/-- **A game that Steam starts gets `performance`.** Where tasks are laid out by the offsets of the
probe let a child of Steam be executed and its event be submitted, in any run of the probe and the
loop of a daemon whose kernel offers `performance`.  Then the event still waits, or a tick has it in
its window.  Every such tick labels its window a game, unless it has met a compiler; and if there is
no bucket for the window yet, it decides for `performance` and writes that to the nodes.

**Proof sketch.** The probe submits the marker `steam_app` for the child, and conservation of
events puts it in the ring buffer, in the buffer or in a window.  A window with the marker is
labelled a game or a compilation, whose prior is `performance`, and a new bucket selects the
prior. -/
theorem steam_child_gets_performance {serde : Serde (ExtNum ℝ)} {env : Surroundings}
    {readOk : Bool} {order : IterOrder String (Bucket (ExtNum ℝ))} {files : Files}
    {engine : PolicyEngine (ExtNum ℝ)}
    (hopen : PolicyEngine.openIn serde env readOk order files = .ok engine)
    (hoffers : Offers env.governors "performance") (offsets : TaskOffsets)
    (governor memoryPath : String) (nodes : CpuNodes) {ins : List (TraceEvent (ExtNum ℝ))}
    {k : Kernel} (hexec : .exec k ∈ ins) {parentOf : UInt64 → UInt64}
    {commOf : UInt64 → Vector UInt8 taskCommLen} (hlayout : k.Layout offsets parentOf commOf)
    (hchild : k.SteamChild parentOf commOf) {e : ProcessEvent}
    (hsubmitted : (tryFoverin offsets k).2 = some e) :
    let M := pipeline serde offsets
    let s₀ := Pipeline.start (Life.policy env files engine) governor memoryPath nodes
    (e ∈ (M.final s₀ ins).loop.buffer ∨ e.record ∈ (M.final s₀ ins).ring ∨
      ∃ (n : ℕ) (batch : List ProcessEvent) (done : Ticked (ExtNum ℝ)),
        (M.outputs s₀ ins)[n]? = some (.ticked batch done) ∧ e ∈ batch) ∧
    ∀ (n : ℕ) (batch : List ProcessEvent) (done : Ticked (ExtNum ℝ)),
      (M.outputs s₀ ins)[n]? = some (.ticked batch done) → e ∈ batch →
      (done.decided.decision.detectedWorkload = .compiling ∨
        done.decided.decision.detectedWorkload = .gaming) ∧
      (fingerprint batch ∉ (M.final s₀ (ins.take n)).loop.sensor.policy.engine.memory.buckets →
        done.decided.decision.governor = "performance" ∧
        ∃ tickEnv cpufreq, ins[n]? = some (.tick tickEnv cpufreq) ∧
          (done.actuated, (M.final s₀ (ins.take (n + 1))).loop.sensor.nodes) =
            setScalingGovernor cpufreq "performance"
              (M.final s₀ (ins.take n)).loop.sensor.nodes) := by
  intro M s₀
  obtain rfl := tryFoverin_steam (hlayout.steamParent_iff.mpr hchild) hsubmitted
  have hword := word_steamApp k.tgid
  generalize (⟨k.tgid, padded steamApp⟩ : ProcessEvent) = e at hsubmitted hword ⊢
  constructor
  · obtain ⟨unread, hcarries⟩ := Pipeline.Carries.run serde offsets (Life.policy env files engine)
      governor memoryPath nodes ins
    have hmem : e ∈ submitted offsets ins := by
      refine List.mem_flatMap.mpr ⟨_, hexec, ?_⟩
      rw [TraceEvent.submitted, hsubmitted]
      exact List.mem_singleton.mpr rfl
    rw [← hcarries.conserved, List.mem_append, List.mem_append] at hmem
    rcases hmem with (hwindow | hbuffer) | hunread
    · obtain ⟨o, ho, hbatch⟩ := List.mem_flatMap.mp hwindow
      cases o with
      | ticked batch done =>
        obtain ⟨n, hn⟩ := List.mem_iff_getElem?.mp ho
        exact .inr (.inr ⟨n, batch, done, hn, hbatch⟩)
      | flushed | failed | drained | nothing => cases hbatch
    · exact .inl hbuffer
    · refine .inr (.inl ?_)
      rw [hcarries.ring]
      exact List.mem_map_of_mem hunread
  · intro n batch done hn he
    rw [Machine.getElem?_outputs, Option.map_eq_some_iff] at hn
    obtain ⟨i, hi, hticked⟩ := hn
    have hoffering : SensorLoop.Offering (availableGovernors env.governors) s₀.loop
        (M.final s₀ (ins.take n)).loop :=
      Pipeline.run_loop serde offsets
        (SensorLoop.Offering.start serde hopen governor memoryPath nodes)
        (fun l w hl => (hl.step serde w).1) (ins.take n)
    obtain ⟨tickEnv, cpufreq, rfl, hreturned, rfl, rfl⟩ :=
      Pipeline.step_ticked serde offsets _ i hticked
    have hlabel := softLabel_of_steamApp he hword
    refine ⟨hlabel, fun hnew => ?_⟩
    have hmem : "performance" ∈
        (M.final s₀ (ins.take n)).loop.sensor.policy.engine.memory.actions := by
      rw [hoffering.actions_eq]
      exact (mem_availableGovernors_iff (by simp [preferredGovernors])).mpr hoffers
    have hgovernor := Policy.decide_new serde hoffering.inv tickEnv hnew
      (resolvePrior_performance hlabel hmem) hmem
    refine ⟨hgovernor, tickEnv, cpufreq, hi, ?_⟩
    rw [M.final_take_succ hi]
    show (_, (SensorLoop.step serde _ (.tick tickEnv cpufreq)).1.sensor.nodes) = _
    rw [SensorLoop.step_tick serde hreturned, ← hgovernor]
    rfl

/-! ## A game -/

section Game

variable {F : Type} [FloatOps F] (serde : Serde F) {offsets : TaskOffsets} {k : Kernel}
  {e : ProcessEvent} (policy : Policy F) (governor memoryPath : String) (nodes : CpuNodes)

/-- An execution and a wake-up: the event is in the buffer. -/
lemma Pipeline.final_exec (h : (tryFoverin offsets k).2 = some e) :
    (pipeline serde offsets).final (.start policy governor memoryPath nodes)
        [.exec k, .readable 1] =
      ⟨[], (SensorLoop.start policy governor memoryPath nodes).drain [e.record]⟩ := by
  have hexec := Pipeline.step_exec_some serde offsets
    (s := .start policy governor memoryPath nodes) h
  show (Pipeline.step serde offsets (Pipeline.step serde offsets _ (.exec k)).1 (.readable 1)).1 = _
  rw [hexec, Pipeline.step_readable serde offsets rfl, Pipeline.wake,
    SensorLoop.step_readable serde rfl]
  rfl

/-- A tick after that decides for the event. -/
lemma Pipeline.outputs_exec (h : (tryFoverin offsets k).2 = some e) (env : DecideEnv F)
    (cpufreq : Cpufreq) :
    ∃ done, ((pipeline serde offsets).outputs (.start policy governor memoryPath nodes)
      [.exec k, .readable 1, .tick env cpufreq])[2]? = some (.ticked [e] done) := by
  have hread : [e.record].filterMap parseProcessEvent = [e] := filterMap_parse_records [e]
  have hfinal := Pipeline.final_exec serde policy governor memoryPath nodes h
  rw [SensorLoop.drain_eq, hread] at hfinal
  have htick : ∃ done, (Pipeline.step serde offsets ((pipeline serde offsets).final
      (.start policy governor memoryPath nodes) [.exec k, .readable 1])
      (.tick env cpufreq)).2 = .ticked [e] done := by
    rw [hfinal]
    exact ⟨_, congrArg Prod.snd (SensorLoop.step_tick serde rfl env cpufreq)⟩
  obtain ⟨done, hdone⟩ := htick
  exact ⟨done, (Machine.getElem?_outputs _ _ _ 2).trans (congrArg some hdone)⟩

end Game

/-- A daemon whose kernel offers two governors, where there is no memory file. -/
def gamePolicy : Policy (ExtNum ℝ) := .fresh defaultMemoryPath ["performance", "schedutil"]

/-- A game is started by Steam, read and decided for. -/
theorem steam_child_gets_performance_game :
    let k := steamExec fallbackOffsets (Utf8.encode "/opt/game")
    ∃ done, ((pipeline Serde.idle fallbackOffsets).outputs
        (.start gamePolicy "schedutil" "foverin_memory.json" fun _ => "schedutil")
        [.exec k, .readable 1, .tick .idle (oneCpu none)])[2]? =
          some (.ticked [⟨4243, padded steamApp⟩] done) ∧
      done.decided.decision.governor = "performance" := by
  have hopen : PolicyEngine.openIn (F := ExtNum ℝ) Serde.idle
      ⟨none, none, some "performance schedutil", fun _ => 0⟩ true (IterOrder.sorted (· ≤ ·))
      (fun _ => none) = .ok gamePolicy.engine := by
    have hactions : availableGovernors (some "performance schedutil") =
        ["performance", "schedutil"] := by decide +kernel
    show PolicyEngine.open _ _ _ none _ (availableGovernors (some "performance schedutil")) = _
    rw [hactions]
    rfl
  have hoffers : Offers (some "performance schedutil") "performance" := by decide +kernel
  generalize Utf8.encode "/opt/game" = path
  intro k
  have hlayout := steamExec_layout fallbackOffsets path
  have hchild := steamExec_child fallbackOffsets path
  obtain ⟨e, he⟩ := steamExec_event fallbackOffsets path
  have hsteam := hlayout.steamParent_iff.mpr hchild
  obtain rfl := tryFoverin_steam hsteam he
  obtain ⟨done, hdone⟩ := Pipeline.outputs_exec Serde.idle gamePolicy "schedutil"
    "foverin_memory.json" (fun _ => "schedutil") he .idle (oneCpu none)
  obtain ⟨-, hticks⟩ := steam_child_gets_performance hopen hoffers fallbackOffsets "schedutil"
    "foverin_memory.json" (fun _ => "schedutil") (List.mem_cons_self ..)
    hlayout hchild he
  have hfresh := Pipeline.final_exec Serde.idle gamePolicy "schedutil" "foverin_memory.json"
    (fun _ => "schedutil") he
  obtain ⟨-, hgovernor⟩ := hticks 2 _ done hdone (List.mem_singleton.mpr rfl)
  refine ⟨done, hdone, (hgovernor ?_).1⟩
  have htake : ([.exec (steamExec fallbackOffsets path), .readable 1, .tick .idle (oneCpu none)] :
      List (TraceEvent (ExtNum ℝ))).take 2 =
        [.exec (steamExec fallbackOffsets path), .readable 1] := rfl
  have hpolicy : Life.policy ⟨none, none, some "performance schedutil", fun _ => 0⟩
      (fun _ => none) gamePolicy.engine = gamePolicy := rfl
  rw [htake, hpolicy, hfresh, SensorLoop.drain_eq]
  exact Finmap.notMem_empty

end Foverin
