import Foverin.Available
import Foverin.Brain.Sessions

set_option relaxedAutoImplicit false
set_option autoImplicit false

/-!
# Where the memory is

`resolve_memory_path` of `foverin/src/memory.rs` and `PolicyEngine::open` of
`foverin/src/brain.rs`: the memory file is looked for anew at every start, in the environment, in
the working directory and next to the executable.  A save may create the file, so that a later
start finds more files than an earlier one did.

A life of the daemon is a run with restarts on a whole file system.  It refines a session, which
has one path and one file.

## Main definitions

* `Foverin.Surroundings`, `Foverin.resolveMemoryPath` — where the file is looked for.
* `Foverin.PolicyEngine.openIn` — a start of the engine.
* `Foverin.lifeMachine` — runs with restarts on a file system.

## Main results

* `Foverin.resolveMemoryPath_update` — a write to the memory file does not move it.
* `Foverin.Life.Refines.step` — a step of a life is a step of the session.
* `Foverin.life_refines_session` — whole lives.
-/

namespace Foverin

open Finmap

variable {F : Type}

/-! ## Files and paths -/

/-- What stays the same around the daemon. -/
structure Surroundings where
  /-- `FOVERIN_MEMORY`, if it is set to a text. -/
  foverinMemory : Option MemoryPath
  /-- The default name in the directory of the executable, if this is known. -/
  nextToExe : Option MemoryPath
  /-- The text of cpu0's list of governors, if it can be read. -/
  governors : Option String
  /-- The file that a path leads to.  Two paths may lead to one file. -/
  node : MemoryPath → ℕ

/-- A file system: what is stored in every file. -/
abbrev Files := ℕ → Disk

/-- `Path::is_file`. -/
def Surroundings.isFile (env : Surroundings) (files : Files) (path : MemoryPath) : Bool :=
  (files (env.node path)).isSome

/-- `resolve_memory_path`: the environment, then the working directory, then next to the
executable. -/
def resolveMemoryPath (env : Surroundings) (files : Files) : MemoryPath :=
  match env.foverinMemory with
  | some path => path
  | none =>
    let cwd := defaultMemoryPath
    if env.isFile files cwd then cwd
    else
      match env.nextToExe with
      | some sibling => if env.isFile files sibling then sibling else cwd
      | none => cwd

/-- `PolicyEngine::open`. -/
def PolicyEngine.openIn (serde : Serde F) (env : Surroundings) (readOk : Bool)
    (order : IterOrder String (Bucket F)) (files : Files) : Except String (PolicyEngine F) :=
  let actions := availableGovernors env.governors
  let path := resolveMemoryPath env files
  PolicyEngine.open serde readOk order (files (env.node path)) path actions

/-! ## Lives -/

/-- The engine, unless its start has failed, and the files. -/
structure Life (F : Type) where
  running : Option (PolicyEngine F)
  files : Files

/-- The engine that runs, with its file. -/
def Life.policy (env : Surroundings) (files : Files) (e : PolicyEngine F) : Policy F :=
  ⟨e, files (env.node e.memory.path)⟩

/-- The files after those of an engine have changed. -/
def Life.write (env : Surroundings) (files : Files) (e : PolicyEngine F) (disk : Disk) : Files :=
  Function.update files (env.node e.memory.path) disk

/-- The files that a restart finds. -/
def Life.flushed (serde : Serde F) (env : Surroundings) (l : Life F) (flush : Option (SaveIo F)) :
    Files :=
  match l.running, flush with
  | some e, some io =>
    Life.write env l.files e (Policy.flush serde io (Life.policy env l.files e)).2.disk
  | _, _ => l.files

/-! ## Starts -/

/-- An opened store has the path and the actions that it was opened with. -/
lemma PolicyEngine.open_path_actions {serde : Serde F} {readOk : Bool}
    {order : IterOrder String (Bucket F)} {disk : Disk} {path : MemoryPath} {actions : List String}
    {e : PolicyEngine F} (h : PolicyEngine.open serde readOk order disk path actions = .ok e) :
    e.memory.path = path ∧ e.memory.actions = (actionsOrDefault actions).1 := by
  obtain ⟨m, hm, rfl⟩ := policyOpen_eq_ok h
  obtain ⟨hpath, hactions, -⟩ := EpisodeMemory.open_spec hm
  exact ⟨hpath, hactions⟩

/-- A write to the memory file does not move it: where it was found it is still found, and where
it was to be created nothing that comes first has turned up.

**Proof sketch.** The three places are tried in the order of the source.  A place that comes before
the one that was found had no file, and the write touches it only if the two are the same node. -/
theorem resolveMemoryPath_update {env : Surroundings} {files : Files} {path : MemoryPath}
    (hpath : resolveMemoryPath env files = path) {disk : Disk}
    (hdisk : (files (env.node path)).isSome → disk.isSome) :
    resolveMemoryPath env (Function.update files (env.node path) disk) = path := by
  unfold resolveMemoryPath at hpath ⊢
  cases hset : env.foverinMemory with
  | some p =>
    rw [hset] at hpath
    exact hpath
  | none =>
    rw [hset] at hpath
    dsimp only at hpath ⊢
    unfold Surroundings.isFile at hpath ⊢
    by_cases hcwd : (files (env.node defaultMemoryPath)).isSome
    · -- the file in the working directory
      rw [if_pos hcwd] at hpath
      subst hpath
      rw [if_pos (by simpa using hdisk hcwd)]
    · rw [if_neg hcwd] at hpath
      cases hsibling : env.nextToExe with
      | none =>
        rw [hsibling] at hpath
        subst hpath
        split_ifs <;> rfl
      | some sibling =>
        rw [hsibling] at hpath
        dsimp only at hpath ⊢
        by_cases hexe : (files (env.node sibling)).isSome
        · -- the file next to the executable, which is not the one in the working directory
          rw [if_pos hexe] at hpath
          subst hpath
          have hne : env.node defaultMemoryPath ≠ env.node sibling := by
            intro heq
            rw [heq] at hcwd
            exact hcwd hexe
          rw [Function.update_of_ne hne, if_neg hcwd, Function.update_self, if_pos (hdisk hexe)]
        · -- no file yet
          rw [if_neg hexe] at hpath
          subst hpath
          rw [Function.update_self]
          split_ifs with hnew hother
          · rfl
          · by_cases heq : env.node sibling = env.node defaultMemoryPath
            · rw [heq, Function.update_self] at hother
              exact absurd hother hnew
            · rw [Function.update_of_ne heq] at hother
              exact absurd hother hexe
          · rfl

variable [FloatOps F]

/-- One step of a life: a call of `decide`, or a restart. -/
def Life.step (serde : Serde F) (env : Surroundings) (l : Life F) :
    SessionStep F → Life F × Option (PolicyDecision F)
  | .decide answers events =>
    match l.running with
    | none => (l, none)
    | some e =>
      let (p, decided) := Policy.decide serde (Life.policy env l.files e) answers events
      (⟨some p.engine, Life.write env l.files p.engine p.disk⟩, some decided.decision)
  | .restart flush readOk order =>
    let files := l.flushed serde env flush
    (⟨(PolicyEngine.openIn serde env readOk order files).toOption, files⟩, none)

/-- Runs with restarts on a file system. -/
def lifeMachine (serde : Serde F) (env : Surroundings) :
    Machine (Life F) (SessionStep F) (Option (PolicyDecision F)) :=
  ⟨Life.step serde env⟩

/-! ## Saves -/

omit [FloatOps F] in
/-- A save does not remove the file. -/
lemma EpisodeMemory.isSome_save_disk (serde : Serde F) (io : SaveIo F) (m : EpisodeMemory F)
    {disk : Disk} (h : disk.isSome) : (m.save serde io disk).disk.isSome := by
  rw [save_disk]
  cases saveText serde io m with
  | none => exact h
  | some json =>
    unfold fsWrite
    cases io.write with
    | complete => rfl
    | notOpened => exact h
    | cutAt k => rfl

lemma Stored.isSome_step_disk (serde : Serde F) (w : Stored F) (op : StoreOp F)
    (h : w.disk.isSome) : (w.step serde op).1.disk.isSome := by
  cases op with
  | select order fp prior => exact h
  | save io => exact EpisodeMemory.isSome_save_disk serde io w.memory h
  | update order io fp g r =>
    simp only [step, EpisodeMemory.update]
    split_ifs
    · exact EpisodeMemory.isSome_save_disk serde io _ h
    · exact h

lemma Stored.step_path (serde : Serde F) (w : Stored F) (op : StoreOp F) :
    (w.step serde op).1.memory.path = w.memory.path := by
  cases op with
  | select order fp prior => rfl
  | update order io fp g r => exact (step_update serde w order io fp g r).2.2.2
  | save io => exact (step_save serde w io).2.2.2

namespace Policy

variable (serde : Serde F) (p : Policy F) (env : DecideEnv F) (events : List ProcessEvent)

/-- `decide` stays with its file. -/
lemma decide_path : (p.decide serde env events).1.engine.memory.path = p.engine.memory.path := by
  have hstored := congrArg (fun w => w.memory.path) (decide_stored serde p env events)
  refine hstored.trans ?_
  exact (storeMachine serde).run_invariant (P := fun w => w.memory.path = p.engine.memory.path)
    (A := fun _ => True) rfl (fun w op _ hw => (Stored.step_path serde w op).trans hw)
    fun _ _ => trivial

lemma isSome_decide_disk (h : p.disk.isSome) :
    (p.decide serde env events).1.disk.isSome := by
  have hstored := congrArg Stored.disk (decide_stored serde p env events)
  have hdisk : (p.decide serde env events).1.disk =
      ((storeMachine serde).final p.stored (p.decide serde env events).2.calls).disk := hstored
  rw [hdisk]
  exact (storeMachine serde).run_invariant (P := fun w => w.disk.isSome)
    (A := fun _ => True) h (fun w op _ hw => Stored.isSome_step_disk serde w op hw)
    fun _ _ => trivial

end Policy

/-! ## Refinement -/

/-- A life that follows a session on one path: they run the same engine, which stays with that
path; the path leads to the file of the session and is where a start looks for it; and no other
file has been touched. -/
structure Life.Refines (env : Surroundings) (before : Files) (path : MemoryPath) (l : Life F)
    (s : Session F) : Prop where
  running : l.running = s.running
  disk : l.files (env.node path) = s.disk
  resolves : resolveMemoryPath env l.files = path
  located : ∀ e ∈ l.running, e.memory.path = path
  frame : ∀ n, n ≠ env.node path → l.files n = before n

namespace Life.Refines

variable {env : Surroundings} {before : Files} {path : MemoryPath} {l : Life F} {s : Session F}

omit [FloatOps F] in
/-- The file of the session has changed, and so has the file at the path. -/
lemma write (h : Refines env before path l s) {disk : Disk} (hdisk : s.disk.isSome → disk.isSome)
    {e : Option (PolicyEngine F)} (he : ∀ e' ∈ e, e'.memory.path = path) :
    Refines env before path ⟨e, Function.update l.files (env.node path) disk⟩ ⟨e, disk⟩ where
  running := rfl
  disk := Function.update_self ..
  resolves := by
    apply resolveMemoryPath_update h.resolves
    rwa [h.disk]
  located := he
  frame n hn := by
    show Function.update l.files (env.node path) disk n = before n
    rw [Function.update_of_ne hn, h.frame n hn]

omit [FloatOps F] in
/-- The files that a restart finds. -/
lemma flushed (serde : Serde F) (h : Refines env before path l s) (flush : Option (SaveIo F)) :
    Refines env before path (⟨none, l.flushed serde env flush⟩ : Life F)
      ⟨none, s.flushed serde flush⟩ := by
  have hnothing : Refines env before path ⟨none, l.files⟩ (⟨none, s.disk⟩ : Session F) :=
    ⟨rfl, h.disk, h.resolves, nofun, h.frame⟩
  unfold Life.flushed Session.flushed
  rw [← h.running]
  cases hrunning : l.running with
  | none => exact hnothing
  | some e =>
    cases flush with
    | none => exact hnothing
    | some io =>
      have hpath : e.memory.path = path := h.located e hrunning
      dsimp only [Life.write, Life.policy]
      rw [hpath, h.disk]
      exact h.write (fun hsome => EpisodeMemory.isSome_save_disk serde io e.memory hsome) nofun

omit [FloatOps F] in
/-- A start of the engine, with the path that it finds. -/
lemma start (serde : Serde F) (h : Refines env before path l s) (readOk : Bool)
    (order : IterOrder String (Bucket F)) :
    Refines env before path
      (⟨(PolicyEngine.openIn serde env readOk order l.files).toOption, l.files⟩ : Life F)
      ⟨(PolicyEngine.open serde readOk order s.disk path
        (availableGovernors env.governors)).toOption, s.disk⟩ where
  running := by
    unfold PolicyEngine.openIn
    dsimp only
    rw [h.resolves, h.disk]
  disk := h.disk
  resolves := h.resolves
  located e he := by
    unfold PolicyEngine.openIn at he
    dsimp only at he
    rw [h.resolves] at he
    cases hopen : PolicyEngine.open serde readOk order (l.files (env.node path)) path
        (availableGovernors env.governors) with
    | error err =>
      rw [hopen] at he
      cases he
    | ok e' =>
      rw [hopen] at he
      cases he
      exact (PolicyEngine.open_path_actions hopen).1
  frame := h.frame

/-- **One step** of a life is that step of the session. -/
theorem step (serde : Serde F) (h : Refines env before path l s) (i : SessionStep F) :
    Refines env before path (l.step serde env i).1
        (s.step serde path (availableGovernors env.governors) i).1 ∧
      (l.step serde env i).2 = (s.step serde path (availableGovernors env.governors) i).2 := by
  cases i with
  | restart flush readOk order => exact ⟨(h.flushed serde flush).start serde readOk order, rfl⟩
  | decide answers events =>
    unfold Life.step Session.step
    dsimp only
    rw [← h.running]
    cases hrunning : l.running with
    | none =>
      dsimp only
      exact ⟨h, rfl⟩
    | some e =>
      have hpath : e.memory.path = path := h.located e hrunning
      have hpolicy : Life.policy env l.files e = ⟨e, s.disk⟩ := by
        rw [Life.policy, hpath, h.disk]
      have hafter := (Policy.decide_path serde ⟨e, s.disk⟩ answers events).trans hpath
      dsimp only [Life.write]
      rw [hpolicy, hafter]
      refine ⟨h.write (fun hsome => Policy.isSome_decide_disk serde _ answers events hsome) ?_, rfl⟩
      rintro e' ⟨⟩
      exact hafter

end Life.Refines

/-- **The memory stays where it is.** Over any number of starts, calls, saves that succeed or fail
and crashes, a daemon in unchanged surroundings on a file system that nobody else writes to decides
as a session on one path with one file does.  That path is the one that the first start finds;
every later start finds it again, with what the last save has left there, even if this save has
created the file; no other file is touched.

**Proof sketch.** A simulation: as long as the path that a start resolves is the one of the first
start, a step of the life reads and writes the file that the session has.  A write keeps that path
(`resolveMemoryPath_update`). -/
theorem life_refines_session (serde : Serde F) (env : Surroundings) (before : Files)
    (steps : List (SessionStep F)) :
    let path := resolveMemoryPath env before
    let life := lifeMachine serde env
    let session := sessionMachine serde path (availableGovernors env.governors)
    let first : Session F := ⟨none, before (env.node path)⟩
    life.outputs ⟨none, before⟩ steps = session.outputs first steps ∧
      Life.Refines env before path (life.final ⟨none, before⟩ steps)
        (session.final first steps) := by
  intro path life session first
  have hstart : Life.Refines env before path ⟨none, before⟩ first :=
    ⟨rfl, rfl, rfl, nofun, fun _ _ => rfl⟩
  have hrun := life.run_simulation session (Life.Refines env before path) Eq Eq
    (fun l s i i' h heq => by
      subst heq
      exact h.step serde i) hstart (List.forall₂_refl steps)
  refine ⟨?_, hrun.1⟩
  have houts := hrun.2
  rwa [List.forall₂_eq_eq_eq] at houts

end Foverin
