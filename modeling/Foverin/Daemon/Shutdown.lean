import Foverin.Daemon.SensorLoop
import Foverin.Memory.Unsaved

set_option relaxedAutoImplicit false
set_option autoImplicit false

/-!
# Leaving the sensor loop

At the shutdown signal the loop flushes the store before it returns.  When the ring buffer reports
an error it returns at once, and the store goes with it: what the last autosave has not written is
lost, although the daemon stays alive until its own clean shutdown.

## Main definitions

* `Foverin.loopCalls` — the calls on the store along a run of the loop.
* `Foverin.unsaved` — the updates that the file lacks after a run.

## Main results

* `Foverin.loop_stored` — the store of the loop goes through these calls.
* `Foverin.loop_credits` — every tick but the first makes one update.
* `Foverin.nothing_unsaved_iff` — which runs leave nothing unsaved.
* `Foverin.error_loses_credit` — a run that loses a credit.
-/

namespace Foverin

open Finmap

variable {F : Type}

/-- The calls on the store in one round. -/
def LoopRound.calls : LoopRound F → List (StoreOp F)
  | .flushed io _ => [.save io]
  | .ticked _ done => done.decided.calls
  | _ => []

section Runs

variable [FloatOps F] (serde : Serde F)

/-- The calls on the store along a run. -/
def loopCalls (s : SensorLoop F) (ins : List (WakeUp F)) : List (StoreOp F) :=
  ((sensorLoop serde).outputs s ins).flatMap LoopRound.calls

/-- What these calls return. -/
def loopAnswers (s : SensorLoop F) (ins : List (WakeUp F)) : List (StoreOut F) :=
  (storeMachine serde).outputs s.sensor.policy.stored (loopCalls serde s ins)

/-- The updates that the file lacks after a run: those since the last successful save. -/
def unsaved (s : SensorLoop F) (ins : List (WakeUp F)) : ℕ :=
  updatesSinceSave (loopCalls serde s ins) (loopAnswers serde s ins)

/-! ## The store of the loop -/

lemma SensorLoop.step_stored (s : SensorLoop F) (i : WakeUp F) :
    (s.step serde i).1.sensor.policy.stored =
      (storeMachine serde).final s.sensor.policy.stored (s.step serde i).2.calls := by
  cases hreturned : s.returned with
  | some r =>
    simp only [step, hreturned]
    rfl
  | none =>
    cases i with
    | shutdown io =>
      simp only [step, hreturned]
      rfl
    | tick env cpufreq =>
      rw [step_tick serde hreturned]
      exact Policy.decide_stored serde s.sensor.policy env s.buffer
    | readable ready =>
      cases ready with
      | error err =>
        simp only [step, hreturned]
        rfl
      | ok records =>
        rw [step_readable serde hreturned, drain_eq]
        rfl

/-- The store of the loop goes through the calls of its rounds. -/
theorem loop_stored (s : SensorLoop F) (ins : List (WakeUp F)) :
    ((sensorLoop serde).final s ins).sensor.policy.stored =
      (storeMachine serde).final s.sensor.policy.stored (loopCalls serde s ins) := by
  unfold loopCalls
  induction ins generalizing s with
  | nil => rfl
  | cons i ins ih =>
    rw [Machine.final_cons, Machine.outputs_cons, List.flatMap_cons, Machine.final_append, ih]
    exact congrArg (fun w => (storeMachine serde).final w _) (s.step_stored serde i)

/-! ## Updates -/

/-- What holds after wake-ups that the loop handles, for an engine that has just been opened: a
credit is pending from the first tick on, and every later tick has made one update. -/
structure Credits (s : SensorLoop F) (ins : List (WakeUp F)) (calls : List (StoreOp F)) : Prop where
  inv : s.sensor.policy.Inv
  pending : s.sensor.policy.engine.pending.isSome = decide (0 < ins.countP WakeUp.isTick)
  updates : calls.countP StoreOp.isUpdate = ins.countP WakeUp.isTick - 1
  noSave : ∀ op ∈ calls, op.fingerprint ≠ none

lemma Credits.step {s : SensorLoop F} {ins : List (WakeUp F)} {calls : List (StoreOp F)}
    (h : Credits s ins calls) (hrunning : s.returned = none) {i : WakeUp F}
    (hi : i.continues = true) :
    Credits (s.step serde i).1 (ins ++ [i]) (calls ++ (s.step serde i).2.calls) := by
  cases i with
  | shutdown io => cases hi
  | readable ready =>
    cases ready with
    | error err => cases hi
    | ok records =>
      rw [SensorLoop.step_readable serde hrunning, SensorLoop.drain_eq]
      refine ⟨h.inv, ?_, ?_, ?_⟩
      · simpa [WakeUp.isTick] using h.pending
      · simpa [WakeUp.isTick, LoopRound.calls] using h.updates
      · simpa [LoopRound.calls] using h.noSave
  | tick env cpufreq =>
    have hcount := Policy.decide_countP_isUpdate serde s.sensor.policy env s.buffer h.inv
    rw [h.pending] at hcount
    rw [SensorLoop.step_tick serde hrunning]
    let calls' := LoopRound.calls (.ticked s.buffer
      (s.sensor.tick serde ⟨s.buffer, env, cpufreq⟩).2)
    have hcalls' : calls'.countP StoreOp.isUpdate = _ := hcount
    refine ⟨Policy.decide_inv serde s.sensor.policy env s.buffer, ?_, ?_, ?_⟩
    · rw [List.countP_append, List.countP_singleton]
      simp only [WakeUp.isTick, if_true, Nat.zero_lt_succ, decide_true]
      rfl
    · have hupdates := h.updates
      rw [List.countP_append, List.countP_append, List.countP_singleton, hcalls']
      simp only [WakeUp.isTick, if_true, decide_eq_true_eq]
      split_ifs <;> omega
    · intro op hop
      rcases List.mem_append.mp hop with hop | hop
      · exact h.noSave op hop
      · exact Policy.decide_calls_fingerprint serde s.sensor.policy env s.buffer h.inv op hop

variable {readOk : Bool} {order : IterOrder String (Bucket F)} {disk : Disk} {path : MemoryPath}
  {actions : List String} {e : PolicyEngine F}

/-- The loop of an engine that has just been opened. -/
def openedLoop (e : PolicyEngine F) (disk : Disk) (governor : String) (path : MemoryPath)
    (nodes : CpuNodes) : SensorLoop F :=
  .start ⟨e, disk⟩ governor path.display nodes

/-- The calls of a run that ends with one more wake-up. -/
lemma loopCalls_concat (s : SensorLoop F) (ins : List (WakeUp F)) (i : WakeUp F) :
    loopCalls serde s (ins ++ [i]) =
      loopCalls serde s ins ++ (((sensorLoop serde).final s ins).step serde i).2.calls := by
  unfold loopCalls
  rw [Machine.outputs_concat, List.flatMap_append, List.flatMap_singleton]
  rfl

/-- **Updates.** Every tick but the first makes one update, and nothing else makes any. -/
theorem loop_credits (hopen : PolicyEngine.open serde readOk order disk path actions = .ok e)
    (governor : String) (nodes : CpuNodes) {ins : List (WakeUp F)}
    (h : ∀ i ∈ ins, i.continues = true) :
    Credits ((sensorLoop serde).final (openedLoop e disk governor path nodes) ins) ins
      (loopCalls serde (openedLoop e disk governor path nodes) ins) := by
  induction ins using List.reverseRecOn with
  | nil =>
    obtain ⟨hinv, hpending⟩ : (⟨e, disk⟩ : Policy F).Inv ∧ e.pending = none :=
      Policy.inv_of_open hopen
    refine ⟨hinv, ?_, rfl, nofun⟩
    show e.pending.isSome = _
    rw [hpending]
    rfl
  | append_singleton ins i ih =>
    have hins : ∀ j ∈ ins, j.continues = true := fun j hj => h j (by simp [hj])
    have hrun := Handles.run serde ⟨e, disk⟩ governor path.display nodes hins
    rw [Machine.final_concat, loopCalls_concat]
    exact (ih hins).step serde hrun.running (h i (by simp))

/-! ## Leaving the loop -/

omit [FloatOps F] in
/-- An engine that has just been opened has nothing to save. -/
lemma policyOpen_dirty (hopen : PolicyEngine.open serde readOk order disk path actions = .ok e) :
    e.memory.dirtySinceSave = 0 := by
  obtain ⟨m, hm, rfl⟩ := policyOpen_eq_ok hopen
  exact (EpisodeMemory.open_spec hm).2.2

/-- While the loop runs, the file lacks all updates but those of whole dozens. -/
lemma unsaved_running (hopen : PolicyEngine.open serde readOk order disk path actions = .ok e)
    (governor : String) (nodes : CpuNodes) {ins : List (WakeUp F)}
    (h : ∀ i ∈ ins, i.continues = true)
    (hsaves : NoFailedSave (loopAnswers serde (openedLoop e disk governor path nodes) ins)) :
    unsaved serde (openedLoop e disk governor path nodes) ins =
      (ins.countP WakeUp.isTick - 1) % saveEvery := by
  have hcredits := loop_credits serde hopen governor nodes h
  unfold unsaved loopAnswers at *
  rw [updatesSinceSave_mod serde _ (policyOpen_dirty serde hopen) hsaves hcredits.noSave,
    hcredits.updates]

/-- A shutdown makes one more call, which saves. -/
lemma loopCalls_shutdown (governor : String) (nodes : CpuNodes) {ins : List (WakeUp F)}
    (h : ∀ i ∈ ins, i.continues = true) (io : SaveIo F) :
    loopCalls serde (openedLoop e disk governor path nodes) (ins ++ [.shutdown io]) =
      loopCalls serde (openedLoop e disk governor path nodes) ins ++ [.save io] := by
  have hrunning :=
    (Handles.run serde ⟨e, disk⟩ governor path.display nodes h).running
  rw [loopCalls_concat]
  show _ ++ (SensorLoop.step serde ((sensorLoop serde).final
    (.start ⟨e, disk⟩ governor path.display nodes) ins) (.shutdown io)).2.calls = _
  simp only [SensorLoop.step, hrunning]
  rfl

/-- An error makes no call. -/
lemma loopCalls_error (governor : String) (nodes : CpuNodes) {ins : List (WakeUp F)}
    (h : ∀ i ∈ ins, i.continues = true) (err : IoError) :
    loopCalls serde (openedLoop e disk governor path nodes) (ins ++ [.readable (.error err)]) =
      loopCalls serde (openedLoop e disk governor path nodes) ins := by
  have hrunning :=
    (Handles.run serde ⟨e, disk⟩ governor path.display nodes h).running
  rw [loopCalls_concat]
  show _ ++ (SensorLoop.step serde ((sensorLoop serde).final
    (.start ⟨e, disk⟩ governor path.display nodes) ins) (.readable (.error err))).2.calls = _
  simp only [SensorLoop.step, hrunning]
  exact List.append_nil _

/-- The loop returns at a wake-up that it does not continue after. -/
lemma returned_concat (governor : String) (nodes : CpuNodes) {ins : List (WakeUp F)}
    {last : WakeUp F} (h : ∀ i ∈ ins, i.continues = true) (hlast : last.continues = false) :
    ((sensorLoop serde).final (openedLoop e disk governor path nodes)
      (ins ++ [last])).returned ≠ none := by
  have hrun := Handles.run serde ⟨e, disk⟩ governor path.display nodes h
  rw [Machine.final_concat]
  exact (SensorLoop.step_returns serde hrun.running hlast).1

/-- The flush of a shutdown leaves nothing unsaved, and the store written. -/
lemma unsaved_shutdown (governor : String) (nodes : CpuNodes) {ins : List (WakeUp F)}
    (h : ∀ i ∈ ins, i.continues = true) (io : SaveIo F)
    (hsaves : NoFailedSave (loopAnswers serde (openedLoop e disk governor path nodes)
      (ins ++ [.shutdown io]))) :
    let s₀ : SensorLoop F := openedLoop e disk governor path nodes
    let stored := ((sensorLoop serde).final s₀ (ins ++ [.shutdown io])).sensor.policy.stored
    unsaved serde s₀ (ins ++ [.shutdown io]) = 0 ∧
      stored.memory.WrittenTo serde stored.disk := by
  intro s₀ stored
  have hcalls : loopCalls serde s₀ (ins ++ [.shutdown io]) = loopCalls serde s₀ ins ++ [.save io] :=
    loopCalls_shutdown serde governor nodes h io
  have hstored : stored = _ := loop_stored serde s₀ (ins ++ [.shutdown io])
  unfold loopAnswers at hsaves
  rw [hcalls] at hsaves
  have hsaved : ((((storeMachine serde).final s₀.sensor.policy.stored
      (loopCalls serde s₀ ins)).step serde (.save io)).2).saved = some true := by
    have hattempt := ((noFailedSave_concat serde _).mp hsaves).2
    cases hresult : Except.isOk ((((storeMachine serde).final s₀.sensor.policy.stored
        (loopCalls serde s₀ ins)).memory.save serde io ((storeMachine serde).final
          s₀.sensor.policy.stored (loopCalls serde s₀ ins)).disk).result) with
    | true => exact congrArg some hresult
    | false => exact absurd (congrArg some hresult) hattempt
  constructor
  · unfold unsaved loopAnswers
    rw [hcalls, updatesSinceSave_outputs_concat, countUnsaved]
    exact if_pos hsaved
  · rw [hstored, hcalls, Machine.final_concat]
    exact step_writtenTo serde _ hsaved

/-- **What leaving the loop leaves unsaved.** Take a run of the loop from open, up to the wake-up at
which it returns, in which no save that was attempted has failed.  Nothing is missing from the file
exactly if the run ends with the shutdown signal, or has no tick, or has a number of ticks that is
one more than a multiple of twelve.  A shutdown leaves the file with the text of the final store.
In any case the file is the text of the store as it was before the calls that made the missing
updates, or the file that the run started with.

**Proof sketch.** A run of the loop makes one update for every tick but the first and saves every
twelfth of them, so that the updates that are missing are counted modulo twelve.  A shutdown saves
them, and an error returns without a save. -/
theorem nothing_unsaved_iff
    (hopen : PolicyEngine.open serde readOk order disk path actions = .ok e)
    (governor : String) (nodes : CpuNodes) {ins : List (WakeUp F)} {last : WakeUp F}
    (hins : ∀ i ∈ ins, i.continues = true) (hlast : last.continues = false)
    (hsaves : NoFailedSave
      (loopAnswers serde (openedLoop e disk governor path nodes) (ins ++ [last]))) :
    let M := sensorLoop serde
    let s₀ : SensorLoop F := openedLoop e disk governor path nodes
    let s : SensorLoop F := M.final s₀ (ins ++ [last])
    let stored := s.sensor.policy.stored
    s.returned ≠ none ∧
    (unsaved serde s₀ (ins ++ [last]) = 0 ↔
      (∃ io, last = .shutdown io) ∨ ins.countP WakeUp.isTick = 0 ∨
        ins.countP WakeUp.isTick % saveEvery = 1) ∧
    ((∃ io, last = .shutdown io) → stored.memory.WrittenTo serde stored.disk) ∧
    ∃ pre post, loopCalls serde s₀ (ins ++ [last]) = pre ++ post ∧
      post.countP StoreOp.isUpdate = unsaved serde s₀ (ins ++ [last]) ∧
      (pre = [] ∧ stored.disk = disk ∨
        ((storeMachine serde).final ⟨e.memory, disk⟩ pre).memory.WrittenTo serde stored.disk) := by
  intro M s₀ s stored
  have hstored : stored = (storeMachine serde).final ⟨e.memory, disk⟩ _ :=
    loop_stored serde s₀ (ins ++ [last])
  refine ⟨returned_concat serde governor nodes hins hlast, ?_, ?_, ?_⟩
  · cases last with
    | tick env cpufreq => cases hlast
    | shutdown io =>
      have hnone := (unsaved_shutdown serde governor nodes hins io hsaves).1
      exact ⟨fun _ => Or.inl ⟨io, rfl⟩, fun _ => hnone⟩
    | readable ready =>
      cases ready with
      | ok records => cases hlast
      | error err =>
        have hcalls : loopCalls serde s₀ (ins ++ [.readable (.error err)]) =
            loopCalls serde s₀ ins := loopCalls_error serde governor nodes hins err
        unfold loopAnswers at hsaves
        rw [hcalls] at hsaves
        have hunsaved := unsaved_running serde hopen governor nodes hins hsaves
        unfold unsaved loopAnswers at *
        rw [hcalls, hunsaved]
        unfold saveEvery
        constructor
        · intro hzero
          right
          omega
        · rintro (⟨io, hio⟩ | hticks)
          · cases hio
          · omega
  · rintro ⟨io, rfl⟩
    exact (unsaved_shutdown serde governor nodes hins io hsaves).2
  · obtain ⟨pre, post, hcalls, hcount, hdisk⟩ := exists_writtenTo serde _ hsaves
    refine ⟨pre, post, hcalls, hcount.symm, ?_⟩
    rw [hstored]
    exact hdisk

end Runs

/-! ## A compiler -/

/-- A run of windows makes the calls of the decisions for them. -/
lemma loopCalls_windows [FloatOps F] (serde : Serde F)
    (windows : List (List (List UInt8) × DecideEnv F × Cpufreq)) {s : SensorLoop F}
    (hrunning : s.returned = none) (hbuffer : s.buffer = []) :
    loopCalls serde s (windows.flatMap windowWakeUps) =
      ((policyMachine serde).outputs s.sensor.policy
        (windows.map fun w => (w.2.1, w.1.filterMap parseProcessEvent))).flatMap
          Decided.calls := by
  induction windows generalizing s with
  | nil => rfl
  | cons w windows ih =>
    have hrunning' : (s.drain w.1).returned = none := by
      rw [SensorLoop.drain_eq]
      exact hrunning
    have hwindow : (s.drain w.1).buffer = w.1.filterMap parseProcessEvent := by
      rw [SensorLoop.drain_eq]
      exact congrArg (· ++ _) hbuffer
    have hpolicy : (s.drain w.1).sensor.policy = s.sensor.policy := by
      rw [SensorLoop.drain_eq]
    let s' := s.drain w.1
    let s'' : SensorLoop F :=
      { s' with sensor := (s'.sensor.tick serde ⟨s'.buffer, w.2.1, w.2.2⟩).1, buffer := [] }
    have hstep : (sensorLoop serde).step s (.readable (.ok w.1)) = (s', .drained) :=
      SensorLoop.step_readable serde hrunning w.1
    have hstep' : (sensorLoop serde).step s' (.tick w.2.1 w.2.2) =
        (s'', .ticked s'.buffer (s'.sensor.tick serde ⟨s'.buffer, w.2.1, w.2.2⟩).2) :=
      SensorLoop.step_tick serde hrunning' w.2.1 w.2.2
    have hrest := ih (s := s'') hrunning' rfl
    unfold loopCalls at hrest ⊢
    rw [List.flatMap_cons, windowWakeUps, List.cons_append, List.cons_append, List.nil_append,
      Machine.outputs_cons, Machine.outputs_cons, hstep, hstep', List.flatMap_cons,
      List.flatMap_cons, hrest, List.map_cons, Machine.outputs_cons, List.flatMap_cons, ← hwindow,
      ← hpolicy]
    rfl

/-- An engine that has been opened from the file with two buckets. -/
noncomputable def savedEngine : PolicyEngine (ExtNum ℝ) := ⟨savedBuckets, .new, none, false⟩

/-- The loop of this engine. -/
noncomputable def savedLoop : SensorLoop (ExtNum ℝ) :=
  openedLoop savedEngine (some savedText.toUTF8) "powersave" defaultMemoryPath fun _ => "powersave"

lemma savedEngine_open (m : EpisodeMemory (ExtNum ℝ)) (text : String) :
    PolicyEngine.open (.resaves m text) true (IterOrder.sorted (· ≤ ·)) (some savedText.toUTF8)
      defaultMemoryPath ["performance", "powersave"] = .ok savedEngine := by
  have hopen : EpisodeMemory.open (.resaves m text) true (IterOrder.sorted (· ≤ ·))
      (some savedText.toUTF8) defaultMemoryPath ["performance", "powersave"] = .ok savedBuckets :=
    resaves_opens (IterOrder.sorted (· ≤ ·)) savedBuckets rfl rfl rfl
  rw [PolicyEngine.open, hopen]
  rfl

lemma compileWindows_continue :
    ∀ i ∈ compileWindows.flatMap windowWakeUps, i.continues = true := by
  intro i hi
  obtain ⟨w, -, hmem⟩ := List.mem_flatMap.mp hi
  rcases List.mem_pair.mp hmem with rfl | rfl <;> rfl

/-- The second window pays for the selection in the first one. -/
lemma compile_calls (serde : Serde (ExtNum ℝ)) : ∃ prior prior',
    loopCalls serde savedLoop (compileWindows.flatMap windowWakeUps) =
      [.select byFingerprint 3 prior, .update byFingerprint SaveIo.idle 3 "performance" (.num 1),
        .select byFingerprint 3 prior'] := by
  have hwindows : compileWindows.map (fun w => (w.2.1, w.1.filterMap parseProcessEvent)) =
      [(.busy 1000, windowOf 3), (.busy 1100, windowOf 3)] := by
    simp only [compileWindows, List.map_cons, List.map_nil, filterMap_parse_records]
  have hfingerprint : fingerprintBits (encodeEvents (windowOf 3)) = 3 :=
    fingerprint_windowOf (by decide)
  obtain ⟨hinv, hpending⟩ := Policy.inv_of_open (savedEngine_open savedBuckets "")
  have hgovernor : (Policy.decide serde ⟨savedEngine, some savedText.toUTF8⟩ (.busy 1000)
      (windowOf 3)).2.decision.governor = "performance" := by
    rw [Policy.decide_governor serde _ _ _ hinv hpending, hfingerprint]
    exact savedBuckets_governor ..
  have hreward := busy_reward savedEngine.metrics (by decide : (1000 : UInt64) < 1100)
  obtain ⟨prior, prior', hcalls⟩ := two_calls serde hinv hpending (.busy 1000, windowOf 3)
    (.busy 1100, windowOf 3)
  refine ⟨prior, prior', ?_⟩
  rw [loopCalls_windows serde compileWindows rfl rfl, hwindows]
  refine hcalls.trans ?_
  rw [Policy.decide_fingerprint, hgovernor, hfingerprint]
  exact congrArg (fun r => [StoreOp.select byFingerprint 3 prior,
    .update byFingerprint SaveIo.idle 3 "performance" r, .select byFingerprint 3 prior']) hreward

/-- What was learned is in the store, and no save was attempted. -/
lemma compile_stored (serde : Serde (ExtNum ℝ)) :
    let calls := loopCalls serde savedLoop (compileWindows.flatMap windowWakeUps)
    (storeMachine serde).final ⟨savedBuckets, some savedText.toUTF8⟩ calls =
        ⟨twoBuckets 43 3 2 (3 / 5) 1, some savedText.toUTF8⟩ ∧
      NoFailedSave ((storeMachine serde).outputs ⟨savedBuckets, some savedText.toUTF8⟩ calls) := by
  obtain ⟨prior, prior', hcalls⟩ := compile_calls serde
  rw [hcalls]
  refine ⟨savedBuckets_round .., noFailedSave_of_few serde _ rfl ?_ ?_⟩
  · simp [StoreOp.fingerprint]
  · exact (by decide : 1 < saveEvery)

/-- Two windows of a compiler are opened from the file with two buckets.  The shutdown writes what
was learned; had the ring buffer reported an error instead, it would be missing. -/
theorem nothing_unsaved_compile :
    let serde := Serde.resaves (twoBuckets 43 3 2 (3 / 5) 0) learnedText
    let ins := compileWindows.flatMap windowWakeUps
    unsaved serde savedLoop (ins ++ [.shutdown SaveIo.idle]) = 0 ∧
      unsaved serde savedLoop (ins ++ [.readable (.error permissionDenied)]) ≠ 0 ∧
      ((sensorLoop serde).final savedLoop
        (ins ++ [.shutdown SaveIo.idle])).sensor.policy.disk = some learnedText.toUTF8 := by
  intro serde ins
  have hserde : serde = Serde.resaves (twoBuckets 43 3 2 (3 / 5) 0) learnedText := rfl
  have hopen := savedEngine_open (twoBuckets 43 3 2 (3 / 5) 0) learnedText
  rw [← hserde] at hopen
  let w : Stored (ExtNum ℝ) := ⟨savedBuckets, some savedText.toUTF8⟩
  obtain ⟨hfinal, hfew⟩ := compile_stored serde
  have hsave : Stored.step serde ⟨twoBuckets 43 3 2 (3 / 5) 1, some savedText.toUTF8⟩
      (.save SaveIo.idle) =
        (⟨twoBuckets 43 3 2 (3 / 5) 0, some learnedText.toUTF8⟩, ⟨none, some true⟩) := by
    unfold Stored.step
    dsimp only
    rw [hserde, save_learned]
    rfl
  have hshutdown : loopCalls serde savedLoop (ins ++ [.shutdown SaveIo.idle]) =
      loopCalls serde savedLoop ins ++ [.save SaveIo.idle] :=
    loopCalls_shutdown serde "powersave" _ compileWindows_continue SaveIo.idle
  have herror : loopCalls serde savedLoop (ins ++ [.readable (.error permissionDenied)]) =
      loopCalls serde savedLoop ins :=
    loopCalls_error serde "powersave" _ compileWindows_continue permissionDenied
  have hsaves : NoFailedSave
      (loopAnswers serde savedLoop (ins ++ [.shutdown SaveIo.idle])) := by
    unfold loopAnswers
    rw [hshutdown]
    refine (noFailedSave_concat serde w).mpr ⟨hfew, ?_⟩
    rw [hfinal, hsave]
    simp
  have hsaves' : NoFailedSave
      (loopAnswers serde savedLoop (ins ++ [.readable (.error permissionDenied)])) := by
    unfold loopAnswers
    rw [herror]
    exact hfew
  refine ⟨?_, ?_, ?_⟩
  · exact (nothing_unsaved_iff serde hopen "powersave" (fun _ => "powersave")
      compileWindows_continue rfl hsaves).2.1.mpr (Or.inl ⟨SaveIo.idle, rfl⟩)
  · intro hzero
    rcases (nothing_unsaved_iff serde hopen "powersave" (fun _ => "powersave")
      compileWindows_continue rfl hsaves').2.1.mp hzero with ⟨io, hio⟩ | hticks | hticks
    · cases hio
    · exact absurd hticks (by decide)
    · exact absurd hticks (by decide)
  · have hstored := loop_stored serde savedLoop (ins ++ [.shutdown SaveIo.idle])
    have hlast : (storeMachine serde).final w (loopCalls serde savedLoop ins ++
        [.save SaveIo.idle]) = ⟨twoBuckets 43 3 2 (3 / 5) 0, some learnedText.toUTF8⟩ := by
      rw [Machine.final_concat, hfinal]
      exact congrArg Prod.fst hsave
    have hstart : savedLoop.sensor.policy.stored = w := rfl
    have hfile : ∀ p : Policy (ExtNum ℝ), p.disk = p.stored.disk := fun _ => rfl
    rw [hfile, hstored, hshutdown, hstart, hlast]

/-- **An error loses a credit.** After two ticks the ring buffer reports an error: the loop returns,
and the update of the second tick is not in the file, with no save that has failed.

**Proof sketch.** The update of the second tick is too early for an autosave, and the error makes
no call. -/
theorem error_loses_credit :
    let s₀ : SensorLoop (ExtNum ℝ) :=
      openedLoop (Policy.fresh defaultMemoryPath []).engine none "powersave" defaultMemoryPath
        fun _ => "powersave"
    let ins : List (WakeUp (ExtNum ℝ)) := [.tick .idle (oneCpu none), .tick .idle (oneCpu none),
      .readable (.error permissionDenied)]
    ((sensorLoop Serde.idle).final s₀ ins).returned ≠ none ∧
      NoFailedSave (loopAnswers Serde.idle s₀ ins) ∧ unsaved Serde.idle s₀ ins = 1 := by
  intro s₀ ins
  let ticks : List (WakeUp (ExtNum ℝ)) := [.tick .idle (oneCpu none), .tick .idle (oneCpu none)]
  have hticks : ∀ i ∈ ticks, i.continues = true := by
    intro i hi
    simp only [ticks, List.mem_cons, List.not_mem_nil, or_false, or_self] at hi
    rw [hi]
    rfl
  have hopen := policyOpen_none (F := ExtNum ℝ) Serde.idle true (IterOrder.sorted (· ≤ ·))
    defaultMemoryPath []
  have hcalls : loopCalls Serde.idle s₀ ins = loopCalls Serde.idle s₀ ticks :=
    loopCalls_error Serde.idle "powersave" _ hticks permissionDenied
  have hcredits : Credits ((sensorLoop Serde.idle).final s₀ ticks) ticks
      (loopCalls Serde.idle s₀ ticks) :=
    loop_credits Serde.idle hopen "powersave" (fun _ => "powersave") hticks
  have hcount : (loopCalls Serde.idle s₀ ticks).countP StoreOp.isUpdate = 1 := hcredits.updates
  have hsaves : NoFailedSave (loopAnswers Serde.idle s₀ ticks) :=
    noFailedSave_of_few Serde.idle _ (policyOpen_dirty Serde.idle hopen) hcredits.noSave
      (by rw [hcount]; decide)
  have hunsaved : unsaved Serde.idle s₀ ticks = 1 :=
    unsaved_running Serde.idle hopen "powersave" (fun _ => "powersave") hticks hsaves
  refine ⟨?_, ?_, ?_⟩
  · have hins : ins = ticks ++ [.readable (.error permissionDenied)] := rfl
    rw [hins]
    exact returned_concat Serde.idle "powersave" (fun _ => "powersave") hticks rfl
  · unfold loopAnswers at *
    rw [hcalls]
    exact hsaves
  · unfold unsaved loopAnswers at *
    rw [hcalls]
    exact hunsaved

end Foverin
