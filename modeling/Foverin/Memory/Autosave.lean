import Foverin.Memory.Record

set_option relaxedAutoImplicit false
set_option autoImplicit false

/-!
# Autosave

`update` counts unsaved updates and saves once there are twelve of them, dropping the outcome.
The counter is exact up to its saturation, a failed save is tried again by every later update,
and nothing that a store learns or selects depends on which saves succeed.

## Main definitions

* `Foverin.updatesSinceSave` — the updates of a run since its last successful save.
* `Foverin.StoreOp.SameCall` — the same call under other answers of the file system.

## Main results

* `Foverin.dirtySinceSave_eq` — the counter along a run.
* `Foverin.autosave_accounting` — the counter, the retries, the effect of a failed save, and
  independence from the outcomes.
* `Foverin.dirtySinceSave_saturates` — after `2⁶⁴` failed autosaves the counter stops counting.
-/

namespace Foverin

open Finmap FloatOps

variable {F : Type}

/-! ## Counting unsaved updates -/

/-- The number of unsaved updates after a call that returned `out`. -/
def countUnsaved (n : ℕ) (op : StoreOp F) (out : StoreOut F) : ℕ :=
  if out.saved = some true then 0 else if op.isUpdate then n + 1 else n

/-- The updates of a run since its last successful save, or since its start. -/
def updatesSinceSave (ops : List (StoreOp F)) (outs : List (StoreOut F)) : ℕ :=
  (ops.zip outs).foldl (fun n c => countUnsaved n c.1 c.2) 0

variable [FloatOps F]

/-! ## One call -/

/-- An update attempts a save exactly when it leaves twelve or more unsaved updates. -/
lemma update_saved_eq_none_iff (serde : Serde F) (order : BucketOrder F) (io : SaveIo F)
    (fp : UInt64) (g : String) (r : F) (m : EpisodeMemory F) (disk : Disk) :
    (m.update serde order io fp g r disk).1 = none ↔
      (m.dirtySinceSave.saturatingAdd 1).toNat < saveEvery := by
  unfold EpisodeMemory.update
  dsimp only
  rw [EpisodeMemory.credit_dirty]
  split_ifs with h
  · exact iff_of_false (by simp) (not_lt.mpr h)
  · exact iff_of_true rfl (not_le.mp h)

/-- An update that leaves twelve or more unsaved updates saves. -/
lemma step_update_due (serde : Serde F) {w : Stored F} (order : BucketOrder F) (io : SaveIo F)
    (fp : UInt64) (g : String) (r : F)
    (h : saveEvery ≤ (w.memory.dirtySinceSave.saturatingAdd 1).toNat) :
    let saved := (w.memory.credit order fp g r).save serde io w.disk
    w.step serde (.update order io fp g r) =
      (⟨saved.memory, saved.disk⟩, ⟨none, some (Except.isOk saved.result)⟩) := by
  unfold Stored.step EpisodeMemory.update
  dsimp only
  rw [EpisodeMemory.credit_dirty, if_pos h]

/-- After an update the store holds the credit, with the counter reset if a save succeeded. -/
lemma update_memory (serde : Serde F) (order : BucketOrder F) (io : SaveIo F)
    (fp : UInt64) (g : String) (r : F) (m : EpisodeMemory F) (disk : Disk) :
    (m.update serde order io fp g r disk).2.memory =
      if (m.update serde order io fp g r disk).1 = some true then
        { m.credit order fp g r with dirtySinceSave := 0 }
      else m.credit order fp g r := by
  unfold EpisodeMemory.update
  dsimp only
  split_ifs with h h' h' <;> simp_all [EpisodeMemory.save_memory]

/-- The counter after a call. -/
lemma step_dirty (serde : Serde F) (w : Stored F) (op : StoreOp F) :
    (w.step serde op).1.memory.dirtySinceSave =
      if (w.step serde op).2.saved = some true then 0
      else if op.isUpdate then w.memory.dirtySinceSave.saturatingAdd 1
      else w.memory.dirtySinceSave := by
  cases op with
  | select order fp prior => rfl
  | update order io fp g r =>
    change (w.memory.update serde order io fp g r w.disk).2.memory.dirtySinceSave =
      if (w.memory.update serde order io fp g r w.disk).1 = some true then 0
      else w.memory.dirtySinceSave.saturatingAdd 1
    rw [update_memory]
    split_ifs <;> rfl
  | save io =>
    change (w.memory.save serde io w.disk).memory.dirtySinceSave =
      if some (Except.isOk (w.memory.save serde io w.disk).result) = some true then 0
      else w.memory.dirtySinceSave
    rw [EpisodeMemory.save_memory]
    simp only [Option.some.injEq]
    split_ifs <;> rfl

/-! ## Runs -/

/-- The counter along a run that starts with `n` unsaved updates. -/
lemma dirtySinceSave_foldl (serde : Serde F) (ops : List (StoreOp F)) (w : Stored F) (n : ℕ)
    (h : w.memory.dirtySinceSave.toNat = min n (2 ^ 64 - 1)) :
    ((storeMachine serde).final w ops).memory.dirtySinceSave.toNat =
      min ((ops.zip ((storeMachine serde).outputs w ops)).foldl
        (fun n c => countUnsaved n c.1 c.2) n) (2 ^ 64 - 1) := by
  induction ops generalizing w n with
  | nil => exact h
  | cons op ops ih =>
    rw [Machine.final_cons, Machine.outputs_cons, List.zip_cons_cons, List.foldl_cons]
    apply ih
    change (w.step serde op).1.memory.dirtySinceSave.toNat =
      min (countUnsaved n op (w.step serde op).2) _
    rw [step_dirty, countUnsaved]
    split_ifs
    · rfl
    · exact UInt64.toNat_saturatingAdd_one_of_clamped h
    · exact h

/-- **The counter.** It counts the updates since the last successful save, up to `2⁶⁴ - 1`. -/
theorem dirtySinceSave_eq (serde : Serde F) {w : Stored F} (h : w.memory.dirtySinceSave = 0)
    (ops : List (StoreOp F)) :
    ((storeMachine serde).final w ops).memory.dirtySinceSave.toNat =
      min (updatesSinceSave ops ((storeMachine serde).outputs w ops)) (2 ^ 64 - 1) :=
  dirtySinceSave_foldl serde ops w 0 (by rw [h]; rfl)

/-- Without a successful save the counter does not decrease. -/
lemma le_dirtySinceSave (serde : Serde F) (ops : List (StoreOp F)) (w : Stored F)
    (h : ∀ o ∈ (storeMachine serde).outputs w ops, o.saved ≠ some true) :
    w.memory.dirtySinceSave.toNat ≤
      ((storeMachine serde).final w ops).memory.dirtySinceSave.toNat := by
  induction ops generalizing w with
  | nil => exact le_rfl
  | cons op ops ih =>
    rw [Machine.outputs_cons, List.forall_mem_cons] at h
    refine le_trans ?_ (ih _ h.2)
    change _ ≤ (w.step serde op).1.memory.dirtySinceSave.toNat
    have hnot : (w.step serde op).2.saved ≠ some true := h.1
    rw [step_dirty, if_neg hnot]
    split_ifs
    · exact UInt64.le_saturatingAdd _ _
    · exact le_rfl

/-! ## Independence from the outcomes -/

/-- The same call, under other answers of the file system. -/
inductive StoreOp.SameCall : StoreOp F → StoreOp F → Prop
  | select (order : BucketOrder F) (fp : UInt64) (prior : String) :
      SameCall (.select order fp prior) (.select order fp prior)
  | update (order : BucketOrder F) (io io' : SaveIo F) (fp : UInt64) (g : String) (r : F) :
      SameCall (.update order io fp g r) (.update order io' fp g r)
  | save (io io' : SaveIo F) : SameCall (.save io) (.save io')

namespace EpisodeMemory

omit [FloatOps F] in
lemma SameLearned.trans {a b c : EpisodeMemory F} (h : a.SameLearned b)
    (h' : b.SameLearned c) : a.SameLearned c :=
  ⟨h.1.trans h'.1, h.2.1.trans h'.2.1, h.2.2.1.trans h'.2.2.1, h.2.2.2.trans h'.2.2.2⟩

omit [FloatOps F] in
lemma SameLearned.symm {a b : EpisodeMemory F} (h : a.SameLearned b) : b.SameLearned a :=
  ⟨h.1.symm, h.2.1.symm, h.2.2.1.symm, h.2.2.2.symm⟩

omit [FloatOps F] in
/-- Stores that learned the same are equal up to the counter. -/
lemma SameLearned.exists_eq {a b : EpisodeMemory F} (h : a.SameLearned b) :
    ∃ d, a = { b with dirtySinceSave := d } := by
  obtain ⟨h₁, h₂, h₃, h₄⟩ := h
  obtain ⟨buckets, actions, hne, tick, path, dirty⟩ := a
  cases h₁
  cases h₂
  cases h₃
  cases h₄
  exact ⟨dirty, rfl⟩

end EpisodeMemory

/-- The same call on stores that learned the same selects and learns the same. -/
lemma step_sameCall (serde serde' : Serde F) {w w' : Stored F} {op op' : StoreOp F}
    (hw : w.memory.SameLearned w'.memory) (hop : op.SameCall op') :
    (w.step serde op).1.memory.SameLearned (w'.step serde' op').1.memory ∧
      (w.step serde op).2.selection = (w'.step serde' op').2.selection := by
  obtain ⟨m, disk⟩ := w
  obtain ⟨m', disk'⟩ := w'
  obtain ⟨d, rfl⟩ := EpisodeMemory.SameLearned.exists_eq hw
  cases hop with
  | select order fp prior => exact ⟨⟨rfl, rfl, rfl, rfl⟩, rfl⟩
  | update order io io' fp g r =>
    refine ⟨(Stored.step_update serde _ order io fp g r).trans ?_, rfl⟩
    refine EpisodeMemory.SameLearned.trans ?_
      (Stored.step_update serde' _ order io' fp g r).symm
    exact ⟨rfl, rfl, rfl, rfl⟩
  | save io io' =>
    refine ⟨(Stored.step_save serde _ io).trans ?_, rfl⟩
    refine EpisodeMemory.SameLearned.trans ?_ (Stored.step_save serde' _ io').symm
    exact ⟨rfl, rfl, rfl, rfl⟩

/-- **Independence.** Runs of the same calls select and learn the same, whichever of their
saves succeed. -/
theorem run_sameCall (serde serde' : Serde F) {w w' : Stored F} {ops ops' : List (StoreOp F)}
    (hw : w.memory.SameLearned w'.memory) (hops : List.Forall₂ StoreOp.SameCall ops ops') :
    ((storeMachine serde).final w ops).memory.SameLearned
        ((storeMachine serde').final w' ops').memory ∧
      ((storeMachine serde).outputs w ops).map StoreOut.selection =
        ((storeMachine serde').outputs w' ops').map StoreOut.selection := by
  have h := (storeMachine serde).run_simulation (storeMachine serde')
    (fun w w' => w.memory.SameLearned w'.memory) StoreOp.SameCall
    (fun o o' => o.selection = o'.selection)
    (fun _ _ _ _ hR hJ => step_sameCall serde serde' hR hJ) hw hops
  refine ⟨h.1, ?_⟩
  rw [← List.forall₂_eq_eq_eq, List.forall₂_map_left_iff, List.forall₂_map_right_iff]
  exact h.2

/-! ## Retries -/

omit [FloatOps F] in
/-- A save that fails leaves the store as it is. -/
lemma save_memory_of_failed (serde : Serde F) (io : SaveIo F) (m : EpisodeMemory F)
    (disk : Disk) (h : Except.isOk (m.save serde io disk).result = false) :
    (m.save serde io disk).memory = m := by
  rw [EpisodeMemory.save_memory, h]
  rfl

/-- An update returns with fewer than twelve unsaved updates unless its own save failed. -/
lemma step_update_dirty_lt (serde : Serde F) (w : Stored F) (order : BucketOrder F)
    (io : SaveIo F) (fp : UInt64) (g : String) (r : F)
    (h : (w.step serde (.update order io fp g r)).2.saved ≠ some false) :
    (w.step serde (.update order io fp g r)).1.memory.dirtySinceSave.toNat < saveEvery := by
  rw [step_dirty]
  split_ifs with hs hu
  · decide
  · have hnone : (w.memory.update serde order io fp g r w.disk).1 = none := by
      change (w.memory.update serde order io fp g r w.disk).1 ≠ some false at h
      change ¬ (w.memory.update serde order io fp g r w.disk).1 = some true at hs
      cases ho : (w.memory.update serde order io fp g r w.disk).1 with
      | none => rfl
      | some ok => cases ok <;> simp_all
    exact (update_saved_eq_none_iff ..).mp hnone
  · exact absurd rfl hu

/-- After a failed autosave every later update tries again until one succeeds.

**Proof sketch.** The failed attempt left at least twelve unsaved updates, the counter does not
decrease without a successful save, and an update that leaves twelve or more attempts one. -/
lemma retry_until_saved (serde : Serde F) {w : Stored F} {order : BucketOrder F}
    {io : SaveIo F} {fp : UInt64} {g : String} {r : F}
    (h : (w.step serde (.update order io fp g r)).2.saved = some false)
    (ops : List (StoreOp F))
    (hops : ∀ o ∈ (storeMachine serde).outputs (w.step serde (.update order io fp g r)).1 ops,
      o.saved ≠ some true)
    (order' : BucketOrder F) (io' : SaveIo F) (fp' : UInt64) (g' : String) (r' : F) :
    (((storeMachine serde).final (w.step serde (.update order io fp g r)).1 ops).step serde
      (.update order' io' fp' g' r')).2.saved ≠ none := by
  have hle := le_dirtySinceSave serde ops _ hops
  have hge : saveEvery ≤
      (w.step serde (.update order io fp g r)).1.memory.dirtySinceSave.toNat := by
    have hne : (w.memory.update serde order io fp g r w.disk).1 ≠ none := by
      change (w.memory.update serde order io fp g r w.disk).1 = some false at h
      simp [h]
    rw [Ne, update_saved_eq_none_iff, not_lt] at hne
    rw [step_dirty, h]
    exact hne
  intro hnone
  have hlt := (update_saved_eq_none_iff serde order' io' fp' g' r' _ _).mp hnone
  generalize ((storeMachine serde).final _ ops).memory.dirtySinceSave = dirty at hle hlt
  have := UInt64.le_saturatingAdd dirty 1
  omega

/-! ## A failed autosave -/

/-- Answers of a file system that does not open the file. -/
def SaveIo.refused : SaveIo F := { SaveIo.idle with write := .notOpened }

/-- The text of the store after fourteen visits. -/
def retriedText : String := twoBucketsText "42" "15" "14" "0.5"

/-- Updates that earn what they have earned before, with too few of them to save. -/
lemma twoBuckets_updates (serde : Serde (ExtNum ℝ)) (io : SaveIo (ExtNum ℝ)) (tick : UInt64)
    {ema : ℝ} (h₀ : 0 ≤ ema) (h₁ : ema ≤ 1) (disk : Disk) (k : ℕ) (total : UInt32) {visits : UInt32}
    (hvisits : visits ≠ 0) {dirty : UInt64} (hfew : dirty.toNat + k < saveEvery) :
    let ops := List.replicate k (StoreOp.update byFingerprint io 3 "performance" (.num ema))
    (storeMachine serde).run ⟨twoBuckets tick total visits ema dirty, disk⟩ ops =
      (⟨twoBuckets tick ((UInt32.saturatingAdd · 1)^[k] total)
        ((UInt32.saturatingAdd · 1)^[k] visits) ema ((UInt64.saturatingAdd · 1)^[k] dirty), disk⟩,
        List.replicate k ⟨none, none⟩) := by
  induction k generalizing total visits dirty with
  | zero => rfl
  | succ k ih =>
    have hnext : (dirty.saturatingAdd 1).toNat = dirty.toNat + 1 := by
      rw [UInt64.toNat_saturatingAdd, UInt64.toNat_one]
      unfold saveEvery at hfew
      omega
    have hstep := twoBuckets_update serde byFingerprint io tick total visits hvisits ema dirty
      (by omega) h₀ h₁ disk
    have hema : 4 / 5 * ema + ema / 5 = ema := by ring
    rw [hema] at hstep
    have hfew' : (dirty.saturatingAdd 1).toNat + k < saveEvery := by omega
    have hrest := ih (total.saturatingAdd 1) visits.saturatingAdd_one_ne_zero hfew'
    intro ops
    show (((storeMachine serde).run (Stored.step serde _ _).1 _).1, (Stored.step serde _ _).2 ::
      ((storeMachine serde).run (Stored.step serde _ _).1 _).2) = _
    rw [hstep]
    dsimp only at hrest ⊢
    rw [hrest]
    rfl

/-- Such an update with enough of them saves. -/
lemma twoBuckets_due (serde : Serde (ExtNum ℝ)) (io : SaveIo (ExtNum ℝ)) (tick : UInt64) {ema : ℝ}
    (h₀ : 0 ≤ ema) (h₁ : ema ≤ 1) (disk : Disk) (total : UInt32) {visits : UInt32}
    (hvisits : visits ≠ 0) {dirty : UInt64} (hdue : saveEvery ≤ (dirty.saturatingAdd 1).toNat) :
    let saved := (twoBuckets tick (total.saturatingAdd 1) (visits.saturatingAdd 1) ema
      (dirty.saturatingAdd 1)).save serde io disk
    Stored.step serde ⟨twoBuckets tick total visits ema dirty, disk⟩
        (.update byFingerprint io 3 "performance" (.num ema)) =
      (⟨saved.memory, saved.disk⟩, ⟨none, some (Except.isOk saved.result)⟩) := by
  have hcredit := twoBuckets_credit byFingerprint tick total visits hvisits ema dirty h₀ h₁
  have hema : 4 / 5 * ema + ema / 5 = ema := by ring
  rw [hema] at hcredit
  have hstep := step_update_due serde (w := ⟨twoBuckets tick total visits ema dirty, disk⟩)
    byFingerprint io 3 "performance" (.num ema) hdue
  rwa [hcredit] at hstep

/-- The twelfth update: its autosave fails. -/
lemma twoBuckets_refused (serde : Serde (ExtNum ℝ)) (disk : Disk) :
    ∃ disk', Stored.step serde ⟨twoBuckets 42 13 12 (1 / 2) 11, disk⟩
      (.update byFingerprint .refused 3 "performance" (.num (1 / 2))) =
        (⟨twoBuckets 42 14 13 (1 / 2) 12, disk'⟩, ⟨none, some false⟩) := by
  have hfailed : Except.isOk ((twoBuckets 42 14 13 (1 / 2) 12).save serde .refused disk).result =
      false := by
    rw [EpisodeMemory.save_isOk]
    exact Bool.and_false _
  have hstep := twoBuckets_due serde .refused 42 (by norm_num : (0 : ℝ) ≤ 1 / 2) (by norm_num) disk
    13 (by decide : (12 : UInt32) ≠ 0)
    (by decide : saveEvery ≤ ((11 : UInt64).saturatingAdd 1).toNat)
  have hmemory := EpisodeMemory.save_memory serde .refused (twoBuckets 42 14 13 (1 / 2) 12) disk
  refine ⟨_, hstep.trans (Prod.ext_iff.mpr ⟨congrArg₂ Stored.mk ?_ rfl, ?_⟩)⟩
  · refine hmemory.trans ?_
    rw [hfailed]
    rfl
  · exact congrArg (StoreOut.mk none) (congrArg some hfailed)

/-- The thirteenth update: its autosave succeeds. -/
lemma twoBuckets_retried (disk : Disk) :
    Stored.step (.resaves (twoBuckets 42 15 14 (1 / 2) 0) retriedText)
      ⟨twoBuckets 42 14 13 (1 / 2) 12, disk⟩
      (.update byFingerprint .idle 3 "performance" (.num (1 / 2))) =
        (⟨twoBuckets 42 15 14 (1 / 2) 0, some retriedText.toUTF8⟩, ⟨none, some true⟩) := by
  have hwritten : (Serde.resaves (twoBuckets 42 15 14 (1 / 2) 0) retriedText).toStringPretty 0
      ((twoBuckets 42 15 14 (1 / 2) 13).toFile byFingerprint) = some retriedText :=
    resaves_writes (by decide) 0 byFingerprint rfl rfl
  have hsave := save_complete SaveIo.idle disk rfl rfl hwritten
  refine (twoBuckets_due _ .idle 42 (by norm_num : (0 : ℝ) ≤ 1 / 2) (by norm_num) disk 14
    (by decide : (13 : UInt32) ≠ 0)
    (by decide : saveEvery ≤ ((12 : UInt64).saturatingAdd 1).toNat)).trans ?_
  have hcounters : twoBuckets 42 ((14 : UInt32).saturatingAdd 1) ((13 : UInt32).saturatingAdd 1)
      (1 / 2) ((12 : UInt64).saturatingAdd 1) = twoBuckets 42 15 14 (1 / 2) 13 := rfl
  rw [hcounters, hsave]
  rfl

/-- A run with a failed autosave. -/
lemma twoBuckets_outputs : ∃ selection, (storeMachine (.resaves (twoBuckets 42 15 14 (1 / 2) 0)
      retriedText)).outputs ⟨savedBuckets, some savedText.toUTF8⟩
        (.select byFingerprint 3 "performance" ::
          (List.replicate 11 (.update byFingerprint .idle 3 "performance" (.num (1 / 2))) ++
            [.update byFingerprint .refused 3 "performance" (.num (1 / 2)),
              .update byFingerprint .idle 3 "performance" (.num (1 / 2)),
              .update byFingerprint .idle 3 "performance" (.num (1 / 2))])) =
      ⟨some selection, none⟩ :: (List.replicate 11 ⟨none, none⟩ ++
        [⟨none, some false⟩, ⟨none, some true⟩, ⟨none, none⟩]) := by
  generalize hserde : Serde.resaves (twoBuckets 42 15 14 (1 / 2) 0) retriedText = serde
  have hselect := twoBuckets_select serde byFingerprint "performance" 41 2 1 (1 / 2) 0
    (some savedText.toUTF8)
  have hquiet := twoBuckets_updates serde SaveIo.idle 42 (by norm_num : (0 : ℝ) ≤ 1 / 2)
    (by norm_num) (some savedText.toUTF8) 11 2 (by decide : (1 : UInt32) ≠ 0)
    (by decide : (0 : UInt64).toNat + 11 < saveEvery)
  obtain ⟨disk, hrefused⟩ := twoBuckets_refused serde (some savedText.toUTF8)
  have hretried := twoBuckets_retried disk
  rw [hserde] at hretried
  have hlast := twoBuckets_update serde byFingerprint SaveIo.idle 42 15 14 (by decide) (1 / 2) 0
    (by decide) (by norm_num : (0 : ℝ) ≤ 1 / 2) (by norm_num) (some retriedText.toUTF8)
  refine ⟨_, (Machine.outputs_cons ..).trans (congrArg₂ List.cons rfl ?_)⟩
  rw [Machine.outputs_append]
  have hstart : ((storeMachine serde).step ⟨savedBuckets, some savedText.toUTF8⟩
      (.select byFingerprint 3 "performance")).1 =
        ⟨twoBuckets 42 2 1 (1 / 2) 0, some savedText.toUTF8⟩ := by
    rw [savedBuckets_eq]
    exact hselect
  have hfinal : (storeMachine serde).final ⟨twoBuckets 42 2 1 (1 / 2) 0, some savedText.toUTF8⟩
      (List.replicate 11 (.update byFingerprint .idle 3 "performance" (.num (1 / 2)))) =
        ⟨twoBuckets 42 13 12 (1 / 2) 11, some savedText.toUTF8⟩ := congrArg Prod.fst hquiet
  rw [hstart, hfinal]
  refine congrArg₂ (· ++ ·) (congrArg Prod.snd hquiet) ?_
  simp only [Machine.outputs_cons, Machine.outputs_nil, storeMachine, hrefused, hretried]
  exact congrArg (fun o => [_, _, o]) (congrArg Prod.snd hlast)

/-- **Autosave.** In every run of an opened store: the counter is the number of updates since
the last successful save, up to its saturation; an update that returns with twelve or more
unsaved updates has just failed to save them, and every later update tries again until one
succeeds; a failed save changes nothing in the store; and the same calls select and learn the
same whichever saves succeed.

**Proof sketch.** The counter is reset by a successful save and by nothing else, which gives the
count by induction on the calls.  An update with twelve or more unsaved updates tries to save, and
neither a failed save nor the text of a successful one is read by a later call. -/
theorem autosave_accounting (serde : Serde F) {readOk : Bool}
    {fileOrder : IterOrder String (Bucket F)} {disk : Disk} {path : MemoryPath}
    {actions : List String} {m : EpisodeMemory F}
    (hopen : EpisodeMemory.open serde readOk fileOrder disk path actions = .ok m)
    (ops : List (StoreOp F)) :
    let M := storeMachine serde
    let w := M.final ⟨m, disk⟩ ops
    w.memory.dirtySinceSave.toNat =
      min (2 ^ 64 - 1) (updatesSinceSave ops (M.outputs ⟨m, disk⟩ ops)) ∧
    (∀ order io fp g r,
      let s := w.step serde (.update order io fp g r)
      s.1.memory.dirtySinceSave.toNat < saveEvery ∨
        s.2.saved = some false ∧
          ∀ ops', (∀ o ∈ M.outputs s.1 ops', o.saved ≠ some true) → ∀ order' io' fp' g' r',
            ((M.final s.1 ops').step serde (.update order' io' fp' g' r')).2.saved ≠ none) ∧
    (∀ io, Except.isOk (w.memory.save serde io w.disk).result = false →
      (w.memory.save serde io w.disk).memory = w.memory) ∧
    (∀ order io fp g r,
      let s := w.step serde (.update order io fp g r)
      s.2.saved = some false → s.1.memory = w.memory.credit order fp g r) ∧
    ∀ (serde' : Serde F) (disk' : Disk) (ops' : List (StoreOp F)),
      List.Forall₂ StoreOp.SameCall ops ops' →
      let w' := (storeMachine serde').final ⟨m, disk'⟩ ops'
      (M.outputs ⟨m, disk⟩ ops).map StoreOut.selection =
          ((storeMachine serde').outputs ⟨m, disk'⟩ ops').map StoreOut.selection ∧
        w.memory.buckets = w'.memory.buckets ∧ w.memory.tick = w'.memory.tick := by
  intro M w
  refine ⟨?_, fun order io fp g r => ?_, fun io => save_memory_of_failed serde io _ _,
    fun order io fp g r => ?_, fun serde' disk' ops' hsame => ?_⟩
  · rw [min_comm]
    exact dirtySinceSave_eq serde (EpisodeMemory.open_spec hopen).2.2 ops
  · intro s
    by_cases hs : s.2.saved = some false
    · exact Or.inr ⟨hs, fun ops' hops' => retry_until_saved serde hs ops' hops'⟩
    · exact Or.inl (step_update_dirty_lt serde w order io fp g r hs)
  · intro s hs
    change (w.memory.update serde order io fp g r w.disk).1 = some false at hs
    change (w.memory.update serde order io fp g r w.disk).2.memory = _
    rw [update_memory, hs]
    rfl
  · have hm : (⟨m, disk⟩ : Stored F).memory.SameLearned (⟨m, disk'⟩ : Stored F).memory :=
      EpisodeMemory.SameLearned.refl m
    obtain ⟨hlearned, hsel⟩ := run_sameCall serde serde' hm hsame
    exact ⟨hsel, hlearned.1, hlearned.2.1⟩

/-- The twelfth update fails to save, the next one saves, and one more is unsaved. -/
theorem autosave_accounting_retry :
    let serde := Serde.resaves (twoBuckets 42 15 14 (1 / 2) 0) retriedText
    let update := fun io => StoreOp.update byFingerprint io 3 "performance" (.num (1 / 2))
    let ops := StoreOp.select byFingerprint 3 "performance" ::
      (List.replicate 11 (update .idle) ++ [update .refused, update .idle, update .idle])
    let outs := (storeMachine serde).outputs ⟨savedBuckets, some savedText.toUTF8⟩ ops
    outs.map StoreOut.saved = List.replicate 12 none ++ [some false, some true, none] ∧
      ((storeMachine serde).final ⟨savedBuckets, some savedText.toUTF8⟩
        ops).memory.dirtySinceSave.toNat = 1 := by
  intro serde update ops outs
  obtain ⟨selection, houts⟩ := twoBuckets_outputs
  change outs = _ at houts
  have hopen : EpisodeMemory.open serde true (IterOrder.sorted (· ≤ ·)) (some savedText.toUTF8)
      defaultMemoryPath ["performance", "powersave"] = .ok savedBuckets :=
    resaves_opens _ savedBuckets rfl rfl rfl
  have hunsaved : updatesSinceSave ops outs = 1 := by
    rw [houts]
    rfl
  have hcounter := (autosave_accounting serde hopen ops).1
  change _ = min _ (updatesSinceSave ops outs) at hcounter
  rw [hunsaved] at hcounter
  exact ⟨by rw [houts]; rfl, hcounter⟩

/-! ## Saturation -/

omit [FloatOps F] in
/-- Without a successful save, the updates of a run of updates are all unsaved. -/
lemma foldl_countUnsaved (cs : List (StoreOp F × StoreOut F)) (n : ℕ)
    (h : ∀ c ∈ cs, c.1.isUpdate ∧ c.2.saved ≠ some true) :
    cs.foldl (fun n c => countUnsaved n c.1 c.2) n = n + cs.length := by
  induction cs generalizing n with
  | nil => rfl
  | cons c cs ih =>
    rw [List.forall_mem_cons] at h
    rw [List.foldl_cons, ih _ h.2, countUnsaved, if_neg h.1.2, if_pos h.1.1, List.length_cons]
    omega

/-- A JSON library that never writes lets no save succeed. -/
lemma step_idle_saved (w : Stored F) (op : StoreOp F) :
    (w.step Serde.idle op).2.saved ≠ some true := by
  have hsave : ∀ (io : SaveIo F) (m : EpisodeMemory F) (disk : Disk),
      Except.isOk (m.save Serde.idle io disk).result = false := by
    intro io m disk
    unfold EpisodeMemory.save
    split
    · split_ifs <;> rfl
    · rfl
  cases op with
  | select order fp prior => simp [Stored.step_select]
  | update order io fp g r =>
    change (w.memory.update Serde.idle order io fp g r w.disk).1 ≠ some true
    unfold EpisodeMemory.update
    dsimp only
    split_ifs
    · simp [hsave]
    · simp
  | save io => simp [Stored.step, hsave]

/-- **Saturation.** After `2⁶⁴` updates none of whose autosaves succeeded, the counter is no
longer the number of unsaved updates.

**Proof sketch.** The serialiser `Serde.idle` never succeeds.  After `2 ^ 64` updates that many are
unsaved, which is more than the counter can hold. -/
theorem dirtySinceSave_saturates :
    ∃ (m : EpisodeMemory (ExtNum ℝ)) (ops : List (StoreOp (ExtNum ℝ))),
      EpisodeMemory.open Serde.idle true (IterOrder.sorted (· ≤ ·)) none ⟨"memory.json", none⟩
        [] = .ok m ∧
      ((storeMachine Serde.idle).final ⟨m, none⟩ ops).memory.dirtySinceSave.toNat ≠
        updatesSinceSave ops ((storeMachine Serde.idle).outputs ⟨m, none⟩ ops) := by
  refine ⟨.fresh ⟨"memory.json", none⟩ [],
    List.replicate (2 ^ 64) (.update byFingerprint SaveIo.idle 7 "powersave" (.num 1)), rfl, ?_⟩
  rw [dirtySinceSave_eq Serde.idle rfl]
  generalize hops : List.replicate (2 ^ 64) (StoreOp.update (F := ExtNum ℝ) byFingerprint
    SaveIo.idle 7 "powersave" (.num 1)) = ops
  have hlen : ops.length = 2 ^ 64 := by rw [← hops, List.length_replicate]
  have hupd : ∀ op ∈ ops, op.isUpdate = true := by
    intro op hop
    rw [← hops] at hop
    rw [List.eq_of_mem_replicate hop]
    rfl
  have hout := Machine.run_outputs (storeMachine (F := ExtNum ℝ) Serde.idle) (P := fun _ => True)
    (Q := fun o => o.saved ≠ some true) trivial
    (fun w op _ => ⟨trivial, step_idle_saved w op⟩) (s := ⟨.fresh ⟨"memory.json", none⟩ [], none⟩)
    ops
  have hcount : updatesSinceSave ops ((storeMachine Serde.idle).outputs
      ⟨.fresh ⟨"memory.json", none⟩ [], none⟩ ops) = 2 ^ 64 := by
    rw [updatesSinceSave, foldl_countUnsaved, List.length_zip, Machine.length_outputs, hlen]
    · omega
    · rintro ⟨op, out⟩ hc
      exact ⟨hupd op (List.of_mem_zip hc).1, hout out (List.of_mem_zip hc).2⟩
  rw [hcount]
  omega

end Foverin
