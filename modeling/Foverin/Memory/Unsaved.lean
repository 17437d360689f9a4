import Foverin.Memory.RoundTrip

set_option relaxedAutoImplicit false
set_option autoImplicit false

/-!
# What the file lacks

Where every save that is attempted succeeds, the file is the text of the store as it was after the
last one, and what it lacks are the updates since then: one for every update modulo twelve, as
long as only updates save.

## Main definitions

* `Foverin.NoFailedSave` — every save that was attempted has succeeded.
* `Foverin.EpisodeMemory.WrittenTo` — the file is the text of the store.

## Main results

* `Foverin.exists_writtenTo` — the file along a run.
* `Foverin.updatesSinceSave_mod` — the number of updates that it lacks.
-/

namespace Foverin

open Finmap FloatOps

variable {F : Type}

/-! ## Files -/

/-- No save that was attempted has failed. -/
def NoFailedSave (outs : List (StoreOut F)) : Prop := ∀ o ∈ outs, o.saved ≠ some false

/-- The file is a text of the store. -/
def EpisodeMemory.WrittenTo (serde : Serde F) (m : EpisodeMemory F) (disk : Disk) : Prop :=
  ∃ order layout json, serde.toStringPretty layout (m.toFile order) = some json ∧
    disk = some json.toUTF8

/-- A successful save writes the store. -/
lemma writtenTo_save {serde : Serde F} {io : SaveIo F} {m : EpisodeMemory F} {disk : Disk}
    (h : Except.isOk (m.save serde io disk).result = true) :
    (m.save serde io disk).memory.WrittenTo serde (m.save serde io disk).disk := by
  obtain ⟨json, htext, hdisk⟩ := save_disk_of_ok h
  rw [EpisodeMemory.save_memory, if_pos h]
  exact ⟨io.order, io.layout, json, htext, hdisk⟩

variable [FloatOps F]

/-- A call that attempts no save leaves the file alone. -/
lemma step_disk_of_none (serde : Serde F) (w : Stored F) {op : StoreOp F}
    (h : (w.step serde op).2.saved = none) : (w.step serde op).1.disk = w.disk := by
  cases op with
  | select order fp prior => rfl
  | save io => cases h
  | update order io fp g r =>
    change (w.memory.update serde order io fp g r w.disk).1 = none at h
    change (w.memory.update serde order io fp g r w.disk).2.disk = w.disk
    unfold EpisodeMemory.update at h ⊢
    dsimp only at h ⊢
    split_ifs at h ⊢
    rfl

/-- A call whose save succeeds leaves the store written. -/
lemma step_writtenTo (serde : Serde F) (w : Stored F) {op : StoreOp F}
    (h : (w.step serde op).2.saved = some true) :
    (w.step serde op).1.memory.WrittenTo serde (w.step serde op).1.disk := by
  cases op with
  | select order fp prior => cases h
  | save io => exact writtenTo_save (Option.some.inj h)
  | update order io fp g r =>
    change (w.memory.update serde order io fp g r w.disk).1 = some true at h
    change (w.memory.update serde order io fp g r w.disk).2.memory.WrittenTo serde
      (w.memory.update serde order io fp g r w.disk).2.disk
    unfold EpisodeMemory.update at h ⊢
    dsimp only at h ⊢
    split_ifs at h ⊢
    exact writtenTo_save (Option.some.inj h)

/-! ## Runs -/

omit [FloatOps F] in
/-- The count after one more call. -/
lemma updatesSinceSave_concat {ops : List (StoreOp F)} {outs : List (StoreOut F)}
    (h : ops.length = outs.length) (op : StoreOp F) (out : StoreOut F) :
    updatesSinceSave (ops ++ [op]) (outs ++ [out]) =
      countUnsaved (updatesSinceSave ops outs) op out := by
  unfold updatesSinceSave
  rw [List.zip_append h, List.foldl_append]
  rfl

section Run

variable (serde : Serde F) (w : Stored F)

lemma updatesSinceSave_outputs_concat (ops : List (StoreOp F)) (op : StoreOp F) :
    updatesSinceSave (ops ++ [op]) ((storeMachine serde).outputs w (ops ++ [op])) =
      countUnsaved (updatesSinceSave ops ((storeMachine serde).outputs w ops)) op
        (((storeMachine serde).final w ops).step serde op).2 := by
  rw [Machine.outputs_concat, updatesSinceSave_concat (by simp)]
  rfl

lemma noFailedSave_concat {ops : List (StoreOp F)} {op : StoreOp F} :
    NoFailedSave ((storeMachine serde).outputs w (ops ++ [op])) ↔
      NoFailedSave ((storeMachine serde).outputs w ops) ∧
        (((storeMachine serde).final w ops).step serde op).2.saved ≠ some false := by
  unfold NoFailedSave
  rw [Machine.outputs_concat, List.forall_mem_append, List.forall_mem_singleton]
  rfl

/-- **The file along a run** whose saves succeed: it is the text of the store as it was some calls
ago, or the file that the run started with, and it lacks the updates made by those calls.

**Proof sketch.** Induction on the calls from the end.  A call that saves makes `post` empty, and
one that does not is added to it. -/
theorem exists_writtenTo {ops : List (StoreOp F)}
    (h : NoFailedSave ((storeMachine serde).outputs w ops)) :
    ∃ pre post, ops = pre ++ post ∧
      updatesSinceSave ops ((storeMachine serde).outputs w ops) =
        post.countP StoreOp.isUpdate ∧
      (pre = [] ∧ ((storeMachine serde).final w ops).disk = w.disk ∨
        ((storeMachine serde).final w pre).memory.WrittenTo serde
          ((storeMachine serde).final w ops).disk) := by
  induction ops using List.reverseRecOn with
  | nil => exact ⟨[], [], rfl, rfl, Or.inl ⟨rfl, rfl⟩⟩
  | append_singleton ops op ih =>
    have hout := (noFailedSave_concat serde w).mp h
    rw [updatesSinceSave_outputs_concat, Machine.final_concat]
    show ∃ pre post, _ ∧ _ ∧ (_ ∧ (((storeMachine serde).final w ops).step serde op).1.disk = _ ∨
      ((storeMachine serde).final w pre).memory.WrittenTo serde
        (((storeMachine serde).final w ops).step serde op).1.disk)
    cases hsaved : (((storeMachine serde).final w ops).step serde op).2.saved with
    | some ok =>
      cases ok with
      | false => exact absurd hsaved hout.2
      | true =>
        refine ⟨ops ++ [op], [], (List.append_nil _).symm, ?_, Or.inr ?_⟩
        · rw [countUnsaved, if_pos hsaved]
          rfl
        · rw [Machine.final_concat]
          exact step_writtenTo serde _ hsaved
    | none =>
      obtain ⟨pre, post, hops, hcount, hdisk⟩ := ih hout.1
      refine ⟨pre, post ++ [op], by rw [hops, List.append_assoc], ?_, ?_⟩
      · rw [countUnsaved, if_neg (by simp [hsaved]), hcount, List.countP_append,
          List.countP_singleton]
        split_ifs <;> rfl
      · rw [step_disk_of_none serde _ hsaved]
        exact hdisk

/-- **How much the file lacks** where only updates save: with the save after every twelfth update
all the others are lost, up to the last such save.

**Proof sketch.** Induction on the calls from the end.  An update saves exactly if the counter has
reached twelve, and as no save fails it then starts from zero again. -/
theorem updatesSinceSave_mod (hdirty : w.memory.dirtySinceSave = 0) {ops : List (StoreOp F)}
    (h : NoFailedSave ((storeMachine serde).outputs w ops))
    (hops : ∀ op ∈ ops, op.fingerprint ≠ none) :
    updatesSinceSave ops ((storeMachine serde).outputs w ops) =
      ops.countP StoreOp.isUpdate % saveEvery := by
  induction ops using List.reverseRecOn with
  | nil => rfl
  | append_singleton ops op ih =>
    have hout := (noFailedSave_concat serde w).mp h
    have hbefore := ih hout.1 fun o ho => hops o (by simp [ho])
    have hcounter := dirtySinceSave_eq serde hdirty ops
    rw [updatesSinceSave_outputs_concat, List.countP_append, List.countP_singleton]
    rw [hbefore] at hcounter ⊢
    have hlt : ops.countP StoreOp.isUpdate % saveEvery < saveEvery :=
      Nat.mod_lt _ (by decide)
    cases op with
    | save io => exact absurd rfl (hops (.save io) (by simp))
    | select order fp prior => rfl
    | update order io fp g r =>
      have hnext := UInt64.toNat_saturatingAdd_one_of_clamped hcounter
      have hnone := update_saved_eq_none_iff serde order io fp g r
        ((storeMachine serde).final w ops).memory ((storeMachine serde).final w ops).disk
      rw [hnext] at hnone
      generalize hn : ops.countP StoreOp.isUpdate = n at *
      have hstep : (((storeMachine serde).final w ops).step serde
          (.update order io fp g r)).2.saved = (((storeMachine serde).final w ops).memory.update
            serde order io fp g r ((storeMachine serde).final w ops).disk).1 := rfl
      rw [← hstep] at hnone
      unfold countUnsaved
      simp only [StoreOp.isUpdate, if_true]
      unfold saveEvery at *
      by_cases hfew : n % 12 + 1 < 12
      · rw [hnone.mpr (by omega), if_neg nofun]
        omega
      · have hsaved : (((storeMachine serde).final w ops).step serde
            (.update order io fp g r)).2.saved = some true := by
          cases hs : (((storeMachine serde).final w ops).step serde
              (.update order io fp g r)).2.saved with
          | none =>
            have := hnone.mp hs
            omega
          | some ok =>
            cases ok with
            | true => rfl
            | false => exact absurd hs hout.2
        rw [if_pos hsaved]
        omega

/-- Fewer than twelve updates attempt no save. -/
lemma noFailedSave_of_few (hdirty : w.memory.dirtySinceSave = 0) {ops : List (StoreOp F)}
    (hops : ∀ op ∈ ops, op.fingerprint ≠ none)
    (hfew : ops.countP StoreOp.isUpdate < saveEvery) :
    NoFailedSave ((storeMachine serde).outputs w ops) := by
  induction ops using List.reverseRecOn with
  | nil => exact nofun
  | append_singleton ops op ih =>
    have hops' : ∀ o ∈ ops, o.fingerprint ≠ none := fun o ho => hops o (by simp [ho])
    rw [List.countP_append, List.countP_singleton] at hfew
    have hbefore := ih hops' (by omega)
    have hcounter := dirtySinceSave_eq serde hdirty ops
    rw [updatesSinceSave_mod serde w hdirty hbefore hops'] at hcounter
    have hnext := UInt64.toNat_saturatingAdd_one_of_clamped hcounter
    rw [Machine.outputs_concat]
    intro o ho
    rcases List.mem_append.mp ho with ho | ho
    · exact hbefore o ho
    · rw [List.mem_singleton.mp ho]
      show (((storeMachine serde).final w ops).step serde op).2.saved ≠ some false
      cases op with
      | save io => exact absurd rfl (hops (.save io) (by simp))
      | select order fp prior => exact nofun
      | update order io fp g r =>
        have hnone := (update_saved_eq_none_iff serde order io fp g r
          ((storeMachine serde).final w ops).memory ((storeMachine serde).final w ops).disk).mpr
          (by simp only [StoreOp.isUpdate, if_true] at hfew; unfold saveEvery at *; omega)
        have hstep : (((storeMachine serde).final w ops).step serde
            (.update order io fp g r)).2.saved = none := hnone
        rw [hstep]
        exact nofun

end Run

end Foverin
