import Foverin.Memory.Persist

set_option relaxedAutoImplicit false
set_option autoImplicit false

/-!
# What each store operation does

One lemma for each operation and each part of the state, so that no later proof unfolds an
operation: the bucket an operation works on, the buckets it leaves alone, and the fields it
does not touch.

## Main results

* `Foverin.EpisodeMemory.lookup_touch`, `Foverin.EpisodeMemory.lookup_credit` — the bucket of
  the operation afterwards.
* `Foverin.EpisodeMemory.save_eq` — what a save does to the store and to the file.
* `Foverin.Stored.step_frame` — an operation on another fingerprint evicts a bucket or leaves it
  unchanged.
* `Foverin.Stored.lookup_step` — where a resident bucket comes from.
* `Foverin.Stored.step_select`, `Foverin.Stored.step_update` — the memory after a call.
-/

namespace Foverin

open Finmap FloatOps

variable {F : Type}

/-! ## Making room -/

@[simp] lemma makeRoom_of_mem (order : BucketOrder F) {fp : UInt64} {buckets : Buckets F}
    (h : fp ∈ buckets) : makeRoom order fp buckets = buckets := if_pos h

/-- Nothing is evicted from a table that is not full. -/
lemma makeRoom_of_lt (order : BucketOrder F) (fp : UInt64) {buckets : Buckets F}
    (h : buckets.len < maxBuckets) : makeRoom order fp buckets = buckets := by
  unfold makeRoom
  split_ifs
  · rfl
  · exact popMins_of_lt _ _ h _

/-- Making room keeps a bucket or removes it. -/
lemma lookup_makeRoom (order : BucketOrder F) (fp k : UInt64) (buckets : Buckets F) :
    (makeRoom order fp buckets).lookup k = none ∨
      (makeRoom order fp buckets).lookup k = buckets.lookup k := by
  unfold makeRoom
  split_ifs
  · exact Or.inr rfl
  · exact lookup_popMins ..

/-- Making room for a fingerprint does not bring its bucket in. -/
lemma lookup_makeRoom_self (order : BucketOrder F) (fp : UInt64) (buckets : Buckets F) :
    (makeRoom order fp buckets).lookup fp = buckets.lookup fp := by
  by_cases h : fp ∈ buckets
  · rw [makeRoom_of_mem order h]
  · rcases lookup_makeRoom order fp fp buckets with h' | h'
    · rw [h', lookup_eq_none.mpr h]
    · exact h'

@[simp] lemma entryOrNew_makeRoom (order : BucketOrder F) (fp tick : UInt64)
    (buckets : Buckets F) :
    entryOrNew fp tick (makeRoom order fp buckets) = entryOrNew fp tick buckets := by
  rw [entryOrNew, lookup_makeRoom_self, entryOrNew]

lemma entryOrNew_of_lookup {fp tick : UInt64} {buckets : Buckets F} {b : Bucket F}
    (h : buckets.lookup fp = some b) : entryOrNew fp tick buckets = b := by
  rw [entryOrNew, h, Option.getD_some]

lemma entryOrNew_of_notMem {fp tick : UInt64} {buckets : Buckets F} (h : fp ∉ buckets) :
    entryOrNew fp tick buckets = Bucket.new tick := by
  rw [entryOrNew, lookup_eq_none.mpr h, Option.getD_none]

/-- What holds of a new bucket and of the resident one, if there is one, holds of the bucket that
an operation starts from. -/
lemma entryOrNew_induction {P : Bucket F → Prop} {fp tick : UInt64} {buckets : Buckets F}
    (hnew : P (Bucket.new tick)) (hresident : ∀ b, buckets.lookup fp = some b → P b) :
    P (entryOrNew fp tick buckets) := by
  cases hb : buckets.lookup fp with
  | none =>
    rw [entryOrNew_of_notMem (lookup_eq_none.mp hb)]
    exact hnew
  | some b =>
    rw [entryOrNew_of_lookup hb]
    exact hresident b hb

namespace EpisodeMemory

/-! ## `select` -/

@[simp] lemma touch_tick (order : BucketOrder F) (fp : UInt64) (m : EpisodeMemory F) :
    (m.touch order fp).tick = m.tick.saturatingAdd 1 := rfl

@[simp] lemma touch_actions (order : BucketOrder F) (fp : UInt64) (m : EpisodeMemory F) :
    (m.touch order fp).actions = m.actions := rfl

@[simp] lemma touch_dirty (order : BucketOrder F) (fp : UInt64) (m : EpisodeMemory F) :
    (m.touch order fp).dirtySinceSave = m.dirtySinceSave := rfl

/-- The bucket that a selection reads. -/
def selected (fp : UInt64) (m : EpisodeMemory F) : Bucket F :=
  { entryOrNew fp (m.tick.saturatingAdd 1) m.buckets with lastUsed := m.tick.saturatingAdd 1 }

theorem lookup_touch (order : BucketOrder F) (fp : UInt64) (m : EpisodeMemory F) :
    (m.touch order fp).buckets.lookup fp = some (m.selected fp) := by
  simp [touch, selected, lookup_insert]

/-- A selection keeps every other bucket or removes it. -/
lemma lookup_touch_of_ne (order : BucketOrder F) {fp k : UInt64} (hk : k ≠ fp)
    (m : EpisodeMemory F) :
    (m.touch order fp).buckets.lookup k = none ∨
      (m.touch order fp).buckets.lookup k = m.buckets.lookup k := by
  simp only [touch, lookup_insert_of_ne _ hk]
  exact lookup_makeRoom order fp k m.buckets

end EpisodeMemory

/-! ## `save` -/

/-- The text that a save is about to write, if it gets that far. -/
def saveText (serde : Serde F) (io : SaveIo F) (m : EpisodeMemory F) : Option String :=
  if (m.path.parent.filter (· ≠ "")).isNone ∨ io.createDir = true then
    serde.toStringPretty io.layout (m.toFile io.order)
  else none

lemma toStringPretty_of_saveText {serde : Serde F} {io : SaveIo F} {m : EpisodeMemory F}
    {json : String} (h : saveText serde io m = some json) :
    serde.toStringPretty io.layout (m.toFile io.order) = some json := by
  unfold saveText at h
  split_ifs at h
  exact h

namespace EpisodeMemory

variable (serde : Serde F) (io : SaveIo F) (m : EpisodeMemory F) (disk : Disk)

/-- **What a save does.** Without a text it leaves store and file alone.  With one it writes the
file, and resets the counter if the write is complete. -/
theorem save_eq : ∃ err, m.save serde io disk =
    match saveText serde io m with
    | none => ⟨.error err, m, disk⟩
    | some json =>
      if io.write = .complete then ⟨.ok (), { m with dirtySinceSave := 0 }, some json.toUTF8⟩
      else ⟨.error err, m, (fsWrite io.write json.toUTF8 disk).2⟩ := by
  have hwrite : ∃ err, save.write serde io m disk =
      match serde.toStringPretty io.layout (m.toFile io.order) with
      | none => ⟨.error err, m, disk⟩
      | some json =>
        if io.write = .complete then ⟨.ok (), { m with dirtySinceSave := 0 }, some json.toUTF8⟩
        else ⟨.error err, m, (fsWrite io.write json.toUTF8 disk).2⟩ := by
    unfold save.write
    cases serde.toStringPretty io.layout (m.toFile io.order) with
    | none => exact ⟨_, rfl⟩
    | some json =>
      cases io.write with
      | complete => exact ⟨"", rfl⟩
      | notOpened => exact ⟨_, rfl⟩
      | cutAt k => exact ⟨_, rfl⟩
  unfold save saveText
  cases m.path.parent.filter (· ≠ "") with
  | none => simpa using hwrite
  | some parent =>
    by_cases hdir : io.createDir = true
    · simpa [hdir] using hwrite
    · simp [hdir]

/-- A save succeeds if it has a text and writes it completely. -/
lemma save_isOk : Except.isOk (m.save serde io disk).result =
    ((saveText serde io m).isSome && decide (io.write = .complete)) := by
  obtain ⟨err, hsave⟩ := save_eq serde io m disk
  rw [hsave]
  cases saveText serde io m with
  | none => rfl
  | some json => by_cases hw : io.write = .complete <;> simp [hw, Except.isOk, Except.toBool]

/-- A save changes nothing in memory but the counter of unsaved updates, and that only if it
succeeds. -/
lemma save_memory : (m.save serde io disk).memory =
    if Except.isOk (m.save serde io disk).result then { m with dirtySinceSave := 0 } else m := by
  obtain ⟨err, hsave⟩ := save_eq serde io m disk
  rw [hsave]
  cases saveText serde io m with
  | none => rfl
  | some json => by_cases hw : io.write = .complete <;> simp [hw, Except.isOk, Except.toBool]

/-- The file after a save. -/
lemma save_disk : (m.save serde io disk).disk =
    match saveText serde io m with
    | none => disk
    | some json => (fsWrite io.write json.toUTF8 disk).2 := by
  obtain ⟨err, hsave⟩ := save_eq serde io m disk
  rw [hsave]
  cases saveText serde io m with
  | none => rfl
  | some json =>
    by_cases hw : io.write = .complete
    · simp [hw, fsWrite]
    · simp [hw]

end EpisodeMemory

section Arithmetic

variable [FloatOps F]

namespace EpisodeMemory

@[simp] lemma select_snd (order : BucketOrder F) (fp : UInt64) (prior : String)
    (m : EpisodeMemory F) : (m.select order fp prior).2 = m.touch order fp := rfl

/-- What a selection returns depends on the bucket it reads, not on the rest of the table. -/
lemma select_fst (order : BucketOrder F) (fp : UInt64) (prior : String)
    (m : EpisodeMemory F) :
    (m.select order fp prior).1 =
      { governor := ((m.selected fp).scan prior m.actions m.actions_ne).bestGov
        confidence := ((m.selected fp).scan prior m.actions m.actions_ne).confidence } := by
  rw [select, entryOrNew_of_lookup (lookup_touch order fp m)]

/-! ## `update` -/

@[simp] lemma credit_tick (order : BucketOrder F) (fp : UInt64) (g : String) (r : F)
    (m : EpisodeMemory F) : (m.credit order fp g r).tick = m.tick := rfl

@[simp] lemma credit_actions (order : BucketOrder F) (fp : UInt64) (g : String) (r : F)
    (m : EpisodeMemory F) : (m.credit order fp g r).actions = m.actions := rfl

@[simp] lemma credit_dirty (order : BucketOrder F) (fp : UInt64) (g : String) (r : F)
    (m : EpisodeMemory F) :
    (m.credit order fp g r).dirtySinceSave = m.dirtySinceSave.saturatingAdd 1 := rfl

theorem lookup_credit (order : BucketOrder F) (fp : UInt64) (g : String) (r : F)
    (m : EpisodeMemory F) :
    (m.credit order fp g r).buckets.lookup fp =
      some ((entryOrNew fp m.tick m.buckets).record m.tick g (clamp r (lit 0) (lit 1))) := by
  simp [credit, lookup_insert]

/-- An update keeps every other bucket or removes it. -/
lemma lookup_credit_of_ne (order : BucketOrder F) {fp k : UInt64} (hk : k ≠ fp) (g : String)
    (r : F) (m : EpisodeMemory F) :
    (m.credit order fp g r).buckets.lookup k = none ∨
      (m.credit order fp g r).buckets.lookup k = m.buckets.lookup k := by
  simp only [credit, lookup_insert_of_ne _ hk]
  exact lookup_makeRoom order fp k m.buckets

/-- On a resident fingerprint an update does not change which buckets there are. -/
lemma keys_credit_of_mem (order : BucketOrder F) {fp : UInt64} {m : EpisodeMemory F}
    (h : fp ∈ m.buckets) (g : String) (r : F) :
    (m.credit order fp g r).buckets.keys = m.buckets.keys := by
  simp only [credit, makeRoom_of_mem order h]
  exact keys_insert_of_mem h _

end EpisodeMemory

/-! ## Calls -/

/-- The fingerprint that a call is about. -/
def StoreOp.fingerprint : StoreOp F → Option UInt64
  | .select _ fp _ => some fp
  | .update _ _ fp _ _ => some fp
  | .save _ => none

namespace EpisodeMemory

/-- Two stores that differ at most in their count of unsaved updates. -/
def SameLearned (m m' : EpisodeMemory F) : Prop :=
  m.buckets = m'.buckets ∧ m.tick = m'.tick ∧ m.actions = m'.actions ∧ m.path = m'.path

omit [FloatOps F] in
lemma SameLearned.refl (m : EpisodeMemory F) : m.SameLearned m := ⟨rfl, rfl, rfl, rfl⟩

omit [FloatOps F] in
lemma save_sameLearned (serde : Serde F) (io : SaveIo F) (m : EpisodeMemory F) (disk : Disk) :
    (m.save serde io disk).memory.SameLearned m := by
  rw [save_memory]
  split_ifs <;> exact ⟨rfl, rfl, rfl, rfl⟩

end EpisodeMemory

namespace Stored

/-- A `select` call. -/
theorem step_select (serde : Serde F) (w : Stored F) (order : BucketOrder F) (fp : UInt64)
    (prior : String) :
    w.step serde (.select order fp prior) =
      (⟨w.memory.touch order fp, w.disk⟩, ⟨some (w.memory.select order fp prior).1, none⟩) := rfl

/-- Whatever becomes of the autosave, an `update` call learns what `credit` does. -/
theorem step_update (serde : Serde F) (w : Stored F) (order : BucketOrder F) (io : SaveIo F)
    (fp : UInt64) (g : String) (r : F) :
    (w.step serde (.update order io fp g r)).1.memory.SameLearned
      (w.memory.credit order fp g r) := by
  simp only [step, EpisodeMemory.update]
  split_ifs
  · exact EpisodeMemory.save_sameLearned ..
  · exact EpisodeMemory.SameLearned.refl _

lemma step_save (serde : Serde F) (w : Stored F) (io : SaveIo F) :
    (w.step serde (.save io)).1.memory.SameLearned w.memory :=
  EpisodeMemory.save_sameLearned ..

/-- **Frame.** A call on another fingerprint, or none, evicts a bucket or leaves it unchanged. -/
theorem step_frame (serde : Serde F) (w : Stored F) (op : StoreOp F) {k : UInt64}
    (hk : op.fingerprint ≠ some k) :
    (w.step serde op).1.memory.buckets.lookup k = none ∨
      (w.step serde op).1.memory.buckets.lookup k = w.memory.buckets.lookup k := by
  cases op with
  | select order fp prior =>
    exact EpisodeMemory.lookup_touch_of_ne order (fun h => hk (congrArg some h.symm)) _
  | update order io fp g r =>
    rw [(step_update serde w order io fp g r).1]
    exact EpisodeMemory.lookup_credit_of_ne order (fun h => hk (congrArg some h.symm)) g r _
  | save io =>
    rw [(step_save serde w io).1]
    exact Or.inr rfl

/-- **One bucket.** A bucket that is resident after a call was left alone by it, or it is the one
that a selection has stamped, or the one that an update has credited. -/
theorem lookup_step (serde : Serde F) {w : Stored F} {op : StoreOp F} {k : UInt64} {b : Bucket F}
    (hb : (w.step serde op).1.memory.buckets.lookup k = some b) :
    (op.fingerprint ≠ some k ∧ w.memory.buckets.lookup k = some b) ∨
      (∃ order prior, op = .select order k prior ∧ b = w.memory.selected k) ∨
      ∃ order io g r, op = .update order io k g r ∧
        b = (entryOrNew k w.memory.tick w.memory.buckets).record w.memory.tick g
          (clamp r (lit 0) (lit 1)) := by
  by_cases hk : op.fingerprint = some k
  · right
    cases op with
    | select order fp prior =>
      obtain rfl : fp = k := Option.some.inj hk
      rw [step_select, EpisodeMemory.lookup_touch] at hb
      exact Or.inl ⟨order, prior, rfl, (Option.some.inj hb).symm⟩
    | update order io fp g r =>
      obtain rfl : fp = k := Option.some.inj hk
      rw [(step_update serde w order io fp g r).1, EpisodeMemory.lookup_credit] at hb
      exact Or.inr ⟨order, io, g, r, rfl, (Option.some.inj hb).symm⟩
    | save io => cases hk
  · left
    rcases step_frame serde w op hk with hnone | hsame
    · rw [hnone] at hb
      cases hb
    · exact ⟨hk, hsame ▸ hb⟩

lemma step_actions (serde : Serde F) (w : Stored F) (op : StoreOp F) :
    (w.step serde op).1.memory.actions = w.memory.actions := by
  cases op with
  | select order fp prior => rfl
  | update order io fp g r => exact (step_update serde w order io fp g r).2.2.1
  | save io => exact (step_save serde w io).2.2.1

/-- The clock of the store only advances. -/
lemma step_tick (serde : Serde F) (w : Stored F) (op : StoreOp F) :
    w.memory.tick.toNat ≤ (w.step serde op).1.memory.tick.toNat := by
  cases op with
  | select order fp prior => exact UInt64.le_saturatingAdd _ _
  | update order io fp g r => rw [(step_update serde w order io fp g r).2.1]; rfl
  | save io => rw [(step_save serde w io).2.1]

end Stored

end Arithmetic

end Foverin
