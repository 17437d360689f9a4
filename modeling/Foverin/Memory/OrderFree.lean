import Foverin.Memory.Interrupted

set_option relaxedAutoImplicit false
set_option autoImplicit false

/-!
# Independence from iteration orders

An eviction removes a least bucket by visits and time of last use.  As long as the times of last
use are pairwise distinct there is only one, and the order in which the table is walked does not
matter.  A selection stamps its bucket with a new time; an update stamps its bucket with the
current one, which keeps the times distinct if that bucket was the last one selected.

What a save leaves in the file depends on the orders only as a text does that is read back as
the same record.

## Main definitions

* `Foverin.EpisodeMemory.Stamped` — pairwise distinct times of last use, none in the future.
* `Foverin.EpisodeMemory.Current` — the bucket was used at the current time.

## Main results

* `Foverin.EpisodeMemory.Stamped.touch`, `Foverin.EpisodeMemory.Stamped.credit` — the times stay
  distinct.
* `Foverin.EpisodeMemory.Stamped.makeRoom_congr` — evictions do not depend on the order.
* `Foverin.Stored.step_sameAnswers` — neither does any call.
-/

namespace Foverin

open Finmap FloatOps

variable {F : Type}

namespace EpisodeMemory

/-! ## Times of last use -/

/-- The times of last use are pairwise distinct, and not in the future. -/
structure Stamped (m : EpisodeMemory F) : Prop where
  distinct : WeightsDistinct Bucket.lastUsed m.buckets
  le_tick : ∀ fp b, m.buckets.lookup fp = some b → b.lastUsed.toNat ≤ m.tick.toNat

/-- The bucket of `fp` was used at the current time. -/
def Current (fp : UInt64) (m : EpisodeMemory F) : Prop :=
  ∃ b, m.buckets.lookup fp = some b ∧ b.lastUsed = m.tick

lemma stamped_of_empty {m : EpisodeMemory F} (h : m.buckets = ∅) : m.Stamped := by
  refine ⟨fun k k' v v' hk => ?_, fun fp b hb => ?_⟩
  · rw [h, lookup_empty] at hk
    cases hk
  · rw [h, lookup_empty] at hb
    cases hb

/-- The unsaved updates do not matter. -/
lemma Stamped.congr {m m' : EpisodeMemory F} (h : m.Stamped) (hb : m'.buckets = m.buckets)
    (ht : m'.tick = m.tick) : m'.Stamped := by
  refine ⟨?_, fun fp b hlookup => ?_⟩
  · rw [hb]
    exact h.distinct
  · rw [hb] at hlookup
    rw [ht]
    exact h.le_tick fp b hlookup

/-- The buckets can be told apart by what an eviction compares. -/
lemma Stamped.evictKey {m : EpisodeMemory F} (h : m.Stamped) :
    WeightsDistinct Bucket.evictKey m.buckets := by
  intro k k' v v' hv hv' heq
  have hpair : (v.totalVisits.toNat, v.lastUsed.toNat) =
      (v'.totalVisits.toNat, v'.lastUsed.toNat) := toLex.injective heq
  exact h.distinct k k' v v' hv hv' (UInt64.toNat_inj.mp (Prod.ext_iff.mp hpair).2)

/-- **Evictions** do not depend on the iteration order. -/
theorem Stamped.makeRoom_congr {m : EpisodeMemory F} (h : m.Stamped) (o o' : BucketOrder F)
    (fp : UInt64) : makeRoom o fp m.buckets = makeRoom o' fp m.buckets := by
  unfold makeRoom
  split_ifs
  · rfl
  · exact popMins_congr o o' maxBuckets _ m.buckets h.evictKey

lemma Stamped.touch_congr {m : EpisodeMemory F} (h : m.Stamped) (o o' : BucketOrder F)
    (fp : UInt64) : m.touch o fp = m.touch o' fp := by
  unfold EpisodeMemory.touch
  rw [h.makeRoom_congr o o' fp]

/-- A change of one bucket that leaves each other bucket alone or removes it keeps the times
distinct, if the time of the changed bucket is new. -/
lemma Stamped.stamp {m m' : EpisodeMemory F} (h : m.Stamped) {fp : UInt64} {b : Bucket F}
    (hb : m'.buckets.lookup fp = some b) (ht : b.lastUsed = m'.tick)
    (htick : m.tick.toNat ≤ m'.tick.toNat)
    (hother : ∀ k, k ≠ fp → m'.buckets.lookup k = none ∨
      m'.buckets.lookup k = m.buckets.lookup k)
    (hnew : ∀ k b', k ≠ fp → m.buckets.lookup k = some b' → b'.lastUsed ≠ m'.tick) :
    m'.Stamped := by
  have hkept : ∀ k b', k ≠ fp → m'.buckets.lookup k = some b' →
      m.buckets.lookup k = some b' := by
    intro k b' hk hb'
    rcases hother k hk with hnone | hsame
    · rw [hnone] at hb'
      cases hb'
    · rwa [← hsame]
  refine ⟨fun k k' v v' hv hv' heq => ?_, fun k v hv => ?_⟩
  · by_cases hk : k = fp
    · subst hk
      obtain rfl : b = v := Option.some.inj (hb.symm.trans hv)
      by_contra hne
      exact hnew k' v' (Ne.symm hne) (hkept k' v' (Ne.symm hne) hv') (heq.symm.trans ht)
    · by_cases hk' : k' = fp
      · subst hk'
        obtain rfl : b = v' := Option.some.inj (hb.symm.trans hv')
        exact absurd (heq.trans ht) (hnew k v hk (hkept k v hk hv))
      · exact h.distinct k k' v v' (hkept k v hk hv) (hkept k' v' hk' hv') heq
  · by_cases hk : k = fp
    · subst hk
      obtain rfl : b = v := Option.some.inj (hb.symm.trans hv)
      rw [ht]
    · exact (h.le_tick k v (hkept k v hk hv)).trans htick

/-- A selection stamps its bucket with a time of its own. -/
theorem Stamped.touch {m : EpisodeMemory F} (h : m.Stamped) (htick : m.tick.toNat < 2 ^ 64 - 1)
    (o : BucketOrder F) (fp : UInt64) : (m.touch o fp).Stamped := by
  have hlt : m.tick.toNat < (m.touch o fp).tick.toNat := by
    rw [touch_tick, UInt64.toNat_saturatingAdd, UInt64.toNat_one]
    omega
  refine h.stamp (lookup_touch o fp m) rfl hlt.le (fun k hk => lookup_touch_of_ne o hk m)
    fun k b' _ hb' heq => ?_
  have hle := h.le_tick k b' hb'
  rw [heq] at hle
  omega

lemma touch_current (o : BucketOrder F) (fp : UInt64) (m : EpisodeMemory F) :
    (m.touch o fp).Current fp := ⟨_, lookup_touch o fp m, rfl⟩

variable [FloatOps F]

lemma Stamped.credit_congr {m : EpisodeMemory F} (h : m.Stamped) (o o' : BucketOrder F)
    (fp : UInt64) (g : String) (r : F) : m.credit o fp g r = m.credit o' fp g r := by
  unfold EpisodeMemory.credit
  rw [h.makeRoom_congr o o' fp]

/-- An update of the bucket that was used last keeps the times distinct. -/
theorem Stamped.credit {m : EpisodeMemory F} (h : m.Stamped) {fp : UInt64} (hfp : m.Current fp)
    (o : BucketOrder F) (g : String) (r : F) : (m.credit o fp g r).Stamped := by
  obtain ⟨b, hb, ht⟩ := hfp
  refine h.stamp (lookup_credit o fp g r m) rfl le_rfl
    (fun k hk => lookup_credit_of_ne o hk g r m) fun k b' hk hb' heq => ?_
  exact hk (h.distinct k fp b' b hb' hb (heq.trans ht.symm))

end EpisodeMemory

/-! ## Files -/

/-- The answers of the file system to two saves are the same; the orders may differ. -/
def SaveIo.SameAnswers (io io' : SaveIo F) : Prop :=
  io.createDir = io'.createDir ∧ io.write = io'.write

/-- The orders move the parts of a text around, without changing its size. -/
structure Serde.OrderBlind (serde : Serde F) : Prop where
  size : ∀ (layout layout' : ℕ) (f : MemoryFile F),
    (serde.toStringPretty layout f).map String.utf8ByteSize =
      (serde.toStringPretty layout' f).map String.utf8ByteSize

/-- A library of texts of one size writes one of them in every order, or none. -/
lemma ofTexts_orderBlind [DecidableEq F] {texts : List (MemoryFile F × String)}
    (hsize : ∀ e ∈ texts, ∀ e' ∈ texts, e.2.utf8ByteSize = e'.2.utf8ByteSize) :
    (Serde.ofTexts texts).OrderBlind where
  size layout layout' f := by
    have hsome : ∀ layout, ((Serde.ofTexts texts).toStringPretty layout f).isSome =
        decide (0 < (texts.filter fun e => e.1 = f).length) := by
      intro layout
      unfold Serde.ofTexts
      dsimp only
      rw [Bool.eq_iff_iff, Option.isSome_iff_ne_none, Ne, List.getElem?_eq_none_iff, not_le,
        List.length_map, decide_eq_true_eq]
      exact ⟨Nat.zero_lt_of_lt, Nat.mod_lt _⟩
    cases hjson : (Serde.ofTexts texts).toStringPretty layout f with
    | none =>
      have hnone := (hsome layout').trans (hsome layout).symm
      rw [hjson, Option.isSome_none, Option.isSome_eq_false_iff, Option.isNone_iff_eq_none] at hnone
      rw [hnone]
    | some json =>
      have hsome' := (hsome layout').trans (hsome layout).symm
      rw [hjson, Option.isSome_some] at hsome'
      obtain ⟨json', hjson'⟩ := Option.isSome_iff_exists.mp hsome'
      rw [hjson', Option.map_some, Option.map_some]
      exact congrArg some (hsize _ (mem_of_ofTexts_writes hjson) _ (mem_of_ofTexts_writes hjson'))

/-- Two saves of one store write texts of one size, or none. -/
lemma saveText_size {serde : Serde F} (hblind : serde.OrderBlind) {io io' : SaveIo F}
    (hio : io.SameAnswers io') (m : EpisodeMemory F) :
    (saveText serde io m).map String.utf8ByteSize =
      (saveText serde io' m).map String.utf8ByteSize := by
  unfold saveText
  rw [hio.1, toFile_congr io.order io'.order rfl rfl]
  split_ifs
  · exact hblind.size _ _ _
  · rfl

variable [FloatOps F]

/-- After two saves of one store with the same answers, the same can be read. -/
lemma reads_save_congr {serde : Serde F} (hserde : serde.Strict) (hblind : serde.OrderBlind)
    {io io' : SaveIo F} (hio : io.SameAnswers io') (m : EpisodeMemory F) {disk disk' : Disk}
    (hdisk : reads serde disk = reads serde disk') :
    reads serde (m.save serde io disk).disk = reads serde (m.save serde io' disk').disk := by
  rw [reads_save hserde, reads_save hserde, saveText_size hblind hio, hio.2, hdisk,
    toFile_congr io.order io'.order rfl rfl]

omit [FloatOps F] in
/-- And they succeed or fail together. -/
lemma save_memory_congr {serde : Serde F} (hblind : serde.OrderBlind) {io io' : SaveIo F}
    (hio : io.SameAnswers io') (m : EpisodeMemory F) (disk disk' : Disk) :
    (m.save serde io disk).memory = (m.save serde io' disk').memory ∧
      Except.isOk (m.save serde io disk).result = Except.isOk (m.save serde io' disk').result := by
  have hsome : (saveText serde io m).isSome = (saveText serde io' m).isSome := by
    have h := congrArg Option.isSome (saveText_size hblind hio m)
    rwa [Option.isSome_map, Option.isSome_map] at h
  have hok : Except.isOk (m.save serde io disk).result =
      Except.isOk (m.save serde io' disk').result := by
    rw [EpisodeMemory.save_isOk, EpisodeMemory.save_isOk, hsome, hio.2]
  rw [EpisodeMemory.save_memory, EpisodeMemory.save_memory, hok]
  exact ⟨rfl, rfl⟩

/-! ## Calls -/

/-- The same call with the same answers of the file system, in possibly other orders. -/
inductive StoreOp.SameAnswers : StoreOp F → StoreOp F → Prop
  | select (order order' : BucketOrder F) (fp : UInt64) (prior : String) :
      SameAnswers (.select order fp prior) (.select order' fp prior)
  | update (order order' : BucketOrder F) {io io' : SaveIo F} (hio : io.SameAnswers io')
      (fp : UInt64) (g : String) (r : F) :
      SameAnswers (.update order io fp g r) (.update order' io' fp g r)
  | save {io io' : SaveIo F} (hio : io.SameAnswers io') : SameAnswers (.save io) (.save io')

/-- The files of two stores read the same. -/
def Stored.SameReads (serde : Serde F) (w w' : Stored F) : Prop :=
  w.memory = w'.memory ∧ reads serde w.disk = reads serde w'.disk

/-- **No call** on a store with distinct times depends on the orders.

**Proof sketch.** With distinct times of last use the entry to evict is unique, so that the orders
of the table do not matter for the store.  They matter for the text that is written, but not for
what is read back from it. -/
theorem Stored.step_sameAnswers {serde : Serde F} (hserde : serde.Strict)
    (hblind : serde.OrderBlind) {w w' : Stored F} (h : w.SameReads serde w')
    (hst : w.memory.Stamped) {op op' : StoreOp F} (hop : op.SameAnswers op') :
    (w.step serde op).1.SameReads serde (w'.step serde op').1 ∧
      (w.step serde op).2 = (w'.step serde op').2 := by
  obtain ⟨m, disk⟩ := w
  obtain ⟨m', disk'⟩ := w'
  obtain ⟨hm, hdisk⟩ := h
  change m = m' at hm
  subst hm
  change m.Stamped at hst
  cases hop with
  | select order order' fp prior =>
    have htouch := hst.touch_congr order order' fp
    refine ⟨⟨htouch, hdisk⟩, ?_⟩
    change (⟨some (m.select order fp prior).1, none⟩ : StoreOut F) =
      ⟨some (m.select order' fp prior).1, none⟩
    rw [EpisodeMemory.select_fst, EpisodeMemory.select_fst]
  | @update order order' io io' hio fp g r =>
    have hcredit := hst.credit_congr order order' fp g r
    simp only [Stored.step, EpisodeMemory.update, ← hcredit]
    split_ifs
    · obtain ⟨hmem, hok⟩ := save_memory_congr hblind hio (m.credit order fp g r) disk disk'
      exact ⟨⟨hmem, reads_save_congr hserde hblind hio _ hdisk⟩, by rw [hok]⟩
    · exact ⟨⟨rfl, hdisk⟩, rfl⟩
  | save hio =>
    obtain ⟨hmem, hok⟩ := save_memory_congr hblind hio m disk disk'
    refine ⟨⟨hmem, reads_save_congr hserde hblind hio m hdisk⟩, ?_⟩
    simp only [Stored.step, hok]

/-! ## Stamped files -/

/-- Whatever can be read from the file is the record of a store with distinct times. -/
def StampedFile (serde : Serde F) (disk : Disk) : Prop :=
  ∀ f, reads serde disk = some (some f) →
    ∃ m : EpisodeMemory F, m.Stamped ∧ ∀ o, f = m.toFile o

lemma StampedFile.save {serde : Serde F} (hserde : serde.Strict) {disk : Disk}
    (h : StampedFile serde disk) {m : EpisodeMemory F} (hm : m.Stamped) (io : SaveIo F) :
    StampedFile serde (m.save serde io disk).disk := by
  classical
  intro f hf
  rw [reads_save hserde] at hf
  split at hf
  · exact h f hf
  · split_ifs at hf with hopened hall
    · exact h f hf
    · cases hf
      exact ⟨m, hm, fun o => toFile_congr io.order o rfl rfl⟩
    · cases hf

/-- Memory and file of a store are stamped. -/
def Stored.Stamped (serde : Serde F) (w : Stored F) : Prop :=
  w.memory.Stamped ∧ StampedFile serde w.disk

/-- A selection keeps memory and file stamped, as long as the clock can advance. -/
lemma Stored.Stamped.select {serde : Serde F} {w : Stored F} (h : w.Stamped serde)
    (htick : w.memory.tick.toNat < 2 ^ 64 - 1) (order : BucketOrder F) (fp : UInt64)
    (prior : String) : (w.step serde (.select order fp prior)).1.Stamped serde :=
  ⟨h.1.touch htick order fp, h.2⟩

/-- So does an update of the bucket that was used last, whatever becomes of its autosave. -/
lemma Stored.Stamped.update {serde : Serde F} (hserde : serde.Strict) {w : Stored F}
    (h : w.Stamped serde) {fp : UInt64} (hfp : w.memory.Current fp) (order : BucketOrder F)
    (io : SaveIo F) (g : String) (r : F) :
    (w.step serde (.update order io fp g r)).1.Stamped serde := by
  have hcredit := h.1.credit hfp order g r
  obtain ⟨hbuckets, htick, -, -⟩ := Stored.step_update serde w order io fp g r
  refine ⟨hcredit.congr hbuckets htick, ?_⟩
  simp only [Stored.step, EpisodeMemory.update]
  split_ifs
  · exact h.2.save hserde hcredit io
  · exact h.2

end Foverin
