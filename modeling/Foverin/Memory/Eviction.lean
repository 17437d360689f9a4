import Foverin.Memory.Spec

set_option relaxedAutoImplicit false
set_option autoImplicit false

/-!
# Eviction

Only a call on a fingerprint without a bucket evicts, and it evicts before it creates the bucket:
as many buckets as it takes to end with `MAX_BUCKETS` at most, the least ones first.  A memory
file may hold more buckets than that; the first such call then brings the store down to the cap.

## Main definitions

* `Foverin.StoreOp.created` — the bucket that a call creates.
* `Foverin.Evicted` — what such a call does to the table.

## Main results

* `Foverin.evicted_step` — every call on a fingerprint without a bucket evicts exactly.
* `Foverin.len_step_le` — no call leads past the cap, or past the size it finds.
* `Foverin.eviction_exact` — both, for single calls and for runs from `open`.
-/

namespace Foverin

open Finmap FloatOps

variable {F : Type}

/-! ## Exact eviction -/

/-- The table after a call on a fingerprint that had no bucket. -/
structure Evicted (fp : UInt64) (created : Option (Bucket F)) (before after : Buckets F) :
    Prop where
  /-- The number of buckets that go. -/
  removed : (before.keys \ after.keys).card = before.len - (maxBuckets - 1)
  /-- The buckets that go are least: first by visits, then by the time of the last use. -/
  least : ∀ k b k' b', before.lookup k = some b → k ∉ after → before.lookup k' = some b' →
    k' ∈ after → b.evictKey ≤ b'.evictKey
  /-- The buckets that stay are left alone. -/
  kept : ∀ k ∈ after, k ≠ fp → after.lookup k = before.lookup k
  /-- The fingerprint gets its bucket. -/
  created : after.lookup fp = created
  /-- The size afterwards. -/
  len : after.len = min before.len (maxBuckets - 1) + 1

/-- Making room removes no more than it takes to leave a place free below the cap. -/
lemma len_evictIfNeeded (order : BucketOrder F) (buckets : Buckets F) :
    (evictIfNeeded order buckets).len = min buckets.len (maxBuckets - 1) :=
  len_popMins order Bucket.evictKey (by decide) _ _ le_rfl

/-- Evicting and then inserting a new bucket.

**Proof sketch.** The loop removes entries of least key until there is room, so that each one it
removes weighs no more than those it keeps.  The new fingerprint was not resident and is inserted
after the loop; it is neither removed nor counted before. -/
lemma evicted_insert (order : BucketOrder F) {fp : UInt64} {buckets : Buckets F}
    (h : fp ∉ buckets) (b : Bucket F) :
    Evicted fp (some b) buckets ((makeRoom order fp buckets).insert fp b) := by
  have hroom : makeRoom order fp buckets = evictIfNeeded order buckets := if_neg h
  have hfp : fp ∉ evictIfNeeded order buckets := by
    rw [← lookup_eq_none, ← hroom, lookup_makeRoom_self, lookup_eq_none]
    exact h
  rw [hroom]
  refine ⟨?_, ?_, ?_, lookup_insert _, ?_⟩
  · rw [keys_insert', Finset.sdiff_insert_of_notMem (fun hk => h (mem_keys.mp hk))]
    exact card_sdiff_popMins order Bucket.evictKey (by decide) le_rfl
  · intro k b₁ k' b₂ hk hremoved hk' hkept
    rw [mem_insert, not_or] at hremoved
    have hne : k' ≠ fp := by
      rintro rfl
      exact h (mem_of_lookup_eq_some hk')
    obtain ⟨b₃, hb₃⟩ := mem_iff.mp ((mem_insert.mp hkept).resolve_left hne)
    have hsame : buckets.lookup k' = some b₃ := lookup_of_popMins hb₃
    obtain rfl : b₃ = b₂ := Option.some.inj (hsame.symm.trans hk')
    exact weight_le_of_popMins order Bucket.evictKey maxBuckets _ _ hk
      (lookup_eq_none.mpr hremoved.2) hb₃
  · intro k hk hne
    rw [lookup_insert_of_ne _ hne]
    obtain ⟨b₁, hb₁⟩ := mem_iff.mp ((mem_insert.mp hk).resolve_left hne)
    have hsame : buckets.lookup k = some b₁ := lookup_of_popMins hb₁
    rw [hb₁, hsame]
  · rw [len_insert_of_notMem hfp, len_evictIfNeeded]

/-! ## Calls -/

section Arithmetic

variable [FloatOps F]

/-- The bucket that a call creates if its fingerprint has none. -/
def StoreOp.created (m : EpisodeMemory F) : StoreOp F → Option (Bucket F)
  | .select _ _ _ => some (Bucket.new (m.tick.saturatingAdd 1))
  | .update _ _ _ governor reward =>
    some ((Bucket.new m.tick).record m.tick governor (clamp reward (lit 0) (lit 1)))
  | .save _ => none

/-- A call on a fingerprint makes room for it and puts its bucket in place. -/
lemma buckets_step (serde : Serde F) (w : Stored F) {op : StoreOp F} {fp : UInt64}
    (hfp : op.fingerprint = some fp) :
    ∃ order b, (w.step serde op).1.memory.buckets =
        (makeRoom order fp w.memory.buckets).insert fp b ∧
      (fp ∉ w.memory.buckets → op.created w.memory = some b) := by
  cases op with
  | select order k prior =>
    obtain rfl : k = fp := Option.some.inj hfp
    refine ⟨order, w.memory.selected k, ?_, fun h => ?_⟩
    · rw [Stored.step_select]
      simp [EpisodeMemory.touch, EpisodeMemory.selected]
    · rw [EpisodeMemory.selected, entryOrNew_of_notMem h]
      rfl
  | update order io k g r =>
    obtain rfl : k = fp := Option.some.inj hfp
    refine ⟨order, (entryOrNew k w.memory.tick w.memory.buckets).record w.memory.tick g
      (clamp r (lit 0) (lit 1)), ?_, fun h => ?_⟩
    · rw [(Stored.step_update serde w order io k g r).1]
      simp [EpisodeMemory.credit]
    · rw [entryOrNew_of_notMem h]
      rfl
  | save io => cases hfp

/-- A call on a resident fingerprint neither evicts nor creates a bucket. -/
lemma keys_step_of_mem (serde : Serde F) (w : Stored F) {op : StoreOp F} {fp : UInt64}
    (hfp : op.fingerprint = some fp) (h : fp ∈ w.memory.buckets) :
    (w.step serde op).1.memory.buckets.keys = w.memory.buckets.keys := by
  obtain ⟨order, b, hb, -⟩ := buckets_step serde w hfp
  rw [hb, makeRoom_of_mem order h, keys_insert_of_mem h]

/-- A call on a fingerprint without a bucket evicts exactly. -/
theorem evicted_step (serde : Serde F) (w : Stored F) {op : StoreOp F} {fp : UInt64}
    (hfp : op.fingerprint = some fp) (h : fp ∉ w.memory.buckets) :
    Evicted fp (op.created w.memory) w.memory.buckets
      (w.step serde op).1.memory.buckets := by
  obtain ⟨order, b, hb, hcreated⟩ := buckets_step serde w hfp
  rw [hb, hcreated h]
  exact evicted_insert order h b

/-! ## Runs -/

/-- No call leads past a bound that is at least the cap. -/
theorem len_step_le (serde : Serde F) {w : Stored F} {bound : ℕ} (hbound : maxBuckets ≤ bound)
    (h : w.memory.buckets.len ≤ bound) (op : StoreOp F) :
    (w.step serde op).1.memory.buckets.len ≤ bound := by
  cases hop : op.fingerprint with
  | none =>
    cases op with
    | select order fp prior => cases hop
    | update order io fp g r => cases hop
    | save io =>
      rw [(Stored.step_save serde w io).1]
      exact h
  | some fp =>
    by_cases hfp : fp ∈ w.memory.buckets
    · unfold len at h ⊢
      rw [keys_step_of_mem serde w hop hfp]
      exact h
    · have hlen := (evicted_step serde w hop hfp).len
      have : 0 < maxBuckets := by decide
      omega

/-- No run leads past such a bound. -/
lemma len_final_le (serde : Serde F) {w : Stored F} {bound : ℕ} (hbound : maxBuckets ≤ bound)
    (h : w.memory.buckets.len ≤ bound) (ops : List (StoreOp F)) :
    ((storeMachine serde).final w ops).memory.buckets.len ≤ bound :=
  (storeMachine serde).run_invariant
    (P := fun w : Stored F => w.memory.buckets.len ≤ bound) (A := fun _ => True) h
    (fun _ op _ hw => len_step_le serde hbound hw op) (fun _ _ => trivial)

/-- From the first call on a fingerprint without a bucket on, the store is within the cap. -/
lemma len_final_le_cap (serde : Serde F) (w : Stored F) {ops : List (StoreOp F)} {j k : ℕ}
    {op : StoreOp F} {fp : UInt64} (hop : ops[j]? = some op) (hfp : op.fingerprint = some fp)
    (hnew : fp ∉ ((storeMachine serde).final w (ops.take j)).memory.buckets) (hjk : j < k) :
    ((storeMachine serde).final w (ops.take k)).memory.buckets.len ≤ maxBuckets := by
  have hsplit : ops.take k = ops.take (j + 1) ++ (ops.drop (j + 1)).take (k - (j + 1)) := by
    rw [← List.take_add]
    congr 1
    omega
  have hlen := (evicted_step serde ((storeMachine serde).final w (ops.take j)) hfp hnew).len
  rw [hsplit, Machine.final_append, Machine.final_take_succ _ hop]
  refine len_final_le serde le_rfl ?_ _
  have : 0 < maxBuckets := by decide
  change ((((storeMachine serde).final w (ops.take j)).step serde op).1).memory.buckets.len ≤ _
  omega

/-- **Eviction is exact, and the cap is enforced.** A call on a resident fingerprint keeps the
set of buckets; any other evicts exactly, whatever the size of the store and the order in which
its table is walked.  Over a run from `open` the number of buckets stays within the cap or the
number that was loaded, and within the cap as soon as a fingerprint was met that had no
bucket.

**Proof sketch.** The size after a call is bounded by the size before it or by the cap, and by the
cap alone if the call had to make room.  Both bounds are kept by every later call. -/
theorem eviction_exact (serde : Serde F) :
    (∀ (w : Stored F) (op : StoreOp F) (fp : UInt64), op.fingerprint = some fp →
      (fp ∈ w.memory.buckets →
        (w.step serde op).1.memory.buckets.keys = w.memory.buckets.keys) ∧
      (fp ∉ w.memory.buckets →
        Evicted fp (op.created w.memory) w.memory.buckets
          (w.step serde op).1.memory.buckets)) ∧
    ∀ readOk order disk path actions (m : EpisodeMemory F),
      EpisodeMemory.open serde readOk order disk path actions = .ok m →
      ∀ ops : List (StoreOp F),
        (∀ k, ((storeMachine serde).final ⟨m, disk⟩ (ops.take k)).memory.buckets.len ≤
          max maxBuckets m.buckets.len) ∧
        ∀ j op fp, ops[j]? = some op → op.fingerprint = some fp →
          fp ∉ ((storeMachine serde).final ⟨m, disk⟩ (ops.take j)).memory.buckets →
          ∀ k, j < k →
            ((storeMachine serde).final ⟨m, disk⟩ (ops.take k)).memory.buckets.len ≤
              maxBuckets := by
  refine ⟨fun w op fp hfp => ⟨keys_step_of_mem serde w hfp, evicted_step serde w hfp⟩, ?_⟩
  intro readOk order disk path actions m _ ops
  refine ⟨fun k => ?_, fun j op fp hop hfp hnew k hjk => ?_⟩
  · exact len_final_le serde (le_max_left _ _) (le_max_right _ _) _
  · exact len_final_le_cap serde ⟨m, disk⟩ hop hfp hnew hjk

end Arithmetic

end Foverin
