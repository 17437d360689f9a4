import Foverin.Lib.Ema
import Foverin.Memory.Spec
import Mathlib.Tactic.NormNum

set_option relaxedAutoImplicit false
set_option autoImplicit false

/-!
# The store replays its credit log

A `Ledger` is what a fingerprint's bucket stands for: the credits given to it since the
operation that last created the bucket, and the time of its last use.  The ledger of a run is
computed from the calls alone, apart from whether the bucket was resident at each call.  Every
resident bucket is the replay of its ledger: the counts are the (saturated) numbers of credits
and the averages are the moving averages of the rewards, in exact arithmetic over any ordered
field.

## Main definitions

* `Foverin.Ledger`, `Foverin.ledger` — the credit log of a fingerprint along a run.
* `Foverin.Bucket.Replays` — the bucket that a list of credits describes.

## Main results

* `Foverin.Bucket.Replays.record` — crediting a bucket appends to the list it replays.
* `Foverin.Ledger.Describes.step` — every call keeps buckets and ledgers in step.
* `Foverin.bucket_replays_ledger` — so does every run from an empty store.
-/

namespace Foverin

open Finmap FloatOps

/-! ## Ledgers -/

/-- What is known about a fingerprint: its credits and the time of its last use. -/
structure Ledger (F : Type) where
  credits : List (String × F)
  lastTouched : UInt64

section Ledger

variable {F : Type} [FloatOps F]

/-- The credits that carry over into a call: none if the call has to create the bucket. -/
def Ledger.carried (fp : UInt64) (w : Stored F) (l : Ledger F) : List (String × F) :=
  if fp ∈ w.memory.buckets then l.credits else []

/-- The ledger of `fp` after a call in state `w`. -/
def Ledger.record (fp : UInt64) (w : Stored F) (l : Ledger F) : StoreOp F → Ledger F
  | .select _ f _ => if f = fp then ⟨l.carried fp w, w.memory.tick.saturatingAdd 1⟩ else l
  | .update _ _ f g r => if f = fp then ⟨l.carried fp w ++ [(g, r)], w.memory.tick⟩ else l
  | .save _ => l

/-- The ledger of `fp` after a run. -/
def ledger (serde : Serde F) (fp : UInt64) : Stored F → Ledger F → List (StoreOp F) → Ledger F
  | _, l, [] => l
  | w, l, op :: ops => ledger serde fp (w.step serde op).1 (l.record fp w op) ops

lemma ledger_append (serde : Serde F) (fp : UInt64) (w : Stored F) (l : Ledger F)
    (ops ops' : List (StoreOp F)) : ledger serde fp w l (ops ++ ops') =
      ledger serde fp ((storeMachine serde).final w ops) (ledger serde fp w l ops) ops' := by
  induction ops generalizing w l with
  | nil => rfl
  | cons op ops ih => exact ih (w.step serde op).1 (l.record fp w op)

end Ledger

/-! ## Replaying credits -/

section Replay

variable {K : Type} [Field K]

/-- The rewards that a governor received. -/
def rewardsOf (g : String) (C : List (String × ExtNum K)) : List K :=
  (C.filter fun c => c.1 = g).map fun c => c.2.toNum

lemma rewardsOf_concat (g g' : String) (C : List (String × ExtNum K)) (r : K) :
    rewardsOf g' (C ++ [(g, .num r)]) =
      if g = g' then rewardsOf g' C ++ [r] else rewardsOf g' C := by
  unfold rewardsOf
  split_ifs with h <;> simp [h]

lemma rewardsOf_eq_nil_iff {g : String} {C : List (String × ExtNum K)} :
    rewardsOf g C = [] ↔ g ∉ C.map Prod.fst := by
  rw [rewardsOf, List.map_eq_nil_iff, List.filter_eq_nil_iff, List.mem_map]
  constructor
  · rintro h ⟨c, hc, rfl⟩
    exact h c hc (by simp)
  · intro h c hc hg
    exact h ⟨c, hc, of_decide_eq_true hg⟩

/-- The visits of a governor in a bucket. -/
def Bucket.visits {F : Type} (b : Bucket F) (g : String) : ℕ :=
  ((b.actions.lookup g).map fun s => s.visits.toNat).getD 0

/-- The bucket holds what a list of credits amounts to. -/
structure Bucket.Replays (C : List (String × ExtNum K)) (b : Bucket (ExtNum K)) : Prop where
  /-- The total counts the credits. -/
  total : b.totalVisits.toNat = min C.length (2 ^ 32 - 1)
  /-- The governors with statistics are those credited. -/
  keys : b.actions.keys = (C.map Prod.fst).toFinset
  /-- Visits count the governor's credits. -/
  visits : ∀ g s, b.actions.lookup g = some s →
    s.visits.toNat = min (rewardsOf g C).length (2 ^ 32 - 1)
  /-- The average is that of the governor's rewards. -/
  ema : ∀ g s, b.actions.lookup g = some s →
    s.emaReward = .num (Ema.average (1 / 5) (rewardsOf g C))

namespace Bucket.Replays

/-- A new bucket replays no credits. -/
lemma new (tick : UInt64) : (Bucket.new tick : Bucket (ExtNum K)).Replays [] where
  total := by simp [Bucket.new]
  keys := by simp [Bucket.new]
  visits g s h := by simp [Bucket.new] at h
  ema g s h := by simp [Bucket.new] at h

lemma mem_iff {C : List (String × ExtNum K)} {b : Bucket (ExtNum K)} (h : b.Replays C)
    (g : String) : g ∈ b.actions ↔ g ∈ C.map Prod.fst := by
  rw [← Finmap.mem_keys, h.keys, List.mem_toFinset]

/-- A governor with statistics has been visited: the default average never shows. -/
lemma visits_ne_zero {C : List (String × ExtNum K)} {b : Bucket (ExtNum K)} (h : b.Replays C)
    {g : String} {s : ActionStats (ExtNum K)} (hs : b.actions.lookup g = some s) :
    s.visits ≠ 0 := by
  intro h0
  have hv := h.visits g s hs
  have hmem : g ∈ C.map Prod.fst := (h.mem_iff g).mp (mem_of_lookup_eq_some hs)
  have hne : rewardsOf g C ≠ [] := fun hn => rewardsOf_eq_nil_iff.mp hn hmem
  have := List.length_pos_iff.mpr hne
  rw [h0] at hv
  simp only [UInt32.toNat_zero] at hv
  omega

section Record

variable [LinearOrder K] [IsStrictOrderedRing K] [LogSqrt K]

/-- The statistics after a credit, given those before. -/
lemma record_stats {C : List (String × ExtNum K)} {b : Bucket (ExtNum K)} (h : b.Replays C)
    (g : String) (r : K) :
    ((((b.actions.lookup g).getD ActionStats.default).record (.num r)).visits.toNat =
        min ((rewardsOf g C).length + 1) (2 ^ 32 - 1)) ∧
      (((b.actions.lookup g).getD ActionStats.default).record (.num r)).emaReward =
        .num (Ema.average (1 / 5) (rewardsOf g C ++ [r])) := by
  cases hs : b.actions.lookup g with
  | none =>
    have hnil : rewardsOf g C = [] := rewardsOf_eq_nil_iff.mpr fun hm =>
      lookup_eq_none.mp hs ((h.mem_iff g).mpr hm)
    simp [ActionStats.record, ActionStats.default, hnil, Ema.average]
  | some s =>
    have h0 := h.visits_ne_zero hs
    have hne : rewardsOf g C ≠ [] := fun hn =>
      rewardsOf_eq_nil_iff.mp hn ((h.mem_iff g).mp (mem_of_lookup_eq_some hs))
    constructor
    · exact UInt32.toNat_saturatingAdd_one_of_clamped (h.visits g s hs)
    · have hlit : ((0.2 : ℚ) : K) = 1 / 5 := by norm_num
      simp [ActionStats.record, h0, h.ema g s hs, Ema.average_concat _ hne, Ema.mix, hlit]

/-- **Crediting appends.** A bucket that replays `C` replays `C` and one more credit after that
credit is recorded. -/
theorem record {C : List (String × ExtNum K)} {b : Bucket (ExtNum K)} (h : b.Replays C)
    (tick : UInt64) (g : String) (r : K) :
    (b.record tick g (.num r)).Replays (C ++ [(g, .num r)]) where
  total := by
    simpa [Bucket.record] using UInt32.toNat_saturatingAdd_one_of_clamped h.total
  keys := by
    simp only [Bucket.record, keys_insert', h.keys, List.map_append, List.map_cons, List.map_nil]
    ext g'
    simp
  visits g' s hs := by
    simp only [Bucket.record, lookup_insert_eq_ite] at hs
    rw [rewardsOf_concat]
    split_ifs at hs with hg
    · cases hs
      subst hg
      simpa using (h.record_stats g' r).1
    · rw [if_neg (Ne.symm hg)]
      exact h.visits g' s hs
  ema g' s hs := by
    simp only [Bucket.record, lookup_insert_eq_ite] at hs
    rw [rewardsOf_concat]
    split_ifs at hs with hg
    · cases hs
      subst hg
      simpa using (h.record_stats g' r).2
    · rw [if_neg (Ne.symm hg)]
      exact h.ema g' s hs

end Record

end Bucket.Replays

/-- The credits of all governors together are all credits. -/
lemma sum_count_credits {F : Type} (C : List (String × F)) :
    ∑ g ∈ (C.map Prod.fst).toFinset, (C.filter fun c => c.1 = g).length = C.length := by
  have h := List.sum_toFinset_count_eq_length (C.map Prod.fst)
  rw [List.length_map] at h
  rw [← h]
  refine Finset.sum_congr rfl fun g _ => ?_
  rw [List.count, List.countP_map, List.countP_eq_length_filter]
  congr 2

/-- The total is the cut-off sum of the visits. -/
lemma Bucket.Replays.total_eq_sum {C : List (String × ExtNum K)} {b : Bucket (ExtNum K)}
    (h : b.Replays C) :
    b.totalVisits.toNat = min (∑ g ∈ b.actions.keys, b.visits g) (2 ^ 32 - 1) := by
  have hvis : ∀ g ∈ b.actions.keys,
      b.visits g = min (C.filter fun c => c.1 = g).length (2 ^ 32 - 1) := by
    intro g hg
    obtain ⟨s, hs⟩ := Finmap.mem_iff.mp (Finmap.mem_keys.mp hg)
    rw [Bucket.visits, hs, Option.map_some, Option.getD_some, h.visits g s hs, rewardsOf,
      List.length_map]
  rw [Finset.sum_congr rfl hvis, Saturating.min_sum_min, h.keys, sum_count_credits, h.total]

/-! ## Runs -/

/-- The bucket of `fp`, if there is one, is what the ledger says. -/
def Ledger.Describes (fp : UInt64) (l : Ledger (ExtNum K)) (w : Stored (ExtNum K)) : Prop :=
  ∀ b, w.memory.buckets.lookup fp = some b →
    b.Replays l.credits ∧ b.lastUsed = l.lastTouched ∧
      l.lastTouched.toNat ≤ w.memory.tick.toNat

/-- The bucket that a call on `fp` starts from replays the credits that carry over. -/
lemma Ledger.Describes.carried {fp : UInt64} {l : Ledger (ExtNum K)} {w : Stored (ExtNum K)}
    (h : l.Describes fp w) (tick : UInt64) :
    (entryOrNew fp tick w.memory.buckets).Replays (l.carried fp w) := by
  unfold Ledger.carried
  split_ifs with hm
  · obtain ⟨b, hb⟩ := Finmap.mem_iff.mp hm
    rw [entryOrNew_of_lookup hb]
    exact (h b hb).1
  · rw [entryOrNew_of_notMem hm]
    exact Bucket.Replays.new tick

variable [LinearOrder K]

/-- The rewards of a call are numbers in `[0, 1]`. -/
def StoreOp.RewardInUnit : StoreOp (ExtNum K) → Prop
  | .update _ _ _ _ r => ∃ x : K, r = .num x ∧ 0 ≤ x ∧ x ≤ 1
  | _ => True

variable [LogSqrt K] [IsStrictOrderedRing K]

/-- **One call.** If the ledger describes the bucket before a call, the ledger after the call
describes the bucket after it.

**Proof sketch.** A call on another fingerprint leaves the ledger alone and the bucket too,
unless it evicts it.  A call on `fp` works on the carried-over bucket: a selection stamps it
with the advanced clock, an update appends its credit and stamps it with the current one. -/
theorem Ledger.Describes.step (serde : Serde (ExtNum K)) {fp : UInt64} {l : Ledger (ExtNum K)}
    {w : Stored (ExtNum K)} (h : l.Describes fp w) {op : StoreOp (ExtNum K)}
    (hop : op.RewardInUnit) :
    (l.record fp w op).Describes fp (w.step serde op).1 := by
  intro b hb
  rcases Stored.lookup_step serde hb with ⟨hfp, hb⟩ | ⟨order, prior, rfl, rfl⟩ |
    ⟨order, io, g, r, rfl, rfl⟩
  · have hrecord : l.record fp w op = l := by
      cases op with
      | select order f prior => exact if_neg fun hf => hfp (congrArg some hf)
      | update order io f g r => exact if_neg fun hf => hfp (congrArg some hf)
      | save io => rfl
    obtain ⟨hreplays, hlast, htick⟩ := h b hb
    rw [hrecord]
    exact ⟨hreplays, hlast, htick.trans (Stored.step_tick serde w op)⟩
  · have hcarried := h.carried (w.memory.tick.saturatingAdd 1)
    simp only [Ledger.record, if_true, Stored.step_select, EpisodeMemory.touch_tick]
    exact ⟨⟨hcarried.total, hcarried.keys, hcarried.visits, hcarried.ema⟩, rfl, le_rfl⟩
  · obtain ⟨x, rfl, hx₀, hx₁⟩ := hop
    obtain ⟨-, htick, -, -⟩ := Stored.step_update serde w order io fp g (.num x)
    rw [ExtNum.clamp_unit hx₀ hx₁]
    simp only [Ledger.record, if_true, htick, EpisodeMemory.credit_tick]
    exact ⟨(h.carried w.memory.tick).record w.memory.tick g x, rfl, le_rfl⟩

/-- **Runs.** The ledger of a run describes the bucket at its end. -/
theorem Ledger.Describes.run (serde : Serde (ExtNum K)) {fp : UInt64}
    (ops : List (StoreOp (ExtNum K))) {l : Ledger (ExtNum K)} {w : Stored (ExtNum K)}
    (h : l.Describes fp w) (hops : ∀ op ∈ ops, op.RewardInUnit) :
    (ledger serde fp w l ops).Describes fp ((storeMachine serde).final w ops) := by
  induction ops generalizing l w with
  | nil => exact h
  | cons op ops ih =>
    rw [List.forall_mem_cons] at hops
    exact ih (h.step serde hops.1) hops.2

/-- The store of a run that starts without a memory file. -/
def runFresh {F : Type} [FloatOps F] (serde : Serde F) (path : MemoryPath)
    (actions : List String) (ops : List (StoreOp F)) : Stored F :=
  (storeMachine serde).final ⟨EpisodeMemory.fresh path actions, none⟩ ops

/-- The ledger of a run that starts without a memory file. -/
def ledgerFresh {F : Type} [FloatOps F] (serde : Serde F) (path : MemoryPath)
    (actions : List String) (fp : UInt64) (ops : List (StoreOp F)) : Ledger F :=
  ledger serde fp ⟨EpisodeMemory.fresh path actions, none⟩ ⟨[], 0⟩ ops

/-- In a run without a memory file the ledger describes the bucket. -/
lemma ledgerFresh_describes (serde : Serde (ExtNum K)) (path : MemoryPath)
    (actions : List String) (fp : UInt64) {ops : List (StoreOp (ExtNum K))}
    (hops : ∀ op ∈ ops, op.RewardInUnit) :
    (ledgerFresh serde path actions fp ops).Describes fp (runFresh serde path actions ops) := by
  refine Ledger.Describes.run serde ops (fun b hb => ?_) hops
  simp [EpisodeMemory.fresh] at hb

/-- **The store replays its credit log.** After any calls on a store that starts empty, the
bucket of a resident fingerprint is the replay of the credits given to it since it was last
created, it carries the time of its last use, and further calls on other fingerprints leave it
unchanged unless they evict it.

**Proof sketch.** The bucket replays the credits of its ledger after every call
(`Ledger.Describes`), so that its counters are numbers of credits, up to saturation, and its
averages are folds of the rewards.  A weighted mean of the rewards lies between the least and the
greatest of them. -/
theorem bucket_replays_ledger (serde : Serde (ExtNum K)) (path : MemoryPath)
    (actions : List String) (ops : List (StoreOp (ExtNum K)))
    (hops : ∀ op ∈ ops, op.RewardInUnit) (fp : UInt64) (b : Bucket (ExtNum K))
    (hb : (runFresh serde path actions ops).memory.buckets.lookup fp = some b) :
    let l := ledgerFresh serde path actions fp ops
    b.totalVisits.toNat = min (2 ^ 32 - 1) l.credits.length ∧
    b.totalVisits.toNat = min (2 ^ 32 - 1) (∑ g ∈ b.actions.keys, b.visits g) ∧
    (∀ g, g ∈ b.actions ↔ g ∈ l.credits.map Prod.fst) ∧
    (∀ g s, b.actions.lookup g = some s →
      s.visits.toNat = min (2 ^ 32 - 1) (rewardsOf g l.credits).length ∧
      s.emaReward = .num (Ema.average (1 / 5) (rewardsOf g l.credits)) ∧
      ∃ lo ∈ rewardsOf g l.credits, ∃ hi ∈ rewardsOf g l.credits,
        (∀ r ∈ rewardsOf g l.credits, lo ≤ r ∧ r ≤ hi) ∧
        lo ≤ Ema.average (1 / 5) (rewardsOf g l.credits) ∧
        Ema.average (1 / 5) (rewardsOf g l.credits) ≤ hi) ∧
    b.lastUsed = l.lastTouched ∧
    b.lastUsed.toNat ≤ (runFresh serde path actions ops).memory.tick.toNat ∧
    ∀ op : StoreOp (ExtNum K), op.fingerprint ≠ some fp →
      ((runFresh serde path actions ops).step serde op).1.memory.buckets.lookup fp = none ∨
      ((runFresh serde path actions ops).step serde op).1.memory.buckets.lookup fp = some b := by
  intro l
  obtain ⟨hrep, hlast, htick⟩ := ledgerFresh_describes serde path actions fp hops b hb
  refine ⟨by rw [hrep.total, min_comm], by rw [hrep.total_eq_sum, min_comm], hrep.mem_iff,
    fun g s hs => ?_, hlast, hlast ▸ htick, fun op hop => ?_⟩
  · have hne : rewardsOf g l.credits ≠ [] := fun hn =>
      rewardsOf_eq_nil_iff.mp hn ((hrep.mem_iff g).mp (mem_of_lookup_eq_some hs))
    have hα : (0 : K) ≤ 1 / 5 ∧ (1 / 5 : K) ≤ 1 := by norm_num
    exact ⟨by rw [hrep.visits g s hs, min_comm], hrep.ema g s hs,
      Ema.exists_min_average_max hα.1 hα.2 hne⟩
  · rw [← hb]
    exact Stored.step_frame serde _ op hop

/-- Two credits on a selected fingerprint are replayed. -/
theorem bucket_replays_two_credits :
    ∃ b : Bucket (ExtNum ℝ),
      (runFresh Serde.idle ⟨"memory.json", none⟩ ["performance"]
        [.select byFingerprint 7 "performance",
          .update byFingerprint SaveIo.idle 7 "performance" (.num (1 / 2)),
          .update byFingerprint SaveIo.idle 7 "performance" (.num 1)]).memory.buckets.lookup 7 =
        some b ∧ b.totalVisits.toNat = 2 := by
  refine ⟨_, EpisodeMemory.lookup_credit .., ?_⟩
  have h := bucket_replays_ledger Serde.idle ⟨"memory.json", none⟩ ["performance"]
    [.select byFingerprint 7 "performance",
      .update byFingerprint SaveIo.idle 7 "performance" (.num (1 / 2 : ℝ)),
      .update byFingerprint SaveIo.idle 7 "performance" (.num 1)]
    (by
      simp only [List.forall_mem_cons, List.not_mem_nil, false_implies, implies_true, and_true]
      exact ⟨trivial, ⟨1 / 2, rfl, by norm_num, by norm_num⟩, ⟨1, rfl, by norm_num, le_rfl⟩⟩)
    7 _ (EpisodeMemory.lookup_credit ..)
  rw [h.1]
  rfl

end Replay

end Foverin
