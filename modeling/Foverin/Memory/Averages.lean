import Foverin.Lib.Ema
import Foverin.Memory.Spec

set_option relaxedAutoImplicit false
set_option autoImplicit false

/-!
# The stored averages

What the calls on a store do to the averages that it keeps.  A property of all averages that every
step of the moving average keeps is kept by every run: in exact arithmetic, rewards in the unit
interval keep the averages there.  One NaN is the opposite, it stays for as long as its bucket does.

## Main definitions

* `Foverin.EpisodeMemory.Averages`, `Foverin.EmaClosed` — a property of all averages, and the
  arithmetic that keeps it.
* `Foverin.Bucket.NanFor` — an average that is NaN.

## Main results

* `Foverin.storeMachine_averages` — what every step of the moving average keeps, calls keep.
* `Foverin.emaClosed_inUnit` — rewards in the unit interval.
* `Foverin.nan_is_not_forgotten` — an average that is NaN stays NaN.
-/

namespace Foverin

open Finmap FloatOps

/-! ## A property of all averages -/

section Averages

variable {F : Type}

/-- Every average of the bucket has a property. -/
def Bucket.Averages (P : F → Prop) (b : Bucket F) : Prop :=
  ∀ g s, b.actions.lookup g = some s → P s.emaReward

/-- Every average of the store has a property. -/
def EpisodeMemory.Averages (P : F → Prop) (m : EpisodeMemory F) : Prop :=
  ∀ fp b, m.buckets.lookup fp = some b → b.Averages P

/-- A call whose reward, if it has one, has a property. -/
def StoreOp.Rewards (R : F → Prop) : StoreOp F → Prop
  | .update _ _ _ _ r => R r
  | _ => True

/-- The arithmetic of the averages keeps `P` if the rewards have `R`. -/
structure EmaClosed [FloatOps F] (P R : F → Prop) : Prop where
  /-- The first reward is clamped. -/
  first : ∀ r, R r → P (clamp r (lit 0) (lit 1))
  /-- One step of the moving average. -/
  mix : ∀ e r, P e → R r → P ((lit 1 - lit 0.2) * e + lit 0.2 * clamp r (lit 0) (lit 1))

variable {P R : F → Prop}

lemma EpisodeMemory.Averages.of_empty {m : EpisodeMemory F} (h : m.buckets = ∅) :
    m.Averages P := by
  intro fp b hb
  rw [h, lookup_empty] at hb
  cases hb

lemma Bucket.Averages.new (tick : UInt64) : (Bucket.new tick : Bucket F).Averages P := by
  intro g s hs
  simp [Bucket.new] at hs

variable [FloatOps F]

/-- A reward with the property keeps the averages of a bucket. -/
lemma Bucket.Averages.record (hclosed : EmaClosed P R) {b : Bucket F} (h : b.Averages P)
    (tick : UInt64) (g : String) {r : F} (hr : R r) :
    (b.record tick g (clamp r (lit 0) (lit 1))).Averages P := by
  intro g' s hs
  simp only [Bucket.record, lookup_insert_eq_ite] at hs
  split_ifs at hs with hg
  · rw [← Option.some.inj hs]
    simp only [ActionStats.record]
    split_ifs with hv
    · exact hclosed.first r hr
    · cases hl : b.actions.lookup g with
      | none =>
        rw [hl] at hv
        exact absurd rfl hv
      | some s' => exact hclosed.mix _ r (h g s' hl) hr
  · exact h g' s hs

/-- **One call** keeps the averages. -/
theorem Stored.step_averages (serde : Serde F) (hclosed : EmaClosed P R) {w : Stored F}
    (h : w.memory.Averages P) {op : StoreOp F} (hop : op.Rewards R) :
    (w.step serde op).1.memory.Averages P := by
  intro k b hb
  have hentry : ∀ tick, (entryOrNew k tick w.memory.buckets).Averages P := fun tick =>
    entryOrNew_induction (.new tick) (h k)
  rcases lookup_step serde hb with ⟨-, hb⟩ | ⟨order, prior, rfl, rfl⟩ | ⟨order, io, g, r, rfl, rfl⟩
  · exact h k b hb
  · exact hentry _
  · exact (hentry _).record hclosed _ g hop

/-- **Calls** keep the averages. -/
theorem storeMachine_averages (serde : Serde F) (hclosed : EmaClosed P R) {w : Stored F}
    (h : w.memory.Averages P) {ops : List (StoreOp F)} (hops : ∀ op ∈ ops, op.Rewards R) :
    ((storeMachine serde).final w ops).memory.Averages P :=
  (storeMachine serde).run_invariant (P := fun w => w.memory.Averages P) h
    (fun _ _ hop hw => Stored.step_averages serde hclosed hw hop) hops

end Averages

/-! ## Exact numbers -/

section Exact

open ExtNum

variable {K : Type} [Field K] [LinearOrder K] [LogSqrt K]

/-- **The moving average** of rewards in the unit interval stays there. -/
theorem emaClosed_inUnit [IsStrictOrderedRing K] : EmaClosed (InUnit (K := K)) InUnit where
  first r hr := inUnit_clamp_iff.mpr hr.ne_nan
  mix e r he hr := by
    obtain ⟨x, rfl, hx⟩ := he
    obtain ⟨y, rfl, hy₀, hy₁⟩ := hr
    have hweight : (0 : K) ≤ ((0.2 : ℚ) : K) ∧ ((0.2 : ℚ) : K) ≤ 1 := by
      constructor <;> norm_num
    rw [clamp_unit hy₀ hy₁]
    simp only [lit_eq, num_sub, num_mul, num_add, Rat.cast_one]
    exact ⟨_, rfl, Ema.mix_mem_Icc hweight.1 hweight.2 hx ⟨hy₀, hy₁⟩⟩

/-- The average of a governor that was credited is NaN. -/
def Bucket.NanFor (g : String) (b : Bucket (ExtNum K)) : Prop :=
  ∃ s, b.actions.lookup g = some s ∧ s.visits ≠ 0 ∧ s.emaReward = .nan

/-- A reward that is NaN replaces the average. -/
lemma Bucket.nanFor_record (tick : UInt64) (g : String) (b : Bucket (ExtNum K)) :
    (b.record tick g .nan).NanFor g := by
  have hadd : ∀ a : ExtNum K, a + lit 0.2 * .nan = .nan := by
    intro a
    cases a <;> rfl
  refine ⟨_, lookup_insert _, UInt32.saturatingAdd_one_ne_zero _, ?_⟩
  simp only [ActionStats.record, hadd, ite_self]

/-- An average that is NaN is not repaired by a credit. -/
lemma Bucket.NanFor.record {g : String} {b : Bucket (ExtNum K)} (h : b.NanFor g) (tick : UInt64)
    (g' : String) (r : ExtNum K) : (b.record tick g' r).NanFor g := by
  obtain ⟨s, hs, hvisits, hnan⟩ := h
  by_cases hg : g = g'
  · subst hg
    refine ⟨_, lookup_insert _, UInt32.saturatingAdd_one_ne_zero _, ?_⟩
    rw [hs, Option.getD_some, ActionStats.record, if_neg hvisits, hnan]
    cases r <;> rfl
  · exact ⟨s, by rw [Bucket.record, lookup_insert_of_ne _ hg, hs], hvisits, hnan⟩

/-- A call evicts the bucket or leaves the average NaN. -/
lemma Stored.step_nanFor (serde : Serde (ExtNum K)) {w : Stored (ExtNum K)} {fp : UInt64}
    {g : String} {b : Bucket (ExtNum K)} (hb : w.memory.buckets.lookup fp = some b)
    (h : b.NanFor g) {op : StoreOp (ExtNum K)} {b' : Bucket (ExtNum K)}
    (hb' : (w.step serde op).1.memory.buckets.lookup fp = some b') : b'.NanFor g := by
  rcases lookup_step serde hb' with ⟨-, hsame⟩ | ⟨order, prior, rfl, rfl⟩ |
    ⟨order, io, g', r, rfl, rfl⟩
  · rw [hb] at hsame
    exact Option.some.inj hsame ▸ h
  · rw [EpisodeMemory.selected, entryOrNew_of_lookup hb]
    exact h
  · rw [entryOrNew_of_lookup hb]
    exact h.record _ g' _

/-- **NaN is not forgotten.** Along any calls on the store an average that is NaN stays NaN, as long
as its bucket is not evicted. -/
theorem nan_is_not_forgotten (serde : Serde (ExtNum K)) {w : Stored (ExtNum K)} {fp : UInt64}
    {g : String} {b : Bucket (ExtNum K)} (hb : w.memory.buckets.lookup fp = some b)
    (h : b.NanFor g) {ops : List (StoreOp (ExtNum K))}
    (hresident : ∀ k, fp ∈ ((storeMachine serde).final w (ops.take k)).memory.buckets) :
    ∃ b', ((storeMachine serde).final w ops).memory.buckets.lookup fp = some b' ∧
      b'.NanFor g := by
  induction ops generalizing w b with
  | nil => exact ⟨b, hb, h⟩
  | cons op ops ih =>
    obtain ⟨b₁, hb₁⟩ := Finmap.mem_iff.mp (hresident 1)
    exact ih hb₁ (Stored.step_nanFor serde hb h hb₁) fun k => hresident (k + 1)

end Exact

end Foverin
