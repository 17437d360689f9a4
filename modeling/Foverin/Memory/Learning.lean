import Foverin.Memory.Argmax

set_option relaxedAutoImplicit false
set_option autoImplicit false

/-!
# Learning under constant rewards

If every governor always earns the same reward, a bucket spends only logarithmically many of
its rounds on a governor that earns less than the best one.  The moving average of a constant
reward is that reward, so that a worse governor is selected only while its bonus makes up for
the gap; and as long as a better governor is untried, no governor is tried more than five times.

## Main definitions

* `Foverin.Learning` — the runs: rounds of `select` and `update` on one fingerprint, with any
  operations on others in between.
* `Foverin.Bucket.Learned` — what holds of the bucket along such a run.

## Main results

* `Foverin.Bucket.Learned.selected`, `Foverin.Bucket.Learned.record` — the two halves of a round.
* `Foverin.visits_le_log` — the number of visits after `n` rounds.
-/

namespace Foverin

open Finmap FloatOps ExtNum

/-! ## Runs -/

/-- `Learning serde fp r n p w`: the state `w` is reached from one without a bucket for `fp` by
`n` rounds on `fp` that credit the reward `r g` to the selected governor `g`; `p` is the governor
of a round that has not been credited yet. -/
inductive Learning (serde : Serde (ExtNum ℝ)) (fp : UInt64) (r : String → ℝ) :
    ℕ → Option String → Stored (ExtNum ℝ) → Prop
  | start {w : Stored (ExtNum ℝ)} (h : fp ∉ w.memory.buckets) : Learning serde fp r 0 none w
  | other {n : ℕ} {p : Option String} {w : Stored (ExtNum ℝ)} (h : Learning serde fp r n p w)
      {op : StoreOp (ExtNum ℝ)} (hop : op.fingerprint ≠ some fp) :
      Learning serde fp r n p (w.step serde op).1
  | select {n : ℕ} {w : Stored (ExtNum ℝ)} (h : Learning serde fp r n none w)
      (order : BucketOrder (ExtNum ℝ)) (prior : String) :
      Learning serde fp r n (some (w.memory.select order fp prior).1.governor)
        (w.step serde (.select order fp prior)).1
  | update {n : ℕ} {g : String} {w : Stored (ExtNum ℝ)} (h : Learning serde fp r n (some g) w)
      (order : BucketOrder (ExtNum ℝ)) (io : SaveIo (ExtNum ℝ)) :
      Learning serde fp r (n + 1) none (w.step serde (.update order io fp g (.num (r g)))).1

/-! ## The bound -/

/-- The visits that `n` rounds can give to a governor that earns `δ` less than another one. -/
noncomputable def visitBound (n : ℕ) (δ : ℝ) : ℝ :=
  Max.max 5 (0.49 * Real.log ((Max.max n 1 : ℕ) + 1) / δ ^ 2)

lemma visitBound_mono {m n : ℕ} (h : m ≤ n) (δ : ℝ) : visitBound m δ ≤ visitBound n δ := by
  refine max_le_max le_rfl ?_
  have hcast : (((max m 1 : ℕ) : ℝ) + 1) ≤ (max n 1 : ℕ) + 1 := by
    have hmax : max m 1 + 1 ≤ max n 1 + 1 := by omega
    exact_mod_cast hmax
  have hlog := Real.log_le_log (by positivity) hcast
  gcongr

lemma five_le_visitBound (n : ℕ) (δ : ℝ) : 5 ≤ visitBound n δ := le_max_left _ _

/-! ## The bucket along a run -/

/-- What holds of the bucket after `n` rounds, with `p` selected and not yet credited. -/
structure Bucket.Learned (actions : List String) (r : String → ℝ) (n : ℕ) (p : Option String)
    (b : Bucket (ExtNum ℝ)) : Prop where
  sound : b.Sound
  /-- The average of a constant reward is the reward. -/
  ema : ∀ g s, b.actions.lookup g = some s → s.emaReward = .num (r g)
  total_le : b.totalVisits.toNat ≤ n
  /-- The bound, against any better action. -/
  visits_le : ∀ g, ∀ a ∈ actions, r g < r a → (b.visits g : ℝ) ≤ visitBound n (r a - r g)
  /-- There is room for the credit that is due. -/
  room : ∀ g ∈ p, ∀ a ∈ actions, r g < r a → (b.visits g : ℝ) + 1 ≤ visitBound n (r a - r g)

namespace Bucket.Learned

variable {actions : List String} {r : String → ℝ} {n : ℕ} {b : Bucket (ExtNum ℝ)}

/-- A new bucket has learned nothing. -/
lemma new (actions : List String) (r : String → ℝ) (n : ℕ) (p : Option String)
    (tick : UInt64) : (Bucket.new tick : Bucket (ExtNum ℝ)).Learned actions r n p := by
  have hvisits : ∀ g, (Bucket.new tick : Bucket (ExtNum ℝ)).visits g = 0 := fun g =>
    Bucket.visits_of_notMem (lookup_empty g)
  refine ⟨.new tick, fun g s h => ?_, Nat.zero_le n, fun g a _ _ => ?_, fun g _ a _ _ => ?_⟩
  · simp [Bucket.new] at h
  · have := five_le_visitBound n (r a - r g)
    rw [hvisits, Nat.cast_zero]
    linarith
  · have := five_le_visitBound n (r a - r g)
    rw [hvisits, Nat.cast_zero]
    linarith

/-- **Selection.** The selected governor may be credited once more.

**Proof sketch.** If it was visited five times then every action was, so that the better action
has its reward as its average and the bonus of the selected one makes up for the gap. -/
theorem selected {p : Option String} (h : b.Learned actions r n p) (t : UInt64) (prior : String)
    (hne : actions ≠ []) :
    Bucket.Learned actions r n
      (some (Bucket.scan { b with lastUsed := t } prior actions hne).bestGov)
      { b with lastUsed := t } := by
  have hsound := h.sound.withLastUsed t
  refine ⟨hsound, h.ema, h.total_le, h.visits_le, fun g hg a ha hlt => ?_⟩
  obtain rfl := Option.some.inj hg
  rcases lt_or_ge (Bucket.visits { b with lastUsed := t }
    (Bucket.scan { b with lastUsed := t } prior actions hne).bestGov) 5 with hfive | hfive
  · refine le_trans ?_ (five_le_visitBound n _)
    exact_mod_cast hfive
  · have hseen : Bucket.visits { b with lastUsed := t } a ≠ 0 := fun h0 =>
      absurd (Bucket.visits_lt_five_of_unseen hsound hne ha h0) (not_lt.mpr hfive)
    cases ht : b.actions.lookup a with
    | none => exact absurd (Bucket.visits_of_notMem ht) hseen
    | some t' =>
      cases hs : b.actions.lookup
          (Bucket.scan { b with lastUsed := t } prior actions hne).bestGov with
      | none =>
        have h0 := Bucket.visits_of_notMem (b := { b with lastUsed := t }) hs
        omega
      | some s =>
        have hgap := Bucket.visits_le_of_scan hsound hne ha hs ht (h.ema _ s hs) (h.ema a t' ht)
          hlt
        refine hgap.trans (le_trans ?_ (le_max_right _ _))
        have htotal : max b.totalVisits.toNat 1 + 1 ≤ max n 1 + 1 := by
          have := h.total_le
          omega
        have hlog : Bucket.logTotal { b with lastUsed := t } ≤
            Real.log ((max n 1 : ℕ) + 1) := by
          refine Real.log_le_log (by positivity) ?_
          exact_mod_cast htotal
        gcongr

/-- **Credit.** Crediting the selected governor keeps the bounds.

**Proof sketch.** The average of a constant is that constant.  The selection has left room for one
more visit of the governor, and the bounds of the others only grow with the number of rounds. -/
theorem record {g : String} (h : b.Learned actions r n (some g)) (h₀ : 0 ≤ r g) (h₁ : r g ≤ 1)
    (tick : UInt64) : (b.record tick g (.num (r g))).Learned actions r (n + 1) none where
  sound := h.sound.record tick g h₀ h₁
  ema g' s hs := by
    simp only [Bucket.record, lookup_insert_eq_ite] at hs
    split_ifs at hs with hg
    · subst hg
      rw [← Option.some.inj hs]
      simp only [ActionStats.record]
      split_ifs with hv
      · rfl
      · cases hl : b.actions.lookup g' with
        | none =>
          rw [hl] at hv
          exact absurd rfl hv
        | some s' =>
          simp only [Option.getD_some, h.ema g' s' hl, lit_eq, num_sub, num_mul, num_add]
          push_cast
          exact congrArg num (Ema.mix_self _ _)
    · exact h.ema g' s hs
  total_le := by
    have := h.total_le
    simp only [Bucket.record, UInt32.toNat_saturatingAdd, UInt32.toNat_one]
    omega
  visits_le g' a ha hlt := by
    refine le_trans ?_ (visitBound_mono n.le_succ _)
    rw [Bucket.visits_record]
    split_ifs with hg
    · subst hg
      refine le_trans ?_ (h.room g' rfl a ha hlt)
      exact_mod_cast min_le_left _ _
    · exact h.visits_le g' a ha hlt
  room g' hg' := by cases hg'

end Bucket.Learned

/-! ## Runs keep the bounds -/

section Run

variable {serde : Serde (ExtNum ℝ)} {fp : UInt64} {r : String → ℝ} {n : ℕ} {p : Option String}
  {w : Stored (ExtNum ℝ)}

/-- Along every run the bucket, if it is resident, keeps the bounds. -/
lemma Learning.learned (h : Learning serde fp r n p w)
    (hr : ∀ a ∈ w.memory.actions, 0 ≤ r a ∧ r a ≤ 1) :
    (∀ g ∈ p, g ∈ w.memory.actions) ∧
      ∀ b, w.memory.buckets.lookup fp = some b → b.Learned w.memory.actions r n p := by
  induction h with
  | start h =>
    refine ⟨nofun, fun b hb => ?_⟩
    rw [lookup_eq_none.mpr h] at hb
    cases hb
  | @other n p w h op hop ih =>
    rw [Stored.step_actions] at hr ⊢
    obtain ⟨hp, hlearned⟩ := ih hr
    refine ⟨hp, fun b hb => ?_⟩
    rcases Stored.lookup_step serde hb with ⟨-, hb⟩ | ⟨order, prior, rfl, -⟩ |
      ⟨order, io, g, x, rfl, -⟩
    · exact hlearned b hb
    · exact absurd rfl hop
    · exact absurd rfl hop
  | @select n w h order prior ih =>
    rw [Stored.step_actions] at hr ⊢
    obtain ⟨-, hlearned⟩ := ih hr
    refine ⟨fun g hg => ?_, fun b hb => ?_⟩
    · rw [← Option.some.inj hg]
      exact EpisodeMemory.select_mem order fp prior w.memory
    · have hentry := entryOrNew_induction
        (Bucket.Learned.new w.memory.actions r n none (w.memory.tick.saturatingAdd 1)) hlearned
      rw [Stored.step_select, EpisodeMemory.lookup_touch] at hb
      rw [← Option.some.inj hb, EpisodeMemory.select_fst]
      exact hentry.selected _ prior w.memory.actions_ne
  | @update n g w h order io ih =>
    rw [Stored.step_actions] at hr ⊢
    obtain ⟨hp, hlearned⟩ := ih hr
    refine ⟨nofun, fun b hb => ?_⟩
    obtain ⟨h₀, h₁⟩ := hr g (hp g rfl)
    have hentry := entryOrNew_induction
      (Bucket.Learned.new w.memory.actions r n (some g) w.memory.tick) hlearned
    rw [(Stored.step_update serde w order io fp g (.num (r g))).1, EpisodeMemory.lookup_credit,
      clamp_unit h₀ h₁] at hb
    rw [← Option.some.inj hb]
    exact hentry.record h₀ h₁ _

/-- **Logarithmic regret.** After `n` rounds with constant rewards, a governor that earns less
than the best one was visited at most five times, or `0.49 ln (n + 1) / δ²` times where `δ` is
what it earns less.

**Proof sketch.** By induction on the learning run every average is the constant reward of its
governor, and a selected governor that earns less has a bonus that makes up for the gap
(`Bucket.Learned`). -/
theorem visits_le_log (h : Learning serde fp r n p w)
    (hr : ∀ a ∈ w.memory.actions, 0 ≤ r a ∧ r a ≤ 1) {b : Bucket (ExtNum ℝ)}
    (hb : w.memory.buckets.lookup fp = some b) {g : String} {rStar : ℝ}
    (hstar : IsGreatest (r '' { a | a ∈ w.memory.actions }) rStar) (hlt : r g < rStar) :
    (b.visits g : ℝ) ≤ Max.max 5 (0.49 * Real.log ((Max.max n 1 : ℕ) + 1) / (rStar - r g) ^ 2) := by
  obtain ⟨⟨a, ha, rfl⟩, -⟩ := hstar
  exact ((h.learned hr).2 b hb).visits_le g a ha hlt

end Run

/-- One round on a store that has learned nothing. -/
theorem visits_le_log_one_round :
    let r : String → ℝ := fun a => if a = "performance" then 1 else 0
    let w : Stored (ExtNum ℝ) := ⟨.fresh defaultMemoryPath [], none⟩
    let g := (w.memory.select byFingerprint 7 "performance").1.governor
    let w₁ := (w.step Serde.idle (.select byFingerprint 7 "performance")).1
    let w₂ := (w₁.step Serde.idle (.update byFingerprint SaveIo.idle 7 g (.num (r g)))).1
    ∃ b, w₂.memory.buckets.lookup 7 = some b ∧
      (b.visits "powersave" : ℝ) ≤
        Max.max 5 (0.49 * Real.log ((Max.max 1 1 : ℕ) + 1) / (1 - r "powersave") ^ 2) := by
  intro r w g w₁ w₂
  have hstart : Learning Serde.idle 7 r 0 none w := .start notMem_empty
  have hround : Learning Serde.idle 7 r 1 none w₂ :=
    (hstart.select byFingerprint "performance").update byFingerprint SaveIo.idle
  have hr : ∀ a ∈ w₂.memory.actions, 0 ≤ r a ∧ r a ≤ 1 := by
    intro a _
    change 0 ≤ (if a = "performance" then (1 : ℝ) else 0) ∧
      (if a = "performance" then (1 : ℝ) else 0) ≤ 1
    split_ifs <;> norm_num
  have hstar : IsGreatest (r '' { a | a ∈ w₂.memory.actions }) 1 := by
    constructor
    · exact ⟨"performance", List.mem_cons_self, if_pos rfl⟩
    · rintro _ ⟨a, ha, rfl⟩
      exact (hr a ha).2
  have hlookup := EpisodeMemory.lookup_credit byFingerprint 7 g (.num (r g)) w₁.memory
  rw [← (Stored.step_update Serde.idle w₁ byFingerprint SaveIo.idle 7 g (.num (r g))).1] at hlookup
  have hlt : r "powersave" < 1 := by
    change (if "powersave" = "performance" then (1 : ℝ) else 0) < 1
    rw [if_neg (by decide)]
    exact zero_lt_one
  exact ⟨_, hlookup, visits_le_log hround hr hlookup hstar hlt⟩

end Foverin
