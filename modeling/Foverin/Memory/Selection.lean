import Foverin.Memory.Argmax
import Foverin.Memory.Eviction
import Foverin.Memory.RoundTrip

set_option relaxedAutoImplicit false
set_option autoImplicit false

/-!
# Selection

`select` as a whole over the reals: the governor that it returns, the confidence that it reports,
and what it changes.

## Main results

* `Foverin.Scan.Follows.confidence_eq` — the confidence of a pass.
* `Foverin.select_congr` — the order of the actions does not matter where the best one is unique.
* `Foverin.select_exact` — the selection, and the store after it.
-/

namespace Foverin

open Finmap FloatOps ExtNum

/-! ## Numeric buckets -/

lemma EpisodeMemory.Finite.selected {m : EpisodeMemory (ExtNum ℝ)} (h : m.Finite)
    (fp : UInt64) : (m.selected fp).Finite := by
  have hentry : (entryOrNew fp (m.tick.saturatingAdd 1) m.buckets).Finite :=
    entryOrNew_induction (Bucket.Finite.new _) (h fp)
  exact hentry

/-! ## Confidence -/

/-- The lead of the best action: over the runner-up, or one if there is none. -/
noncomputable def lead (best : ℝ) : WithBot ℝ → ℝ := WithBot.recBotCoe 1 fun second => best - second

/-- The confidence percentage of an action that was visited `visits` times. -/
noncomputable def confidenceOf (visits : ℕ) (margin : ℝ) : ℝ :=
  min (max (max (min (visits * 5 : ℕ) 100) (min (margin * 80) 100)) (5 : ℕ)) 100

/-- The confidence that is reported. -/
theorem Scan.Follows.confidence_eq {b : Bucket (ExtNum ℝ)} {prior : String}
    {s : Scan (ExtNum ℝ)} {t : TopTwo String ℝ} (h : s.Follows b prior t)
    (hle : t.second ≤ b.score prior t.best) :
    s.confidence = .num (confidenceOf (b.estimate prior t.best).1.toNat
      (lead (b.score prior t.best) t.second)) := by
  have hmargin : (if FloatOps.isFinite s.secondUcb
      then FloatOps.max (s.bestUcb - s.secondUcb) (lit 0) else lit 1) =
      .num (lead (b.score prior t.best) t.second) := by
    rw [h.bestUcb, h.secondUcb]
    cases hsecond : t.second with
    | bot => exact congrArg ExtNum.num Rat.cast_one
    | coe second =>
      rw [hsecond, WithBot.coe_le_coe] at hle
      have hfinite : FloatOps.isFinite (ofRunnerUp second) = true := rfl
      rw [if_pos hfinite]
      show FloatOps.max (num (b.score prior t.best) - num second) (lit 0) =
        num (b.score prior t.best - second)
      rw [lit_eq, Rat.cast_zero, num_sub, max_num, max_eq_left (sub_nonneg.mpr hle)]
  unfold Scan.confidence confidenceOf
  dsimp only
  rw [hmargin, h.bestVisits]
  simp only [ofNat_eq, lit_eq, num_mul, min_num, max_num, clamp_num, Rat.cast_ofNat,
    Nat.cast_mul, Nat.cast_ofNat]

/-- In a new bucket a single action is selected with its whole lead. -/
lemma Bucket.scan_new_singleton (tick : UInt64) (prior a : String) (hne : [a] ≠ []) :
    let s : Scan (ExtNum ℝ) :=
      Bucket.scan { Bucket.new tick with lastUsed := tick } prior [a] hne
    (⟨s.bestGov, s.confidence⟩ : Selection (ExtNum ℝ)) = ⟨a, .num 80⟩ := by
  intro s
  have hsound : Bucket.Sound { (Bucket.new tick : Bucket (ExtNum ℝ)) with lastUsed := tick } :=
    (Bucket.Sound.new tick).withLastUsed tick
  have hs : s.Follows _ prior ⟨a, ⊥⟩ := Scan.Follows.start hsound.numeric prior a a
  have hconfidence : s.confidence = .num (confidenceOf 0 1) := hs.confidence_eq bot_le
  have heighty : confidenceOf 0 1 = 80 := by
    unfold confidenceOf
    norm_num
  rw [hconfidence, heighty, hs.bestGov]

/-! ## Selection -/

/-- **The order of the actions does not matter** where the best one is unique. -/
theorem select_congr {m m' : EpisodeMemory (ExtNum ℝ)} (hm : m.Finite)
    (order order' : BucketOrder (ExtNum ℝ)) (fp : UInt64) (prior : String)
    (hactions : m'.actions.Perm m.actions) (hbuckets : m'.buckets = m.buckets)
    (htick : m'.tick = m.tick) {t : TopTwo String ℝ}
    (ht : TopTwo.Of ((m.selected fp).score prior) m.actions t)
    (hunique : t.second < (m.selected fp).score prior t.best) :
    (m'.select order' fp prior).1 = (m.select order fp prior).1 := by
  have hnumeric := (hm.selected fp).numeric
  have hselected : m'.selected fp = m.selected fp := by
    unfold EpisodeMemory.selected
    rw [hbuckets, htick]
  have hpass : ∀ {actions : List String} (hne : actions ≠ []), actions.Perm m.actions →
      ((m.selected fp).scan prior actions hne).Follows (m.selected fp) prior t := by
    intro actions hne hperm
    obtain ⟨t', hfollows, ht'⟩ := Bucket.scan_topTwo hnumeric prior hne
    rwa [ht.perm ht' hperm hunique] at hfollows
  have hleft := hpass m'.actions_ne hactions
  have hright := hpass m.actions_ne (List.Perm.refl _)
  rw [EpisodeMemory.select_fst, EpisodeMemory.select_fst, hselected,
    hleft.confidence_eq ht.second_le, hright.confidence_eq ht.second_le, hleft.bestGov,
    hright.bestGov]

/-- **Selection is exact.** Over the reals `select` returns the first action of the list whose upper
confidence bound is greatest; the confidence comes from the visits of this action and from its lead
over the best of the other positions of the list, and is the same for every order of the list if
the action is the only one with the greatest bound.  The store changes in no other way than this:
the tick goes up, and the bucket, which is created after an eviction if it was missing, is stamped
with it.

**Proof sketch.** The scan keeps a best position and the best bound of the other positions, which
`Bucket.scan_topTwo` proves of the loop by an invariant on the prefix read so far.  The runner-up
does not depend on the order if the maximum is unique.  What the store becomes is read off the
insertion, which evicts first exactly if the bucket was missing. -/
theorem select_exact {m : EpisodeMemory (ExtNum ℝ)} (hm : m.Finite)
    (order : BucketOrder (ExtNum ℝ)) (fp : UInt64) (prior : String) :
    let r := m.select order fp prior
    let tick := m.tick.saturatingAdd 1
    let b : Bucket (ExtNum ℝ) := (m.buckets.lookup fp).getD (Bucket.new tick)
    let score : String → ℝ := fun a => (b.estimate prior a).2.toNum +
      0.7 * √(Real.log ((Max.max b.totalVisits.toNat 1 : ℕ) + 1) /
        ((b.estimate prior a).1.toNat + 1))
    let g := r.1.governor
    (∃ pre post, m.actions = pre ++ g :: post ∧
      (∀ a ∈ pre, score a < score g) ∧ (∀ a ∈ post, score a ≤ score g) ∧
      (∃ margin : ℝ, (pre ++ post = [] → margin = 1) ∧
        (∀ a ∈ pre ++ post, (∀ a' ∈ pre ++ post, score a' ≤ score a) →
          margin = score g - score a) ∧
        r.1.confidence = .num (confidenceOf (b.estimate prior g).1.toNat margin)) ∧
      ((∀ a ∈ pre ++ post, score a < score g) → ∀ (m' : EpisodeMemory (ExtNum ℝ))
        (order' : BucketOrder (ExtNum ℝ)), m'.actions.Perm m.actions → m'.buckets = m.buckets →
        m'.tick = m.tick → (m'.select order' fp prior).1 = r.1)) ∧
    r.2.tick = tick ∧ tick.toNat = min (m.tick.toNat + 1) (2 ^ 64 - 1) ∧
    r.2.actions = m.actions ∧ r.2.path = m.path ∧ r.2.dirtySinceSave = m.dirtySinceSave ∧
    (fp ∈ m.buckets → r.2.buckets = m.buckets.insert fp { b with lastUsed := tick }) ∧
    (fp ∉ m.buckets →
      Evicted fp (some (Bucket.new tick)) m.buckets r.2.buckets) := by
  intro r tick b score g
  obtain ⟨t, hfollows, ht⟩ :=
    Bucket.scan_topTwo (hm.selected fp).numeric prior m.actions_ne
  have hr : r.1 = ⟨_, _⟩ := EpisodeMemory.select_fst order fp prior m
  have hg : g = t.best := (congrArg Selection.governor hr).trans hfollows.bestGov
  have hconfidence : r.1.confidence = _ :=
    (congrArg Selection.confidence hr).trans (hfollows.confidence_eq ht.second_le)
  have hcongr : t.second < score t.best → ∀ (m' : EpisodeMemory (ExtNum ℝ))
      (order' : BucketOrder (ExtNum ℝ)), m'.actions.Perm m.actions → m'.buckets = m.buckets →
      m'.tick = m.tick → (m'.select order' fp prior).1 = r.1 :=
    fun hunique m' order' hactions hbuckets htick =>
      select_congr hm order order' fp prior hactions hbuckets htick ht hunique
  refine ⟨?_, rfl, UInt64.toNat_saturatingAdd _ _, rfl, rfl, rfl, fun hfp => ?_, fun hfp => ?_⟩
  · obtain ⟨pre, post, hactions, hpre, hpost, hrunner⟩ := ht
    have hsecond : t.second = runnerUp score (pre ++ post) := hrunner
    rw [hg, hconfidence]
    refine ⟨pre, post, hactions, hpre, hpost, ⟨_, fun hnil => ?_, fun a ha hmax => ?_, rfl⟩,
      fun hunique => hcongr ?_⟩
    · rw [hsecond, hnil]
      rfl
    · rw [hsecond, runnerUp_eq ha hmax]
      rfl
    · rw [hsecond]
      exact runnerUp_lt_iff.mpr hunique
  · show (makeRoom order fp m.buckets).insert fp _ = _
    rw [makeRoom_of_mem order hfp]
    rfl
  · have hnew : entryOrNew fp tick (makeRoom order fp m.buckets) = Bucket.new tick := by
      rw [entryOrNew_makeRoom, entryOrNew_of_notMem hfp]
    show Evicted fp _ m.buckets ((makeRoom order fp m.buckets).insert fp
      { entryOrNew fp tick (makeRoom order fp m.buckets) with lastUsed := tick })
    rw [hnew]
    exact evicted_insert order hfp (Bucket.new tick)

/-- Of two governors with one visit each, the one with the greater average is selected, with its
lead over the other one, in whatever order they are listed. -/
theorem select_exact_two_governors :
    let r := savedBuckets.select byFingerprint 3 "powersave"
    let m' : EpisodeMemory (ExtNum ℝ) := { savedBuckets with
      actions := ["powersave", "performance"], actions_ne := List.cons_ne_nil _ _ }
    r.1 = ⟨"performance", .num 20⟩ ∧ (m'.select byFingerprint.reverse 3 "powersave").1 = r.1 ∧
      r.2.buckets = savedBuckets.buckets.insert 3 (compileBucket 42 2 1 (1 / 2)) := by
  intro r m'
  have hbucket : (savedBuckets.buckets.lookup 3).getD
      (Bucket.new (savedBuckets.tick.saturatingAdd 1)) = compileBucket 41 2 1 (1 / 2) := by
    rw [savedBuckets_eq, lookup_twoBuckets, Option.getD_some]
  obtain ⟨hlookup, hlookup'⟩ := lookup_compileBucket 41 2 1 (1 / 2)
  have hperformance : (compileBucket 41 2 1 (1 / 2)).estimate "powersave" "performance" =
      (1, .num (1 / 2)) := by
    unfold Bucket.estimate
    rw [hlookup]
  have hpowersave : (compileBucket 41 2 1 (1 / 2)).estimate "powersave" "powersave" =
      (1, .num (1 / 4)) := by
    unfold Bucket.estimate
    rw [hlookup']
  have hgovernor : r.1.governor = "performance" := savedBuckets_governor byFingerprint "powersave"
  have hexact := select_exact savedBuckets_finite byFingerprint 3 "powersave"
  dsimp only at hexact
  rw [hbucket, show (savedBuckets.select byFingerprint 3 "powersave").1.governor = "performance"
    from hgovernor] at hexact
  obtain ⟨⟨pre, post, hactions, -, -, ⟨margin, -, hmargin, hconfidence⟩, hcongr⟩, -, -, -, -, -,
    hresident, -⟩ := hexact
  obtain ⟨rfl, rfl⟩ : pre = [] ∧ post = ["powersave"] := by
    change ["performance", "powersave"] = pre ++ "performance" :: post at hactions
    rcases pre with _ | ⟨x, _ | ⟨y, pre⟩⟩
    · exact ⟨rfl, (List.cons.inj hactions).2.symm⟩
    · simp at hactions
    · simp at hactions
  have hrest : ∀ a ∈ [] ++ ["powersave"], a = "powersave" := by simp
  have hlead : margin = 1 / 4 := by
    rw [hmargin "powersave" (by simp) fun a ha => hrest a ha ▸ le_rfl, hperformance, hpowersave]
    simp only [toNum_num, add_sub_add_right_eq_sub]
    norm_num
  have hconfidence' : r.1.confidence = .num 20 := by
    refine hconfidence.trans (congrArg num ?_)
    rw [hperformance, hlead, confidenceOf, UInt32.toNat_one]
    norm_num
  refine ⟨?_, ?_, ?_⟩
  · cases hselection : r.1 with
    | mk governor confidence =>
      rw [hselection] at hgovernor hconfidence'
      exact congrArg₂ Selection.mk hgovernor hconfidence'
  · refine hcongr (fun a ha => ?_) m' byFingerprint.reverse ?_ rfl rfl
    · rw [hrest a ha, hperformance, hpowersave]
      simp only [toNum_num, add_lt_add_iff_right]
      norm_num
    · exact List.Perm.swap _ _ _
  · exact hresident (mem_of_lookup_eq_some (lookup_twoBuckets ..))

end Foverin
