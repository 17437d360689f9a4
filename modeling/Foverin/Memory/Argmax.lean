import Foverin.Lib.TopTwo
import Foverin.Lib.Ucb
import Foverin.Memory.Record
import Foverin.Memory.Replay

set_option relaxedAutoImplicit false
set_option autoImplicit false

/-!
# The selected governor

The loop of `select` returns an action of its list for any arithmetic whatever, and over the
reals it returns one whose upper confidence bound is the greatest.

## Main definitions

* `Foverin.Bucket.score` — the upper confidence bound of an action, as a real number.
* `Foverin.Bucket.Sound` — averages in the unit interval and consistent counts.

## Main results

* `Foverin.Bucket.scan_mem` — the selected governor is one of the actions.
* `Foverin.Bucket.scan_topTwo` — the loop finds the greatest bound and the runner-up.
* `Foverin.Bucket.score_le_scan` — no action has a greater bound.
* `Foverin.Bucket.visits_lt_five_of_unseen` — while an action is unseen, no action that was
  visited five times is selected.
* `Foverin.Bucket.visits_le_of_scan` — when an action with a lower average is selected.
* `Foverin.Bucket.scan_new` — a new bucket goes by its prior.
-/

namespace Foverin

open Finmap FloatOps

/-! ## Any arithmetic -/

section Arithmetic

variable {F : Type} [FloatOps F]

/-- One round of the loop keeps the best action or takes the visited one. -/
lemma Scan.visit_bestGov (b : Bucket F) (prior : String) (s : Scan F) (a : String) :
    (s.visit b prior a).bestGov = a ∨ (s.visit b prior a).bestGov = s.bestGov := by
  unfold Scan.visit
  dsimp only
  split_ifs
  · exact Or.inl rfl
  · exact Or.inr rfl
  · exact Or.inr rfl

/-- The best action after some rounds is one of those visited, or the one before them. -/
lemma Scan.foldl_bestGov (b : Bucket F) (prior : String) (l : List String) (s : Scan F) :
    (l.foldl (Scan.visit b prior) s).bestGov ∈ s.bestGov :: l := by
  induction l generalizing s with
  | nil => exact List.mem_singleton.mpr rfl
  | cons a l ih =>
    have h := ih (s.visit b prior a)
    rw [List.foldl_cons]
    rcases List.mem_cons.mp h with h | h
    · rw [h]
      rcases Scan.visit_bestGov b prior s a with ha | hs
      · rw [ha]
        exact List.mem_cons_of_mem _ List.mem_cons_self
      · rw [hs]
        exact List.mem_cons_self
    · exact List.mem_cons_of_mem _ (List.mem_cons_of_mem _ h)

/-- The selected governor is one of the actions. -/
theorem Bucket.scan_mem (b : Bucket F) (prior : String) (actions : List String)
    (h : actions ≠ []) : (b.scan prior actions h).bestGov ∈ actions := by
  have hmem := Scan.foldl_bestGov b prior actions (Scan.start (actions.head h))
  rcases List.mem_cons.mp hmem with heq | hmem
  · unfold Bucket.scan
    rw [heq]
    exact List.head_mem h
  · exact hmem

lemma EpisodeMemory.select_mem (order : BucketOrder F) (fp : UInt64) (prior : String)
    (m : EpisodeMemory F) : (m.select order fp prior).1.governor ∈ m.actions := by
  rw [EpisodeMemory.select_fst]
  exact Bucket.scan_mem _ prior m.actions m.actions_ne

end Arithmetic

/-! ## Exact arithmetic -/

section Real

open ExtNum

/-- The logarithm in the bonuses of a bucket. -/
noncomputable def Bucket.logTotal (b : Bucket (ExtNum ℝ)) : ℝ :=
  Real.log ((Max.max b.totalVisits.toNat 1 : ℕ) + 1)

/-- The upper confidence bound of an action. -/
noncomputable def Bucket.score (b : Bucket (ExtNum ℝ)) (prior a : String) : ℝ :=
  (b.estimate prior a).2.toNum + Ucb.bonus 0.7 b.logTotal (b.estimate prior a).1.toNat

lemma Bucket.logTotal_nonneg (b : Bucket (ExtNum ℝ)) : 0 ≤ b.logTotal :=
  Real.log_nonneg (by norm_cast; omega)

lemma ucb_num (b : Bucket (ExtNum ℝ)) (v : UInt32) (e : ℝ) :
    ucb b.lnN v (.num e) = .num (e + Ucb.bonus 0.7 b.logTotal v.toNat) := by
  have hln : b.lnN = .num b.logTotal := by
    have hpos : (0 : ℝ) < (Max.max b.totalVisits.toNat 1 : ℕ) + 1 := by positivity
    rw [Bucket.lnN, ofNat_eq, lit_eq, Rat.cast_one, num_add, ln_num hpos]
    rfl
  have hv : (0 : ℝ) < v.toNat + 1 := by positivity
  rw [ucb, hln, ofNat_eq, lit_eq, lit_eq, Rat.cast_one, num_add, num_div hv.ne',
    sqrt_num (div_nonneg b.logTotal_nonneg hv.le), num_mul, num_add, Ucb.bonus]
  norm_num
  rfl

/-- The estimates of a bucket are numbers. -/
def Bucket.Numeric (b : Bucket (ExtNum ℝ)) : Prop :=
  ∀ prior a, ∃ x, (b.estimate prior a).2 = .num x

lemma Bucket.Numeric.ucb_eq {b : Bucket (ExtNum ℝ)} (h : b.Numeric) (prior a : String) :
    ucb b.lnN (b.estimate prior a).1 (b.estimate prior a).2 = .num (b.score prior a) := by
  obtain ⟨x, hx⟩ := h prior a
  rw [Bucket.score, hx, ucb_num, toNum_num]

/-- Finite estimates are numbers. -/
lemma Bucket.Finite.numeric {b : Bucket (ExtNum ℝ)} (h : b.Finite) : b.Numeric := by
  intro prior a
  unfold Bucket.estimate
  cases hs : b.actions.lookup a with
  | none =>
    dsimp only
    split_ifs <;> exact ⟨_, rfl⟩
  | some s => exact exists_num_of_isFinite (h a s hs)

/-- The value of a runner-up, if there is one. -/
def ofRunnerUp : WithBot ℝ → ExtNum ℝ := WithBot.recBotCoe .negInf .num

lemma lt_ofRunnerUp (w : WithBot ℝ) (v : ℝ) :
    lt (ofRunnerUp w) (.num v) = true ↔ w < v := by
  induction w with
  | bot => exact ⟨fun _ => WithBot.bot_lt_coe v, fun _ => rfl⟩
  | coe w => exact decide_eq_true_iff.trans WithBot.coe_lt_coe.symm

/-- The loop variables are those of a pass for the action with the greatest bound. -/
structure Scan.Follows (b : Bucket (ExtNum ℝ)) (prior : String) (s : Scan (ExtNum ℝ))
    (t : TopTwo String ℝ) : Prop where
  bestGov : s.bestGov = t.best
  bestUcb : s.bestUcb = .num (b.score prior t.best)
  secondUcb : s.secondUcb = ofRunnerUp t.second
  bestVisits : s.bestVisits = (b.estimate prior t.best).1

lemma Scan.Follows.start {b : Bucket (ExtNum ℝ)} (h : b.Numeric) (prior first a : String) :
    ((Scan.start first).visit b prior a).Follows b prior ⟨a, ⊥⟩ := by
  have hlt : lt (FloatOps.negInf : ExtNum ℝ) (.num (b.score prior a)) = true := lt_negInf_num _
  have hvisit : ((Scan.start first).visit b prior a) =
      ⟨a, .num (b.score prior a), FloatOps.negInf, (b.estimate prior a).1⟩ := by
    unfold Scan.visit
    dsimp only
    rw [h.ucb_eq, Scan.start, if_pos hlt]
  rw [hvisit]
  exact ⟨rfl, rfl, rfl, rfl⟩

lemma Scan.Follows.visit {b : Bucket (ExtNum ℝ)} (h : b.Numeric) {prior : String}
    {s : Scan (ExtNum ℝ)} {t : TopTwo String ℝ} (hs : s.Follows b prior t) (a : String) :
    (s.visit b prior a).Follows b prior (t.visit (b.score prior) a) := by
  have hucb := h.ucb_eq prior a
  have hsecond := lt_ofRunnerUp t.second (b.score prior a)
  unfold Scan.visit TopTwo.visit
  dsimp only
  rw [hucb, hs.bestUcb, hs.secondUcb, lt_num]
  by_cases hlt : b.score prior t.best < b.score prior a
  · rw [if_pos (decide_eq_true hlt), if_pos hlt]
    exact ⟨rfl, rfl, rfl, rfl⟩
  · rw [if_neg (by simpa using hlt), if_neg hlt]
    by_cases hlt' : t.second < b.score prior a
    · rw [if_pos (hsecond.mpr hlt'), if_pos hlt']
      exact ⟨hs.bestGov, rfl, rfl, hs.bestVisits⟩
    · rw [if_neg fun h => hlt' (hsecond.mp h), if_neg hlt']
      exact hs

lemma Scan.Follows.foldl {b : Bucket (ExtNum ℝ)} (h : b.Numeric) {prior : String}
    {s : Scan (ExtNum ℝ)} {t : TopTwo String ℝ} (hs : s.Follows b prior t) (l : List String) :
    (l.foldl (Scan.visit b prior) s).Follows b prior
      (l.foldl (TopTwo.visit (b.score prior)) t) := by
  induction l generalizing s t with
  | nil => exact hs
  | cons a l ih => exact ih (hs.visit h a)

/-- **The loop** finds the first action with the greatest bound, and the runner-up. -/
theorem Bucket.scan_topTwo {b : Bucket (ExtNum ℝ)} (h : b.Numeric) (prior : String)
    {actions : List String} (hne : actions ≠ []) :
    ∃ t, (b.scan prior actions hne).Follows b prior t ∧ TopTwo.Of (b.score prior) actions t := by
  obtain ⟨first, rest, rfl⟩ := List.exists_cons_of_ne_nil hne
  exact ⟨_, (Scan.Follows.start h prior first first).foldl h rest,
    (TopTwo.Of.singleton (b.score prior) first).foldl rest⟩

/-- **Maximality.** No action has a greater bound than the selected one. -/
theorem Bucket.score_le_scan {b : Bucket (ExtNum ℝ)} (h : b.Numeric) (prior : String)
    {actions : List String} (hne : actions ≠ []) {a : String} (ha : a ∈ actions) :
    b.score prior a ≤ b.score prior (b.scan prior actions hne).bestGov := by
  obtain ⟨t, hfollows, htop⟩ := Bucket.scan_topTwo h prior hne
  rw [hfollows.bestGov]
  exact htop.le ha

/-! ## Sound statistics -/

/-- The averages are numbers in the unit interval, every governor with statistics was visited,
and no more often than the bucket. -/
structure Bucket.Sound (b : Bucket (ExtNum ℝ)) : Prop where
  ema : ∀ g s, b.actions.lookup g = some s → ∃ x : ℝ, s.emaReward = .num x ∧ 0 ≤ x ∧ x ≤ 1
  visited : ∀ g s, b.actions.lookup g = some s → s.visits ≠ 0
  visits_le : ∀ g, b.visits g ≤ b.totalVisits.toNat

lemma Bucket.visits_of_lookup {F : Type} {b : Bucket F} {g : String} {s : ActionStats F}
    (h : b.actions.lookup g = some s) : b.visits g = s.visits.toNat := by
  rw [Bucket.visits, h, Option.map_some, Option.getD_some]

lemma Bucket.visits_of_notMem {F : Type} {b : Bucket F} {g : String}
    (h : b.actions.lookup g = none) : b.visits g = 0 := by
  rw [Bucket.visits, h, Option.map_none, Option.getD_none]

/-- A credit counts one visit of its governor. -/
lemma Bucket.visits_record {F : Type} [FloatOps F] (b : Bucket F) (tick : UInt64) (g : String)
    (r : F) (g' : String) :
    (b.record tick g r).visits g' =
      if g' = g then min (b.visits g + 1) (2 ^ 32 - 1) else b.visits g' := by
  unfold Bucket.visits
  simp only [Bucket.record, lookup_insert_eq_ite]
  split_ifs with hg
  · cases b.actions.lookup g <;> simp [ActionStats.record, ActionStats.default]
  · rfl

/-- The bound of a visited action. -/
lemma Bucket.score_of_lookup (b : Bucket (ExtNum ℝ)) (prior : String) {g : String}
    {s : ActionStats (ExtNum ℝ)} (hs : b.actions.lookup g = some s) :
    b.score prior g = s.emaReward.toNum + Ucb.bonus 0.7 b.logTotal (b.visits g) := by
  rw [Bucket.visits_of_lookup hs, Bucket.score, Bucket.estimate, hs]

namespace Bucket.Sound

variable {b : Bucket (ExtNum ℝ)}

lemma new (tick : UInt64) : (Bucket.new tick : Bucket (ExtNum ℝ)).Sound where
  ema g s h := by simp [Bucket.new] at h
  visited g s h := by simp [Bucket.new] at h
  visits_le g := by simp [Bucket.visits, Bucket.new]

/-- The time of the last use does not matter. -/
lemma withLastUsed (h : b.Sound) (t : UInt64) :
    Bucket.Sound { b with lastUsed := t } := ⟨h.ema, h.visited, h.visits_le⟩

lemma lookup_eq_none (h : b.Sound) {g : String} (hg : b.visits g = 0) :
    b.actions.lookup g = none := by
  cases hs : b.actions.lookup g with
  | none => rfl
  | some s =>
    rw [Bucket.visits_of_lookup hs] at hg
    exact absurd (UInt32.toNat_inj.mp hg) (h.visited g s hs)

lemma numeric (h : b.Sound) : b.Numeric := by
  intro prior a
  unfold Bucket.estimate
  cases hs : b.actions.lookup a with
  | none =>
    dsimp only
    split_ifs <;> exact ⟨_, rfl⟩
  | some s =>
    obtain ⟨x, hx, -⟩ := h.ema a s hs
    exact ⟨x, hx⟩

/-- The bound of an action that was never visited. -/
lemma le_score_of_unseen (h : b.Sound) (prior : String) {a : String} (ha : b.visits a = 0) :
    0.45 + Ucb.bonus 0.7 b.logTotal 0 ≤ b.score prior a := by
  rw [Bucket.score, Bucket.estimate, h.lookup_eq_none ha]
  dsimp only
  have hprior : (0.45 : ℝ) ≤ (if a = prior then (lit 0.72 : ExtNum ℝ) else lit 0.45).toNum := by
    split_ifs <;> simp only [lit_eq, toNum_num] <;> norm_num
  exact add_le_add_left hprior _

/-- A reward in the unit interval keeps the statistics sound. -/
lemma record (h : b.Sound) (tick : UInt64) (g : String) {x : ℝ} (h₀ : 0 ≤ x) (h₁ : x ≤ 1) :
    (b.record tick g (.num x)).Sound where
  ema g' s hs := by
    simp only [Bucket.record, lookup_insert_eq_ite] at hs
    split_ifs at hs with hg
    · rw [← Option.some.inj hs]
      simp only [ActionStats.record]
      split_ifs with hv
      · exact ⟨x, rfl, h₀, h₁⟩
      · cases hl : b.actions.lookup g with
        | none =>
          rw [hl] at hv
          exact absurd rfl hv
        | some s' =>
          obtain ⟨e, he, he₀, he₁⟩ := h.ema g s' hl
          simp only [Option.getD_some, he, lit_eq, num_sub, num_mul, num_add, num.injEq,
            exists_eq_left']
          push_cast
          constructor <;> linarith
    · exact h.ema g' s hs
  visited g' s hs := by
    simp only [Bucket.record, lookup_insert_eq_ite] at hs
    split_ifs at hs with hg
    · rw [← Option.some.inj hs]
      exact UInt32.saturatingAdd_one_ne_zero _
    · exact h.visited g' s hs
  visits_le g' := by
    have hg := h.visits_le g
    have hg' := h.visits_le g'
    have htotal : (b.record tick g (.num x)).totalVisits.toNat =
        min (b.totalVisits.toNat + 1) (2 ^ 32 - 1) := by
      simp [Bucket.record]
    have := b.totalVisits.toNat_lt
    rw [Bucket.visits_record, htotal]
    split_ifs <;> omega

end Bucket.Sound

/-! ## Which action is selected -/

section Selected

variable {b : Bucket (ExtNum ℝ)} {prior : String} {actions : List String}

/-- **Exploration.** While an action of the list is unseen, the selected one was visited less
than five times.

**Proof sketch.** After five visits the bonus is smaller than that of an unseen governor by more
than one average reward can make up for, at any number of visits in all. -/
theorem Bucket.visits_lt_five_of_unseen (h : b.Sound) (hne : actions ≠ []) {a : String}
    (ha : a ∈ actions) (hunseen : b.visits a = 0) :
    b.visits (b.scan prior actions hne).bestGov < 5 := by
  by_contra hfive
  rw [not_lt] at hfive
  have hle := Bucket.score_le_scan h.numeric prior hne ha
  generalize (b.scan prior actions hne).bestGov = g at hfive hle
  have htotal := h.visits_le g
  have hlog : Real.log 6 ≤ b.logTotal := by
    refine Real.log_le_log (by norm_num) ?_
    have hsix : 6 ≤ Max.max b.totalVisits.toNat 1 + 1 := by omega
    exact_mod_cast hsix
  cases hs : b.actions.lookup g with
  | none =>
    rw [Bucket.visits_of_notMem hs] at hfive
    omega
  | some s =>
    obtain ⟨x, hx, -, hx₁⟩ := h.ema g s hs
    have hexplored := Ucb.explored_lt_unseen hfive hlog
    have hscore := b.score_of_lookup prior hs
    have hzero := h.le_score_of_unseen prior hunseen
    rw [hx, toNum_num] at hscore
    linarith

/-- **Exploitation.** An action that is selected although a visited action has an average that
is greater by `δ` was visited less than `0.49 L / δ²` times. -/
theorem Bucket.visits_le_of_scan (h : b.Sound) (hne : actions ≠ []) {a : String}
    (ha : a ∈ actions) {s t : ActionStats (ExtNum ℝ)} {x y : ℝ}
    (hs : b.actions.lookup (b.scan prior actions hne).bestGov = some s)
    (ht : b.actions.lookup a = some t) (hx : s.emaReward = .num x) (hy : t.emaReward = .num y)
    (hxy : x < y) :
    (b.visits (b.scan prior actions hne).bestGov : ℝ) + 1 ≤
      0.49 * b.logTotal / (y - x) ^ 2 := by
  have hle := Bucket.score_le_scan h.numeric prior hne ha
  rw [b.score_of_lookup prior hs, b.score_of_lookup prior ht, hx, hy, toNum_num, toNum_num] at hle
  have hbonus := Ucb.bonus_nonneg (c := 0.7) (by norm_num) b.logTotal (b.visits a)
  have hgap : y - x ≤ Ucb.bonus 0.7 b.logTotal (b.visits (b.scan prior actions hne).bestGov) := by
    linarith
  have hvisits := Ucb.visits_le_of_gap_le b.logTotal_nonneg (sub_pos.mpr hxy) hgap
  norm_num at hvisits ⊢
  exact hvisits

/-- **A new bucket** goes by its prior: no bonus makes up for the difference of the estimates. -/
theorem Bucket.scan_new (tick : UInt64) (hne : actions ≠ []) (hprior : prior ∈ actions) :
    (Bucket.scan (F := ExtNum ℝ) { Bucket.new tick with lastUsed := tick } prior actions
      hne).bestGov = prior := by
  have hsound : Bucket.Sound { (Bucket.new tick : Bucket (ExtNum ℝ)) with lastUsed := tick } :=
    (Bucket.Sound.new tick).withLastUsed tick
  have hle := Bucket.score_le_scan hsound.numeric prior hne hprior
  by_contra hother
  generalize (Bucket.scan (F := ExtNum ℝ) { Bucket.new tick with lastUsed := tick } prior actions
    hne).bestGov = g at hle hother
  have hestimate : ∀ a, Bucket.estimate { (Bucket.new tick : Bucket (ExtNum ℝ)) with
      lastUsed := tick } prior a = (0, if a = prior then lit 0.72 else lit 0.45) := by
    intro a
    rfl
  rw [Bucket.score, Bucket.score, hestimate, hestimate, if_pos rfl, if_neg hother, lit_eq, lit_eq,
    toNum_num, toNum_num] at hle
  norm_num at hle

end Selected

/-- In the store with two buckets the governor with the greater average is selected. -/
lemma savedBuckets_governor (order : BucketOrder (ExtNum ℝ)) (prior : String) :
    (savedBuckets.select order 3 prior).1.governor = "performance" := by
  have hselected : savedBuckets.selected 3 = compileBucket 42 2 1 (1 / 2) := by
    rw [EpisodeMemory.selected, savedBuckets_eq,
      entryOrNew_of_lookup (lookup_twoBuckets 41 2 1 (1 / 2) 0)]
    rfl
  obtain ⟨hperformance, hpowersave⟩ := lookup_compileBucket 42 2 1 (1 / 2)
  have hnumeric : (compileBucket 42 2 1 (1 / 2)).Numeric :=
    (twoBuckets_finite 42 2 1 (1 / 2) 0 3 _ (lookup_twoBuckets 42 2 1 (1 / 2) 0)).numeric
  rw [EpisodeMemory.select_fst, hselected]
  dsimp only
  have hmem := (compileBucket 42 2 1 (1 / 2)).scan_mem prior savedBuckets.actions
    savedBuckets.actions_ne
  have hle := Bucket.score_le_scan hnumeric prior savedBuckets.actions_ne
    (List.mem_cons_self : "performance" ∈ savedBuckets.actions)
  rcases List.mem_pair.mp hmem with hbest | hbest
  · exact hbest
  · rw [hbest, Bucket.score_of_lookup _ _ hperformance, Bucket.score_of_lookup _ _ hpowersave,
      Bucket.visits_of_lookup hperformance, Bucket.visits_of_lookup hpowersave, toNum_num,
      toNum_num, add_le_add_iff_right] at hle
    norm_num at hle

end Real

end Foverin
