import Mathlib.Data.Multiset.Lattice
import Mathlib.Order.WithBot

set_option relaxedAutoImplicit false
set_option autoImplicit false

/-!
# The best element and the runner-up

One pass over a list finds the first element of greatest value together with the greatest value of
the others.  When a new best element arrives, the best one so far becomes the runner-up.

## Main definitions

* `runnerUp` — the greatest value of a list, `⊥` if it is empty.
* `TopTwo.visit` — one round of the pass.
* `TopTwo.Of` — what the pass has found.

## Main results

* `TopTwo.Of.foldl` — the pass finds it.
* `TopTwo.Of.perm` — the order of the list does not matter where the best element is unique.
-/

variable {α V : Type} [LinearOrder V] {f : α → V}

/-! ## The greatest value -/

/-- The greatest value of the elements. -/
def runnerUp (f : α → V) (rest : List α) : WithBot V :=
  ((rest : Multiset α).map fun x => (f x : WithBot V)).sup

lemma runnerUp_perm {rest rest' : List α} (h : rest.Perm rest') :
    runnerUp f rest = runnerUp f rest' := by
  unfold runnerUp
  rw [Multiset.coe_eq_coe.mpr h]

lemma runnerUp_cons (x : α) (rest : List α) :
    runnerUp f (x :: rest) = max (f x : WithBot V) (runnerUp f rest) := by
  unfold runnerUp
  rw [← Multiset.cons_coe, Multiset.map_cons, Multiset.sup_cons]

lemma runnerUp_concat (x : α) (rest : List α) :
    runnerUp f (rest ++ [x]) = max (f x : WithBot V) (runnerUp f rest) := by
  rw [← runnerUp_cons]
  exact runnerUp_perm (List.perm_append_singleton x rest)

lemma le_runnerUp {x : α} {rest : List α} (h : x ∈ rest) :
    (f x : WithBot V) ≤ runnerUp f rest :=
  Multiset.le_sup (Multiset.mem_map_of_mem _ h)

lemma runnerUp_le {rest : List α} {v : WithBot V} (h : ∀ x ∈ rest, (f x : WithBot V) ≤ v) :
    runnerUp f rest ≤ v := by
  unfold runnerUp
  rw [Multiset.sup_le]
  intro w hw
  obtain ⟨x, hx, rfl⟩ := Multiset.mem_map.mp hw
  exact h x hx

/-- An element that no other one exceeds has the greatest value. -/
lemma runnerUp_eq {x : α} {rest : List α} (hx : x ∈ rest) (h : ∀ y ∈ rest, f y ≤ f x) :
    runnerUp f rest = f x :=
  le_antisymm (runnerUp_le fun y hy => WithBot.coe_le_coe.mpr (h y hy)) (le_runnerUp hx)

lemma runnerUp_lt_iff {rest : List α} {v : V} :
    runnerUp f rest < v ↔ ∀ x ∈ rest, f x < v := by
  constructor
  · intro h x hx
    exact WithBot.coe_lt_coe.mp ((le_runnerUp hx).trans_lt h)
  · intro h
    induction rest with
    | nil => exact WithBot.bot_lt_coe v
    | cons x rest ih =>
      rw [runnerUp_cons]
      refine max_lt (WithBot.coe_lt_coe.mpr (h x List.mem_cons_self)) (ih fun y hy => ?_)
      exact h y (List.mem_cons_of_mem x hy)

/-! ## The pass -/

/-- The best element so far, and the value of the runner-up. -/
structure TopTwo (α V : Type) where
  best : α
  second : WithBot V

namespace TopTwo

/-- One round: a better element replaces the best one, which becomes the runner-up. -/
def visit (f : α → V) (t : TopTwo α V) (x : α) : TopTwo α V :=
  if f t.best < f x then ⟨x, f t.best⟩
  else if t.second < f x then ⟨t.best, f x⟩
  else t

/-- The best element is the first one of greatest value in the list, and the second value is the
greatest at the other positions. -/
def Of (f : α → V) (l : List α) (t : TopTwo α V) : Prop :=
  ∃ pre post, l = pre ++ t.best :: post ∧ (∀ x ∈ pre, f x < f t.best) ∧
    (∀ x ∈ post, f x ≤ f t.best) ∧ t.second = runnerUp f (pre ++ post)

namespace Of

variable {l l' : List α} {t t' : TopTwo α V}

lemma singleton (f : α → V) (x : α) : Of f [x] ⟨x, ⊥⟩ :=
  ⟨[], [], rfl, nofun, nofun, rfl⟩

lemma mem (h : Of f l t) : t.best ∈ l := by
  obtain ⟨pre, post, rfl, -⟩ := h
  simp

lemma le (h : Of f l t) {x : α} (hx : x ∈ l) : f x ≤ f t.best := by
  obtain ⟨pre, post, rfl, hpre, hpost, -⟩ := h
  rcases List.mem_append.mp hx with hx | hx
  · exact (hpre x hx).le
  · rcases List.mem_cons.mp hx with rfl | hx
    · exact le_rfl
    · exact hpost x hx

lemma second_le (h : Of f l t) : t.second ≤ f t.best := by
  have hle : ∀ x ∈ l, f x ≤ f t.best := fun x hx => h.le hx
  obtain ⟨pre, post, rfl, -, -, hsecond⟩ := h
  rw [hsecond]
  refine runnerUp_le fun x hx => WithBot.coe_le_coe.mpr (hle x ?_)
  rcases List.mem_append.mp hx with hx | hx
  · exact List.mem_append_left _ hx
  · exact List.mem_append_right _ (List.mem_cons_of_mem _ hx)

/-- One more element. -/
lemma visit (h : Of f l t) (x : α) : Of f (l ++ [x]) (t.visit f x) := by
  have hle : ∀ y ∈ l, f y ≤ f t.best := fun y hy => h.le hy
  unfold TopTwo.visit
  by_cases hbest : f t.best < f x
  · -- every element is worse than the new one, and the best of them was `t.best`
    rw [if_pos hbest]
    refine ⟨l, [], rfl, fun y hy => (hle y hy).trans_lt hbest, nofun, ?_⟩
    rw [List.append_nil, runnerUp_eq h.mem hle]
  · rw [if_neg hbest]
    obtain ⟨pre, post, rfl, hpre, hpost, heq⟩ := h
    have hpost' : ∀ y ∈ post ++ [x], f y ≤ f t.best := by
      intro y hy
      rcases List.mem_append.mp hy with hy | hy
      · exact hpost y hy
      · rw [List.mem_singleton.mp hy]
        exact not_lt.mp hbest
    have hrunner : runnerUp f (pre ++ (post ++ [x])) = max (f x : WithBot V) t.second := by
      rw [← List.append_assoc, runnerUp_concat, heq]
    split_ifs with hsecond
    · exact ⟨pre, post ++ [x], by simp, hpre, hpost', by rw [hrunner, max_eq_left hsecond.le]⟩
    · exact ⟨pre, post ++ [x], by simp, hpre, hpost',
        by rw [hrunner, max_eq_right (not_lt.mp hsecond)]⟩

/-- **The pass.** It finds the best element and the runner-up of the whole list. -/
theorem foldl (h : Of f l t) (l' : List α) : Of f (l ++ l') (l'.foldl (TopTwo.visit f) t) := by
  induction l' generalizing l t with
  | nil => rwa [List.append_nil]
  | cons x l' ih =>
    have h' := ih (h.visit x)
    rwa [List.append_assoc] at h'

/-- **Order does not matter** where the best element is unique. -/
theorem perm (h : Of f l t) (h' : Of f l' t') (hperm : l'.Perm l)
    (hunique : t.second < f t.best) : t' = t := by
  obtain ⟨pre, post, rfl, -, -, hsecond⟩ := id h
  obtain ⟨pre', post', rfl, -, -, hsecond'⟩ := id h'
  rw [hsecond, runnerUp_lt_iff] at hunique
  have hle : f t.best ≤ f t'.best := h'.le (hperm.mem_iff.mpr h.mem)
  have hbest : t'.best = t.best := by
    have hmem : t'.best ∈ t.best :: (pre ++ post) :=
      List.perm_middle.mem_iff.mp (hperm.mem_iff.mp h'.mem)
    rcases List.mem_cons.mp hmem with heq | hmem
    · exact heq
    · exact absurd (hunique _ hmem) (not_lt.mpr hle)
  have hrest : (pre' ++ post').Perm (pre ++ post) := by
    have h := (List.perm_middle.symm.trans hperm).trans List.perm_middle
    rw [hbest] at h
    exact h.cons_inv
  have hrunner : t'.second = t.second := by
    rw [hsecond, hsecond', runnerUp_perm hrest]
  cases t
  cases t'
  simp_all

end Of

end TopTwo
