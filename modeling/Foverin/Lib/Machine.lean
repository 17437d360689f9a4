import Mathlib.Data.List.Basic
import Mathlib.Data.List.Forall2
import Mathlib.Logic.Relation

set_option relaxedAutoImplicit false
set_option autoImplicit false

/-!
# Runs of machines

A `Machine` reads inputs one after another, and each input yields a new state and an output.
`Machine.run` feeds it a whole list.  A property of every reachable state is shown by
`Machine.run_invariant`, a property of every output by `Machine.run_outputs`, and a property of
two runs side by side by `Machine.run_simulation`; each asks only about a single step.

`Lts` is the nondeterministic counterpart, for components that take steps in any order.

## Main definitions

* `Machine`, `Machine.run`, `Machine.final`, `Machine.outputs`.
* `Machine.Along` — runs that read every input in a state that allows it.
* `Lts`, `Lts.Reachable`, `Lts.observe`.

## Main results

* `Machine.run_invariant` — what every step keeps holds after every run.
* `Machine.Along.invariant` — the same, where a state says which inputs are allowed.
* `Machine.getElem?_outputs` — the `k`-th output is the output of one step taken in the state
  that the first `k` inputs lead to.
* `Machine.run_simulation` — a relation that every pair of steps keeps relates whole runs.
* `Lts.invariant` — what every step keeps holds in every reachable state.
* `Lts.Reachable.observe` — every run can be observed.
-/

/-- A deterministic machine with states `S`, inputs `I` and outputs `O`. -/
structure Machine (S I O : Type) where
  /-- One step: the new state and the output. -/
  step : S → I → S × O

namespace Machine

variable {S I O : Type} (M : Machine S I O)

/-- Feed a list of inputs, collecting the outputs. -/
def run (s : S) : List I → S × List O
  | [] => (s, [])
  | i :: is => ((run (M.step s i).1 is).1, (M.step s i).2 :: (run (M.step s i).1 is).2)

/-- The state after a list of inputs. -/
def final (s : S) (is : List I) : S := (M.run s is).1

/-- The outputs of a list of inputs. -/
def outputs (s : S) (is : List I) : List O := (M.run s is).2

@[simp] lemma final_nil (s : S) : M.final s [] = s := rfl

@[simp] lemma outputs_nil (s : S) : M.outputs s [] = [] := rfl

@[simp] lemma final_cons (s : S) (i : I) (is : List I) :
    M.final s (i :: is) = M.final (M.step s i).1 is := rfl

@[simp] lemma outputs_cons (s : S) (i : I) (is : List I) :
    M.outputs s (i :: is) = (M.step s i).2 :: M.outputs (M.step s i).1 is := rfl

/-- One output for every input. -/
@[simp] lemma length_outputs (s : S) (is : List I) : (M.outputs s is).length = is.length := by
  induction is generalizing s with
  | nil => rfl
  | cons i is ih => simp [ih]

/-- A run over two lists goes on from where the first ends. -/
lemma final_append (s : S) (is js : List I) :
    M.final s (is ++ js) = M.final (M.final s is) js := by
  induction is generalizing s with
  | nil => rfl
  | cons i is ih => simp [ih]

/-- The state after one input more. -/
lemma final_concat (s : S) (is : List I) (i : I) :
    M.final s (is ++ [i]) = (M.step (M.final s is) i).1 := by
  rw [final_append]
  rfl

/-- The outputs of a run over two lists. -/
lemma outputs_append (s : S) (is js : List I) :
    M.outputs s (is ++ js) = M.outputs s is ++ M.outputs (M.final s is) js := by
  induction is generalizing s with
  | nil => rfl
  | cons i is ih => simp [ih]

/-- The outputs after one input more. -/
lemma outputs_concat (s : S) (is : List I) (i : I) :
    M.outputs s (is ++ [i]) = M.outputs s is ++ [(M.step (M.final s is) i).2] := by
  rw [outputs_append]
  rfl

/-- The `k`-th output comes from the state that the first `k` inputs lead to. -/
theorem getElem?_outputs (s : S) (is : List I) (k : ℕ) :
    (M.outputs s is)[k]? = is[k]?.map fun i => (M.step (M.final s (is.take k)) i).2 := by
  induction is generalizing s k with
  | nil => simp
  | cons i is ih =>
    cases k with
    | zero => rfl
    | succ k => simpa using ih (M.step s i).1 k

/-- An output belongs to a step from the state that the inputs before it lead to. -/
lemma output_eq {s : S} {is : List I} {k : ℕ} {i : I} {o : O} (hi : is[k]? = some i)
    (ho : (M.outputs s is)[k]? = some o) : o = (M.step (M.final s (is.take k)) i).2 := by
  rw [getElem?_outputs, hi, Option.map_some] at ho
  exact (Option.some.inj ho).symm

/-- The state after a step. -/
lemma final_take_succ {s : S} {is : List I} {k : ℕ} {i : I} (hi : is[k]? = some i) :
    M.final s (is.take (k + 1)) = (M.step (M.final s (is.take k)) i).1 := by
  rw [List.take_add_one, hi, Option.toList_some, final_concat]

/-- **Invariants.** What holds initially and is kept by every allowed step holds after every
run of allowed inputs. -/
theorem run_invariant {P : S → Prop} {A : I → Prop} {s : S} (h₀ : P s)
    (hstep : ∀ s i, A i → P s → P (M.step s i).1) {is : List I} (hA : ∀ i ∈ is, A i) :
    P (M.final s is) := by
  induction is generalizing s with
  | nil => exact h₀
  | cons i is ih =>
    rw [List.forall_mem_cons] at hA
    exact ih (hstep s i hA.1 h₀) hA.2

/-- Every input of a run is allowed in the state in which it is read. -/
def Along (A : S → I → Prop) (s : S) : List I → Prop
  | [] => True
  | i :: is => A s i ∧ Along A (M.step s i).1 is

/-- What is allowed may depend on the state. -/
theorem Along.invariant {A : S → I → Prop} {P : S → Prop} {s : S} {is : List I}
    (hA : M.Along A s is) (h₀ : P s) (hstep : ∀ s i, A s i → P s → P (M.step s i).1) :
    P (M.final s is) := by
  induction is generalizing s with
  | nil => exact h₀
  | cons i is ih => exact ih hA.2 (hstep s i hA.1 h₀)

/-- One allowed input more. -/
lemma Along.concat {A : S → I → Prop} {s : S} {is : List I} {i : I} (hA : M.Along A s is)
    (hi : A (M.final s is) i) : M.Along A s (is ++ [i]) := by
  induction is generalizing s with
  | nil => exact ⟨hi, trivial⟩
  | cons j is ih => exact ⟨hA.1, ih hA.2 hi⟩

/-- Every output of a run satisfies what a step from an invariant state yields. -/
lemma run_outputs {P : S → Prop} {Q : O → Prop} {s : S} (h₀ : P s)
    (hstep : ∀ s i, P s → P (M.step s i).1 ∧ Q (M.step s i).2) (is : List I) :
    ∀ o ∈ M.outputs s is, Q o := by
  induction is generalizing s with
  | nil => simp
  | cons i is ih =>
    rw [outputs_cons, List.forall_mem_cons]
    exact ⟨(hstep s i h₀).2, ih (hstep s i h₀).1⟩

/-- **Simulation.** A relation on states that every pair of steps on related inputs keeps, with
related outputs, relates whole runs. -/
theorem run_simulation {S' I' O' : Type} (M' : Machine S' I' O') (R : S → S' → Prop)
    (J : I → I' → Prop) (Q : O → O' → Prop)
    (hstep : ∀ s s' i i', R s s' → J i i' →
      R (M.step s i).1 (M'.step s' i').1 ∧ Q (M.step s i).2 (M'.step s' i').2)
    {s : S} {s' : S'} (h₀ : R s s') {is : List I} {is' : List I'} (hJ : List.Forall₂ J is is') :
    R (M.final s is) (M'.final s' is') ∧ List.Forall₂ Q (M.outputs s is) (M'.outputs s' is') := by
  induction hJ generalizing s s' with
  | nil => exact ⟨h₀, List.Forall₂.nil⟩
  | cons hij _ ih =>
    obtain ⟨hR, hQ⟩ := hstep s s' _ _ h₀ hij
    obtain ⟨hR', hQ'⟩ := ih hR
    exact ⟨hR', List.Forall₂.cons hQ hQ'⟩

end Machine

/-- A transition system: the states it may start in and the steps it may take. -/
structure Lts (S : Type) where
  /-- The initial states. -/
  init : S → Prop
  /-- The steps. -/
  step : S → S → Prop

namespace Lts

variable {S : Type} {L : Lts S}

/-- The states that some sequence of steps leads to. -/
def Reachable (L : Lts S) (s : S) : Prop := ∃ s₀, L.init s₀ ∧ Relation.ReflTransGen L.step s₀ s

/-- An initial state is reachable. -/
lemma Reachable.init {s : S} (h : L.init s) : L.Reachable s := ⟨s, h, .refl⟩

/-- A step from a reachable state leads to a reachable state. -/
lemma Reachable.step {s s' : S} (h : L.Reachable s) (hs : L.step s s') : L.Reachable s' := by
  obtain ⟨s₀, h₀, hr⟩ := h
  exact ⟨s₀, h₀, hr.tail hs⟩

/-- **Invariants.** What holds in the initial states and is kept by every step holds in every
reachable state. -/
theorem invariant {P : S → Prop} (h₀ : ∀ s, L.init s → P s)
    (hstep : ∀ s s', P s → L.step s s' → P s') {s : S} (h : L.Reachable s) : P s := by
  obtain ⟨s₀, hi, hr⟩ := h
  induction hr with
  | refl => exact h₀ s₀ hi
  | tail _ hs ih => exact hstep _ _ ih hs

/-! ### Observers -/

section Observer

variable {G : Type} (L) (first : S → G) (next : S → S → G → G)

/-- The system with an observer, which notes something about every step and takes no part in it. -/
def observe : Lts (S × G) where
  init s := L.init s.1 ∧ s.2 = first s.1
  step s s' := L.step s.1 s'.1 ∧ s'.2 = next s.1 s'.1 s.2

variable {L first next}

/-- What is observed is a run of the system. -/
lemma Reachable.of_observe {s : S × G} (h : (L.observe first next).Reachable s) :
    L.Reachable s.1 := by
  refine invariant (P := fun s => L.Reachable s.1) ?_ ?_ h
  · rintro s ⟨hinit, -⟩
    exact .init hinit
  · rintro s s' hreachable ⟨hstep, -⟩
    exact hreachable.step hstep

/-- Every run of the system can be observed. -/
theorem Reachable.observe {s : S} (h : L.Reachable s) :
    ∃ g, (L.observe first next).Reachable (s, g) := by
  refine invariant (P := fun s => ∃ g, (L.observe first next).Reachable (s, g)) ?_ ?_ h
  · intro s hinit
    exact ⟨first s, .init ⟨hinit, rfl⟩⟩
  · rintro s s' ⟨g, hg⟩ hstep
    exact ⟨next s s' g, hg.step ⟨hstep, rfl⟩⟩

end Observer

end Lts
