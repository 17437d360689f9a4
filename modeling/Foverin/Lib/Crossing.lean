import Mathlib.Algebra.Order.Group.Defs
import Mathlib.Order.Interval.Set.Defs
import Mathlib.Order.Monotone.Basic

set_option relaxedAutoImplicit false
set_option autoImplicit false

/-!
# Increasing differences and single crossing

Two choices are compared under a parameter.  If the second gains on the first as the parameter
rises, then the preference between them switches at most once.

## Main definitions

* `GainsOn` — the advantage of the second choice does not fall.
* `CrossesAt` — the first choice is better below a threshold, and the second above it.

## Main results

* `GainsOn.trans` — gains add up along a chain of choices.
* `GainsOn.crossesAt` — gains with one point of indifference cross there.
* `CrossesAt.unique` — there is one threshold at most.
-/

variable {P V : Type} [LinearOrder P] [AddCommGroup V] [LinearOrder V] [IsOrderedAddMonoid V]
  {s : Set P} {u v w : P → V} {θ θ' : P}

/-- The advantage of `v` over `u` does not fall on `s`. -/
def GainsOn (s : Set P) (u v : P → V) : Prop := MonotoneOn (fun x => v x - u x) s

/-- On `s` the choice `u` is better below `θ`, and `v` is better above it. -/
structure CrossesAt (s : Set P) (u v : P → V) (θ : P) : Prop where
  mem : θ ∈ s
  below : ∀ x ∈ s, x < θ → v x < u x
  indifferent : v θ = u θ
  above : ∀ x ∈ s, θ < x → u x < v x

omit [IsOrderedAddMonoid V] in
lemma GainsOn.of_eq (h : ∀ x ∈ s, u x = v x) : GainsOn s u v := by
  intro x hx y hy _
  show v x - u x ≤ v y - u y
  rw [h x hx, h y hy, sub_self, sub_self]

/-- Gains add up. -/
theorem GainsOn.trans (huv : GainsOn s u v) (hvw : GainsOn s v w) : GainsOn s u w := by
  intro x hx y hy hxy
  have h := add_le_add (hvw hx hy hxy) (huv hx hy hxy)
  simpa using h

/-- **Single crossing.** If `v` gains on `u`, and `θ` is the only point where neither is better,
then the preference switches there. -/
theorem GainsOn.crossesAt (h : GainsOn s u v) (hθ : θ ∈ s) (heq : v θ = u θ)
    (honly : ∀ x ∈ s, v x = u x → x = θ) : CrossesAt s u v θ := by
  refine ⟨hθ, fun x hx hlt => ?_, heq, fun x hx hlt => ?_⟩
  · have hle : v x - u x ≤ v θ - u θ := h hx hθ hlt.le
    rw [heq, sub_self, sub_nonpos] at hle
    exact lt_of_le_of_ne hle fun hx' => hlt.ne (honly x hx hx')
  · have hle : v θ - u θ ≤ v x - u x := h hθ hx hlt.le
    rw [heq, sub_self, sub_nonneg] at hle
    exact lt_of_le_of_ne hle fun hx' => hlt.ne' (honly x hx hx'.symm)

omit [AddCommGroup V] [IsOrderedAddMonoid V] in
/-- There is one threshold at most. -/
theorem CrossesAt.unique (h : CrossesAt s u v θ) (h' : CrossesAt s u v θ') : θ = θ' := by
  rcases lt_trichotomy θ θ' with hlt | heq | hlt
  · exact absurd h.indifferent (h'.below θ h.mem hlt).ne
  · exact heq
  · exact absurd h.indifferent (h'.above θ h.mem hlt).ne'

omit [AddCommGroup V] [IsOrderedAddMonoid V] in
/-- Only the values on the set count. -/
lemma CrossesAt.congr {u' v' : P → V} (h : CrossesAt s u v θ) (hu : ∀ x ∈ s, u' x = u x)
    (hv : ∀ x ∈ s, v' x = v x) : CrossesAt s u' v' θ := by
  refine ⟨h.mem, fun x hx hlt => ?_, ?_, fun x hx hlt => ?_⟩
  · rw [hu x hx, hv x hx]
    exact h.below x hx hlt
  · rw [hu θ h.mem, hv θ h.mem]
    exact h.indifferent
  · rw [hu x hx, hv x hx]
    exact h.above x hx hlt
