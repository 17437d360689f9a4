import Foverin.Available
import Foverin.Daemon.State
import Mathlib.Algebra.Order.Round

set_option relaxedAutoImplicit false
set_option autoImplicit false

/-!
# The dashboard

What `foverin/src/ui.rs` draws of a snapshot: the process stream with the latest line first, the
decision with a gauge and a bar of ten cells for its confidence, and the governor.  Colours and
places on the screen are left out.

`fmt` writes a percentage with one decimal.  `gauge` is `Gauge::ratio` of the drawing library, which
may panic; all that is assumed of it is `TakesUnit`.

## Main definitions

* `Foverin.RoundOps` — rounding, and the conversion to a machine word.
* `Foverin.filledCells`, `Foverin.gaugeRatio` — the bar and the gauge.
* `Foverin.TakesUnit` — what is documented of the gauge.
* `Foverin.Dashboard`, `Foverin.draw` — what is drawn.

## Main results

* `Foverin.filledCells_sub_ratio` — the bar agrees with the gauge.
* `Foverin.draw_exact` — what is drawn of a snapshot, without a panic of the gauge.
-/

namespace Foverin

/-! ## Rounding -/

/-- What the dashboard needs of a floating-point type beside its arithmetic. -/
class RoundOps (F : Type) where
  /-- The nearest integer, the one away from zero of two. -/
  round : F → F
  /-- The integer part as a machine word; what does not fit is cut off, and NaN is zero. -/
  asUsize : F → ℕ

instance {K : Type} [Field K] [LinearOrder K] [FloorRing K] : RoundOps (ExtNum K) where
  round
    | .num x => .num (if 0 ≤ x then (round x : K) else -(round (-x) : K))
    | a => a
  asUsize
    | .num x => min ⌊x⌋.toNat (2 ^ 64 - 1)
    | .posInf => 2 ^ 64 - 1
    | _ => 0

/-! ## Drawing -/

section Draw

variable {F : Type}

/-- The panel of the decision. -/
structure InferencePanel (F : Type) where
  workload : String
  latency : String
  ratio : F
  gaugeLabel : String
  bar : String

/-- What is drawn. -/
structure Dashboard (F : Type) where
  stream : List String
  inference : InferencePanel F
  governor : String
  isPerf : Bool
  status : String

/-- `draw_stream`: the items of the list. -/
def drawStream (state : StateSnapshot F) : List String :=
  state.processStream.reverse.map fun line => " ▸ " ++ line

variable [FloatOps F] [RoundOps F]

/-- The filled cells of the bar. -/
def filledCells (confidence : F) : ℕ :=
  min (RoundOps.asUsize (RoundOps.round (confidence / FloatOps.lit 10))) 10

/-- The cells of the bar. -/
def barCells (filled : ℕ) : List Char :=
  List.replicate filled '█' ++ List.replicate (10 - filled) '░'

omit [RoundOps F] in
/-- The ratio of the gauge. -/
def gaugeRatio (confidence : F) : F :=
  FloatOps.clamp (confidence / FloatOps.lit 100) (FloatOps.lit 0) (FloatOps.lit 1)

/-- `draw_inference`, unless the gauge panics. -/
def drawInference (gauge : F → Option F) (fmt : F → String) (state : StateSnapshot F) :
    Option (InferencePanel F) := do
  let confidence := state.confidence
  let ratio ← gauge (gaugeRatio confidence)
  let bar := String.ofList (barCells (filledCells confidence))
  return {
    workload := state.workload.getD "—"
    latency := toString state.latencyUs ++ " µs"
    ratio := ratio
    gaugeLabel := fmt confidence ++ "%"
    bar := "[" ++ bar ++ "] " ++ fmt confidence ++ "%" }

omit [FloatOps F] [RoundOps F] in
/-- The panels of a snapshot, with `draw_actuator`. -/
def panels (state : StateSnapshot F) (inference : InferencePanel F) : Dashboard F :=
  let gov := toAsciiUppercase state.activeGovernor
  { stream := drawStream state
    inference := inference
    governor := "[ " ++ gov ++ " ]"
    isPerf := gov == "PERFORMANCE"
    status := state.status }

/-- `draw`, unless the gauge panics. -/
def draw (gauge : F → Option F) (fmt : F → String) (state : StateSnapshot F) :
    Option (Dashboard F) :=
  (drawInference gauge fmt state).map (panels state)

end Draw

/-! ## Gauge and bar -/

section Exact

open FloatOps ExtNum

variable {K : Type} [Field K] [LinearOrder K] [IsStrictOrderedRing K] [FloorRing K] [LogSqrt K]

omit [IsStrictOrderedRing K] [FloorRing K] in
lemma posInf_div {y : K} (hy : 0 ≤ y) : (.posInf / .num y : ExtNum K) = .posInf :=
  if_neg (not_lt.mpr hy)

omit [IsStrictOrderedRing K] [FloorRing K] in
lemma negInf_div {y : K} (hy : 0 ≤ y) : (.negInf / .num y : ExtNum K) = .negInf :=
  if_neg (not_lt.mpr hy)

omit [LogSqrt K] in
/-- Rounding is off by at most a half, and a half is rounded up. -/
lemma round_num (x : K) :
    ∃ n : ℤ, RoundOps.round (num x : ExtNum K) = num (n : K) ∧ |(n : K) - x| ≤ 1 / 2 ∧
      (1 / 2 ≤ x → 1 ≤ n) := by
  rcases le_or_gt 0 x with hx | hx
  · refine ⟨round x, ?_, ?_, fun hhalf => ?_⟩
    · show num (if 0 ≤ x then _ else _) = _
      rw [if_pos hx]
    · rw [abs_sub_comm]
      exact abs_sub_round x
    · rw [round_eq, Int.le_floor]
      push_cast
      linarith
  · refine ⟨-round (-x), ?_, ?_, fun hhalf => ?_⟩
    · show num (if 0 ≤ x then _ else _) = _
      rw [if_neg (not_le.mpr hx), Int.cast_neg]
    · have hround := abs_sub_round (-x)
      rw [abs_le] at hround ⊢
      push_cast
      constructor <;> linarith
    · linarith

/-- The filled cells of a number: a tenth of it, rounded, at least none and at most all. -/
lemma filledCells_num (x : K) :
    ∃ n : ℤ, |(n : K) - x / 10| ≤ 1 / 2 ∧
      (filledCells (num x : ExtNum K) : K) = min (max (n : K) 0) 10 ∧
      (5 ≤ x → 1 ≤ filledCells (num x : ExtNum K)) := by
  have hten : (num x / lit 10 : ExtNum K) = num (x / 10) := by
    rw [lit_eq, Rat.cast_ofNat, num_div (by norm_num)]
  obtain ⟨n, hn, herror, hhalf⟩ := round_num (x / 10)
  have hcells : filledCells (num x : ExtNum K) = min n.toNat 10 := by
    unfold filledCells
    rw [hten, hn]
    show min (min ⌊(n : K)⌋.toNat (2 ^ 64 - 1)) 10 = min n.toNat 10
    rw [Int.floor_intCast]
    omega
  have hcast : ((n.toNat : ℤ) : K) = max (n : K) 0 := by
    rw [Int.toNat_eq_max, Int.cast_max, Int.cast_zero]
  refine ⟨n, herror, ?_, fun hfive => ?_⟩
  · rw [hcells, Nat.cast_min, ← hcast, Int.cast_natCast, Nat.cast_ofNat]
  · have hone := hhalf (by linarith)
    omega

omit [IsStrictOrderedRing K] in
/-- The ratio of a number. -/
lemma gaugeRatio_num (x : K) :
    gaugeRatio (num x : ExtNum K) = num (min (max (x / 100) 0) 1) := by
  unfold gaugeRatio
  rw [lit_eq, lit_eq, lit_eq, Rat.cast_ofNat, Rat.cast_zero, Rat.cast_one, num_div (by norm_num),
    clamp_num]

/-- The ratio of every confidence but NaN lies in the unit interval, and **the bar agrees with it**
up to half a cell.

**Proof sketch.** The number of cells is a rounded tenth of the confidence, at most half a cell
away from it.  Clamping to `0..10` does not increase distances, and the ratio is a tenth of the
clamped value; the infinities are drawn as an empty and a full bar. -/
theorem filledCells_sub_ratio {confidence : ExtNum K} (h : confidence ≠ .nan) :
    ∃ r : K, gaugeRatio confidence = num r ∧ 0 ≤ r ∧ r ≤ 1 ∧
      |(filledCells confidence : K) / 10 - r| ≤ 1 / 20 := by
  cases confidence with
  | nan => exact absurd rfl h
  | negInf =>
    have hratio : gaugeRatio (.negInf : ExtNum K) = num 0 := by
      unfold gaugeRatio
      rw [lit_eq, negInf_div (by norm_num), lit_eq, lit_eq, Rat.cast_zero, Rat.cast_one]
      show (if lt (num (1 : K)) (num 0) = true then num 1 else num 0) = num 0
      rw [lt_num, if_neg (by simp)]
    have hcells : filledCells (.negInf : ExtNum K) = 0 := by
      unfold filledCells
      rw [lit_eq, negInf_div (by norm_num)]
      rfl
    exact ⟨0, hratio, le_rfl, zero_le_one, by rw [hcells]; norm_num⟩
  | posInf =>
    have hratio : gaugeRatio (.posInf : ExtNum K) = num 1 := by
      unfold gaugeRatio
      rw [lit_eq, posInf_div (by norm_num), lit_eq, lit_eq, Rat.cast_one]
      rfl
    have hcells : filledCells (.posInf : ExtNum K) = 10 := by
      unfold filledCells
      rw [lit_eq, posInf_div (by norm_num)]
      rfl
    exact ⟨1, hratio, zero_le_one, le_rfl, by rw [hcells]; norm_num⟩
  | num x =>
    obtain ⟨n, herror, hcells, -⟩ := filledCells_num x
    refine ⟨_, gaugeRatio_num x, le_min (le_max_right _ _) zero_le_one, min_le_right _ _, ?_⟩
    have hscale : min (max (x / 100) 0) 1 = min (max (x / 10) 0) 10 / 10 := by
      have hten : (0 : K) ≤ 10 := by norm_num
      rw [← min_div_div_right hten, ← max_div_div_right hten, zero_div, div_div,
        div_self (by norm_num)]
      norm_num
    have hclose : |min (max (n : K) 0) 10 - min (max (x / 10) 0) 10| ≤ 1 / 2 := by
      refine (abs_min_sub_min_le_max _ _ _ _).trans ?_
      rw [sub_self, abs_zero]
      refine max_le ((abs_max_sub_max_le_abs _ _ _).trans herror) (by norm_num)
    have hten : |(10 : K)| = 10 := abs_of_pos (by norm_num)
    rw [hcells, hscale, ← sub_div, abs_div, hten]
    linarith

omit [FloorRing K] [IsStrictOrderedRing K] [LogSqrt K] in
/-- A gauge takes every ratio in the unit interval as it is. -/
def TakesUnit (gauge : ExtNum K → Option (ExtNum K)) : Prop :=
  ∀ r : K, 0 ≤ r → r ≤ 1 → gauge (num r) = some (num r)

/-- **Drawing.** A confidence other than NaN does not make the gauge panic.  The bar has ten cells,
and agrees with the gauge up to half a cell; a confidence of five or more fills at least one. -/
theorem draw_exact {gauge : ExtNum K → Option (ExtNum K)} (hgauge : TakesUnit gauge)
    (fmt : ExtNum K → String) {state : StateSnapshot (ExtNum K)} (h : state.confidence ≠ .nan) :
    ∃ shown, draw gauge fmt state = some shown ∧
      shown.stream = drawStream state ∧ ∃ (r : K) (filled : ℕ),
        shown.inference.ratio = .num r ∧ 0 ≤ r ∧ r ≤ 1 ∧ filled ≤ 10 ∧
        shown.inference.bar =
          "[" ++ String.ofList (barCells filled) ++ "] " ++ fmt state.confidence ++ "%" ∧
        |(filled : K) / 10 - r| ≤ 1 / 20 ∧
        ∀ x, state.confidence = .num x → 5 ≤ x → 1 ≤ filled := by
  obtain ⟨r, hratio, h₀, h₁, hclose⟩ := filledCells_sub_ratio h
  obtain ⟨panel, hpanel, hpanelRatio, hbar⟩ : ∃ panel,
      drawInference gauge fmt state = some panel ∧ panel.ratio = num r ∧
      panel.bar = "[" ++ String.ofList (barCells (filledCells state.confidence)) ++ "] " ++
        fmt state.confidence ++ "%" := by
    unfold drawInference
    dsimp only
    rw [hratio, hgauge r h₀ h₁]
    exact ⟨_, rfl, rfl, rfl⟩
  refine ⟨panels state panel, ?_, rfl, r, filledCells state.confidence, hpanelRatio, h₀, h₁,
    min_le_right _ _, hbar, hclose, fun x hx hfive => ?_⟩
  · rw [draw, hpanel, Option.map_some]
  · obtain ⟨-, -, -, hone⟩ := filledCells_num x
    rw [hx]
    exact hone hfive

end Exact

end Foverin
