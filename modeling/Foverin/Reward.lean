import Foverin.Lib.ExtNum

set_option relaxedAutoImplicit false
set_option autoImplicit false

/-!
# Rewards

`foverin/src/reward.rs`: what the sensors show of one window, and the balanced reward of a
governor under it.  What the sensor files hold at a call is an argument (`SensorReadings`).

## Main definitions

* `Foverin.MetricSampler.sample` — the metrics since the previous call.
* `Foverin.balancedReward` — busy alignment, power and heat, weighed.
* `Foverin.powerPenaltyUnclamped`, `Foverin.balancedRewardUnclamped` — the same before the clamps.
-/

namespace Foverin

open FloatOps

/-! ## Sensors -/

/-- `CpuTimes`: the aggregate counters of `/proc/stat`. -/
structure CpuTimes where
  idle : UInt64
  total : UInt64
  deriving DecidableEq

/-- `RaplSample`: an energy reading in microjoules. -/
structure RaplSample where
  energyUj : UInt64
  deriving DecidableEq

/-- `MetricSampler`: the readings of the previous call. -/
structure MetricSampler where
  prevCpu : Option CpuTimes
  prevRapl : Option RaplSample
  deriving DecidableEq

/-- `MetricSampler::new`. -/
def MetricSampler.new : MetricSampler := ⟨none, none⟩

variable {F : Type}

/-- What one call reads: the results of `read_cpu_times`, `read_max_thermal_mc` and
`read_rapl_energy`. -/
structure SensorReadings (F : Type) where
  cpu : Option CpuTimes
  maxThermalMc : Option F
  rapl : Option RaplSample

/-- `WindowMetrics`: the metrics of one window. -/
structure WindowMetrics (F : Type) where
  /-- Fraction of CPU that was busy. -/
  busy : F
  /-- Thermal penalty; zero if cool or unknown. -/
  thermalPen : F
  /-- Normalised energy rate where RAPL is available, else `-1`. -/
  energyRateNorm : F
  deriving DecidableEq

variable [FloatOps F]

/-- `busy_fraction`. -/
def busyFraction (prev cur : CpuTimes) : F :=
  -- `saturating_sub` is the subtraction of natural numbers
  let dTotal := cur.total.toNat - prev.total.toNat
  let dIdle := cur.idle.toNat - prev.idle.toNat
  if dTotal = 0 then lit 0.5
  else
    let idleFrac : F := ofNat dIdle / ofNat dTotal
    clamp (lit 1 - idleFrac) (lit 0) (lit 1)

/-- The energy rate between two readings. -/
def energyRate (prev cur : Option RaplSample) : F :=
  match prev, cur with
  | some p, some c =>
    if p.energyUj ≤ c.energyUj then
      clamp (ofNat (c.energyUj.toNat - p.energyUj.toNat) / lit 50000000) (lit 0) (lit 1)
    else lit (-1)
  | _, _ => lit (-1)

/-- The thermal penalty: from `T_COMFORT_MC` to `T_CRIT_MC`. -/
def thermalPenalty (maxThermalMc : Option F) : F :=
  match maxThermalMc with
  | some t => clamp ((t - lit 70000) / (lit 95000 - lit 70000)) (lit 0) (lit 1)
  | none => lit 0

/-- `MetricSampler::sample`.  The first call only takes the baseline; an unreadable `/proc/stat`
counts as zero counters. -/
def MetricSampler.sample (readings : SensorReadings F) (s : MetricSampler) :
    WindowMetrics F × MetricSampler :=
  let cpu := readings.cpu.getD ⟨0, 0⟩
  let (busy, energyRateNorm) :=
    match s.prevCpu with
    | none => (lit 0.5, lit (-1))
    | some prev => (busyFraction prev cpu, energyRate s.prevRapl readings.rapl)
  ({ busy := busy
     thermalPen := thermalPenalty readings.maxThermalMc
     energyRateNorm := energyRateNorm },
    ⟨some cpu, readings.rapl⟩)

/-! ## Rewards -/

/-- `gov_perf_score`. -/
def govPerfScore (governor : String) : F :=
  if governor = "performance" then lit 1
  else if governor = "schedutil" ∨ governor = "ondemand" ∨ governor = "conservative" then lit 0.5
  else if governor = "powersave" then lit 0
  else lit 0.5

/-- The power penalty of a governor with score `govPerf`: measured where RAPL is available,
else judged by the load. -/
def powerPenalty (m : WindowMetrics F) (govPerf : F) : F :=
  if le (lit 0) m.energyRateNorm then
    -- high energy while idle is waste, low energy under load is starvation
    let waste := m.energyRateNorm * (lit 1 - m.busy)
    let starve := (lit 1 - m.energyRateNorm) * m.busy * lit 0.5
    clamp (waste + starve) (lit 0) (lit 1)
  else if le (lit 0.9) govPerf then clamp (lit 1 - m.busy) (lit 0) (lit 1)
  else if le govPerf (lit 0.1) then
    clamp (FloatOps.max (m.busy - lit 0.4) (lit 0) * lit 0.8) (lit 0) (lit 1)
  else clamp (abs (m.busy - govPerf) * lit 0.3) (lit 0) (lit 1)

/-- `balanced_reward`. -/
def balancedReward (m : WindowMetrics F) (governor : String) : F :=
  let govPerf : F := govPerfScore governor
  let align := lit 1 - abs (m.busy - govPerf)
  let reward := lit 0.45 * align + lit 0.35 * (lit 1 - powerPenalty m govPerf) +
    lit 0.20 * (lit 1 - m.thermalPen)
  clamp reward (lit 0) (lit 1)

/-! ## Before the clamps -/

/-- The power penalty before its clamp. -/
def powerPenaltyUnclamped (m : WindowMetrics F) (govPerf : F) : F :=
  if le (lit 0) m.energyRateNorm then
    let waste := m.energyRateNorm * (lit 1 - m.busy)
    let starve := (lit 1 - m.energyRateNorm) * m.busy * lit 0.5
    waste + starve
  else if le (lit 0.9) govPerf then lit 1 - m.busy
  else if le govPerf (lit 0.1) then FloatOps.max (m.busy - lit 0.4) (lit 0) * lit 0.8
  else abs (m.busy - govPerf) * lit 0.3

/-- The balanced reward before its clamp. -/
def balancedRewardUnclamped (m : WindowMetrics F) (governor : String) : F :=
  let govPerf : F := govPerfScore governor
  let align := lit 1 - abs (m.busy - govPerf)
  lit 0.45 * align + lit 0.35 * (lit 1 - powerPenalty m govPerf) +
    lit 0.20 * (lit 1 - m.thermalPen)

lemma powerPenalty_eq_clamp (m : WindowMetrics F) (govPerf : F) :
    powerPenalty m govPerf = clamp (powerPenaltyUnclamped m govPerf) (lit 0) (lit 1) := by
  unfold powerPenalty powerPenaltyUnclamped
  split_ifs <;> rfl

lemma balancedReward_eq_clamp (m : WindowMetrics F) (governor : String) :
    balancedReward m governor = clamp (balancedRewardUnclamped m governor) (lit 0) (lit 1) := rfl

end Foverin
