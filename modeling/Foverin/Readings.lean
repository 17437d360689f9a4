import Foverin.Heat
import Foverin.Lib.Checked
import Foverin.Lib.FloatText
import Foverin.Metrics

set_option relaxedAutoImplicit false
set_option autoImplicit false

/-!
# From text to metrics

`MetricSampler::sample` on the texts of the sensor files, with every unchecked operation on `u64`
made to fail where it overflows.  The counters of `/proc/stat` are added up without a check, and
the clamps let NaN through, which a temperature can be read as.  Where the counters fit and some
temperature is not NaN, the metrics are in their ranges.

## Main definitions

* `Foverin.SensorTexts` — the texts of a call.
* `Foverin.readCounters`, `Foverin.readMaxThermalMc` — the parsers.
* `Foverin.MetricSampler.sampleChecked` — the call, or nothing if it overflows.
* `Foverin.SensorTexts.Sound`, `Foverin.WindowMetrics.InRange` — good texts, good metrics.

## Main results

* `Foverin.ThermalEntry.temperature_eq_nan_iff` — the texts that are read as NaN.
* `Foverin.sampleChecked_of_fit`, `Foverin.sampleChecked_of_not_fit` — when a call overflows.
* `Foverin.sampleChecked_inRange_iff` — when a call does not overflow and stays in the ranges.
* `Foverin.WindowMetrics.InRange.reward` — then so are the rewards.
-/

namespace Foverin

open FloatOps

/-! ## The texts -/

/-- An entry of `/sys/class/thermal`: its name, and the text of its `temp` file if it can be
read. -/
structure ThermalEntry where
  name : String
  temp : Option String

/-- What the sensor files hold at a call, as far as they can be read. -/
structure SensorTexts where
  procStat : Option String
  thermal : Option (List ThermalEntry)
  energyUj : List (Option String)

/-! ## The counters -/

/-- The counters that `read_cpu_times` adds up. -/
structure StatCounters where
  user : UInt64
  nice : UInt64
  system : UInt64
  idle : UInt64
  iowait : UInt64
  irq : UInt64
  softirq : UInt64
  steal : UInt64
  deriving DecidableEq

/-- The parser of `read_cpu_times`. -/
def readCounters (procStat : Option String) : Option StatCounters := do
  let data ← procStat
  let line ← (data.toList.splitOn '\n').find? fun line => "cpu ".toList.isPrefixOf line
  let parts := ((splitWhitespace line).drop 1).map Decimal.parseU64
  let user ← parts[0]?.join
  let nice ← parts[1]?.join
  let system ← parts[2]?.join
  let idle ← parts[3]?.join
  let iowait := parts[4]?.join.getD 0
  let irq := parts[5]?.join.getD 0
  let softirq := parts[6]?.join.getD 0
  let steal := parts[7]?.join.getD 0
  return ⟨user, nice, system, idle, iowait, irq, softirq, steal⟩

/-- The sums of `read_cpu_times`, which wrap around. -/
def StatCounters.times (c : StatCounters) : CpuTimes :=
  let idleAll := c.idle + c.iowait
  ⟨idleAll, c.user + c.nice + c.system + idleAll + c.irq + c.softirq + c.steal⟩

/-- The sums of `read_cpu_times`, or nothing if one of them overflows. -/
def StatCounters.timesChecked (c : StatCounters) : Option CpuTimes := do
  let idleAll ← c.idle.checkedAdd c.iowait
  let total ← [c.nice, c.system, idleAll, c.irq, c.softirq, c.steal].foldlM UInt64.checkedAdd c.user
  return ⟨idleAll, total⟩

/-- The exact total. -/
def StatCounters.sum (c : StatCounters) : ℕ :=
  c.user.toNat + c.nice.toNat + c.system.toNat + (c.idle.toNat + c.iowait.toNat) + c.irq.toNat +
    c.softirq.toNat + c.steal.toNat

/-- `read_cpu_times`, or nothing if a sum overflows. -/
def readCpuTimesChecked (procStat : Option String) : Option (Option CpuTimes) :=
  match readCounters procStat with
  | some c => c.timesChecked.map some
  | none => some none

lemma readCpuTimes_eq (procStat : Option String) :
    readCpuTimes procStat = (readCounters procStat).map StatCounters.times := by
  simp only [readCpuTimes, readCounters, Option.bind_eq_bind, Option.map_bind, Function.comp_def]
  rfl

/-- The sums overflow exactly if the total does not fit. -/
lemma StatCounters.timesChecked_eq (c : StatCounters) :
    c.timesChecked = if c.sum < 2 ^ 64 then some c.times else none := by
  unfold timesChecked
  by_cases hidle : c.idle.toNat + c.iowait.toNat < 2 ^ 64
  · have hadd : c.idle.checkedAdd c.iowait = some (c.idle + c.iowait) := if_pos hidle
    have hsum : c.user.toNat + ([c.nice, c.system, c.idle + c.iowait, c.irq, c.softirq,
        c.steal].map UInt64.toNat).sum = c.sum := by
      simp only [List.map_cons, List.map_nil, List.sum_cons, List.sum_nil,
        UInt64.toNat_add_of_lt hidle, sum]
      omega
    rw [hadd, Option.bind_eq_bind, Option.bind_some, UInt64.foldlM_checkedAdd, hsum]
    split_ifs <;> rfl
  · have hadd : c.idle.checkedAdd c.iowait = none := if_neg hidle
    have hsum : ¬ c.sum < 2 ^ 64 := by
      unfold sum
      omega
    rw [hadd, if_neg hsum]
    rfl

/-- The counters of a call add up to at most the largest `u64`. -/
def SensorTexts.CountersFit (texts : SensorTexts) : Prop :=
  ∀ c ∈ readCounters texts.procStat, c.sum < 2 ^ 64

/-- `read_cpu_times` overflows exactly if the counters do not fit. -/
lemma readCpuTimesChecked_of_fit {texts : SensorTexts} (h : texts.CountersFit) :
    readCpuTimesChecked texts.procStat = some (readCpuTimes texts.procStat) := by
  rw [readCpuTimes_eq, readCpuTimesChecked]
  cases hc : readCounters texts.procStat with
  | none => rfl
  | some c =>
    simp only [c.timesChecked_eq, if_pos (h c hc)]
    rfl

lemma readCpuTimesChecked_of_not_fit {texts : SensorTexts} (h : ¬ texts.CountersFit) :
    readCpuTimesChecked texts.procStat = none := by
  unfold SensorTexts.CountersFit at h
  push Not at h
  obtain ⟨c, hc, hsum⟩ := h
  rw [readCpuTimesChecked, Option.mem_def.mp hc]
  simp only [c.timesChecked_eq, if_neg (not_lt.mpr hsum)]
  rfl

/-! ## The temperatures -/

/-- The temperature of an entry, if it is a thermal zone and its text is a number. -/
def ThermalEntry.temperature (entry : ThermalEntry) : Option (ExtNum ℚ) :=
  if "thermal_zone".toList.isPrefixOf entry.name.toList then
    entry.temp.bind fun text => FloatText.parse (trim text)
  else none

/-- A temperature is NaN if the text of the zone is the name of NaN, in any mixture of cases and
perhaps with a sign. -/
theorem ThermalEntry.temperature_eq_nan_iff (entry : ThermalEntry) :
    entry.temperature = some .nan ↔
      "thermal_zone".toList.isPrefixOf entry.name.toList = true ∧ ∃ text, entry.temp = some text ∧
        (FloatText.splitSign (trim text).toList).2.map Char.toLower = "nan".toList := by
  unfold temperature
  split_ifs with hzone
  · rw [Option.bind_eq_some_iff]
    simp only [FloatText.parse_eq_nan_iff, hzone, true_and]
  · exact ⟨nofun, fun h => absurd h.1 hzone⟩

/-- The temperatures of the thermal zones that can be read. -/
def SensorTexts.temperatures (texts : SensorTexts) : List (ExtNum ℚ) :=
  (texts.thermal.getD []).filterMap ThermalEntry.temperature

section Exact

variable {K : Type} [Field K] [LinearOrder K] [LogSqrt K]

/-- One round of the loop in `read_max_thermal_mc`. -/
def maxThermalStep (maxT : Option (ExtNum K)) (entry : ThermalEntry) : Option (ExtNum K) :=
  match entry.temperature with
  | some v => some (maxT.elim (ExtNum.ofRat v) fun m => FloatOps.max m (ExtNum.ofRat v))
  | none => maxT

/-- `read_max_thermal_mc`, given the entries of the directory if it can be read. -/
def readMaxThermalMc (entries : Option (List ThermalEntry)) : Option (ExtNum K) :=
  entries.bind fun entries => entries.foldl maxThermalStep none

/-- What `read_max_thermal_mc` makes of the temperatures. -/
lemma readMaxThermalMc_eq (texts : SensorTexts) :
    readMaxThermalMc (K := K) texts.thermal =
      match texts.temperatures with
      | [] => none
      | v :: vs => some ((vs.map ExtNum.ofRat).foldl FloatOps.max (ExtNum.ofRat v)) := by
  have hsome : ∀ (entries : List ThermalEntry) (m : ExtNum K),
      entries.foldl maxThermalStep (some m) = some
        (((entries.filterMap ThermalEntry.temperature).map ExtNum.ofRat).foldl FloatOps.max m) := by
    intro entries
    induction entries with
    | nil => exact fun m => rfl
    | cons entry entries ih =>
      intro m
      rw [List.foldl_cons, List.filterMap_cons, maxThermalStep]
      cases entry.temperature with
      | none => exact ih m
      | some v => exact ih _
  have hnone : ∀ entries : List ThermalEntry,
      entries.foldl (maxThermalStep (K := K)) none =
        match entries.filterMap ThermalEntry.temperature with
        | [] => none
        | v :: vs => some ((vs.map ExtNum.ofRat).foldl FloatOps.max (ExtNum.ofRat v)) := by
    intro entries
    induction entries with
    | nil => rfl
    | cons entry entries ih =>
      rw [List.foldl_cons, List.filterMap_cons, maxThermalStep]
      cases entry.temperature with
      | none => exact ih
      | some v => exact hsome entries _
  unfold readMaxThermalMc SensorTexts.temperatures
  cases texts.thermal with
  | none => rfl
  | some entries => exact hnone entries

/-! ## One call -/

/-- The energy rate between two readings, or nothing if the subtraction overflows. -/
def energyRateChecked (prev cur : Option RaplSample) : Option (ExtNum K) :=
  match prev, cur with
  | some p, some c =>
    if p.energyUj ≤ c.energyUj then
      (c.energyUj.checkedSub p.energyUj).map fun delta =>
        clamp (ofNat delta.toNat / lit 50000000) (lit 0) (lit 1)
    else some (lit (-1))
  | _, _ => some (lit (-1))

/-- The readings of a call. -/
def SensorTexts.readings (texts : SensorTexts) : SensorReadings (ExtNum K) :=
  SensorFiles.readings
    { procStat := texts.procStat
      maxThermalMc := readMaxThermalMc texts.thermal
      energyUj := texts.energyUj }

/-- `MetricSampler::sample` on the texts of the sensor files, or nothing if an operation on `u64`
overflows. -/
def MetricSampler.sampleChecked (texts : SensorTexts) (s : MetricSampler) :
    Option (WindowMetrics (ExtNum K) × MetricSampler) := do
  let cpu := (← readCpuTimesChecked texts.procStat).getD ⟨0, 0⟩
  let tempMc : Option (ExtNum K) := readMaxThermalMc texts.thermal
  let rapl := readRaplEnergy texts.energyUj
  let (busy, energyRateNorm) ←
    match s.prevCpu with
    | none => some (lit 0.5, lit (-1))
    | some prev =>
      (energyRateChecked s.prevRapl rapl).map fun energy => (busyFraction prev cpu, energy)
  return (
    { busy := busy
      thermalPen := thermalPenalty tempMc
      energyRateNorm := energyRateNorm },
    ⟨some cpu, rapl⟩)

/-- The subtraction never overflows: it is made only if the counter has not gone backwards. -/
lemma energyRateChecked_eq (prev cur : Option RaplSample) :
    energyRateChecked prev cur = some (energyRate prev cur : ExtNum K) := by
  unfold energyRateChecked energyRate
  cases prev with
  | none => rfl
  | some p =>
    cases cur with
    | none => rfl
    | some c =>
      by_cases hle : p.energyUj ≤ c.energyUj
      · have hsub : c.energyUj.checkedSub p.energyUj = some (c.energyUj - p.energyUj) := if_pos hle
        simp only [if_pos hle, hsub, Option.map_some, UInt64.toNat_sub_of_le _ _ hle]
      · simp only [if_neg hle]

/-- **A call whose counters fit** does not overflow. -/
theorem sampleChecked_of_fit {texts : SensorTexts} (h : texts.CountersFit) (s : MetricSampler) :
    s.sampleChecked texts = some (s.sample (texts.readings (K := K))) := by
  unfold MetricSampler.sampleChecked MetricSampler.sample
  rw [readCpuTimesChecked_of_fit h]
  cases s.prevCpu with
  | none => rfl
  | some prev =>
    simp only [energyRateChecked_eq]
    rfl

/-- Any other call does. -/
theorem sampleChecked_of_not_fit {texts : SensorTexts} (h : ¬ texts.CountersFit)
    (s : MetricSampler) : s.sampleChecked (K := K) texts = none := by
  unfold MetricSampler.sampleChecked
  rw [readCpuTimesChecked_of_not_fit h]
  rfl

/-! ## The ranges -/

/-- The ranges that `WindowMetrics` is documented to have. -/
structure WindowMetrics.InRange (m : WindowMetrics (ExtNum K)) : Prop where
  busy : m.busy.InUnit
  thermalPen : m.thermalPen.InUnit
  energyRateNorm : m.energyRateNorm.InUnit ∨ m.energyRateNorm = lit (-1)

/-- The texts of a call that is sampled well: the counters fit, and if a temperature is NaN then
another one is not. -/
structure SensorTexts.Sound (texts : SensorTexts) : Prop where
  counters : texts.CountersFit
  temperatures : .nan ∈ texts.temperatures → ∃ v ∈ texts.temperatures, v ≠ .nan

variable [IsStrictOrderedRing K]

lemma inUnit_half : (lit 0.5 : ExtNum K).InUnit := by
  refine ⟨((0.5 : ℚ) : K), rfl, ?_, ?_⟩ <;> norm_num

/-- The busy fraction is in its range for any counters. -/
lemma inUnit_busyFraction (prev cur : CpuTimes) :
    (busyFraction prev cur : ExtNum K).InUnit := by
  unfold busyFraction
  dsimp only
  split_ifs with hzero
  · exact inUnit_half
  · have hne : ((cur.total.toNat - prev.total.toNat : ℕ) : K) ≠ 0 := Nat.cast_ne_zero.mpr hzero
    rw [ExtNum.ofNat_eq, ExtNum.ofNat_eq, ExtNum.num_div hne]
    apply ExtNum.inUnit_clamp_iff.mpr
    rw [ExtNum.lit_eq, ExtNum.num_sub]
    simp

/-- So is the energy rate. -/
lemma inUnit_energyRate (prev cur : Option RaplSample) :
    (energyRate prev cur : ExtNum K).InUnit ∨ (energyRate prev cur : ExtNum K) = lit (-1) := by
  unfold energyRate
  split
  · split_ifs
    · have hne : ((50000000 : ℚ) : K) ≠ 0 := Rat.cast_ne_zero.mpr (by norm_num)
      left
      apply ExtNum.inUnit_clamp_iff.mpr
      rw [ExtNum.ofNat_eq, ExtNum.lit_eq, ExtNum.num_div hne]
      simp
    · exact Or.inr rfl
  · exact Or.inr rfl

/-- **The thermal penalty** is in its range unless the temperatures are all NaN.

**Proof sketch.** A clamp of anything but NaN is in range.  The penalty is NaN only if the maximum
is, and `f64::max` ignores a NaN as soon as one of its arguments is none. -/
theorem inUnit_thermalPenalty_iff (texts : SensorTexts) :
    (thermalPenalty (readMaxThermalMc (K := K) texts.thermal)).InUnit ↔
      (.nan ∈ texts.temperatures → ∃ v ∈ texts.temperatures, v ≠ .nan) := by
  rw [readMaxThermalMc_eq]
  cases texts.temperatures with
  | nil =>
    have hzero : (lit 0 : ExtNum K).InUnit := ⟨0, by simp, le_rfl, zero_le_one⟩
    exact ⟨fun _ => nofun, fun _ => hzero⟩
  | cons v vs =>
    have hrange : ((95000 : ℚ) : K) - ((70000 : ℚ) : K) ≠ 0 := by norm_num
    have hnan : ∀ t : ExtNum K, (thermalPenalty (some t)).InUnit ↔ t ≠ .nan := by
      intro t
      unfold thermalPenalty
      rw [ExtNum.inUnit_clamp_iff, ExtNum.lit_eq, ExtNum.lit_eq, ExtNum.num_sub, Ne,
        ExtNum.div_num_eq_nan_iff hrange, ExtNum.sub_num_eq_nan_iff]
    rw [hnan, Ne, ExtNum.foldl_max_eq_nan_iff, ExtNum.ofRat_eq_nan_iff, List.forall_mem_map]
    simp only [ExtNum.ofRat_eq_nan_iff]
    constructor
    · intro h _
      by_contra hall
      push Not at hall
      exact h ⟨hall v List.mem_cons_self, fun u hu => hall u (List.mem_cons_of_mem v hu)⟩
    · rintro h ⟨rfl, hall⟩
      obtain ⟨u, hu, hne⟩ := h List.mem_cons_self
      rcases List.mem_cons.mp hu with rfl | hu
      · exact hne rfl
      · exact hne (hall u hu)

/-- **When the metrics are in their ranges.**

**Proof sketch.** The busy fraction and the energy rate are in range whatever is read, so that only
the thermal penalty decides. -/
theorem sample_inRange_iff (texts : SensorTexts) (s : MetricSampler) :
    (s.sample (texts.readings (K := K))).1.InRange ↔
      (.nan ∈ texts.temperatures → ∃ v ∈ texts.temperatures, v ≠ .nan) := by
  have hthermal : (s.sample (texts.readings (K := K))).1.thermalPen =
      thermalPenalty (readMaxThermalMc texts.thermal) := rfl
  constructor
  · intro h
    rw [← inUnit_thermalPenalty_iff (K := K), ← hthermal]
    exact h.thermalPen
  · intro h
    rw [← inUnit_thermalPenalty_iff (K := K), ← hthermal] at h
    refine ⟨?_, h, ?_⟩
    · cases hprev : s.prevCpu with
      | none =>
        simp only [MetricSampler.sample, hprev]
        exact inUnit_half
      | some prev =>
        simp only [MetricSampler.sample, hprev]
        exact inUnit_busyFraction _ _
    · cases hprev : s.prevCpu with
      | none =>
        simp only [MetricSampler.sample, hprev, or_true]
      | some prev =>
        simp only [MetricSampler.sample, hprev]
        exact inUnit_energyRate _ _

/-- **One call** overflows or leaves the ranges exactly if its texts are not sound. -/
theorem sampleChecked_inRange_iff (texts : SensorTexts) (s : MetricSampler) :
    (∃ r ∈ s.sampleChecked (K := K) texts, r.1.InRange) ↔ texts.Sound := by
  by_cases hfit : texts.CountersFit
  · rw [sampleChecked_of_fit hfit]
    simp only [Option.mem_def, Option.some.injEq, exists_eq_left', sample_inRange_iff]
    exact ⟨fun h => ⟨hfit, h⟩, SensorTexts.Sound.temperatures⟩
  · rw [sampleChecked_of_not_fit hfit]
    simp only [Option.mem_def, reduceCtorEq, false_and, exists_false, false_iff]
    exact fun h => hfit h.counters

/-- **The rewards** of metrics in their ranges are numbers of the unit interval. -/
theorem WindowMetrics.InRange.reward {m : WindowMetrics (ExtNum K)} (h : m.InRange)
    (governor : String) : (balancedReward m governor).InUnit := by
  obtain ⟨busy, thermalPen, energyRateNorm⟩ := m
  obtain ⟨b, rfl, hb⟩ := h.busy
  obtain ⟨t, rfl, ht⟩ := h.thermalPen
  obtain ⟨e, rfl, he⟩ : ∃ e : K, energyRateNorm = .num e ∧ IsEnergyRate e := by
    rcases h.energyRateNorm with ⟨e, rfl, he⟩ | rfl
    · exact ⟨e, rfl, Or.inl he⟩
    · exact ⟨-1, by simp, Or.inr rfl⟩
  obtain ⟨r, hr, -, hreward⟩ := balancedRewardUnclamped_mem hb he ht governor
  exact ⟨r, hreward, hr⟩

end Exact

end Foverin
