import Foverin.Lib.Decimal
import Foverin.Lib.Machine
import Foverin.Reward
import Foverin.Text

set_option relaxedAutoImplicit false
set_option autoImplicit false

/-!
# Metrics of a window

The readings of `foverin/src/reward.rs` and what a sequence of calls of `MetricSampler::sample`
makes of them.  A missing energy reading is kept as missing.  A missing reading of `/proc/stat`
is kept as zero counters, and these are the baseline of the next call: the window after a failed
read is measured since boot.

## Main definitions

* `Foverin.readCpuTimes`, `Foverin.readRaplEnergy` — the readings of the sensor files.
* `Foverin.BusyLocal`, `Foverin.EnergyLocal` — the metrics of a window are those of its two ends.

## Main results

* `Foverin.sampler_final` — the sampler remembers the latest readings.
* `Foverin.windows_local_iff` — when all windows of a sequence of calls are local.
* `Foverin.since_boot_window` — a window after a failed read.
-/

namespace Foverin

open FloatOps

/-! ## The sensor files -/

/-- `read_cpu_times`, given the text of `/proc/stat` if it can be read. -/
def readCpuTimes (procStat : Option String) : Option CpuTimes := do
  let data ← procStat
  -- a carriage return at the end of a line is white space as well
  let line ← (data.toList.splitOn '\n').find? fun line => "cpu ".toList.isPrefixOf line
  let parts := ((splitWhitespace line).drop 1).map Decimal.parseU64
  let user ← parts[0]?.join
  let nice ← parts[1]?.join
  let system ← parts[2]?.join
  let idle ← parts[3]?.join
  let iowait := parts[4]?.join.getD 0
  let irq := parts[5]?.join.getD 0
  let softirq := parts[6]?.join.getD 0
  let steal := parts[7]?.join.getD 0
  let idleAll := idle + iowait
  let total := user + nice + system + idleAll + irq + softirq + steal
  return ⟨idleAll, total⟩

/-- `read_rapl_energy`, given the texts of the candidates and of the nodes below
`/sys/class/powercap`, in this order, as far as they can be read. -/
def readRaplEnergy (energyUj : List (Option String)) : Option RaplSample :=
  energyUj.findSome? fun file => (file.bind fun text => Decimal.parseU64 (trim text)).map .mk

/-- What the sensor files hold at a call. -/
structure SensorFiles (F : Type) where
  procStat : Option String
  maxThermalMc : Option F
  energyUj : List (Option String)

/-- The readings of a call. -/
def SensorFiles.readings {F : Type} (files : SensorFiles F) : SensorReadings F :=
  { cpu := readCpuTimes files.procStat
    maxThermalMc := files.maxThermalMc
    rapl := readRaplEnergy files.energyUj }

/-! ## Windows -/

variable {F : Type} [FloatOps F]

/-- Sequences of calls of `sample`. -/
def samplerMachine : Machine MetricSampler (SensorReadings F) (WindowMetrics F) where
  step s readings := ((s.sample readings).2, (s.sample readings).1)

/-- The busy fraction is that of the counters at the two ends of the window, and neutral where one
of them is missing or the total has not advanced. -/
structure BusyLocal (prev cur : Option CpuTimes) (busy : F) : Prop where
  measured : ∀ p ∈ prev, ∀ c ∈ cur, p.total < c.total → busy = busyFraction p c
  neutral : (∀ p ∈ prev, ∀ c ∈ cur, ¬ p.total < c.total) → busy = lit 0.5

/-- The energy rate is that of the counter at the two ends of the window, and `-1` where one of them
is missing or the counter went backwards. -/
structure EnergyLocal (prev cur : Option RaplSample) (rate : F) : Prop where
  measured : ∀ p ∈ prev, ∀ c ∈ cur, p.energyUj ≤ c.energyUj →
    rate = clamp (ofNat (c.energyUj.toNat - p.energyUj.toNat) / lit 50000000) (lit 0) (lit 1)
  missing : (∀ p ∈ prev, ∀ c ∈ cur, ¬ p.energyUj ≤ c.energyUj) → rate = lit (-1)

/-- The readings of the call before the `k`-th. -/
def previous (ins : List (SensorReadings F)) (k : ℕ) : Option (SensorReadings F) :=
  (ins.take k).getLast?

/-- Since boot the CPU was idle for one half of the time, or nothing was counted. -/
def CpuTimes.HalfIdle (F : Type) [FloatOps F] (c : CpuTimes) : Prop :=
  c.total = 0 ∨
    clamp (lit 1 - ofNat c.idle.toNat / ofNat c.total.toNat : F) (lit 0) (lit 1) = lit 0.5

/-! ## One call -/

/-- The sampler remembers the readings of the latest call, a missing reading of the CPU as zeros. -/
theorem sampler_final (ins : List (SensorReadings F)) :
    samplerMachine.final .new ins =
      ⟨ins.getLast?.map fun r => r.cpu.getD ⟨0, 0⟩, ins.getLast?.bind SensorReadings.rapl⟩ := by
  induction ins using List.reverseRecOn with
  | nil => rfl
  | append_singleton ins r ih =>
    rw [Machine.final_concat, List.getLast?_concat]
    rfl

/-- A total that has not advanced is neutral. -/
lemma busyFraction_of_not_lt {p c : CpuTimes} (h : ¬ p.total < c.total) :
    (busyFraction p c : F) = lit 0.5 := by
  have hle : c.total.toNat ≤ p.total.toNat := UInt64.le_iff_toNat_le.mp (UInt64.not_lt.mp h)
  unfold busyFraction
  rw [if_pos (by omega)]

/-- The counters since boot. -/
lemma busyFraction_zero (c : CpuTimes) (h : c.total ≠ 0) :
    (busyFraction ⟨0, 0⟩ c : F) =
      clamp (lit 1 - ofNat c.idle.toNat / ofNat c.total.toNat) (lit 0) (lit 1) := by
  have hpos : c.total.toNat ≠ 0 := fun hzero => h (UInt64.toNat_inj.mp hzero)
  exact if_neg hpos

lemma busyFraction_zero_eq_iff (c : CpuTimes) :
    (busyFraction ⟨0, 0⟩ c : F) = lit 0.5 ↔ c.HalfIdle F := by
  unfold CpuTimes.HalfIdle
  by_cases hzero : c.total = 0
  · refine ⟨fun _ => Or.inl hzero, fun _ => busyFraction_of_not_lt ?_⟩
    rw [hzero]
    exact UInt64.lt_irrefl 0
  · rw [busyFraction_zero c hzero]
    exact ⟨Or.inr, fun h => h.resolve_left hzero⟩

/-- A call measures its window since zero where the reading before it is missing. -/
lemma busyLocal_iff (prev cur : Option CpuTimes) :
    BusyLocal prev cur (busyFraction (prev.getD ⟨0, 0⟩) (cur.getD ⟨0, 0⟩) : F) ↔
      (prev = none → ∀ c ∈ cur, c.HalfIdle F) := by
  cases prev with
  | some p =>
    refine ⟨fun _ => nofun, fun _ => ⟨?_, ?_⟩⟩
    · rintro _ ⟨⟩ c ⟨⟩ -
      rfl
    · intro h
      cases cur with
      | some c => exact busyFraction_of_not_lt (h p rfl c rfl)
      | none => exact busyFraction_of_not_lt (UInt64.not_lt.mpr (UInt64.zero_le ..))
  | none =>
    constructor
    · rintro h - c ⟨⟩
      exact (busyFraction_zero_eq_iff c).mp (h.neutral nofun)
    · refine fun h => ⟨nofun, fun _ => ?_⟩
      cases cur with
      | some c => exact (busyFraction_zero_eq_iff c).mpr (h rfl c rfl)
      | none => exact busyFraction_of_not_lt (UInt64.lt_irrefl 0)

/-- The energy rate of a call is local. -/
lemma energyLocal (prev cur : Option RaplSample) :
    EnergyLocal prev cur (energyRate prev cur : F) := by
  constructor
  · rintro p ⟨⟩ c ⟨⟩ h
    exact if_pos h
  · intro h
    unfold energyRate
    split
    · exact if_neg (h _ rfl _ rfl)
    · rfl

/-! ## Sequences of calls -/

omit [FloatOps F] in
lemma previous_succ {ins : List (SensorReadings F)} {k : ℕ} {prev : SensorReadings F}
    (h : ins[k]? = some prev) : previous ins (k + 1) = some prev := by
  unfold previous
  rw [List.take_add_one, h, Option.toList_some, List.getLast?_concat]

/-- The metrics of a call. -/
lemma output_sample {ins : List (SensorReadings F)} {k : ℕ} {cur : SensorReadings F}
    {m : WindowMetrics F} (hcur : ins[k]? = some cur)
    (hm : (samplerMachine.outputs .new ins)[k]? = some m) :
    m.busy = ((previous ins k).elim (lit 0.5) fun prev =>
        busyFraction (prev.cpu.getD ⟨0, 0⟩) (cur.cpu.getD ⟨0, 0⟩)) ∧
      m.energyRateNorm = energyRate ((previous ins k).bind SensorReadings.rapl) cur.rapl := by
  have hout := Machine.output_eq _ hcur hm
  rw [sampler_final] at hout
  unfold previous
  cases hprev : (ins.take k).getLast? with
  | none =>
    rw [hout, hprev]
    exact ⟨rfl, rfl⟩
  | some prev =>
    rw [hout, hprev]
    exact ⟨rfl, rfl⟩

/-- **Windows are local unless a failed read comes before a readable one.** In every sequence of
calls the energy rate of every call is that of its window.  The busy fraction of every call is that
of its window as well, and neutral where a reading is missing, exactly if the counters that are read
directly after a failed read of `/proc/stat` always show a CPU that was idle for half of the time
since boot, or nothing.

**Proof sketch.** The sample of a call depends on the previous reading only, where a failed read of
the counters left a zero baseline.  On such a baseline the busy fraction is the share since boot,
which is the neutral value exactly if the CPU was idle for half of that time. -/
theorem windows_local_iff (ins : List (SensorReadings F)) :
    let outs : List (WindowMetrics F) := samplerMachine.outputs .new ins
    ((∀ k cur m, ins[k]? = some cur → outs[k]? = some m →
        BusyLocal ((previous ins k).bind SensorReadings.cpu) cur.cpu m.busy ∧
        EnergyLocal ((previous ins k).bind SensorReadings.rapl) cur.rapl m.energyRateNorm) ↔
      ∀ k prev cur, ins[k]? = some prev → ins[k + 1]? = some cur → prev.cpu = none →
        ∀ c ∈ cur.cpu, c.HalfIdle F) ∧
    ∀ k cur m, ins[k]? = some cur → outs[k]? = some m →
      EnergyLocal ((previous ins k).bind SensorReadings.rapl) cur.rapl m.energyRateNorm := by
  intro outs
  refine ⟨⟨fun h k prev cur hprev hcur => ?_, fun h k cur m hcur hm => ?_⟩,
    fun k cur m hcur hm => ?_⟩
  · obtain ⟨m, hm⟩ : ∃ m, outs[k + 1]? = some m := by
      have hlt := (List.getElem?_eq_some_iff.mp hcur).1
      exact ⟨_, List.getElem?_eq_getElem (by simpa [outs] using hlt)⟩
    have hlocal := (h (k + 1) cur m hcur hm).1
    rw [(output_sample hcur hm).1, previous_succ hprev] at hlocal
    exact (busyLocal_iff prev.cpu cur.cpu).mp hlocal
  · obtain ⟨hbusy, henergy⟩ := output_sample hcur hm
    rw [hbusy, henergy]
    refine ⟨?_, energyLocal _ _⟩
    cases k with
    | zero => exact ⟨nofun, fun _ => rfl⟩
    | succ k =>
      have hlt := (List.getElem?_eq_some_iff.mp hcur).1
      obtain ⟨prev, hprev⟩ : ∃ prev, ins[k]? = some prev :=
        ⟨_, List.getElem?_eq_getElem (Nat.lt_of_succ_lt hlt)⟩
      rw [previous_succ hprev]
      exact (busyLocal_iff prev.cpu cur.cpu).mpr (h k prev cur hprev hcur)
  · rw [(output_sample hcur hm).2]
    exact energyLocal _ _

/-! ## A failed read -/

/-- The clamp of a share is one half only at one half. -/
lemma clamp_one_sub_eq_half_iff {K : Type} [Field K] [LinearOrder K] [IsStrictOrderedRing K]
    (q : K) : min (max (1 - q) 0) 1 = 1 / 2 ↔ q = 1 / 2 := by
  constructor
  · intro h
    rcases min_cases (max (1 - q) 0) 1 with ⟨hmin, -⟩ | ⟨hmin, -⟩
    · rcases max_cases (1 - q) 0 with ⟨hmax, -⟩ | ⟨hmax, -⟩ <;> linarith
    · linarith
  · rintro rfl
    norm_num

/-- In exact arithmetic a CPU is half idle if its idle count is one half of the total. -/
lemma halfIdle_iff {K : Type} [Field K] [LinearOrder K] [IsStrictOrderedRing K] [LogSqrt K]
    (c : CpuTimes) :
    c.HalfIdle (ExtNum K) ↔ c.total = 0 ∨ 2 * c.idle.toNat = c.total.toNat := by
  unfold CpuTimes.HalfIdle
  refine or_congr_right' fun hzero => ?_
  have hne : (c.total.toNat : K) ≠ 0 :=
    Nat.cast_ne_zero.mpr fun h => hzero (UInt64.toNat_inj.mp h)
  have hhalf : ((0.5 : ℚ) : K) = 1 / 2 := by norm_num
  rw [ExtNum.ofNat_eq, ExtNum.ofNat_eq, ExtNum.num_div hne, ExtNum.lit_eq, ExtNum.lit_eq,
    ExtNum.lit_eq, ExtNum.num_sub, ExtNum.clamp_num, ExtNum.num.injEq, hhalf, Rat.cast_one,
    Rat.cast_zero, clamp_one_sub_eq_half_iff, div_eq_iff hne]
  have hcast : 2 * c.idle.toNat = c.total.toNat ↔ (2 * c.idle.toNat : K) = c.total.toNat := by
    exact_mod_cast Iff.rfl
  rw [hcast]
  constructor <;> intro h <;> linarith

/-- The line of a CPU that was busy for one fifth of the time since boot. -/
def mostlyIdle : String := "cpu  100 0 100 800 0 0 0 0 0 0\ncpu0 100 0 100 800 0 0 0 0 0 0\n"

lemma readCpuTimes_mostlyIdle : readCpuTimes (some mostlyIdle) = some ⟨800, 1000⟩ := by
  decide +kernel

/-- **A window measured since boot.** `/proc/stat` cannot be read at the first call and can be read
at the second: the busy fraction of the second window is not neutral. -/
theorem since_boot_window :
    let files : List (SensorFiles (ExtNum ℝ)) := [⟨none, none, []⟩, ⟨some mostlyIdle, none, []⟩]
    let ins := files.map SensorFiles.readings
    let outs : List (WindowMetrics (ExtNum ℝ)) := samplerMachine.outputs .new ins
    ¬ ∀ k cur m, ins[k]? = some cur → outs[k]? = some m →
      BusyLocal ((previous ins k).bind SensorReadings.cpu) cur.cpu m.busy ∧
      EnergyLocal ((previous ins k).bind SensorReadings.rapl) cur.rapl m.energyRateNorm := by
  intro files ins outs h
  have hmissing : ins[0]? = some ⟨none, none, none⟩ := rfl
  have hread : ins[1]? = some ⟨some ⟨800, 1000⟩, none, none⟩ := by
    rw [← readCpuTimes_mostlyIdle]
    rfl
  obtain ⟨m, hm⟩ : ∃ m, outs[1]? = some m := ⟨_, rfl⟩
  have hlocal := (h 1 _ m hread hm).1
  rw [(output_sample hread hm).1, previous_succ hmissing] at hlocal
  have hhalf : CpuTimes.HalfIdle (ExtNum ℝ) ⟨800, 1000⟩ :=
    (busyLocal_iff none (some ⟨800, 1000⟩)).mp hlocal rfl _ rfl
  rw [halfIdle_iff] at hhalf
  revert hhalf
  decide

end Foverin
