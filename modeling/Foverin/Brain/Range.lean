import Foverin.Brain.Credit
import Foverin.Memory.RoundTrip
import Foverin.Readings

set_option relaxedAutoImplicit false
set_option autoImplicit false

/-!
# Learned statistics in range

Runs of `decide` on the texts of the sensor files.  As long as the texts of every call are sound,
no call overflows, its metrics and its rewards are in their ranges, and every stored average is a
number of the unit interval, which a file keeps.  One unsound text is enough to break this: the
counters overflow, or a NaN goes through the clamps into the store.

## Main definitions

* `Foverin.SensedCall` — a call of `decide` with the texts that it reads.
* `Foverin.RunInRange` — what is expected of a run.

## Main results

* `Foverin.Policy.decide_averages` — one call keeps the averages.
* `Foverin.run_in_range_iff` — the runs that keep the ranges.
* `Foverin.Policy.decide_learns_nan` — a temperature that is NaN is learned.
* `Foverin.unsound_texts_leave_the_range` — runs that leave the ranges.
-/

namespace Foverin

open Finmap FloatOps ExtNum

variable {K : Type} [Field K] [LinearOrder K] [LogSqrt K]

/-! ## Runs on texts -/

/-- A call of `decide`: the texts of the sensor files, the other answers of the environment, and the
events of the window. -/
structure SensedCall (K : Type) where
  texts : SensorTexts
  env : DecideEnv (ExtNum K)
  events : List ProcessEvent

/-- The call on the readings of its texts. -/
def SensedCall.input (c : SensedCall K) : DecideEnv (ExtNum K) × List ProcessEvent :=
  ({ c.env with readings := c.texts.readings }, c.events)

/-- The policy after the first `k` calls. -/
def policyAfter (serde : Serde (ExtNum K)) (p : Policy (ExtNum K)) (calls : List (SensedCall K))
    (k : ℕ) : Policy (ExtNum K) :=
  (policyMachine serde).final p ((calls.map SensedCall.input).take k)

/-- What is expected of a run of `decide`. -/
structure RunInRange (serde : Serde (ExtNum K)) (p : Policy (ExtNum K))
    (calls : List (SensedCall K)) : Prop where
  /-- Every call samples without an overflow, its metrics are in their ranges, and under these every
  governor has a reward in the unit interval. -/
  sampled : ∀ (k : ℕ) c (o : Decided (ExtNum K)), calls[k]? = some c →
    ((policyMachine serde).outputs p (calls.map SensedCall.input))[k]? = some o →
    (∃ s, (policyAfter serde p calls k).engine.metrics.sampleChecked c.texts =
      some (o.metrics, s)) ∧
    o.metrics.InRange ∧ ∀ governor, (balancedReward o.metrics governor).InUnit
  /-- After every call the stored averages are numbers of the unit interval. -/
  averages : ∀ k, (policyAfter serde p calls k).engine.memory.Averages InUnit
  /-- A save that succeeds can be opened again. -/
  reopens : serde.ReadsBack → ∀ (k : ℕ) (io : SaveIo (ExtNum K))
    (order : IterOrder String (Bucket (ExtNum K))),
    let p' := policyAfter serde p calls k
    let r := p'.engine.memory.save serde io p'.disk
    Except.isOk r.result = true →
      EpisodeMemory.open serde true order r.disk p'.engine.memory.path p'.engine.memory.actions =
        .ok { p'.engine.memory with dirtySinceSave := 0 }

/-! ## The averages -/

variable [IsStrictOrderedRing K]

namespace Policy

variable (serde : Serde (ExtNum K)) {p : Policy (ExtNum K)} (env : DecideEnv (ExtNum K))
  (events : List ProcessEvent)

/-- **One call** with rewards in the unit interval keeps the averages. -/
theorem decide_averages (h : p.engine.memory.Averages InUnit)
    (hreward : ∀ governor,
      (balancedReward (p.decide serde env events).2.metrics governor).InUnit) :
    (p.decide serde env events).1.engine.memory.Averages InUnit := by
  have hops : ∀ op ∈ (p.decide serde env events).2.calls, op.Rewards InUnit :=
    cycle_calls_rewards serde (p.sampled env) (p.decideCycle env events) hreward
  have haverages := storeMachine_averages serde emaClosed_inUnit (w := p.stored) h hops
  rw [← decide_stored serde p env events] at haverages
  exact haverages

end Policy

omit [IsStrictOrderedRing K] in
/-- A store with averages in the unit interval is read back. -/
lemma open_save_of_averages {serde : Serde (ExtNum K)} (hserde : serde.ReadsBack)
    {m : EpisodeMemory (ExtNum K)} (h : m.Averages InUnit) {io : SaveIo (ExtNum K)} {disk : Disk}
    (hsave : Except.isOk (m.save serde io disk).result = true)
    (order : IterOrder String (Bucket (ExtNum K))) :
    EpisodeMemory.open serde true order (m.save serde io disk).disk m.path m.actions =
      .ok { m with dirtySinceSave := 0 } := by
  have hfinite : m.Finite := fun fp b hb g s hs => (h fp b hb g s hs).isFinite
  obtain ⟨json, hjson, hdisk⟩ := save_disk_of_ok hsave
  rw [hdisk]
  exact open_written
    (hserde.readsBack io.layout _ json ((toFile_finite io.order m).mpr hfinite) hjson) order

/-! ## Runs -/

section Runs

variable {serde : Serde (ExtNum K)} {p : Policy (ExtNum K)} {calls : List (SensedCall K)}

omit [IsStrictOrderedRing K] in
/-- The metrics of a call. -/
lemma metrics_of_output {k : ℕ} {c : SensedCall K} {o : Decided (ExtNum K)}
    (hc : calls[k]? = some c)
    (ho : ((policyMachine serde).outputs p (calls.map SensedCall.input))[k]? = some o) :
    o.metrics =
      ((policyAfter serde p calls k).engine.metrics.sample c.texts.readings).1 := by
  have hinput : (calls.map SensedCall.input)[k]? = some c.input := by
    rw [List.getElem?_map, hc, Option.map_some]
  rw [(policyMachine serde).output_eq hinput ho]
  rfl

/-- Sound texts keep the averages along a run. -/
lemma averages_of_sound (h : p.engine.memory.Averages InUnit)
    (hsound : ∀ c ∈ calls, c.texts.Sound) (k : ℕ) :
    (policyAfter serde p calls k).engine.memory.Averages InUnit := by
  refine (policyMachine serde).run_invariant (P := fun p => p.engine.memory.Averages InUnit)
    (A := fun i => ∃ c : SensedCall K, c.texts.Sound ∧ i = c.input) h ?_ ?_
  · rintro p i ⟨c, hc, rfl⟩ h
    have hrange := (sample_inRange_iff (K := K) c.texts p.engine.metrics).mpr hc.temperatures
    exact Policy.decide_averages serde c.input.1 c.input.2 h hrange.reward
  · intro i hi
    obtain ⟨c, hc, rfl⟩ := List.mem_map.mp (List.mem_of_mem_take hi)
    exact ⟨c, hsound c hc, rfl⟩

/-- **The runs that keep the ranges.** From a store whose averages are in the unit interval, such as
an empty one, a run of `decide` is as expected exactly if the texts of every call are sound: the
counters of the CPU add up to at most the largest `u64`, and if a temperature is NaN then another
one is not.

**Proof sketch.** If the run is as expected then the sample of every call is defined and in range,
which makes its texts sound.  Conversely the averages stay in the unit interval by induction on the
run: every reward is clamped and is not NaN, and a convex combination stays between its parts. -/
theorem run_in_range_iff (h : p.engine.memory.Averages InUnit) (calls : List (SensedCall K)) :
    RunInRange serde p calls ↔ ∀ c ∈ calls, c.texts.Sound := by
  constructor
  · intro hrun c hc
    obtain ⟨k, hk⟩ := List.getElem?_of_mem hc
    obtain ⟨o, ho⟩ : ∃ o, ((policyMachine serde).outputs p
        (calls.map SensedCall.input))[k]? = some o := by
      have hlt := (List.getElem?_eq_some_iff.mp hk).1
      exact ⟨_, List.getElem?_eq_getElem (by simpa using hlt)⟩
    obtain ⟨⟨s, hs⟩, hrange, -⟩ := hrun.sampled k c o hk ho
    exact (sampleChecked_inRange_iff c.texts _).mp ⟨(o.metrics, s), hs, hrange⟩
  · intro hsound
    have haverages : ∀ k, (policyAfter serde p calls k).engine.memory.Averages InUnit :=
      averages_of_sound h hsound
    refine ⟨fun k c o hk ho => ?_, haverages, fun hserde k io order => ?_⟩
    · have hc := hsound c (List.mem_of_getElem? hk)
      have hmetrics := metrics_of_output hk ho
      have hrange : o.metrics.InRange := by
        rw [hmetrics]
        exact (sample_inRange_iff c.texts _).mpr hc.temperatures
      have hsample := sampleChecked_of_fit (K := K) hc.counters
        (policyAfter serde p calls k).engine.metrics
      exact ⟨⟨_, by rw [hsample, hmetrics]⟩, hrange, hrange.reward⟩
    · exact fun hsave => open_save_of_averages hserde (haverages k) hsave order

end Runs

/-- On a mostly idle and cool machine the ranges are kept. -/
theorem run_in_range_mostlyIdle :
    RunInRange (K := ℝ) Serde.idle (.fresh defaultMemoryPath [])
      (List.replicate 2
        ⟨⟨some mostlyIdle, some [⟨"thermal_zone0", some "45000\n"⟩], []⟩, .idle, []⟩) := by
  have hcounters : readCounters (some mostlyIdle) = some ⟨100, 0, 100, 800, 0, 0, 0, 0⟩ := by
    decide +kernel
  have htemperatures : SensorTexts.temperatures
      ⟨some mostlyIdle, some [⟨"thermal_zone0", some "45000\n"⟩], []⟩ = [.num 45000] := by
    decide +kernel
  refine (run_in_range_iff (.of_empty rfl) _).mpr fun c hc => ?_
  rw [List.eq_of_mem_replicate hc]
  constructor
  · intro c hc
    rw [hcounters] at hc
    cases hc
    decide
  · rw [htemperatures]
    simp

/-! ## Unsound texts -/

section Unsound

omit [IsStrictOrderedRing K]

/-- A thermal penalty that is NaN goes through the clamp of the reward. -/
lemma balancedReward_of_nan {m : WindowMetrics (ExtNum K)} (h : m.thermalPen = .nan)
    (governor : String) : balancedReward m governor = .nan := by
  have hadd : ∀ a : ExtNum K, a + .nan = .nan := by
    intro a
    cases a <;> rfl
  have hheat : lit 0.20 * (lit 1 - m.thermalPen) = (.nan : ExtNum K) := by
    rw [h]
    rfl
  rw [balancedReward_eq_clamp, balancedRewardUnclamped, hheat, hadd]
  rfl

/-- **NaN is learned** by a call that credits a selection for the window it is about to select
for. -/
theorem Policy.decide_learns_nan (serde : Serde (ExtNum K)) {p : Policy (ExtNum K)}
    (env : DecideEnv (ExtNum K)) (events : List ProcessEvent) (hinv : p.Inv) {prev : PendingCredit}
    (hpending : p.engine.pending = some prev)
    (hfp : prev.fingerprint = fingerprintBits (encodeEvents events))
    (hnan : (p.decide serde env events).2.metrics.thermalPen = .nan) :
    ∃ b, (p.decide serde env events).1.engine.memory.buckets.lookup prev.fingerprint = some b ∧
      b.NanFor prev.governor := by
  obtain ⟨prior, hcalls⟩ := decide_calls_eq serde p env events hinv
  have hstored := decide_stored serde p env events
  rw [hcalls, hpending, ← hfp] at hstored
  simp only [balancedReward_of_nan hnan, List.singleton_append] at hstored
  let b := entryOrNew prev.fingerprint p.stored.memory.tick p.stored.memory.buckets
  let w := (p.stored.step serde
    (.update env.updateOrder env.io prev.fingerprint prev.governor .nan)).1
  have hupdate : w.memory.buckets.lookup prev.fingerprint =
      some (b.record p.stored.memory.tick prev.governor .nan) := by
    rw [(Stored.step_update serde p.stored _ _ _ _ _).1, EpisodeMemory.lookup_credit]
    rfl
  have hmemory : (p.decide serde env events).1.engine.memory =
      w.memory.touch env.selectOrder prev.fingerprint := congrArg Stored.memory hstored
  refine ⟨w.memory.selected prev.fingerprint, ?_, ?_⟩
  · rw [hmemory, EpisodeMemory.lookup_touch]
  · rw [EpisodeMemory.selected, entryOrNew_of_lookup hupdate]
    exact b.nanFor_record _ prev.governor

/-- A thermal zone whose text is read as NaN. -/
def nanZone : SensorTexts := ⟨none, some [⟨"thermal_zone0", some "nan\n"⟩], []⟩

/-- A line of the CPU whose counters do not add up in `u64`. -/
def fullCounters : SensorTexts := ⟨some "cpu  18446744073709551615 1 0 0\n", none, []⟩

/-- **Runs that leave the ranges.** After two calls under a temperature that is read as NaN an
average is NaN, and a call with counters that do not add up overflows. -/
theorem unsound_texts_leave_the_range :
    let p : Policy (ExtNum ℝ) := .fresh defaultMemoryPath []
    let calls (texts : SensorTexts) : List (SensedCall ℝ) := List.replicate 2 ⟨texts, .idle, []⟩
    (∃ fp b g s,
      (policyAfter Serde.idle p (calls nanZone) 2).engine.memory.buckets.lookup fp = some b ∧
        b.actions.lookup g = some s ∧ s.emaReward = .nan) ∧
    MetricSampler.new.sampleChecked (K := ℝ) fullCounters = none ∧
    ¬ RunInRange Serde.idle p (calls nanZone) ∧ ¬ RunInRange Serde.idle p (calls fullCounters) := by
  intro p calls
  have htemperatures : nanZone.temperatures = [.nan] := by
    decide +kernel
  have hcounters : readCounters fullCounters.procStat =
      some ⟨18446744073709551615, 1, 0, 0, 0, 0, 0, 0⟩ := by
    decide +kernel
  have hoverflow : ∀ s : MetricSampler, s.sampleChecked (K := ℝ) fullCounters = none := by
    refine sampleChecked_of_not_fit fun hfit => ?_
    have hsum := hfit _ hcounters
    revert hsum
    decide
  have hnan : ∃ fp b g s,
      (policyAfter Serde.idle p (calls nanZone) 2).engine.memory.buckets.lookup fp = some b ∧
        b.actions.lookup g = some s ∧ s.emaReward = .nan := by
    let c : SensedCall ℝ := ⟨nanZone, .idle, []⟩
    have hpenalty : thermalPenalty (readMaxThermalMc (K := ℝ) nanZone.thermal) = .nan := by
      rw [readMaxThermalMc_eq, htemperatures]
      rfl
    obtain ⟨b, hb, s, hs, -, hnan⟩ := Policy.decide_learns_nan Serde.idle c.input.1 c.input.2
      (Policy.decide_inv Serde.idle p c.input.1 c.input.2)
      (Policy.decide_pending Serde.idle p c.input.1 c.input.2) rfl hpenalty
    exact ⟨_, b, _, s, hb, hs, hnan⟩
  refine ⟨hnan, hoverflow _, fun h => ?_, fun h => ?_⟩
  · obtain ⟨fp, b, g, s, hb, hs, hnan⟩ := hnan
    exact (h.averages 2 fp b hb g s hs).ne_nan hnan
  · obtain ⟨⟨s, hs⟩, -⟩ := h.sampled 0 _ _ rfl rfl
    rw [hoverflow] at hs
    cases hs

end Unsound

end Foverin
