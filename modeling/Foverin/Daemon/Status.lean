import Foverin.Brain.Encoding
import Foverin.Daemon.Offered
import Foverin.Lib.Decimal
import Foverin.Lib.Framing

set_option relaxedAutoImplicit false
set_option autoImplicit false

/-!
# The status line

What the status line of the display says about the decision that is shown: a tick writes the reason
of its decision there, or the error of its actuation, and everything else leaves it alone.  A reason
tells which words of the vocabulary have been seen in the window and which governor was picked, and
no other line can be taken for it.

## Main definitions

* `Foverin.Ticked.status` — the line that a tick leaves.
* `Foverin.lastTick` — the latest tick of a run.
* `Foverin.AppState.Follows` — the display after it.

## Main results

* `Foverin.reasonText_injective` — a reason read back.
* `Foverin.status_tells` — what the status line tells after every run.
-/

namespace Foverin

open Bitset

/-! ## Reasons -/

/-- The part of a reason after the number of the bucket. -/
def reasonRest (active : List String) (governor : String) : String :=
  if active.isEmpty then "→ " ++ governor ++ " (empty / unrecognized window)"
  else "hits=[" ++ String.intercalate ", " active ++ "] → " ++ governor

/-- The words of a vector. -/
def activeWords (multiHot : List ℚ) : List String :=
  ((vocab.zip multiHot).filter fun e => 0 < e.2).map Prod.fst

/-- A reason is cut by the first blank after its number. -/
lemma toList_reasonText (fp : UInt64) (multiHot : List ℚ) (governor : String) :
    (reasonText fp multiHot governor).toList =
      "memory bucket 0x".toList ++ (Nat.toDigits 16 fp.toNat ++
        ' ' :: (reasonRest (activeWords multiHot) governor).toList) := by
  have harrow : " → " = " " ++ "→ " := rfl
  have hhits : " hits=[" = " " ++ "hits=[" := rfl
  unfold reasonText reasonRest
  rw [harrow, hhits]
  dsimp only
  rw [← activeWords]
  split_ifs <;> simp [String.toList_append]

/-- The rest of a reason tells the governor. -/
lemma reasonRest_injective {active : List String} {g g' : String}
    (h : reasonRest active g = reasonRest active g') : g = g' := by
  unfold reasonRest at h
  split_ifs at h
  · simpa using h
  · simpa using h

/-- Windows with one fingerprint have seen the same words. -/
lemma fingerprint_eq_iff {A B : List ProcessEvent} : fingerprint A = fingerprint B ↔
    ∀ word ∈ vocab, (∃ e ∈ A, e.word = word) ↔ ∃ e ∈ B, e.word = word := by
  have hbit : ∀ (C : List ProcessEvent) {i : ℕ} {word : String}, vocab[i]? = some word →
      (bit (fingerprint C) i = true ↔ ∃ e ∈ C, e.word = word) := by
    intro C i word hword
    rw [bit_fingerprint, hword]
    simp [eq_comm]
  constructor
  · intro h word hword
    obtain ⟨i, hi⟩ := List.mem_iff_getElem?.mp hword
    rw [← hbit A hi, ← hbit B hi, h]
  · intro h
    apply Bitset.ext
    intro i _
    rw [Bool.eq_iff_iff]
    cases hword : vocab[i]? with
    | none => rw [bit_fingerprint, bit_fingerprint, hword]; simp
    | some word => rw [hbit A hword, hbit B hword, h word (List.mem_of_getElem? hword)]

/-- **A reason read back.** It determines the bucket and the governor. -/
theorem reasonText_injective {A B : List ProcessEvent} {g g' : String}
    (h : reasonText (fingerprint A) (encodeEvents A) g =
      reasonText (fingerprint B) (encodeEvents B) g') :
    fingerprint A = fingerprint B ∧ g = g' := by
  have hcut := congrArg String.toList h
  have hblank : ∀ n, ' ' ∉ Nat.toDigits 16 n :=
    Decimal.notMem_toDigits (by decide) le_rfl (by decide)
  rw [toList_reasonText, toList_reasonText, List.append_cancel_left_eq] at hcut
  obtain ⟨hdigits, hrest⟩ := Framing.frame_injective ' ' (hblank _) (hblank _) hcut
  have hfp : fingerprint A = fingerprint B :=
    UInt64.toNat_inj.mp (Decimal.toDigits_injective (by decide) le_rfl hdigits)
  refine ⟨hfp, ?_⟩
  rw [encodeEvents_eq A, encodeEvents_eq B, hfp] at hrest
  exact reasonRest_injective (String.toList_injective hrest)

/-- No other text starts like a reason. -/
lemma reasonText_ne {text : String} (h : text.toList.head? ≠ some 'm') (fp : UInt64)
    (multiHot : List ℚ) (g : String) : text ≠ reasonText fp multiHot g := by
  rintro rfl
  rw [toList_reasonText] at h
  exact h rfl

/-! ## What is displayed -/

variable {F : Type}

/-- The line that a tick leaves. -/
def Ticked.status (done : Ticked F) : String :=
  match done.actuated with
  | .ok _ => done.decided.decision.reason
  | .error err => "actuator failed: " ++ err.text

/-- The window and the outcome of a tick. -/
def LoopRound.tick? : LoopRound F → Option (List ProcessEvent × Ticked F)
  | .ticked batch done => some (batch, done)
  | _ => none

/-- The latest tick. -/
def lastTick (rounds : List (LoopRound F)) : Option (List ProcessEvent × Ticked F) :=
  (rounds.filterMap LoopRound.tick?).getLast?

lemma lastTick_concat (rounds : List (LoopRound F)) (o : LoopRound F) :
    lastTick (rounds ++ [o]) = o.tick?.or (lastTick rounds) := by
  unfold lastTick
  rw [List.filterMap_append]
  cases ho : o.tick? with
  | none => simp [ho]
  | some tick => simp [ho]

/-- What a tick leaves on the display, and what its decision is about. -/
structure AppState.Shows (app : AppState F) (batch : List ProcessEvent) (done : Ticked F) :
    Prop where
  status : app.status = done.status
  reason : done.decided.decision.reason =
    reasonText (fingerprint batch) (encodeEvents batch) done.decided.decision.governor
  workload : app.lastDecision.map DecisionSnapshot.workload = some (softLabel (encodeEvents batch))
  governor : ∀ report, done.actuated = .ok report →
    app.activeGovernor = done.decided.decision.governor

/-- The display after the latest tick, or before any. -/
def AppState.Follows (app : AppState F) : Option (List ProcessEvent × Ticked F) → Prop
  | none => app.status = attachedStatus
  | some (batch, done) => app.Shows batch done

/-- More lines in the stream leave the rest of the display alone. -/
lemma AppState.Follows.stream {app : AppState F} {last : Option (List ProcessEvent × Ticked F)}
    (h : app.Follows last) (lines : List String) :
    AppState.Follows { app with processStream := lines } last := by
  cases last with
  | none => exact h
  | some tick => exact ⟨h.status, h.reason, h.workload, h.governor⟩

/-- Records only show lines. -/
lemma apply_readable (app : AppState F) (records : List (List UInt8)) :
    ∃ lines, app.apply (SensorRound.readable records : SensorRound F).changes =
      { app with processStream := lines } := by
  unfold SensorRound.changes AppState.apply
  dsimp only
  generalize records.filterMap parseProcessEvent = events
  induction events generalizing app with
  | nil => exact ⟨app.processStream, rfl⟩
  | cons e events ih =>
    obtain ⟨lines, hlines⟩ := ih (app.pushProcess (processLine e))
    exact ⟨lines, hlines⟩

/-- A tick leaves its line and its label. -/
lemma apply_tick (app : AppState F) (done : Ticked F) :
    (app.apply (SensorRound.tick done.decided.decision done.actuated).changes).status =
        done.status ∧
      (app.apply (SensorRound.tick done.decided.decision
        done.actuated).changes).lastDecision.map DecisionSnapshot.workload =
          some done.decided.decision.detectedWorkload := by
  unfold Ticked.status
  cases done.actuated <;> exact ⟨rfl, rfl⟩

section Runs

variable [FloatOps F] (serde : Serde F)

/-- **A tick** is shown. -/
theorem Sensor.tick_shows (s : Sensor F) (i : TickInput F) :
    (s.tick serde i).1.app.Shows i.batch (s.tick serde i).2 := by
  have hshown := apply_tick s.app (s.tick serde i).2
  rw [← Sensor.tick_app serde s i] at hshown
  refine ⟨hshown.1, rfl, hshown.2, fun report hok => ?_⟩
  have hgovernor := apply_tick_activeGovernor s.app (s.tick serde i).2.decided.decision
    (s.tick serde i).2.actuated
  rw [← Sensor.tick_app serde s i, hok] at hgovernor
  exact hgovernor.trans (tick_report serde hok)

/-- **One wake-up**, whatever it is. -/
theorem AppState.Follows.step {s : SensorLoop F} {rounds : List (LoopRound F)}
    (h : s.sensor.app.Follows (lastTick rounds)) (i : WakeUp F) :
    (s.step serde i).1.sensor.app.Follows (lastTick (rounds ++ [(s.step serde i).2])) := by
  rw [lastTick_concat]
  cases hreturned : s.returned with
  | some r =>
    rw [SensorLoop.step_returned serde hreturned]
    exact h
  | none =>
    cases i with
    | shutdown io =>
      rw [SensorLoop.step_shutdown serde hreturned]
      exact h
    | readable ready =>
      cases ready with
      | error err =>
        rw [SensorLoop.step_failed serde hreturned]
        exact h
      | ok records =>
        rw [SensorLoop.step_readable serde hreturned, SensorLoop.drain_eq]
        obtain ⟨lines, hlines⟩ := apply_readable s.sensor.app records
        dsimp only
        rw [hlines]
        exact h.stream lines
    | tick env cpufreq =>
      rw [SensorLoop.step_tick serde hreturned]
      exact s.sensor.tick_shows serde ⟨s.buffer, env, cpufreq⟩

/-- The display after a run. -/
lemma follows_run (policy : Policy F) (governor memoryPath : String) (nodes : CpuNodes)
    (ins : List (WakeUp F)) :
    ((sensorLoop serde).final (.start policy governor memoryPath nodes)
        ins).sensor.app.Follows
      (lastTick ((sensorLoop serde).outputs (.start policy governor memoryPath nodes) ins)) := by
  induction ins using List.reverseRecOn with
  | nil => rfl
  | append_singleton ins i ih =>
    rw [Machine.final_concat, Machine.outputs_concat]
    exact ih.step serde i

/-- **What the status line tells.** After every run of the loop it is the reason for some window
and some governor exactly if there has been a tick, the latest one has succeeded in its actuation,
its window has met the same words of the vocabulary, and it has decided for that governor; and then
this is the governor that is displayed, and the workload that is displayed is that of the window.

**Proof sketch.** After every run the status is that of the latest tick (`AppState.Follows`).  The
other texts do not begin as a reason does.  A reason determines the fingerprint, whose digits end
at the first blank, and then the governor. -/
theorem status_tells (policy : Policy F) (governor memoryPath : String) (nodes : CpuNodes)
    (ins : List (WakeUp F)) (events : List ProcessEvent) (g : String) :
    ((sensorLoop serde).final (.start policy governor memoryPath nodes) ins).sensor.app.status =
        reasonText (fingerprint events) (encodeEvents events) g ↔
      ∃ batch done, lastTick ((sensorLoop serde).outputs
          (.start policy governor memoryPath nodes) ins) = some (batch, done) ∧
        (∃ report, done.actuated = .ok report) ∧
        (∀ word ∈ vocab, (∃ e ∈ batch, e.word = word) ↔ ∃ e ∈ events, e.word = word) ∧
        done.decided.decision.governor = g ∧
        ((sensorLoop serde).final (.start policy governor memoryPath nodes)
          ins).sensor.app.activeGovernor = g ∧
        ((sensorLoop serde).final (.start policy governor memoryPath nodes)
          ins).sensor.app.lastDecision.map DecisionSnapshot.workload =
            some (softLabel (encodeEvents events)) := by
  have hrun := follows_run serde policy governor memoryPath nodes ins
  generalize ((sensorLoop serde).final (.start policy governor memoryPath nodes)
    ins).sensor.app = app at hrun ⊢
  generalize lastTick ((sensorLoop serde).outputs
    (.start policy governor memoryPath nodes) ins) = last at hrun ⊢
  constructor
  · intro hstatus
    cases last with
    | none =>
      have hattached : app.status = attachedStatus := hrun
      exact absurd (hattached.symm.trans hstatus) (reasonText_ne (by decide) _ _ _)
    | some tick =>
      obtain ⟨batch, done⟩ := tick
      have hshows : app.Shows batch done := hrun
      have hline := hshows.status.symm.trans hstatus
      cases hactuated : done.actuated with
      | error err =>
        unfold Ticked.status at hline
        rw [hactuated] at hline
        exact absurd hline (reasonText_ne (by simp) _ _ _)
      | ok report =>
        unfold Ticked.status at hline
        rw [hactuated] at hline
        obtain ⟨hfp, hgovernor⟩ := reasonText_injective (hshows.reason.symm.trans hline)
        have hvector : encodeEvents batch = encodeEvents events := by
          rw [encodeEvents_eq, encodeEvents_eq, hfp]
        refine ⟨batch, done, rfl, ⟨report, hactuated⟩, fingerprint_eq_iff.mp hfp, hgovernor, ?_, ?_⟩
        · rw [hshows.governor report hactuated, hgovernor]
        · rw [hshows.workload, hvector]
  · rintro ⟨batch, done, rfl, ⟨report, hactuated⟩, hwords, hgovernor, -, -⟩
    have hshows : app.Shows batch done := hrun
    have hfp : fingerprint batch = fingerprint events := fingerprint_eq_iff.mpr hwords
    have hvector : encodeEvents batch = encodeEvents events := by
      rw [encodeEvents_eq, encodeEvents_eq, hfp]
    have hline : done.status = done.decided.decision.reason := by
      unfold Ticked.status
      rw [hactuated]
    rw [hshows.status, hline, hshows.reason, hfp, hvector, hgovernor]

end Runs

end Foverin
