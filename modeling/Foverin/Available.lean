import Foverin.Actuator
import Foverin.Brain.Fingerprint
import Foverin.Text

set_option relaxedAutoImplicit false
set_option autoImplicit false

/-!
# Available governors

What `foverin/src/actuator.rs` makes of cpu0's `scaling_available_governors`: the actions that the
policy chooses from, and the governor that belongs to a soft label.  The text of the file is an
argument; it is absent where the file cannot be read.

## Main definitions

* `Foverin.availableGovernors` — the actions of the policy.
* `Foverin.Offers` — what the kernel offers according to its list.
* `Foverin.governorForWorkload`, `Foverin.applySystemProfile` — the profile of a label.

## Main results

* `Foverin.offers_iff` — listed, or standing in for a list that is missing or empty.
* `Foverin.offers_of_mem` — every action is offered.
* `Foverin.mem_availableGovernors_iff` — the preferred governors among the actions.
* `Foverin.prior_exact` — the prior of a workload, and the profile of its label.
-/

namespace Foverin

/-! ## Definitions -/

/-- `current_governor`, from the text of cpu0's node. -/
def currentGovernor (raw : Option String) : String := (raw.map trim).getD "unknown"

/-- The governors that `available_governors` looks for, best first. -/
def preferredGovernors : List String := ["performance", "schedutil", "powersave", "ondemand"]

/-- The words of the list of governors. -/
def listedGovernors (raw : String) : List String := splitWhitespace raw.toList

/-- `available_governors`. -/
def availableGovernors : Option String → List String
  | none => ["performance", "powersave"]
  | some raw =>
    let listed := listedGovernors raw
    let out := preferredGovernors.filter fun g => listed.contains g
    let out := if out.isEmpty then listed else out
    if out.isEmpty then out ++ ["powersave"] else out

/-- `str::to_ascii_uppercase`. -/
def toAsciiUppercase (s : String) : String := String.ofList (s.toList.map Char.toUpper)

/-- `governor_for_workload`. -/
def governorForWorkload (raw : Option String) (workload : String) : String :=
  match toAsciiUppercase (trim workload) with
  | "COMPILING" => "performance"
  | "GAMING" => "performance"
  | "BROWSING" => preferredEfficiencyGovernor (raw.map listedGovernors)
  | "IDLE" => preferredEfficiencyGovernor (raw.map listedGovernors)
  | _ => preferredEfficiencyGovernor (raw.map listedGovernors)

/-- `apply_system_profile`. -/
def applySystemProfile (cpufreq : Cpufreq) (raw : Option String) (workload : String)
    (nodes : CpuNodes) : Except IoError ActuatorReport × CpuNodes :=
  setScalingGovernor cpufreq (governorForWorkload raw workload) nodes

/-! ## What is offered -/

/-- The kernel offers a governor: its list has it.  Without a list two governors are taken for
granted, and an empty list stands for one. -/
def Offers (raw : Option String) (g : String) : Prop :=
  match raw with
  | none => g = "performance" ∨ g = "powersave"
  | some text => g ∈ listedGovernors text ∨ listedGovernors text = [] ∧ g = "powersave"

instance (raw : Option String) (g : String) : Decidable (Offers raw g) :=
  match raw with
  | none => inferInstanceAs (Decidable (g = "performance" ∨ g = "powersave"))
  | some text => inferInstanceAs
      (Decidable (g ∈ listedGovernors text ∨ listedGovernors text = [] ∧ g = "powersave"))

/-- What is offered is listed, or stands in for a list that is missing or empty. -/
theorem offers_iff (raw : Option String) (g : String) : Offers raw g ↔
    (∃ text, raw = some text ∧ g ∈ listedGovernors text) ∨
      raw = none ∧ (g = "performance" ∨ g = "powersave") ∨
      (∃ text, raw = some text ∧ listedGovernors text = []) ∧ g = "powersave" := by
  cases raw <;> simp [Offers]

/-- The actions by cases: the last resort, the whole list, or what is preferred of it. -/
lemma availableGovernors_some (text : String) :
    availableGovernors (some text) =
      if listedGovernors text = [] then ["powersave"]
      else if ∀ g ∈ preferredGovernors, g ∉ listedGovernors text then listedGovernors text
      else preferredGovernors.filter fun g => (listedGovernors text).contains g := by
  unfold availableGovernors
  dsimp only
  by_cases hlisted : listedGovernors text = []
  · rw [hlisted]
    rfl
  · have hempty : (preferredGovernors.filter fun g => (listedGovernors text).contains g) = [] ↔
        ∀ g ∈ preferredGovernors, g ∉ listedGovernors text := by
      simp [List.filter_eq_nil_iff]
    simp only [List.isEmpty_iff, hempty, if_neg hlisted]
    by_cases hnone : ∀ g ∈ preferredGovernors, g ∉ listedGovernors text
    · rw [if_pos hnone, if_neg hlisted]
    · rw [if_neg hnone, if_neg (mt hempty.mp hnone)]

/-- There always is an action. -/
lemma availableGovernors_ne_nil (raw : Option String) : availableGovernors raw ≠ [] := by
  cases raw with
  | none => simp [availableGovernors]
  | some text =>
    rw [availableGovernors_some]
    split_ifs with hlisted hnone
    · simp
    · exact hlisted
    · push Not at hnone
      obtain ⟨g, hg, hmem⟩ := hnone
      exact List.ne_nil_of_mem (List.mem_filter.mpr ⟨hg, by simpa using hmem⟩)

/-- **Every action is offered.** -/
theorem offers_of_mem {raw : Option String} {g : String} (h : g ∈ availableGovernors raw) :
    Offers raw g := by
  cases raw with
  | none => simpa [availableGovernors, Offers] using h
  | some text =>
    rw [availableGovernors_some] at h
    split_ifs at h with hlisted hnone
    · exact Or.inr ⟨hlisted, List.mem_singleton.mp h⟩
    · exact Or.inl h
    · have hmem := (List.mem_filter.mp h).2
      exact Or.inl (by simpa using hmem)

/-- A preferred governor is an action exactly if it is offered. -/
theorem mem_availableGovernors_iff {raw : Option String} {g : String}
    (hg : g ∈ preferredGovernors) : g ∈ availableGovernors raw ↔ Offers raw g := by
  refine ⟨offers_of_mem, fun h => ?_⟩
  cases raw with
  | none => simpa [availableGovernors, Offers] using h
  | some text =>
    rw [availableGovernors_some]
    rcases h with hmem | ⟨hlisted, rfl⟩
    · rw [if_neg (List.ne_nil_of_mem hmem), if_neg fun hnone => hnone g hg hmem]
      exact List.mem_filter.mpr ⟨hg, by simpa using hmem⟩
    · rw [if_pos hlisted]
      exact List.mem_singleton_self _

/-- The first action is `performance` exactly if this is offered. -/
lemma head?_availableGovernors_eq_performance (raw : Option String) :
    (availableGovernors raw).head? = some "performance" ↔ Offers raw "performance" := by
  constructor
  · intro h
    exact offers_of_mem (List.mem_of_mem_head? h)
  · intro h
    cases raw with
    | none => rfl
    | some text =>
      rcases h with hmem | ⟨-, hno⟩
      · rw [availableGovernors_some, if_neg (List.ne_nil_of_mem hmem),
          if_neg fun hnone => hnone "performance" (by simp [preferredGovernors]) hmem]
        simp [preferredGovernors, hmem]
      · exact absurd hno (by decide)

/-! ## Priors -/

/-- The efficiency governor: `schedutil` if the list has it. -/
lemma preferredEfficiencyGovernor_eq (listed : Option (List String)) :
    preferredEfficiencyGovernor listed =
      if "schedutil" ∈ listed.getD [] then "schedutil" else "powersave" := by
  unfold preferredEfficiencyGovernor
  simp

lemma offers_schedutil_iff (raw : Option String) :
    Offers raw "schedutil" ↔ "schedutil" ∈ (raw.map listedGovernors).getD [] := by
  cases raw <;> simp [Offers]

/-- A prior is an action. -/
lemma resolvePrior_mem (listed : Option (List String)) (w : Workload) {actions : List String}
    (h : actions ≠ []) : resolvePrior listed w actions ∈ actions := by
  unfold resolvePrior
  dsimp only
  split_ifs with hwant
  · simpa using hwant
  · obtain ⟨a, as, rfl⟩ := List.exists_cons_of_ne_nil h
    exact List.mem_cons_self

/-- The prior is what the workload wants exactly if this is an action. -/
lemma priorGovernor_eq_resolvePrior_iff (listed : Option (List String)) (w : Workload)
    {actions : List String} (h : actions ≠ []) :
    w.priorGovernor listed = resolvePrior listed w actions ↔
      w.priorGovernor listed ∈ actions := by
  constructor
  · intro heq
    rw [heq]
    exact resolvePrior_mem listed w h
  · intro hmem
    unfold resolvePrior
    dsimp only
    rw [if_pos (by simpa using hmem)]

/-- The prior of a light workload. -/
lemma resolvePrior_light (raw : Option String) {w : Workload}
    (hw : w = .browsing ∨ w = .idle) :
    resolvePrior (raw.map listedGovernors) w (availableGovernors raw) =
      if Offers raw "schedutil" then "schedutil"
      else if Offers raw "powersave" then "powersave"
      else (availableGovernors raw).head?.getD "powersave" := by
  have hwant : w.priorGovernor (raw.map listedGovernors) =
      if Offers raw "schedutil" then "schedutil" else "powersave" := by
    simp only [offers_schedutil_iff, ← preferredEfficiencyGovernor_eq]
    rcases hw with rfl | rfl <;> rfl
  have hschedutil : "schedutil" ∈ availableGovernors raw ↔ Offers raw "schedutil" :=
    mem_availableGovernors_iff (by simp [preferredGovernors])
  have hpowersave : "powersave" ∈ availableGovernors raw ↔ Offers raw "powersave" :=
    mem_availableGovernors_iff (by simp [preferredGovernors])
  unfold resolvePrior
  dsimp only
  rw [hwant]
  simp only [List.contains_iff_mem]
  split_ifs with h₁ h₂ h₃ h₄ h₅
  · rfl
  · exact absurd (hschedutil.mpr h₁) h₂
  · rfl
  · exact absurd (hpowersave.mp h₃) h₄
  · exact absurd (hpowersave.mpr h₅) h₃
  · rfl

/-- The prior of a heavy workload. -/
lemma resolvePrior_heavy (raw : Option String) {w : Workload}
    (hw : w = .compiling ∨ w = .gaming) :
    resolvePrior (raw.map listedGovernors) w (availableGovernors raw) =
      if Offers raw "performance" then "performance"
      else (availableGovernors raw).head?.getD "powersave" := by
  have hwant : w.priorGovernor (raw.map listedGovernors) = "performance" := by
    rcases hw with rfl | rfl <;> rfl
  have hmem : "performance" ∈ availableGovernors raw ↔ Offers raw "performance" :=
    mem_availableGovernors_iff (by simp [preferredGovernors])
  unfold resolvePrior
  dsimp only
  rw [hwant]
  simp only [List.contains_iff_mem, hmem]

/-- An action that stands in for what is not offered is offered itself. -/
lemma head?_getD_eq_performance (raw : Option String) :
    (availableGovernors raw).head?.getD "powersave" = "performance" ↔
      Offers raw "performance" := by
  rw [← head?_availableGovernors_eq_performance]
  cases (availableGovernors raw).head? <;> simp

/-! ## Labels -/

/-- White space has no upper case. -/
lemma toUpper_of_isWhitespace {c : Char} (h : isWhitespace c = true) : c.toUpper = c := by
  have hcode : ¬ (97 ≤ c.val ∧ c.val ≤ 122) := by
    rintro ⟨hlow, hhigh⟩
    have h₁ : 97 ≤ c.toNat := hlow
    have h₂ : c.toNat ≤ 122 := hhigh
    simp only [isWhitespace, decide_eq_true_eq] at h
    omega
  unfold Char.toUpper
  exact dif_neg hcode

/-- No letter of a label is white space. -/
lemma isWhitespace_asStr (w : Workload) : ∀ c ∈ w.asStr.toList, isWhitespace c = false := by
  cases w <;> simp [Workload.asStr, isWhitespace]

/-- A label in any case, with white space around it. -/
lemma trim_label {w : Workload} {s : String} (hs : toAsciiUppercase s = w.asStr)
    {a b : List Char} (ha : ∀ c ∈ a, isWhitespace c = true) (hb : ∀ c ∈ b, isWhitespace c = true) :
    trim (String.ofList (a ++ s.toList ++ b)) = s := by
  have hletters : ∀ c ∈ s.toList, isWhitespace c = false := by
    intro c hc
    have hupper : c.toUpper ∈ w.asStr.toList := by
      rw [← hs, toAsciiUppercase, String.toList_ofList]
      exact List.mem_map_of_mem hc
    by_contra hblank
    rw [toUpper_of_isWhitespace (by simpa using hblank)] at hupper
    exact hblank (isWhitespace_asStr w c hupper)
  rw [trim_ofList, Words.trim_append ha hb
    (fun c hc => hletters c (List.mem_of_mem_head? hc))
    (fun c hc => hletters c (List.mem_of_mem_getLast? hc)), String.ofList_toList]

/-- A label stands for its workload, in any case and with any white space around it. -/
lemma governorForWorkload_label (raw : Option String) {w : Workload} {s : String}
    (hs : toAsciiUppercase s = w.asStr) {a b : List Char} (ha : ∀ c ∈ a, isWhitespace c = true)
    (hb : ∀ c ∈ b, isWhitespace c = true) :
    governorForWorkload raw (String.ofList (a ++ s.toList ++ b)) =
      w.priorGovernor (raw.map listedGovernors) := by
  unfold governorForWorkload
  rw [trim_label hs ha hb, hs]
  cases w <;> rfl

/-- **Priors are offered.** Whatever list of governors the kernel shows, the prior of a workload is
one of the actions and is offered.  A heavy workload gets `performance` wherever this is offered; a
light one gets `schedutil`, then `powersave`, and `performance` exactly if it is offered and these
two are not.  A label stands for the governor of the prior, in any case and with any white space
around it, exactly if the governor that it stands for is available; its profile is then put in force
as the prior is.  What is offered is what the list has, or what the code falls back to where the
list is missing or empty.

**Proof sketch.** The actions are the preferred governors that the list has, or the code's
fallback.  Each prior is a search of them in a fixed order.  A label is trimmed and put in upper
case before it is compared, so that it stands for its workload, whose governor need not be among
the actions. -/
theorem prior_exact (raw : Option String) (w : Workload) :
    let g := resolvePrior (raw.map listedGovernors) w (availableGovernors raw)
    (∀ g, Offers raw g ↔ (∃ text, raw = some text ∧ g ∈ listedGovernors text) ∨
      raw = none ∧ (g = "performance" ∨ g = "powersave") ∨
      (∃ text, raw = some text ∧ listedGovernors text = []) ∧ g = "powersave") ∧
    g ∈ availableGovernors raw ∧ Offers raw g ∧
    (w = .compiling ∨ w = .gaming → (g = "performance" ↔ Offers raw "performance")) ∧
    (w = .browsing ∨ w = .idle →
      (Offers raw "schedutil" → g = "schedutil") ∧
      (¬ Offers raw "schedutil" → Offers raw "powersave" → g = "powersave") ∧
      (g = "performance" ↔ Offers raw "performance" ∧ ¬ Offers raw "schedutil" ∧
        ¬ Offers raw "powersave")) ∧
    ∀ (s : String) (a b : List Char), toAsciiUppercase s = w.asStr →
      (∀ c ∈ a, isWhitespace c = true) → (∀ c ∈ b, isWhitespace c = true) →
      let label := String.ofList (a ++ s.toList ++ b)
      let profile := governorForWorkload raw label
      (profile = g ↔ profile ∈ availableGovernors raw) ∧
        (profile ∈ availableGovernors raw → ∀ cpufreq nodes,
          applySystemProfile cpufreq raw label nodes = setScalingGovernor cpufreq g nodes) := by
  intro g
  have hmem : g ∈ availableGovernors raw := resolvePrior_mem _ w (availableGovernors_ne_nil raw)
  refine ⟨offers_iff raw, hmem, offers_of_mem hmem, fun hw => ?_, fun hw => ?_, ?_⟩
  · show resolvePrior _ w _ = _ ↔ _
    rw [resolvePrior_heavy raw hw]
    split_ifs with h
    · exact iff_of_true rfl h
    · exact head?_getD_eq_performance raw
  · have hg : g = _ := resolvePrior_light raw hw
    refine ⟨fun h => by rw [hg, if_pos h], fun h₁ h₂ => by rw [hg, if_neg h₁, if_pos h₂], ?_⟩
    rw [hg]
    split_ifs with h₁ h₂
    · simp [h₁]
    · simp [h₂]
    · simp [head?_getD_eq_performance, h₁, h₂]
  · intro s a b hs ha hb label profile
    have hprofile : profile = w.priorGovernor (raw.map listedGovernors) :=
      governorForWorkload_label raw hs ha hb
    have hiff : profile = g ↔ profile ∈ availableGovernors raw := by
      rw [hprofile]
      exact priorGovernor_eq_resolvePrior_iff _ w (availableGovernors_ne_nil raw)
    refine ⟨hiff, fun havailable cpufreq nodes => ?_⟩
    rw [← hiff.mpr havailable]
    rfl

end Foverin
