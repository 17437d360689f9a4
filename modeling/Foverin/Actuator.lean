import Mathlib.Data.List.Induction
import Mathlib.Data.List.Sort

set_option relaxedAutoImplicit false
set_option autoImplicit false

/-!
# The actuator

`set_scaling_governor` of `foverin/src/actuator.rs`: write a governor to the `scaling_governor`
node of every CPU that has one.  What the directory listing and the writes answer is an argument
(`Cpufreq`); a write that succeeds puts the governor in force on its node, and a write that fails
has no effect.

## Main definitions

* `Foverin.cpufreqGovernorPaths` — the nodes, in sorted order.
* `Foverin.setAllGovernors`, `Foverin.setScalingGovernor`.

## Main results

* `Foverin.setScalingGovernor_eq_ok_iff` — a call succeeds exactly if some node accepts it.
* `Foverin.setScalingGovernor_snd` — the nodes after a call.
* `Foverin.setScalingGovernor_error` — the error of a failed call.
* `Foverin.cpufreqGovernorPaths_listing` — which nodes are listed, and when the listing fails.
-/

namespace Foverin

/-! ## Errors and answers -/

/-- The kinds of `io::Error` that the actuator tells apart. -/
inductive ErrorKind where
  | notFound
  | other
  deriving DecidableEq

/-- `io::Error`: its kind and its text. -/
structure IoError where
  kind : ErrorKind
  text : String
  deriving DecidableEq

/-- An entry of the directory of CPUs. -/
structure DirEntry where
  name : String
  /-- Whether `cpufreq/scaling_governor` below it is a file. -/
  hasGovernor : Bool
  deriving DecidableEq

/-- The answers of the system during one call. -/
structure Cpufreq where
  /-- The listing of the directory; reading a single entry may fail. -/
  dir : Except IoError (List (Except IoError DirEntry))
  /-- The error of a write to a node, if it fails. -/
  writeError : String → Option IoError

/-- The governors in force, by node. -/
abbrev CpuNodes := String → String

/-! ## Nodes -/

/-- `CPUFREQ_ROOT`. -/
def cpufreqRoot : String := "/sys/devices/system/cpu"

/-- Whether a name is `cpu` followed by digits only. -/
def isCpuName (name : String) : Bool :=
  "cpu".toList.isPrefixOf name.toList && (name.toList.drop 3).all Char.isDigit

/-- The node of a CPU. -/
def governorPath (name : String) : String :=
  cpufreqRoot ++ "/" ++ name ++ "/cpufreq/scaling_governor"

/-- The loop of `cpufreq_governor_paths`: the names of the CPUs with a node. -/
def governorNames : List (Except IoError DirEntry) → Except IoError (List String)
  | [] => .ok []
  | .error e :: _ => .error e
  | .ok entry :: entries => do
    let names ← governorNames entries
    return if isCpuName entry.name && entry.hasGovernor then entry.name :: names else names

/-- `cpufreq_governor_paths`.  Paths below one root are sorted as their names are. -/
def cpufreqGovernorPaths (dir : Except IoError (List (Except IoError DirEntry))) :
    Except IoError (List String) := do
  let entries ← dir
  let names ← governorNames entries
  return (names.mergeSort fun a b => decide (a ≤ b)).map governorPath

/-! ## Writing -/

/-- The local variables of the loop in `set_all_governors`, and the nodes that it writes to. -/
structure Writes where
  attempted : ℕ
  written : ℕ
  lastErr : Option IoError
  nodes : CpuNodes

/-- One round of the loop. -/
def Writes.visit (writeError : String → Option IoError) (governor : String) (w : Writes)
    (path : String) : Writes :=
  match writeError path with
  | none =>
    { w with
      attempted := w.attempted + 1
      written := w.written + 1
      nodes := Function.update w.nodes path governor }
  | some err => { w with attempted := w.attempted + 1, lastErr := some err }

/-- The whole loop. -/
def writeAll (writeError : String → Option IoError) (governor : String) (nodes : CpuNodes)
    (paths : List String) : Writes :=
  paths.foldl (Writes.visit writeError governor) ⟨0, 0, none, nodes⟩

/-- `set_all_governors`. -/
def setAllGovernors (cpufreq : Cpufreq) (governor : String) (nodes : CpuNodes) :
    Except IoError Unit × CpuNodes :=
  match cpufreqGovernorPaths cpufreq.dir with
  | .error e => (.error e, nodes)
  | .ok paths =>
    let w := writeAll cpufreq.writeError governor nodes paths
    if w.attempted = 0 then
      (.error ⟨.notFound, "no cpu*/cpufreq/scaling_governor paths found"⟩, w.nodes)
    else if w.written = 0 then
      (.error (w.lastErr.getD ⟨.other, "failed to write scaling_governor on any CPU"⟩), w.nodes)
    else (.ok (), w.nodes)

/-- `ActuatorReport`. -/
structure ActuatorReport where
  workload : String
  governor : String
  deriving DecidableEq

/-- `set_scaling_governor`. -/
def setScalingGovernor (cpufreq : Cpufreq) (governor : String) (nodes : CpuNodes) :
    Except IoError ActuatorReport × CpuNodes :=
  let (result, nodes) := setAllGovernors cpufreq governor nodes
  (result.map fun _ => { workload := "", governor := governor }, nodes)

/-! ## When a governor is put in force -/

/-- The listing succeeds and some node accepts the write. -/
def Cpufreq.Accepts (cpufreq : Cpufreq) : Prop :=
  ∃ paths, cpufreqGovernorPaths cpufreq.dir = .ok paths ∧
    ∃ path ∈ paths, cpufreq.writeError path = none

/-- The counters of the loop. -/
lemma foldl_visit (writeError : String → Option IoError) (governor : String)
    (paths : List String) (w : Writes) :
    (paths.foldl (Writes.visit writeError governor) w).attempted = w.attempted + paths.length ∧
      (paths.foldl (Writes.visit writeError governor) w).written =
        w.written + paths.countP fun path => (writeError path).isNone := by
  induction paths generalizing w with
  | nil => exact ⟨rfl, rfl⟩
  | cons path paths ih =>
    obtain ⟨ha, hw⟩ := ih (w.visit writeError governor path)
    rw [List.foldl_cons, List.countP_cons, List.length_cons, ha, hw]
    unfold Writes.visit
    cases writeError path with
    | none =>
      simp only [Option.isNone_none, if_true]
      omega
    | some err =>
      simp only [Option.isNone_some, Bool.false_eq_true, if_false]
      omega

/-- `set_all_governors` succeeds exactly when some node accepts the write. -/
lemma setAllGovernors_eq_ok_iff (cpufreq : Cpufreq) (governor : String) (nodes : CpuNodes) :
    (setAllGovernors cpufreq governor nodes).1 = .ok () ↔ cpufreq.Accepts := by
  unfold setAllGovernors Cpufreq.Accepts
  cases hp : cpufreqGovernorPaths cpufreq.dir with
  | error e => simp
  | ok paths =>
    obtain ⟨hattempted, hwritten⟩ := foldl_visit cpufreq.writeError governor paths
      ⟨0, 0, none, nodes⟩
    have hpos : (writeAll cpufreq.writeError governor nodes paths).written ≠ 0 ↔
        ∃ path ∈ paths, cpufreq.writeError path = none := by
      unfold writeAll
      rw [hwritten, Nat.zero_add, ← Nat.pos_iff_ne_zero, List.countP_pos_iff]
      simp only [Option.isNone_iff_eq_none]
    have hle : (writeAll cpufreq.writeError governor nodes paths).written ≤
        (writeAll cpufreq.writeError governor nodes paths).attempted := by
      unfold writeAll
      rw [hwritten, hattempted, Nat.zero_add, Nat.zero_add]
      exact List.countP_le_length
    simp only [Except.ok.injEq, exists_eq_left', ← hpos]
    split_ifs with ha hw
    · simp only [false_iff, not_not]
      omega
    · simp only [hw, ne_eq, not_true_eq_false]
    · simp only [hw, ne_eq, not_false_eq_true]

/-- What `set_scaling_governor` returns when it succeeds. -/
theorem setScalingGovernor_eq_ok_iff (cpufreq : Cpufreq) (governor : String) (nodes : CpuNodes)
    (report : ActuatorReport) :
    (setScalingGovernor cpufreq governor nodes).1 = .ok report ↔
      cpufreq.Accepts ∧ report = ⟨"", governor⟩ := by
  rw [← setAllGovernors_eq_ok_iff cpufreq governor nodes]
  unfold setScalingGovernor
  dsimp only
  cases (setAllGovernors cpufreq governor nodes).1 with
  | error e => simp [Except.map]
  | ok u => simp [Except.map, eq_comm]

/-! ## The nodes afterwards -/

/-- The loop puts the governor in force on the nodes that accept it, and on no other. -/
lemma foldl_visit_nodes (writeError : String → Option IoError) (governor : String)
    (paths : List String) (w : Writes) (path : String) :
    (paths.foldl (Writes.visit writeError governor) w).nodes path =
      if path ∈ paths ∧ writeError path = none then governor else w.nodes path := by
  induction paths generalizing w with
  | nil => simp
  | cons head paths ih =>
    rw [List.foldl_cons, ih]
    simp only [List.mem_cons]
    unfold Writes.visit
    cases hw : writeError head with
    | some err =>
      have hne : writeError path = none → path ≠ head := by
        rintro h rfl
        rw [hw] at h
        cases h
      by_cases h : writeError path = none
      · simp [h, hne h]
      · simp [h]
    | none =>
      by_cases h : path = head
      · subst h
        simp [hw]
      · simp [h]

/-- The last error of the loop is that of the last node whose write fails. -/
lemma foldl_visit_lastErr (writeError : String → Option IoError) (governor : String)
    (paths : List String) (w : Writes) :
    (paths.foldl (Writes.visit writeError governor) w).lastErr =
      (paths.filterMap writeError).getLast?.or w.lastErr := by
  induction paths generalizing w with
  | nil => simp
  | cons path paths ih =>
    rw [List.foldl_cons, ih, List.filterMap_cons]
    unfold Writes.visit
    cases writeError path with
    | none => rfl
    | some err =>
      dsimp only
      rw [List.getLast?_cons]
      cases (paths.filterMap writeError).getLast? <;> rfl

/-- A call with a list of nodes leaves the nodes as its loop does. -/
theorem setScalingGovernor_snd {cpufreq : Cpufreq} {paths : List String}
    (hpaths : cpufreqGovernorPaths cpufreq.dir = .ok paths) (governor : String)
    (nodes : CpuNodes) :
    (setScalingGovernor cpufreq governor nodes).2 =
      fun path => if path ∈ paths ∧ cpufreq.writeError path = none then governor
        else nodes path := by
  have hnodes : (setScalingGovernor cpufreq governor nodes).2 =
      (writeAll cpufreq.writeError governor nodes paths).nodes := by
    unfold setScalingGovernor setAllGovernors
    rw [hpaths]
    dsimp only
    split_ifs <;> rfl
  funext path
  rw [hnodes, writeAll, foldl_visit_nodes]

/-- **A failed call changes no node.** -/
theorem setScalingGovernor_nodes_of_error {cpufreq : Cpufreq} {governor : String}
    {nodes : CpuNodes} {err : IoError}
    (h : (setScalingGovernor cpufreq governor nodes).1 = .error err) :
    (setScalingGovernor cpufreq governor nodes).2 = nodes := by
  have hrefused : ¬ cpufreq.Accepts := by
    intro haccepts
    rw [(setScalingGovernor_eq_ok_iff cpufreq governor nodes ⟨"", governor⟩).mpr
      ⟨haccepts, rfl⟩] at h
    cases h
  cases hpaths : cpufreqGovernorPaths cpufreq.dir with
  | error e =>
    unfold setScalingGovernor setAllGovernors
    rw [hpaths]
  | ok paths =>
    rw [setScalingGovernor_snd hpaths]
    funext path
    apply if_neg
    rintro ⟨hmem, haccepted⟩
    exact hrefused ⟨paths, hpaths, path, hmem, haccepted⟩

/-- A call that every node of a list refuses: the error of the last node, or the one for an empty
list. -/
lemma setAllGovernors_of_refused {cpufreq : Cpufreq} {paths : List String}
    (hpaths : cpufreqGovernorPaths cpufreq.dir = .ok paths)
    (hrefused : ∀ path ∈ paths, cpufreq.writeError path ≠ none) (governor : String)
    (nodes : CpuNodes) :
    (setAllGovernors cpufreq governor nodes).1 =
      match (paths.filterMap cpufreq.writeError).getLast? with
      | some err => .error err
      | none => .error ⟨.notFound, "no cpu*/cpufreq/scaling_governor paths found"⟩ := by
  obtain ⟨hattempted, hwritten⟩ := foldl_visit cpufreq.writeError governor paths ⟨0, 0, none, nodes⟩
  have hlast := foldl_visit_lastErr cpufreq.writeError governor paths ⟨0, 0, none, nodes⟩
  rw [Option.or_none] at hlast
  have hnone : (paths.countP fun path => (cpufreq.writeError path).isNone) = 0 := by
    rw [List.countP_eq_zero]
    intro path hmem
    simpa using hrefused path hmem
  unfold setAllGovernors
  rw [hpaths]
  dsimp only
  unfold writeAll
  rw [hattempted, hwritten, hlast, hnone]
  rcases List.eq_nil_or_concat' paths with rfl | ⟨paths, path, rfl⟩
  · rfl
  · obtain ⟨err, herr⟩ := Option.ne_none_iff_exists'.mp (hrefused path (by simp))
    have hmatch : ((paths ++ [path]).filterMap cpufreq.writeError).getLast? = some err := by
      simp [herr]
    rw [hmatch]
    simp

/-- **The error of a failed call** is that of the listing, or the one for an empty list, or that of
the last node.

**Proof sketch.** The call fails as its loop over the nodes does.  If the listing succeeds then
every node has refused, and the loop keeps the latest error. -/
theorem setScalingGovernor_error {cpufreq : Cpufreq} {governor : String} {nodes : CpuNodes}
    {err : IoError} (h : (setScalingGovernor cpufreq governor nodes).1 = .error err) :
    match cpufreqGovernorPaths cpufreq.dir with
    | .error e => err = e
    | .ok paths =>
      match paths.getLast? with
      | none => err = ⟨.notFound, "no cpu*/cpufreq/scaling_governor paths found"⟩
      | some path => cpufreq.writeError path = some err := by
  -- the call fails as its loop does
  have hall : (setAllGovernors cpufreq governor nodes).1 = .error err := by
    unfold setScalingGovernor at h
    dsimp only at h
    cases hresult : (setAllGovernors cpufreq governor nodes).1 with
    | error e =>
      rw [hresult] at h
      exact congrArg _ (Except.error.inj h)
    | ok u =>
      rw [hresult] at h
      cases h
  cases hpaths : cpufreqGovernorPaths cpufreq.dir with
  | error e =>
    unfold setAllGovernors at hall
    rw [hpaths] at hall
    exact (Except.error.inj hall).symm
  | ok paths =>
    have hrefused : ∀ path ∈ paths, cpufreq.writeError path ≠ none := by
      intro path hmem haccepted
      rw [(setAllGovernors_eq_ok_iff cpufreq governor nodes).mpr
        ⟨paths, hpaths, path, hmem, haccepted⟩] at hall
      cases hall
    rw [setAllGovernors_of_refused hpaths hrefused] at hall
    dsimp only
    rcases List.eq_nil_or_concat' paths with rfl | ⟨paths, path, rfl⟩
    · exact (Except.error.inj hall).symm
    · obtain ⟨last, hlast⟩ := Option.ne_none_iff_exists'.mp (hrefused path (by simp))
      have hmatch : ((paths ++ [path]).filterMap cpufreq.writeError).getLast? = some last := by
        simp [hlast]
      rw [hmatch] at hall
      rw [List.getLast?_concat]
      dsimp only
      rw [hlast, Except.error.inj hall]

/-! ## The listing -/

/-- `cpu`, and digits or nothing after it. -/
lemma isCpuName_iff (name : String) : isCpuName name = true ↔
    ∃ digits, name.toList = "cpu".toList ++ digits ∧ ∀ c ∈ digits, c.isDigit = true := by
  unfold isCpuName
  rw [Bool.and_eq_true, List.isPrefixOf_iff_prefix, List.all_eq_true]
  constructor
  · rintro ⟨⟨digits, hname⟩, hdigits⟩
    refine ⟨digits, hname.symm, ?_⟩
    rwa [← hname] at hdigits
  · rintro ⟨digits, hname, hdigits⟩
    rw [hname]
    exact ⟨List.prefix_append _ _, hdigits⟩

/-- The names of the CPUs with a node, in the order in which the directory is read. -/
def listedNames (entries : List DirEntry) : List String :=
  (entries.filter fun entry => isCpuName entry.name && entry.hasGovernor).map DirEntry.name

lemma governorNames_ok (entries : List DirEntry) :
    governorNames (entries.map .ok) = .ok (listedNames entries) := by
  induction entries with
  | nil => rfl
  | cons entry entries ih =>
    have hlisted : listedNames (entry :: entries) =
        if isCpuName entry.name && entry.hasGovernor then entry.name :: listedNames entries
        else listedNames entries := by
      unfold listedNames
      rw [List.filter_cons]
      split_ifs <;> rfl
    rw [List.map_cons, governorNames, ih, hlisted]
    rfl

/-- The first entry that cannot be read ends the listing. -/
lemma governorNames_error (entries : List DirEntry) (e : IoError)
    (rest : List (Except IoError DirEntry)) :
    governorNames (entries.map .ok ++ .error e :: rest) = .error e := by
  induction entries with
  | nil => rfl
  | cons entry entries ih =>
    rw [List.map_cons, List.cons_append, governorNames, ih]
    rfl

/-- A directory that is read entry by entry is read to its end, or up to an error. -/
lemma exists_entries (dir : List (Except IoError DirEntry)) :
    (∃ entries : List DirEntry, dir = entries.map .ok) ∨
      ∃ (entries : List DirEntry) (e : IoError) (rest : _),
        dir = entries.map .ok ++ .error e :: rest := by
  induction dir with
  | nil => exact Or.inl ⟨[], rfl⟩
  | cons read dir ih =>
    cases read with
    | error e => exact Or.inr ⟨[], e, dir, rfl⟩
    | ok entry =>
      rcases ih with ⟨entries, rfl⟩ | ⟨entries, e, rest, rfl⟩
      · exact Or.inl ⟨entry :: entries, rfl⟩
      · exact Or.inr ⟨entry :: entries, e, rest, rfl⟩

/-- What `cpufreq_governor_paths` returns for a directory. -/
structure Listing (dir : Except IoError (List (Except IoError DirEntry)))
    (result : Except IoError (List String)) : Prop where
  /-- It lists the nodes of all CPUs, sorted by name, if the directory and all its entries can be
  read. -/
  ok_iff : ∀ paths, result = .ok paths ↔ ∃ (entries : List DirEntry) (names : List String),
    dir = .ok (entries.map .ok) ∧ names.Perm (listedNames entries) ∧
      names.Pairwise (· ≤ ·) ∧ paths = names.map governorPath
  /-- It fails as the directory, or as the first entry that cannot be read. -/
  error_iff : ∀ e, result = .error e ↔
    dir = .error e ∨ ∃ (entries : List DirEntry) (rest : _),
      dir = .ok (entries.map .ok ++ .error e :: rest)

/-- **The listing.** The nodes of the CPUs are listed in the order of their names, or none.

**Proof sketch.** A directory is not readable, has only entries that are, or has a first entry that
is not.  In the second case the result is the sorted list of names, and a list has only one sorted
permutation. -/
theorem cpufreqGovernorPaths_listing (dir : Except IoError (List (Except IoError DirEntry))) :
    Listing dir (cpufreqGovernorPaths dir) := by
  have hread : ∀ entries : List DirEntry, cpufreqGovernorPaths (.ok (entries.map .ok)) =
      .ok (((listedNames entries).mergeSort fun a b => decide (a ≤ b)).map governorPath) := by
    intro entries
    simp only [cpufreqGovernorPaths, governorNames_ok, bind, Except.bind, pure, Except.pure]
  have hfailed : ∀ (entries : List DirEntry) (e : IoError) rest,
      cpufreqGovernorPaths (.ok (entries.map .ok ++ .error e :: rest)) = .error e := by
    intro entries e rest
    simp only [cpufreqGovernorPaths, governorNames_error, bind, Except.bind]
  have hcases : (∃ e, dir = .error e) ∨ (∃ entries : List DirEntry, dir = .ok (entries.map .ok)) ∨
      ∃ (entries : List DirEntry) (e : IoError) (rest : _),
        dir = .ok (entries.map .ok ++ .error e :: rest) := by
    cases dir with
    | error e => exact Or.inl ⟨e, rfl⟩
    | ok dir =>
      rcases exists_entries dir with ⟨entries, rfl⟩ | ⟨entries, e, rest, rfl⟩
      · exact Or.inr (Or.inl ⟨entries, rfl⟩)
      · exact Or.inr (Or.inr ⟨entries, e, rest, rfl⟩)
  constructor
  · intro paths
    constructor
    · intro h
      rcases hcases with ⟨e, rfl⟩ | ⟨entries, rfl⟩ | ⟨entries, e, rest, rfl⟩
      · cases h
      · rw [hread] at h
        exact ⟨entries, _, rfl, List.mergeSort_perm _ _, List.pairwise_mergeSort' (· ≤ ·) _,
          (Except.ok.inj h).symm⟩
      · rw [hfailed] at h
        cases h
    · rintro ⟨entries, names, rfl, hperm, hsorted, rfl⟩
      have hnames : (listedNames entries).mergeSort (fun a b => decide (a ≤ b)) = names :=
        ((List.mergeSort_perm _ _).trans hperm.symm).eq_of_pairwise'
          (List.pairwise_mergeSort' (· ≤ ·) _) hsorted
      rw [hread, hnames]
  · intro e
    constructor
    · intro h
      rcases hcases with ⟨e', rfl⟩ | ⟨entries, rfl⟩ | ⟨entries, e', rest, rfl⟩
      · exact Or.inl (congrArg _ (Except.error.inj h))
      · rw [hread] at h
        cases h
      · rw [hfailed] at h
        cases h
        exact Or.inr ⟨entries, rest, rfl⟩
    · rintro (rfl | ⟨entries, rest, rfl⟩)
      · rfl
      · exact hfailed entries e rest

end Foverin
