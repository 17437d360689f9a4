import Foverin.Ebpf.Pahole
import Foverin.Ebpf.Probe

set_option relaxedAutoImplicit false
set_option autoImplicit false

/-!
# The build script of the probe

`foverin-ebpf/build.rs`: it bakes the offsets of two members of `task_struct` into the probe.  Both
come from what `pahole` prints on the build host, or both are fixed numbers.  The probe follows them
from the current task to the name of its parent.

What `pahole` prints is taken after its decoding.

## Main definitions

* `Foverin.BuildHost` — what the script asks of its host.
* `Foverin.buildMain` — the script.
* `Foverin.Kernel.Layout` — a kernel whose tasks are laid out by some offsets.

## Main results

* `Foverin.buildMain_offsets` — where the offsets come from.
* `Foverin.buildMain_isOk_iff` — when the script succeeds.
* `Foverin.parsePaholeOffset_first` — they are those of the first members of their names.
* `Foverin.lineage_from_build` — from the build host to what the probe submits.
-/

namespace Foverin

/-! ## The script -/

/-- What the script asks of its host. -/
structure BuildHost where
  /-- Whether `FOVERIN_SKIP_EBPF` is set. -/
  skipEbpf : Bool
  /-- Where `bpf-linker` is. -/
  bpfLinker : Option String
  /-- Whether `/sys/kernel/btf/vmlinux` is a file. -/
  btf : Bool
  /-- Whether `pahole` is found. -/
  pahole : Bool
  /-- Whether it succeeds, and what it prints; nothing if it does not run. -/
  output : Option (Bool × String)
  outDir : Option String
  /-- Whether the file can be written. -/
  writes : Bool

/-- What the script leaves behind: the lines for Cargo, and the file with its constants. -/
structure Generated where
  printed : List String
  path : String
  offsets : TaskOffsets

/-- The contents of the file. -/
def TaskOffsets.source (o : TaskOffsets) : String :=
  "/// Byte offset of `task_struct::real_parent` (from build-host BTF).\n" ++
    "pub const TASK_REAL_PARENT_OFFSET: usize = " ++ toString o.realParent ++ ";\n" ++
    "/// Byte offset of `task_struct::comm` (from build-host BTF).\n" ++
    "pub const TASK_COMM_OFFSET: usize = " ++ toString o.comm ++ ";\n"

namespace BuildHost

/-- `write_task_offsets`. -/
def writeTaskOffsets (host : BuildHost) (printed : List String) (realParent comm : UInt64) :
    Except String Generated :=
  match host.outDir with
  | none => .error "OUT_DIR"
  | some dir =>
    if host.writes then .ok ⟨printed, dir ++ "/task_offsets.rs", ⟨realParent, comm⟩⟩
    else .error "write task_offsets.rs"

/-- `write_task_offsets_fallback`, after a warning. -/
def writeTaskOffsetsFallback (host : BuildHost) (printed : List String) (warning : String) :
    Except String Generated :=
  host.writeTaskOffsets (printed ++ ["cargo:warning=" ++ warning]) 2880 3400

/-- `generate_task_offsets`. -/
def generateTaskOffsets (host : BuildHost) (printed : List String) : Except String Generated :=
  let printed := printed ++ ["cargo:rerun-if-changed=/sys/kernel/btf/vmlinux"]
  if !host.btf then
    host.writeTaskOffsetsFallback printed
      "/sys/kernel/btf/vmlinux missing — using fallback task_struct offsets"
  else if !host.pahole then
    host.writeTaskOffsetsFallback printed "pahole not found — using fallback task_struct offsets"
  else
    match host.output with
    | none =>
      host.writeTaskOffsetsFallback printed
        "pahole failed to run — using fallback task_struct offsets"
    | some (false, _) =>
      host.writeTaskOffsetsFallback printed
        "pahole exited non-zero — using fallback task_struct offsets"
    | some (true, text) =>
      match parsePaholeOffset text "real_parent" with
      | none =>
        host.writeTaskOffsetsFallback printed "could not parse real_parent offset — using fallback"
      | some realParent =>
        match parsePaholeOffset text "comm" with
        | none =>
          host.writeTaskOffsetsFallback printed "could not parse comm offset — using fallback"
        | some comm => host.writeTaskOffsets printed realParent comm

end BuildHost

/-- `main` of the script. -/
def buildMain (host : BuildHost) : Except String Generated :=
  let printed := ["cargo:rerun-if-env-changed=FOVERIN_SKIP_EBPF"]
  if host.skipEbpf then
    host.writeTaskOffsetsFallback printed "FOVERIN_SKIP_EBPF set — skipping bpf-linker probe"
  else
    match host.bpfLinker with
    | none =>
      .error ("bpf-linker not found in PATH (install with `cargo install bpf-linker`, " ++
        "or set FOVERIN_SKIP_EBPF=1 for userspace-only checks)")
    | some linker =>
      host.generateTaskOffsets (printed ++ ["cargo:rerun-if-changed=" ++ linker])

/-! ## Where the offsets come from -/

namespace BuildHost

variable {host : BuildHost} {printed : List String} {out : Generated}

lemma offsets_of_write {realParent comm : UInt64}
    (h : host.writeTaskOffsets printed realParent comm = .ok out) :
    out.offsets = ⟨realParent, comm⟩ := by
  unfold writeTaskOffsets at h
  cases hdir : host.outDir with
  | none =>
    rw [hdir] at h
    cases h
  | some dir =>
    rw [hdir] at h
    dsimp only at h
    split_ifs at h
    cases h
    rfl

/-- The text that the offsets are taken from, if everything goes well up to there. -/
def paholeText (host : BuildHost) : Option String :=
  if host.skipEbpf || !host.btf || !host.pahole then none
  else
    match host.output with
    | some (true, text) => some text
    | _ => none

/-- The offsets that are read off a text, both or none. -/
def paholeOffsets (text : String) : Option TaskOffsets := do
  let realParent ← parsePaholeOffset text "real_parent"
  let comm ← parsePaholeOffset text "comm"
  return ⟨realParent, comm⟩

end BuildHost

/-- The numbers that the script falls back to. -/
def fallbackOffsets : TaskOffsets := ⟨2880, 3400⟩

namespace BuildHost

variable {host : BuildHost} {printed : List String} {out : Generated}

lemma offsets_of_fallback {warning : String}
    (h : host.writeTaskOffsetsFallback printed warning = .ok out) :
    out.offsets = fallbackOffsets := offsets_of_write h

/-- What is generated from the text of `pahole`. -/
lemma offsets_of_text {text : String} (hbtf : host.btf = true) (hpahole : host.pahole = true)
    (houtput : host.output = some (true, text))
    (h : host.generateTaskOffsets printed = .ok out) :
    out.offsets = (paholeOffsets text).getD fallbackOffsets := by
  unfold generateTaskOffsets at h
  rw [hbtf, hpahole, houtput] at h
  dsimp only at h
  unfold paholeOffsets
  cases hparent : parsePaholeOffset text "real_parent" with
  | none =>
    rw [hparent] at h
    exact offsets_of_fallback h
  | some realParent =>
    rw [hparent] at h
    cases hcomm : parsePaholeOffset text "comm" with
    | none =>
      rw [hcomm] at h
      exact offsets_of_fallback h
    | some comm =>
      rw [hcomm] at h
      exact offsets_of_write h

/-- What is generated, whatever the host offers. -/
lemma offsets_of_generate (hskip : host.skipEbpf = false)
    (h : host.generateTaskOffsets printed = .ok out) :
    out.offsets = (host.paholeText.bind paholeOffsets).getD fallbackOffsets := by
  have hgenerate := h
  unfold generateTaskOffsets at h
  unfold paholeText
  rw [hskip]
  cases hbtf : host.btf with
  | false =>
    rw [hbtf] at h
    exact offsets_of_fallback h
  | true =>
    rw [hbtf] at h
    cases hpahole : host.pahole with
    | false =>
      rw [hpahole] at h
      exact offsets_of_fallback h
    | true =>
      rw [hpahole] at h
      match houtput : host.output with
      | none =>
        rw [houtput] at h
        exact offsets_of_fallback h
      | some (false, text) =>
        rw [houtput] at h
        exact offsets_of_fallback h
      | some (true, text) => exact offsets_of_text hbtf hpahole houtput hgenerate

/-- Both offsets of a text are read off it, or none. -/
lemma paholeOffsets_cases (text : String) :
    (paholeOffsets text).getD fallbackOffsets = fallbackOffsets ∨
      parsePaholeOffset text "real_parent" =
          some ((paholeOffsets text).getD fallbackOffsets).realParent ∧
        parsePaholeOffset text "comm" = some ((paholeOffsets text).getD fallbackOffsets).comm := by
  unfold paholeOffsets
  cases hparent : parsePaholeOffset text "real_parent" with
  | none => exact .inl rfl
  | some realParent =>
    cases hcomm : parsePaholeOffset text "comm" with
    | none => exact .inl rfl
    | some comm => exact .inr ⟨rfl, rfl⟩

end BuildHost

/-- **Both or none.** Both offsets are read off what `pahole` prints; if anything goes wrong, both
are the fixed numbers. -/
theorem buildMain_offsets {host : BuildHost} {out : Generated} (h : buildMain host = .ok out) :
    out.offsets = (host.paholeText.bind BuildHost.paholeOffsets).getD fallbackOffsets := by
  unfold buildMain at h
  cases hskip : host.skipEbpf with
  | true =>
    rw [hskip] at h
    unfold BuildHost.paholeText
    rw [hskip]
    exact BuildHost.offsets_of_fallback h
  | false =>
    rw [hskip] at h
    cases hlinker : host.bpfLinker with
    | none =>
      rw [hlinker] at h
      cases h
    | some linker =>
      rw [hlinker] at h
      exact BuildHost.offsets_of_generate hskip h

/-! ## When it succeeds -/

namespace BuildHost

variable {host : BuildHost} {printed : List String}

/-- The constants can be written. -/
def Writable (host : BuildHost) : Prop := host.outDir.isSome = true ∧ host.writes = true

lemma writeTaskOffsets_isOk_iff {realParent comm : UInt64} :
    (host.writeTaskOffsets printed realParent comm).isOk = true ↔ host.Writable := by
  unfold writeTaskOffsets Writable
  cases host.outDir with
  | none => simp [Except.isOk, Except.toBool]
  | some dir => cases host.writes <;> simp [Except.isOk, Except.toBool]

/-- Whatever `pahole` does, some constants are written. -/
lemma generateTaskOffsets_isOk_iff :
    (host.generateTaskOffsets printed).isOk = true ↔ host.Writable := by
  unfold generateTaskOffsets writeTaskOffsetsFallback
  dsimp only
  repeat' split
  all_goals exact writeTaskOffsets_isOk_iff

end BuildHost

/-- **The script succeeds** if it finds the linker or is told not to look for it, and can write its
file. -/
theorem buildMain_isOk_iff {host : BuildHost} :
    (buildMain host).isOk = true ↔
      (host.skipEbpf = true ∨ host.bpfLinker.isSome = true) ∧ host.Writable := by
  unfold buildMain
  cases host.skipEbpf with
  | true =>
    rw [if_pos rfl, BuildHost.writeTaskOffsetsFallback, BuildHost.writeTaskOffsets_isOk_iff]
    simp
  | false =>
    rw [if_neg (by decide)]
    cases host.bpfLinker with
    | none => simp [Except.isOk, Except.toBool]
    | some linker =>
      rw [BuildHost.generateTaskOffsets_isOk_iff]
      simp

/-! ## What `pahole` prints -/

/-- **The first member of a name.** Its offset is read if it fits. -/
theorem parsePaholeOffset_first {ls : List PaholeLine} {f : Identifier} {m : PaholeMember}
    (h : (ls.filterMap PaholeLine.member?).find? (·.name = f) = some m)
    (hfits : m.offset < 2 ^ 64) :
    parsePaholeOffset (printLines ls) f.text = some (UInt64.ofNat m.offset) := by
  rw [parsePaholeOffset_printLines, findSome?_paholeLine, h, Option.bind_some, if_pos hfits]

/-! ## The parent of a task -/

/-- The members whose offsets the probe needs. -/
def realParentField : Identifier := ⟨"real_parent".toList, by simp, by simp [isIdentChar_iff]⟩

def commField : Identifier := ⟨"comm".toList, by simp, by simp [isIdentChar_iff]⟩

namespace Kernel

/-- The current task and its parent, if there are any, are laid out by these offsets: the pointer
from one to the other and the name of the parent are found there. -/
def Layout (k : Kernel) (o : TaskOffsets) (parentOf : UInt64 → UInt64)
    (commOf : UInt64 → Vector UInt8 taskCommLen) : Prop :=
  let parent := parentOf k.currentTask
  k.currentTask ≠ 0 → k.readPtr (k.currentTask + o.realParent) = some parent ∧
    (parent ≠ 0 → k.readComm (parent + o.comm) = some (commOf parent))

/-- The name of a task is that of Steam. -/
def IsSteam (comm : Vector UInt8 taskCommLen) : Prop :=
  comm.toList.takeWhile (· ≠ 0) = Utf8.encode "steam"

/-- The current task has a parent, and this is Steam. -/
def SteamChild (k : Kernel) (parentOf : UInt64 → UInt64)
    (commOf : UInt64 → Vector UInt8 taskCommLen) : Prop :=
  k.currentTask ≠ 0 ∧ parentOf k.currentTask ≠ 0 ∧ IsSteam (commOf (parentOf k.currentTask))

/-- The probe finds the parent. -/
lemma Layout.steamParent_iff {k : Kernel} {o : TaskOffsets} {parentOf : UInt64 → UInt64}
    {commOf : UInt64 → Vector UInt8 taskCommLen} (h : k.Layout o parentOf commOf) :
    k.SteamParent o ↔ k.SteamChild parentOf commOf := by
  unfold SteamParent SteamChild parentComm
  by_cases htask : k.currentTask = 0
  · simp [htask]
  · obtain ⟨hpointer, hname⟩ := h htask
    rw [if_neg htask, hpointer]
    dsimp only
    by_cases hparent : parentOf k.currentTask = 0
    · simp [hparent]
    · rw [if_neg hparent, hname hparent]
      simp only [Option.some.injEq, exists_eq_left', ne_eq, htask, hparent, not_false_eq_true,
        true_and]
      rfl

end Kernel

/-- **Lineage, from the build host to the record.** The script bakes in the offsets that it reads
off what `pahole` prints, both or none, and these are the offsets of the first members that are
called `real_parent` and `comm`.  Where the current task and its parent are laid out by the baked
offsets, the probe marks the children of Steam, and no other process, and submits the captured path
of every other one.

**Proof sketch.** The offsets are those of the printed text, or the fallback if one of them is
missing.  In a printed text the first member of a name is the one that is read.  The probe then
compares the name at the offset of the parent, which the layout says is the parent's. -/
theorem lineage_from_build {host : BuildHost} {out : Generated} (h : buildMain host = .ok out) :
    (out.offsets = fallbackOffsets ∨ ∃ text, host.paholeText = some text ∧
      parsePaholeOffset text "real_parent" = some out.offsets.realParent ∧
      parsePaholeOffset text "comm" = some out.offsets.comm) ∧
    (∀ ls, host.paholeText = some (printLines ls) → ∀ parent comm : PaholeMember,
      (ls.filterMap PaholeLine.member?).find? (·.name = realParentField) = some parent →
      (ls.filterMap PaholeLine.member?).find? (·.name = commField) = some comm →
      parent.offset < 2 ^ 64 → comm.offset < 2 ^ 64 →
      out.offsets = ⟨UInt64.ofNat parent.offset, UInt64.ofNat comm.offset⟩) ∧
    ∀ (k : Kernel) (parentOf : UInt64 → UInt64) (commOf : UInt64 → Vector UInt8 taskCommLen)
      (path : List UInt8), k.Layout out.offsets parentOf commOf → k.CopiesPath path →
      ∀ e, (tryFoverin out.offsets k).2 = some e →
        (k.SteamChild parentOf commOf → e = ⟨k.tgid, padded steamApp⟩) ∧
        (¬ k.SteamChild parentOf commOf → e = ⟨k.tgid, padded (captured path)⟩) := by
  have hoffsets := buildMain_offsets h
  refine ⟨?_, fun ls htext parent comm hparent hcomm hfits hfits' => ?_,
    fun k parentOf commOf path hlayout hcopies e he => ?_⟩
  · cases htext : host.paholeText with
    | none =>
      rw [htext] at hoffsets
      exact Or.inl hoffsets
    | some text =>
      rw [htext, Option.bind_some] at hoffsets
      rw [hoffsets]
      exact (BuildHost.paholeOffsets_cases text).imp id fun hread => ⟨text, rfl, hread⟩
  · have hreal := parsePaholeOffset_first hparent hfits
    have hname := parsePaholeOffset_first hcomm hfits'
    have hrealText : realParentField.text = "real_parent" := String.ofList_toList
    have hcommText : commField.text = "comm" := String.ofList_toList
    rw [hrealText] at hreal
    rw [hcommText] at hname
    rw [hoffsets, htext, Option.bind_some, BuildHost.paholeOffsets, hreal, hname]
    rfl
  · obtain ⟨hsteam, hother⟩ := tryFoverin_event hcopies he
    rw [hlayout.steamParent_iff] at hsteam hother
    exact ⟨hsteam, hother⟩

/-! ## A child of Steam -/

/-- The name of Steam. -/
def steamComm : Vector UInt8 taskCommLen :=
  Vector.ofFn fun i => (Utf8.encode "steam").getD i 0

/-- A kernel on which a child of Steam executes a path; its tasks are laid out by some offsets, and
nothing else can be read. -/
def steamExec (o : TaskOffsets) (path : List UInt8) : Kernel where
  scratch := true
  tgid := 4243
  ctx := 0x1000
  dataLoc := .ok 0x00080010
  readStr _ _ := padded (captured path)
  currentTask := 0x2000
  readPtr ptr := if ptr = 0x2000 + o.realParent then some 0x3000 else none
  readComm ptr := if ptr = 0x3000 + o.comm then some steamComm else none
  reserve := true

/-- The parent of the current task is called Steam. -/
lemma steamExec_layout (o : TaskOffsets) (path : List UInt8) :
    (steamExec o path).Layout o (fun _ => 0x3000) fun _ => steamComm :=
  fun _ => ⟨if_pos rfl, fun _ => if_pos rfl⟩

lemma steamExec_copiesPath (o : TaskOffsets) (path : List UInt8) :
    (steamExec o path).CopiesPath path :=
  fun _ _ => rfl

/-- The name of Steam is found. -/
lemma steamExec_child (o : TaskOffsets) (path : List UInt8) :
    (steamExec o path).SteamChild (fun _ => 0x3000) fun _ => steamComm := by
  have htask : (0x2000 : UInt64) ≠ 0 := by decide
  have hparent : (0x3000 : UInt64) ≠ 0 := by decide
  have hcomm : Kernel.IsSteam steamComm := by
    unfold Kernel.IsSteam
    decide +kernel
  exact ⟨htask, hparent, hcomm⟩

/-- There is room for a record. -/
lemma steamExec_event (o : TaskOffsets) (path : List UInt8) :
    ∃ e, (tryFoverin o (steamExec o path)).2 = some e :=
  ⟨_, rfl⟩

/-- Some spaces. -/
def spaces (n : ℕ) : Blanks where
  chars := List.replicate n ' '
  blank c hc := by
    rw [List.eq_of_mem_replicate hc]
    decide
  sameLine h := absurd (List.eq_of_mem_replicate h) (by decide)

/-- Some spaces between two words. -/
def gapOf (n : ℕ) : Gap := { spaces (n + 1) with nonempty := List.cons_ne_nil _ _ }

/-- The line of the pointer to the parent. -/
def realParentMember : PaholeMember where
  indent := spaces 8
  types := [(⟨"struct".toList, by simp, by simp [isWhitespace], by simp⟩, gapOf 0),
    (⟨"task_struct".toList, by simp, by simp [isWhitespace], by simp⟩, gapOf 0),
    (⟨['*'], by simp, by simp [isWhitespace], by simp⟩, gapOf 6)]
  name := realParentField
  dims := []
  gap := spaces 10
  before := spaces 2
  offset := 2488
  between := gapOf 4
  size := 8
  after := spaces 1
  trailing := spaces 0

/-- The line of the name. -/
def commMember : PaholeMember where
  indent := spaces 8
  types := [(⟨"char".toList, by simp, by simp [isWhitespace], by simp⟩, gapOf 22)]
  name := commField
  dims := [16]
  gap := spaces 13
  before := spaces 2
  offset := 2984
  between := gapOf 3
  size := 16
  after := spaces 1
  trailing := spaces 0

/-- What `pahole` prints, down to the two members and with nothing else between them. -/
def taskStruct : List PaholeLine :=
  [.opening (spaces 0) ⟨"struct task_struct ".toList, by decide, by decide⟩ (spaces 0),
    .member realParentMember, .blank (spaces 0), .member commMember,
    .closing (spaces 0) none (spaces 0) (some ⟨[], nofun⟩)]

/-- A build host with `pahole`. -/
def paholeHost : BuildHost :=
  ⟨false, some "/usr/bin/bpf-linker", true, true, some (true, printLines taskStruct), some "out",
    true⟩

/-- A probe with the offsets of the build host, which are not the fixed ones, marks what a child of
Steam executes. -/
theorem lineage_from_build_pahole :
    ∃ out, buildMain paholeHost = .ok out ∧ out.offsets = ⟨2488, 2984⟩ ∧
      (tryFoverin out.offsets (steamExec out.offsets (Utf8.encode "/opt/game"))).2 =
        some ⟨4243, padded steamApp⟩ := by
  have hbuild : ∃ out, buildMain paholeHost = .ok out := by
    have hok : (buildMain paholeHost).isOk = true :=
      buildMain_isOk_iff.mpr ⟨Or.inr rfl, rfl, rfl⟩
    cases hresult : buildMain paholeHost with
    | error err =>
      rw [hresult] at hok
      cases hok
    | ok out => exact ⟨out, rfl⟩
  obtain ⟨out, hout⟩ := hbuild
  obtain ⟨-, hoffsets, hprobe⟩ := lineage_from_build hout
  obtain ⟨e, he⟩ := steamExec_event out.offsets (Utf8.encode "/opt/game")
  refine ⟨out, hout, ?_, ?_⟩
  · have hmembers : taskStruct.filterMap PaholeLine.member? = [realParentMember, commMember] := rfl
    have hne : realParentMember.name ≠ commField := by decide +kernel
    refine hoffsets taskStruct rfl realParentMember commMember ?_ ?_ (by decide) (by decide)
    · rw [hmembers, List.find?_cons_of_pos (by simp [realParentMember])]
    · rw [hmembers, List.find?_cons_of_neg (by simpa using hne),
        List.find?_cons_of_pos (by simp [commMember])]
  · rw [he, (hprobe _ _ _ _ (steamExec_layout _ _) (steamExec_copiesPath _ _) e he).1
      (steamExec_child _ _)]
    rfl

end Foverin
