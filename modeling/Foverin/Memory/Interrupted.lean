import Foverin.Memory.RoundTrip

set_option relaxedAutoImplicit false
set_option autoImplicit false

/-!
# Interrupted saves

`save` truncates the file before it writes.  A write that fails, or a process that stops, before
the last byte leaves a strict prefix of the text, and no strict prefix of a JSON object is
accepted: the store that the file held before is gone and the file does not open any more.

## Main definitions

* `Foverin.reads` — what can be read from a file.
* `Foverin.Survives` — the save ends before it truncates the file, or after the last byte.

## Main results

* `Foverin.reads_save` — what can be read after a save.
* `Foverin.open_after_save_iff` — exactly then a file that opened still opens after a save.
* `Foverin.interrupted_save_loses_file` — a process that stops after the truncation.
-/

namespace Foverin

open Finmap FloatOps

variable {F : Type}

/-! ## Files -/

/-- What can be read from a file: nothing where there is none, and a record where there is an
accepted text. -/
def reads (serde : Serde F) (disk : Disk) : Option (Option (MemoryFile F)) :=
  disk.map fun bytes => (String.fromUTF8? bytes).bind serde.fromStr

lemma reads_text (serde : Serde F) (text : String) :
    reads serde (some text.toUTF8) = some (serde.fromStr text) := by
  rw [reads, Option.map_some, Utf8.fromUTF8?_bytes, Option.bind_some]

/-- Without a file the store is new; a file with a record opens as the record says; and any
other file does not open. -/
lemma open_toOption (serde : Serde F) (readOk : Bool) (order : IterOrder String (Bucket F))
    (disk : Disk) (path : MemoryPath) (actions : List String) :
    (EpisodeMemory.open serde readOk order disk path actions).toOption =
      match reads serde disk with
      | none => some (.fresh path actions)
      | some r => (if readOk then r else none).bind fun file =>
          (parseBuckets order file).toOption.map fun buckets =>
            { (.fresh path actions : EpisodeMemory F) with
              buckets := buckets, tick := file.tick } := by
  cases disk with
  | none => rfl
  | some bytes =>
    cases readOk with
    | false => rfl
    | true =>
      rw [reads, Option.map_some]
      simp only [EpisodeMemory.open, readFile, if_true]
      cases String.fromUTF8? bytes with
      | none => rfl
      | some text =>
        rw [Option.bind_some]
        cases hf : serde.fromStr text with
        | none =>
          simp only [hf]
          rfl
        | some file =>
          simp only [hf, bind, Except.bind, Option.bind_some]
          cases parseBuckets order file <;> rfl

variable [FloatOps F]

/-! ## Saves -/

/-- Whether `fs::write` gets all `size` bytes of its text into the file. -/
def WriteOutcome.WritesAll (size : ℕ) : WriteOutcome → Prop
  | .complete => True
  | .notOpened => False
  | .cutAt k => size ≤ k

/-- The save leaves a readable file: if it comes to writing, then it fails before the file is
truncated, or it writes the whole text of a store with finite averages. -/
def Survives (serde : Serde F) (io : SaveIo F) (m : EpisodeMemory F) : Prop :=
  ∀ json, saveText serde io m = some json →
    io.write = .notOpened ∨ io.write.WritesAll json.utf8ByteSize ∧ m.Finite

/-- A write that gets all its bytes into the file leaves exactly the text. -/
lemma fsWrite_of_writesAll {outcome : WriteOutcome} {json : String} (disk : Disk)
    (h : outcome.WritesAll json.utf8ByteSize) :
    (fsWrite outcome json.toUTF8 disk).2 = some json.toUTF8 := by
  cases outcome with
  | complete => rfl
  | notOpened => exact h.elim
  | cutAt k =>
    have hk : json.toUTF8.extract 0 k = json.toUTF8 := by
      have hmax : max k json.toUTF8.size = k := max_eq_left h
      have h' := ByteArray.extract_zero_max_size (a := json.toUTF8) (i := k)
      rwa [hmax] at h'
    exact congrArg some hk

open Classical in
/-- What can be read after a save: the store's record if the whole text of finite averages was
written, nothing that is accepted if the file was truncated, and else what was there before. -/
theorem reads_save {serde : Serde F} (hserde : serde.Strict) (io : SaveIo F)
    (m : EpisodeMemory F) (disk : Disk) :
    reads serde (m.save serde io disk).disk =
      match (saveText serde io m).map String.utf8ByteSize with
      | none => reads serde disk
      | some size =>
        if io.write = .notOpened then reads serde disk
        else if io.write.WritesAll size ∧ m.Finite then some (some (m.toFile io.order))
        else some none := by
  rw [EpisodeMemory.save_disk]
  cases htext : saveText serde io m with
  | none => rfl
  | some json =>
    have hwritten := toStringPretty_of_saveText htext
    rw [Option.map_some]
    dsimp only
    split_ifs with hopened hall
    · rw [hopened]
      rfl
    · rw [fsWrite_of_writesAll disk hall.1, reads_text]
      have hfile := (toFile_finite io.order m).mpr hall.2
      rw [hserde.readsBack io.layout _ json hfile hwritten]
    · by_cases hwrites : io.write.WritesAll json.utf8ByteSize
      · have hinf : ¬ (m.toFile io.order).Finite := by
          rw [toFile_finite]
          exact fun hfin => hall ⟨hwrites, hfin⟩
        rw [fsWrite_of_writesAll disk hwrites, reads_text,
          hserde.rejectsNull io.layout _ json hinf hwritten]
      · -- a strict prefix of the text was written
        cases hw : io.write with
        | complete =>
          rw [hw] at hwrites
          exact absurd trivial hwrites
        | notOpened => exact absurd hw hopened
        | cutAt k =>
          rw [hw] at hwrites
          change some ((String.fromUTF8? (json.toUTF8.extract 0 k)).bind serde.fromStr) = some none
          cases hread : String.fromUTF8? (json.toUTF8.extract 0 k) with
          | none => rfl
          | some text =>
            rw [Option.bind_some, hserde.rejectsPrefix io.layout _ json hwritten k text
              (not_le.mp hwrites) (Utf8.toByteArray_of_fromUTF8? hread)]

/-! ## A store that has learned nothing -/

/-- The text of a store that has learned nothing. -/
def emptyText : String := "\x7b\n  \"tick\": 0,\n  \"buckets\": \x7b\x7d\n\x7d"

omit [FloatOps F] in
/-- A library that knows no other record than that of a store that has learned nothing. -/
def Serde.emptyOnly : Serde F where
  toStringPretty _ f := if f.tick = 0 ∧ f.buckets.keys = ∅ then some emptyText else none
  fromStr s := if s = emptyText then some ⟨0, ∅⟩ else none

omit [FloatOps F] in
lemma emptyOnly_writes {layout : ℕ} {f : MemoryFile F} {json : String}
    (h : Serde.emptyOnly.toStringPretty layout f = some json) : json = emptyText ∧ f = ⟨0, ∅⟩ := by
  unfold Serde.emptyOnly at h
  dsimp only at h
  split_ifs at h with hf
  obtain ⟨tick, buckets⟩ := f
  obtain ⟨rfl, hkeys⟩ := hf
  refine ⟨(Option.some.inj h).symm, ?_⟩
  have hbuckets : buckets = ∅ := by
    apply Finmap.ext_lookup
    intro s
    rw [lookup_empty, lookup_eq_none, ← mem_keys, hkeys]
    exact Finset.notMem_empty s
  rw [hbuckets]

omit [FloatOps F] in
lemma emptyOnly_reads : (Serde.emptyOnly : Serde F).fromStr emptyText = some ⟨0, ∅⟩ := by
  simp [Serde.emptyOnly]

lemma emptyOnly_strict : (Serde.emptyOnly : Serde F).Strict where
  readsBack layout f json _ h := by
    obtain ⟨rfl, rfl⟩ := emptyOnly_writes h
    exact emptyOnly_reads
  rejectsNull layout f json hf h := by
    obtain ⟨-, rfl⟩ := emptyOnly_writes h
    refine absurd (fun s b hb => ?_) hf
    rw [lookup_empty] at hb
    cases hb
  rejectsPrefix layout f json h k text hk htext := by
    obtain ⟨rfl, -⟩ := emptyOnly_writes h
    refine if_neg fun heq => ?_
    have hsize := congrArg ByteArray.size htext
    rw [heq, ByteArray.size_extract, String.size_toByteArray] at hsize
    omega

/-! ## Opening after a save -/

/-- **Interrupted saves.** Over a file that opens, a save leaves a file that opens as the old
store or as the new one exactly when it survives.

**Proof sketch.** What a save leaves to be read is known for each answer of the file system
(`reads_save`), and `open` depends on nothing else.  A file that was truncated before its whole
text was written is not accepted. -/
theorem open_after_save_iff {serde : Serde F} (hserde : serde.Strict) (io : SaveIo F)
    {m m₀ : EpisodeMemory F} {disk : Disk} {order : IterOrder String (Bucket F)}
    (hold : EpisodeMemory.open serde true order disk m.path m.actions = .ok m₀) :
    (∃ m', EpisodeMemory.open serde true order (m.save serde io disk).disk m.path m.actions =
        .ok m' ∧ (m' = m₀ ∨ m' = { m with dirtySinceSave := 0 })) ↔
      Survives serde io m := by
  classical
  have hopens : ∀ {d : Disk} {m' : EpisodeMemory F},
      EpisodeMemory.open serde true order d m.path m.actions = .ok m' ↔
        (EpisodeMemory.open serde true order d m.path m.actions).toOption = some m' := by
    intro d m'
    cases EpisodeMemory.open serde true order d m.path m.actions <;>
      simp [Except.toOption]
  have hnew : { (.fresh m.path m.actions : EpisodeMemory F) with
      buckets := m.buckets, tick := m.tick } = { m with dirtySinceSave := 0 } := by
    have hactions : actionsOrDefault m.actions = ⟨m.actions, m.actions_ne⟩ := dif_neg m.actions_ne
    simp only [EpisodeMemory.fresh, hactions]
  rw [hopens, open_toOption] at hold
  simp only [hopens, open_toOption, reads_save hserde, Survives]
  cases htext : saveText serde io m with
  | none =>
    refine iff_of_true ⟨m₀, hold, Or.inl rfl⟩ fun json hjson => ?_
    cases hjson
  | some json =>
    rw [Option.map_some]
    dsimp only
    constructor
    · rintro ⟨m', hopen, -⟩ json' hjson'
      obtain rfl : json = json' := Option.some.inj hjson'
      split_ifs at hopen with hopened hall
      · exact Or.inl hopened
      · exact Or.inr hall
      · cases hopen
    · intro hsurvives
      rcases hsurvives json rfl with hnot | hall
      · rw [if_pos hnot]
        exact ⟨m₀, hold, Or.inl rfl⟩
      · have hopened : io.write ≠ .notOpened := by
          intro hnot
          rw [hnot] at hall
          exact hall.1
        rw [if_neg hopened, if_pos hall]
        refine ⟨_, ?_, Or.inr rfl⟩
        simp only [if_true, Option.bind_some, parseBuckets_toFile]
        exact congrArg some hnew

/-- A process that stops right after the file was truncated. -/
theorem open_after_save_truncated :
    let order : IterOrder String (Bucket (ExtNum ℝ)) := IterOrder.sorted (· ≤ ·)
    let io : SaveIo (ExtNum ℝ) := { SaveIo.idle with write := .cutAt 0 }
    let m : EpisodeMemory (ExtNum ℝ) := .fresh defaultMemoryPath []
    (∃ m', EpisodeMemory.open Serde.emptyOnly true order
        (m.save Serde.emptyOnly io (some emptyText.toUTF8)).disk m.path m.actions = .ok m' ∧
        (m' = m ∨ m' = { m with dirtySinceSave := 0 })) ↔
      Survives Serde.emptyOnly io m := by
  intro order io m
  have hread : Serde.emptyOnly.fromStr emptyText = some (m.toFile byFingerprint) := by
    rw [toFile_empty byFingerprint rfl]
    exact emptyOnly_reads
  exact open_after_save_iff emptyOnly_strict io (open_written hread order)

/-- A save that stops right after it truncated the file leaves one that does not open, although
the old file did. -/
theorem interrupted_save_loses_file :
    let order : IterOrder String (Bucket (ExtNum ℝ)) := IterOrder.sorted (· ≤ ·)
    let io : SaveIo (ExtNum ℝ) := { SaveIo.idle with write := .cutAt 0 }
    let m : EpisodeMemory (ExtNum ℝ) := .fresh defaultMemoryPath []
    (Serde.emptyOnly : Serde (ExtNum ℝ)).Strict ∧
      Except.isOk (EpisodeMemory.open Serde.emptyOnly true order (some emptyText.toUTF8) m.path
        m.actions) = true ∧
      Except.isOk (EpisodeMemory.open Serde.emptyOnly true order
        (m.save Serde.emptyOnly io (some emptyText.toUTF8)).disk m.path m.actions) = false := by
  intro order io m
  have hread : Serde.emptyOnly.fromStr emptyText = some (m.toFile byFingerprint) := by
    rw [toFile_empty byFingerprint rfl]
    exact emptyOnly_reads
  have htext : saveText Serde.emptyOnly io m = some emptyText := by decide +kernel
  refine ⟨emptyOnly_strict, congrArg Except.isOk (open_written hread order), ?_⟩
  rw [EpisodeMemory.save_disk, htext]
  refine open_rejected (fun text h => ?_) true order m.path m.actions
  have hne : text ≠ emptyText := by
    rintro rfl
    exact absurd (congrArg ByteArray.size h) (by decide +kernel)
  simp [Serde.emptyOnly, hne]

end Foverin
