import Foverin.Brain.Encoding
import Foverin.Daemon.State
import Foverin.Ebpf.Probe

set_option relaxedAutoImplicit false
set_option autoImplicit false

/-!
# From the probe to the fingerprint

What the kernel probe writes into a record, `parse_process_event` reads, and `fingerprint` looks
up.  A record has room for 127 bytes of a path; a longer path is cut off there, and the program
that is looked up is then the last component of what was captured.

## Main definitions

* `Foverin.programName` — the program of a path, byte by byte.

## Main results

* `Foverin.encode_normalizedName` — the word that is looked up is the program of the path.
* `Foverin.sensing_sound` — what an executed program contributes to the fingerprint.
* `Foverin.cut_path_sets_gcc` — a cut path may look up a program that was not executed.
-/

namespace Foverin

open Bitset

/-! ## Programs -/

/-- The program of a path: the bytes after its last slash, in lower case, without one `.exe`. -/
def programName (path : List UInt8) : List UInt8 :=
  Utf8.dropSuffix (Utf8.encode ".exe") ((path.rtakeWhile (· ≠ 47)).map Utf8.lower)

/-- The word that is looked up for a text is the program of its bytes. -/
theorem encode_normalizedName (name : String) :
    Utf8.encode (normalizedName name) = programName (Utf8.encode name) := by
  have hbase : ((Utf8.encode name).rtakeWhile (· ≠ 47)).map Utf8.lower =
      Utf8.encode (toAsciiLowercase (basename name)) := by
    have h := @Utf8.rtakeWhile_encode '/' (by decide) name.toList
    rw [toAsciiLowercase, basename, Utf8.encode_ofList, String.toList_ofList,
      ← Utf8.map_lower_encode]
    exact congrArg (List.map Utf8.lower) h
  have hexe : ∀ c ∈ ".exe".toList, c.toNat < 128 := by simp
  have hdrop := Utf8.dropSuffix_encode hexe (toAsciiLowercase (basename name)).toList
  rw [programName, hbase]
  unfold normalizedName stripSuffix
  dsimp only
  split_ifs with hsuffix
  · rw [if_pos hsuffix] at hdrop
    rw [Option.getD_some, Utf8.encode_ofList, ← hdrop]
    rfl
  · rw [if_neg hsuffix] at hdrop
    exact hdrop.symm

/-- The text that stands for an unreadable name is no word. -/
lemma normalizedName_unreadable : normalizedName "?" ∉ vocab := by decide +kernel

/-- The word of an event whose name was written without NUL. -/
lemma word_padded {pid : UInt32} {bytes : List UInt8} (hlength : bytes.length ≤ filenameLen)
    (hnul : ∀ b ∈ bytes, b ≠ 0) {i : ℕ} {word : String} (hword : vocab[i]? = some word) :
    vocab[i]? = some (ProcessEvent.word ⟨pid, padded bytes⟩) ↔
      (∃ text, Utf8.encode text = bytes) ∧ programName bytes = Utf8.encode word := by
  rw [ProcessEvent.word, filenameStr_padded hlength hnul, hword, Option.some.injEq]
  cases htext : Utf8.decode bytes with
  | none =>
    have hno : ¬ ∃ text, Utf8.encode text = bytes := by
      rintro ⟨text, h⟩
      rw [Utf8.decode_eq_some_iff.mpr h] at htext
      cases htext
    simp only [hno, false_and, iff_false, Option.getD_none]
    rintro rfl
    exact normalizedName_unreadable (List.mem_of_getElem? hword)
  | some text =>
    obtain rfl := Utf8.decode_eq_some_iff.mp htext
    have hyes : ∃ text', Utf8.encode text' = Utf8.encode text := ⟨text, rfl⟩
    simp only [hyes, true_and, Option.getD_some]
    rw [← encode_normalizedName, Utf8.encode_injective.eq_iff, eq_comm]

/-! ## Contributions -/

lemma captured_ne_zero {path : List UInt8} (hnul : 0 ∉ path) : ∀ b ∈ captured path, b ≠ 0 := by
  rintro b hb rfl
  exact hnul (List.mem_of_mem_take hb)

lemma length_captured_le (path : List UInt8) : (captured path).length ≤ filenameLen :=
  (List.length_take_le _ _).trans (by decide)

/-- A path of at most 127 bytes is captured as a whole. -/
lemma captured_of_length_le {path : List UInt8} (h : path.length ≤ 127) :
    captured path = path := List.take_of_length_le h

/-- A single event sets the bit of its word. -/
lemma bit_fingerprint_singleton (e : ProcessEvent) (i : ℕ) :
    bit (fingerprint [e]) i = true ↔ vocab[i]? = some e.word := by
  rw [bit_fingerprint]
  simp

/-- The token is a word of the vocabulary. -/
lemma word_steamApp (pid : UInt32) : ProcessEvent.word ⟨pid, padded steamApp⟩ = "steam_app" := by
  have htoken : padded steamApp = padded (Utf8.encode "steam_app") := by decide +kernel
  have hmem : "steam_app" ∈ vocab := by decide +kernel
  rw [htoken]
  exact word_wordEvent hmem

/-- What a submitted event contributes, by the parent of the process. -/
lemma bit_submitted {offsets : TaskOffsets} {k : Kernel} {path : List UInt8}
    (hcopies : k.CopiesPath path) (hnul : 0 ∉ path) {e : ProcessEvent}
    (hevent : (tryFoverin offsets k).2 = some e) :
    (k.SteamParent offsets →
      ∀ i, bit (fingerprint [e]) i = true ↔ vocab[i]? = some "steam_app") ∧
    (¬ k.SteamParent offsets → ∀ i word, vocab[i]? = some word →
      (bit (fingerprint [e]) i = true ↔
        (∃ text, Utf8.encode text = captured path) ∧
          programName (captured path) = Utf8.encode word)) := by
  obtain ⟨hsteam, hother⟩ := tryFoverin_event hcopies hevent
  constructor
  · intro h i
    rw [bit_fingerprint_singleton, hsteam h, word_steamApp]
  · intro h i word hword
    rw [bit_fingerprint_singleton, hother h]
    exact word_padded (length_captured_le path) (captured_ne_zero hnul) hword

/-- **Sensing is sound up to the length of a record.** An event that the probe submits arrives as
it was built, and contributes to the fingerprint of any window it is in: the bit of `steam_app` for
a child of Steam, and otherwise the bit of a word exactly if the captured path is UTF-8 and its
program is that word.  Up to 127 bytes the captured path is the path.

**Proof sketch.** A record is read back as the event that it was made from, and the fingerprint of
a window is the union of those of its events.  The normal form of a captured path is its program
name, which is a word of the vocabulary exactly if the bytes are the text of that word. -/
theorem sensing_sound {offsets : TaskOffsets} {k : Kernel} {path : List UInt8}
    (hcopies : k.CopiesPath path) (hnul : 0 ∉ path) {e : ProcessEvent}
    (hevent : (tryFoverin offsets k).2 = some e) :
    parseProcessEvent e.record = some e ∧
    (∀ A B, fingerprint (A ++ e :: B) = fingerprint A ||| fingerprint [e] ||| fingerprint B) ∧
    (k.SteamParent offsets →
      ∀ i, bit (fingerprint [e]) i = true ↔ vocab[i]? = some "steam_app") ∧
    (¬ k.SteamParent offsets →
      (∀ i, bit (fingerprint [e]) i = true → ∃ word, vocab[i]? = some word ∧
        programName (captured path) = Utf8.encode word) ∧
      ((∃ text, Utf8.encode text = captured path) → ∀ i word, vocab[i]? = some word →
        programName (captured path) = Utf8.encode word → bit (fingerprint [e]) i = true)) ∧
    (path.length ≤ 127 → captured path = path) := by
  obtain ⟨hsteam, hother⟩ := bit_submitted hcopies hnul hevent
  refine ⟨parseProcessEvent_record e, fun A B => ?_, hsteam, fun h => ⟨fun i hi => ?_, ?_⟩,
    captured_of_length_le⟩
  · rw [List.append_cons, fingerprint_append, fingerprint_append]
  · obtain ⟨e', he', hword⟩ := (bit_fingerprint [e] i).mp hi
    exact ⟨e'.word, hword, ((hother h i e'.word hword).mp hi).2⟩
  · intro htext i word hword hprogram
    exact (hother h i word hword).mpr ⟨htext, hprogram⟩

/-! ## Two paths -/

/-- The buffer after `bpf_probe_read_kernel_str_bytes` has read a path: the captured bytes and a
NUL, and what was there behind them. -/
def copyStr (path : List UInt8) (buf : Vector UInt8 filenameLen) : Vector UInt8 filenameLen :=
  Vector.ofFn fun i => ((captured path) ++ [0]).getD i (buf.get i)

/-- The name of a shell. -/
def shellComm : Vector UInt8 taskCommLen :=
  Vector.ofFn fun i => (Utf8.encode "bash").getD i 0

/-- A kernel on which a shell executes a path. -/
def shellExec (path : List UInt8) : Kernel where
  scratch := true
  tgid := 4242
  ctx := 0x1000
  dataLoc := .ok 0x00080010
  readStr _ := copyStr path
  currentTask := 0x2000
  readPtr _ := some 0x3000
  readComm _ := some shellComm
  reserve := true

/-- Copying some bytes and a NUL into a zeroed buffer. -/
lemma ofFn_append_zero (n : ℕ) (bytes : List UInt8) :
    (Vector.ofFn fun i : Fin n => (bytes ++ [0]).getD i ((Vector.replicate n 0).get i)) =
      Vector.ofFn fun i : Fin n => bytes.getD i 0 := by
  apply Vector.ext
  intro i hi
  have hzero : (Vector.replicate n (0 : UInt8)).get ⟨i, hi⟩ = 0 := Vector.getElem_replicate hi
  rw [Vector.getElem_ofFn, Vector.getElem_ofFn, hzero, List.getD_eq_getElem?_getD,
    List.getD_eq_getElem?_getD, List.getElem?_append]
  split_ifs with hlt
  · rfl
  · rw [List.getElem?_eq_none (not_lt.mp hlt), Option.getD_none]
    cases hsub : i - bytes.length with
    | zero => rfl
    | succ j => rfl

lemma shellExec_copiesPath (path : List UInt8) : (shellExec path).CopiesPath path :=
  fun _ _ => ofFn_append_zero filenameLen (captured path)

lemma shellExec_not_steam (path : List UInt8) : ¬ (shellExec path).SteamParent ⟨8, 16⟩ := by
  rw [← Kernel.parentCommIsSteam_iff]
  show ¬ commEq shellComm (Utf8.encode "steam") = true
  decide +kernel

lemma shellExec_event (path : List UInt8) :
    (tryFoverin ⟨8, 16⟩ (shellExec path)).2 = some ⟨4242, padded (captured path)⟩ := by
  have hsteam : ¬ (shellExec path).parentCommIsSteam ⟨8, 16⟩ = true := by
    rw [Kernel.parentCommIsSteam_iff]
    exact shellExec_not_steam path
  have hread := shellExec_copiesPath path 0x00080010 rfl
  show some (ProcessEvent.mk 4242 (if (shellExec path).parentCommIsSteam ⟨8, 16⟩ = true then _
    else (shellExec path).readStr _ _)) = _
  rw [if_neg hsteam, hread]

/-- A shell executes `/usr/bin/gcc`. -/
theorem sensing_sound_gcc : ∃ e,
    (tryFoverin ⟨8, 16⟩ (shellExec (Utf8.encode "/usr/bin/gcc"))).2 = some e ∧
      parseProcessEvent e.record = some e ∧ bit (fingerprint [e]) 4 = true := by
  have hnul : 0 ∉ Utf8.encode "/usr/bin/gcc" := by decide +kernel
  obtain ⟨hrecord, -, -, hother, hshort⟩ :=
    sensing_sound (shellExec_copiesPath _) hnul (shellExec_event _)
  obtain ⟨-, hsets⟩ := hother (shellExec_not_steam _)
  refine ⟨_, shellExec_event _, hrecord, ?_⟩
  refine hsets ⟨"/usr/bin/gcc", (hshort (by decide +kernel)).symm⟩ 4 "gcc" rfl ?_
  decide +kernel

/-- A path whose first 127 bytes end where the name of a compiler would. -/
def cutPath : List UInt8 := 47 :: List.replicate 122 97 ++ Utf8.encode "/gcc-wrapper"

/-- **A cut path looks up a program that was not executed.** A shell executes a wrapper; what is
captured of its path ends in `/gcc`, and the event sets the bit of that compiler. -/
theorem cut_path_sets_gcc : ∃ e,
    (shellExec cutPath).CopiesPath cutPath ∧ 0 ∉ cutPath ∧
      ¬ (shellExec cutPath).SteamParent ⟨8, 16⟩ ∧
      (tryFoverin ⟨8, 16⟩ (shellExec cutPath)).2 = some e ∧
      bit (fingerprint [e]) 4 = true ∧ vocab[4]? = some "gcc" ∧
      programName cutPath ≠ Utf8.encode "gcc" := by
  have hnul : 0 ∉ cutPath := by decide +kernel
  have htext : Utf8.encode ("/" ++ String.ofList (List.replicate 122 'a') ++ "/gcc") =
      captured cutPath := by decide +kernel
  refine ⟨_, shellExec_copiesPath _, hnul, shellExec_not_steam _, shellExec_event _, ?_, rfl, ?_⟩
  · rw [bit_fingerprint_singleton]
    refine (word_padded (length_captured_le _) (captured_ne_zero hnul) rfl).mpr ⟨⟨_, htext⟩, ?_⟩
    decide +kernel
  · decide +kernel

end Foverin
