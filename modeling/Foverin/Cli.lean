import Foverin.Daemon.State
import Foverin.Lib.Framing
import Foverin.Lib.Machine
import Foverin.Lib.Utf8
import Foverin.Text

set_option relaxedAutoImplicit false
set_option autoImplicit false

/-!
# The command-line client

The reader task of `foverin/src/bin/foverin-cli.rs`: it takes lines from the socket, each of them a
snapshot, and replaces the snapshot that is shown.  A line that is not a snapshot leaves it alone;
a line that is no text ends the task.

The socket delivers bytes in chunks of any length, and may be closed anywhere.  How they are put
together to lines is not part of the source: `tokio`'s `Lines` is a parameter, and what its
documentation says of it is `LineReader.Documented`.

## Main definitions

* `Foverin.SnapshotSerde` — the JSON library on snapshots.
* `Foverin.LineReader`, `Foverin.LineReader.Documented` — `BufReader::lines`.
* `Foverin.Cli`, `Foverin.Cli.step`, `Foverin.cliMachine` — the reader task.
* `Foverin.SnapshotSerde.Carries`, `Foverin.Sent` — snapshots on the wire.

## Main results

* `Foverin.Cli.run_data` — what is done with the lines of some chunks.
* `Foverin.Cli.run_sent` — after the beginning of a stream of snapshots.
* `Foverin.cli_shows_sent` — the client shows nothing but what was sent.
-/

namespace Foverin

variable {F L : Type}

/-! ## Lines -/

/-- `BufReader::lines`, with the bytes that it keeps as its state: the lines that a chunk completes,
and what it still has when the stream ends.  A line that is no text is an error. -/
structure LineReader (L : Type) where
  start : L
  feed : Machine L (List UInt8) (List (Option String))
  finish : L → Option (Option String)

/-- A line without its end. -/
def lineText (text : String) : String := String.ofList (stripCarriageReturn text.toList)

/-- What is documented of `Lines`.  As long as every line is text, the lines are those of all bytes,
wherever the chunks end, each without its line feed and without a carriage return before it.  At the
end of the stream the bytes after the last line feed are a line of their own, if there are any. -/
structure LineReader.Documented (R : LineReader L) : Prop where
  lines : ∀ (chunks : List (List UInt8)) (texts : List String),
    (Framing.cut 10 chunks.flatten).1 = texts.map Utf8.encode →
      (R.feed.outputs R.start chunks).flatten = texts.map fun text => some (lineText text)
  rest : ∀ (chunks : List (List UInt8)) (texts : List String) (rest : List UInt8),
    Framing.cut 10 chunks.flatten = (texts.map Utf8.encode, rest) →
      R.finish (R.feed.final R.start chunks) =
        if rest = [] then none else some (Utf8.decode rest)

/-! ## The reader task -/

/-- The JSON library on `StateSnapshot`. -/
structure SnapshotSerde (F : Type) where
  /-- `serde_json::to_string`. -/
  toText : StateSnapshot F → Except String String
  /-- `serde_json::from_str`. -/
  fromStr : String → Option (StateSnapshot F)

/-- `StateSnapshot::default`. -/
def StateSnapshot.default [FloatOps F] : StateSnapshot F :=
  { processStream := []
    workload := none
    confidence := FloatOps.lit 0
    latencyUs := 0
    activeGovernor := "unknown"
    status := "" }

/-- The reader task: its lines, the snapshot that is shown, and whether its loop still runs. -/
structure Cli (F L : Type) where
  lines : L
  snapshot : StateSnapshot F
  reading : Bool

/-- What the socket yields. -/
inductive SocketRead where
  | data (bytes : List UInt8)
  /-- The peer has closed the connection. -/
  | closed
  | failed

namespace Cli

/-- The task at its start. -/
def start [FloatOps F] (R : LineReader L) : Cli F L := ⟨R.start, .default, true⟩

/-- The body of the loop. -/
def take (serde : SnapshotSerde F) (s : Cli F L) (line : String) : Cli F L :=
  if trim line = "" then s
  else
    match serde.fromStr line with
    | some snap => { s with snapshot := snap }
    | none => s

/-- One round of the loop, for what `next_line` returns. -/
def nextLine (serde : SnapshotSerde F) (s : Cli F L) : Option String → Cli F L
  | some line => if s.reading then s.take serde line else s
  | none => { s with reading := false }

/-- What the task does with what the socket yields. -/
def step (serde : SnapshotSerde F) (R : LineReader L) (s : Cli F L) : SocketRead → Cli F L × Unit
  | .data bytes =>
    let (lines, complete) := R.feed.step s.lines bytes
    ({ complete.foldl (nextLine serde) s with lines := lines }, ())
  | .closed =>
    let s := match R.finish s.lines with
      | some line => s.nextLine serde line
      | none => s
    ({ s with reading := false }, ())
  | .failed => ({ s with reading := false }, ())

end Cli

/-- Runs of the task. -/
def cliMachine (serde : SnapshotSerde F) (R : LineReader L) : Machine (Cli F L) SocketRead Unit :=
  ⟨Cli.step serde R⟩

namespace Cli

variable (serde : SnapshotSerde F)

/-! ## Chunks -/

/-- The lines that are still to come are not looked at. -/
lemma nextLine_lines (s : Cli F L) (line : Option String) (lines : L) :
    nextLine serde { s with lines := lines } line =
      { nextLine serde s line with lines := lines } := by
  cases line with
  | none => rfl
  | some line =>
    unfold nextLine take
    dsimp only
    split_ifs
    · rfl
    · cases serde.fromStr line <;> rfl
    · rfl

lemma foldl_nextLine_lines (complete : List (Option String)) (s : Cli F L) (lines : L) :
    complete.foldl (nextLine serde) { s with lines := lines } =
      { complete.foldl (nextLine serde) s with lines := lines } := by
  induction complete generalizing s with
  | nil => rfl
  | cons line complete ih => rw [List.foldl_cons, nextLine_lines, ih, List.foldl_cons]

/-- **Chunks.** After some chunks the task has gone through the lines that they complete. -/
theorem run_data (R : LineReader L) (s : Cli F L) (chunks : List (List UInt8)) :
    (cliMachine serde R).final s (chunks.map .data) =
      { (R.feed.outputs s.lines chunks).flatten.foldl (nextLine serde) s with
        lines := R.feed.final s.lines chunks } := by
  induction chunks generalizing s with
  | nil => rfl
  | cons chunk chunks ih =>
    rw [List.map_cons, Machine.final_cons, ih, Machine.outputs_cons, List.flatten_cons,
      List.foldl_append, Machine.final_cons]
    exact congrArg (fun t : Cli F L => { t with
      lines := R.feed.final (R.feed.step s.lines chunk).1 chunks })
      (foldl_nextLine_lines serde _ _ _)

/-! ## The end of the stream -/

variable {R : LineReader L} {s : Cli F L}

lemma step_closed_of_none (h : R.finish s.lines = none) :
    (s.step serde R .closed).1.snapshot = s.snapshot := by
  unfold step
  dsimp only
  rw [h]

/-- What is left at the end of the stream is a line. -/
lemma step_closed_of_some {line : Option String} (h : R.finish s.lines = some line) :
    (s.step serde R .closed).1.snapshot = (s.nextLine serde line).snapshot := by
  unfold step
  dsimp only
  rw [h]

end Cli

/-! ## Snapshots on the wire -/

/-- A text carries a snapshot: it is what the JSON library writes for it, an object on one line,
and the library reads the snapshot back from it, but nothing from a part that was cut off. -/
structure SnapshotSerde.Carries (serde : SnapshotSerde F) (snap : StateSnapshot F)
    (text : String) : Prop where
  written : serde.toText snap = .ok text
  object : ∃ body : List Char, text.toList = '\x7b' :: body ++ ['\x7d'] ∧ '\n' ∉ body
  readsBack : serde.fromStr text = some snap
  truncated : ∀ part : String, part.toList <+: text.toList → part ≠ text →
    serde.fromStr part = none

/-- A line is what is sent for a snapshot. -/
def Sent (serde : SnapshotSerde F) (line : String) (snap : StateSnapshot F) : Prop :=
  ∃ text, serde.Carries snap text ∧ line = text.push '\n'

/-- The bytes of some lines. -/
def wire (lines : List String) : List UInt8 := lines.flatMap Utf8.encode

/-- The bytes of a line. -/
lemma encode_push_newline (text : String) :
    Utf8.encode (text.push '\n') = Utf8.encode text ++ [10] := by
  have hnewline : Utf8.encodeChars ['\n'] = [10] := by decide +kernel
  rw [Utf8.encode, String.toList_push, Utf8.encodeChars_append, hnewline]
  rfl

section Wire

variable {serde : SnapshotSerde F}

/-- The lines are those of some texts, each of which carries its snapshot. -/
lemma exists_texts {lines : List String} {snaps : List (StateSnapshot F)}
    (h : List.Forall₂ (Sent serde) lines snaps) :
    ∃ texts : List String, lines = texts.map (fun text => text.push '\n') ∧
      List.Forall₂ (fun text snap => serde.Carries snap text) texts snaps := by
  induction h with
  | nil => exact ⟨[], rfl, .nil⟩
  | cons hsent _ ih =>
    obtain ⟨text, hcarries, rfl⟩ := hsent
    obtain ⟨texts, rfl, hall⟩ := ih
    exact ⟨text :: texts, rfl, .cons hcarries hall⟩

/-- Lines on the wire are frames. -/
lemma wire_map_push (texts : List String) :
    wire (texts.map fun text => text.push '\n') = Framing.join 10 (texts.map Utf8.encode) := by
  rw [wire, Framing.join, List.flatMap_map, List.flatMap_map]
  exact List.flatMap_congr fun text _ => encode_push_newline text

namespace SnapshotSerde.Carries

variable {snap : StateSnapshot F} {text : String}

/-- The bytes of a snapshot have no line feed. -/
lemma notMem_encode (h : serde.Carries snap text) : 10 ∉ Utf8.encode text := by
  obtain ⟨body, htext, hbody⟩ := h.object
  have hnewline : '\n' ∉ text.toList := by
    rw [htext]
    simp [hbody]
  exact Utf8.notMem_encodeChars (by decide) hnewline

/-- There is nothing to take off a snapshot. -/
lemma lineText_eq (h : serde.Carries snap text) : lineText text = text := by
  obtain ⟨body, htext, -⟩ := h.object
  have hstrip : stripCarriageReturn text.toList = text.toList := by
    unfold stripCarriageReturn
    rw [htext, List.getLast?_concat, if_neg (by decide)]
  rw [lineText, hstrip, String.ofList_toList]

/-- A snapshot is not a blank line. -/
lemma trim_ne (h : serde.Carries snap text) : trim text ≠ "" := by
  obtain ⟨body, htext, -⟩ := h.object
  intro hempty
  have hlist := congrArg String.toList hempty
  have hhead : ∀ c ∈ text.toList.head?, isWhitespace c = false := by
    rw [htext]
    rintro c ⟨⟩
    decide
  have hlast : ∀ c ∈ text.toList.getLast?, isWhitespace c = false := by
    rw [htext, List.getLast?_concat]
    rintro c ⟨⟩
    decide
  rw [toList_trim, Words.trim_eq_self hhead hlast, htext] at hlist
  cases hlist

/-- A snapshot has bytes. -/
lemma encode_ne (h : serde.Carries snap text) : Utf8.encode text ≠ [] := by
  intro hnil
  have hempty : text = "" := Utf8.encode_injective hnil
  refine h.trim_ne ?_
  rw [hempty]
  rfl

/-- A snapshot is taken from its line. -/
lemma nextLine (h : serde.Carries snap text) {s : Cli F L} (hreading : s.reading = true) :
    s.nextLine serde (some text) = { s with snapshot := snap } := by
  unfold Cli.nextLine Cli.take
  dsimp only
  rw [if_pos hreading, if_neg h.trim_ne, h.readsBack]

/-- A text that was cut off leaves what is shown alone. -/
lemma nextLine_cut (h : serde.Carries snap text) {bytes : List UInt8}
    (hbytes : bytes <+: Utf8.encode text) (hne : bytes ≠ Utf8.encode text) (s : Cli F L) :
    (s.nextLine serde (Utf8.decode bytes)).snapshot = s.snapshot := by
  cases hdecode : Utf8.decode bytes with
  | none => rfl
  | some part =>
    obtain rfl := Utf8.decode_eq_some_iff.mp hdecode
    have hprefix : part.toList <+: text.toList := Utf8.prefix_of_encodeChars_prefix hbytes
    have hpart : part ≠ text := fun heq => hne (congrArg Utf8.encode heq)
    unfold Cli.nextLine Cli.take
    dsimp only
    split_ifs
    · rfl
    · rw [h.truncated part hprefix hpart]
    · rfl

end SnapshotSerde.Carries

/-- No text of a snapshot has a line feed. -/
lemma notMem_texts {texts : List String} {snaps : List (StateSnapshot F)}
    (h : List.Forall₂ (fun text snap => serde.Carries snap text) texts snaps) :
    ∀ f ∈ texts.map Utf8.encode, (10 : UInt8) ∉ f := by
  induction h with
  | nil => exact nofun
  | cons hcarries _ ih =>
    rw [List.map_cons, List.forall_mem_cons]
    exact ⟨hcarries.notMem_encode, ih⟩

/-- Lines that are snapshots are shown one after the other. -/
lemma Cli.foldl_sent {texts : List String} {snaps : List (StateSnapshot F)}
    (h : List.Forall₂ (fun text snap => serde.Carries snap text) texts snaps) {s : Cli F L}
    (hreading : s.reading = true) :
    (texts.map fun text => some (lineText text)).foldl (nextLine serde) s =
      { s with snapshot := snaps.getLast?.getD s.snapshot } := by
  induction h generalizing s with
  | nil => rfl
  | @cons text snap texts snaps hcarries _ ih =>
    have hlater := ih (s := { s with snapshot := snap }) hreading
    rw [List.map_cons, List.foldl_cons, hcarries.lineText_eq, hcarries.nextLine hreading, hlater,
      List.getLast?_cons]
    rfl

/-! ## What is shown -/

variable [FloatOps F] {R : LineReader L}

/-- The latest of some snapshots, or the one that is shown before any has come. -/
def latest (snaps : List (StateSnapshot F)) : StateSnapshot F := snaps.getLast?.getD .default

lemma latest_concat (snaps : List (StateSnapshot F)) (snap : StateSnapshot F) :
    latest (snaps ++ [snap]) = snap := by
  rw [latest, List.getLast?_concat, Option.getD_some]

/-- **The beginning of a stream.** After it the latest snapshot is shown whose line feed has
come.

**Proof sketch.** The reader yields the frames that are complete in what has come, however it was
cut into chunks, and a prefix of the stream completes as many texts as it has line feeds. -/
theorem Cli.run_sent (hR : R.Documented) {lines : List String} {snaps : List (StateSnapshot F)}
    (h : List.Forall₂ (Sent serde) lines snaps) {chunks : List (List UInt8)}
    (hchunks : chunks.flatten <+: wire lines) :
    let k := chunks.flatten.count 10
    k ≤ snaps.length ∧ (k = snaps.length ↔ chunks.flatten = wire lines) ∧
      (cliMachine serde R).final (.start R) (chunks.map .data) =
        ⟨R.feed.final R.start chunks, latest (snaps.take k), true⟩ := by
  intro k
  obtain ⟨texts, rfl, hall⟩ := exists_texts h
  rw [wire_map_push] at hchunks ⊢
  obtain ⟨hk, hcut, -, hend⟩ := Framing.cut_of_prefix 10 (notMem_texts hall) hchunks
  rw [List.length_map, hall.length_eq] at hk hend
  rw [← List.map_take] at hcut
  refine ⟨hk, hend, ?_⟩
  have hshown := Cli.foldl_sent (List.forall₂_take k hall) (s := Cli.start R) rfl
  rw [← hR.lines chunks _ hcut] at hshown
  exact (Cli.run_data serde R (.start R) chunks).trans
    (congrArg (fun t : Cli F L => { t with lines := R.feed.final R.start chunks }) hshown)

/-- **The end of a stream.** The text that has begun counts if all of it has come.

**Proof sketch.** The bytes after the last line feed are a prefix of the text that comes next.  If
they are all of it then they are read as that line; a proper prefix is no record of a snapshot, and
an empty one is no line. -/
theorem Cli.closed_sent (hR : R.Documented) {lines : List String} {snaps : List (StateSnapshot F)}
    (h : List.Forall₂ (Sent serde) lines snaps) {chunks : List (List UInt8)}
    (hchunks : chunks.flatten <+: wire lines) :
    let k := chunks.flatten.count 10
    let s : Cli F L := ⟨R.feed.final R.start chunks, latest (snaps.take k), true⟩
    ∃ rest, chunks.flatten = wire (lines.take k) ++ rest ∧ 10 ∉ rest ∧
      (s.step serde R .closed).1.snapshot = latest (snaps.take
        (if (lines[k]?).map Utf8.encode = some (rest ++ [10]) then k + 1 else k)) := by
  intro k s
  obtain ⟨texts, rfl, hall⟩ := exists_texts h
  rw [wire_map_push] at hchunks
  obtain ⟨-, hcut, hrest, -⟩ := Framing.cut_of_prefix 10 (notMem_texts hall) hchunks
  obtain ⟨hjoin, hkept⟩ := Framing.join_cut 10 chunks.flatten
  rw [← List.map_take] at hcut
  rw [← List.map_drop] at hrest
  obtain ⟨rest, hleft⟩ : ∃ rest, (Framing.cut 10 chunks.flatten).2 = rest := ⟨_, rfl⟩
  rw [hleft] at hrest hjoin hkept
  have hfinish := hR.rest chunks _ rest (Prod.ext hcut hleft)
  refine ⟨rest, ?_, hkept, ?_⟩
  · rw [← List.map_take, wire_map_push, ← hcut, hjoin]
  have hunread : rest = [] →
      (s.step serde R .closed).1.snapshot = latest (snaps.take k) := by
    intro hnil
    rw [if_pos hnil] at hfinish
    exact Cli.step_closed_of_none serde hfinish
  have hread : rest ≠ [] → (s.step serde R .closed).1.snapshot =
      (s.nextLine serde (Utf8.decode rest)).snapshot := by
    intro hne
    rw [if_neg hne] at hfinish
    exact Cli.step_closed_of_some serde hfinish
  have hlater := List.forall₂_drop k hall
  rw [List.getElem?_map, ← List.head?_drop]
  cases hdrop : texts.drop k with
  | nil =>
    rw [show texts.drop (chunks.flatten.count 10) = [] from hdrop] at hrest
    rw [hunread (List.prefix_nil.mp hrest)]
    rfl
  | cons text later =>
    rw [show texts.drop (chunks.flatten.count 10) = text :: later from hdrop] at hrest
    rw [hdrop] at hlater
    generalize hsnaps : snaps.drop k = unread at hlater
    obtain _ | @⟨_, snap, _, _, hcarries, -⟩ := hlater
    have hsnap : snaps[k]? = some snap := by
      rw [← List.head?_drop, hsnaps]
      rfl
    have hline : (Option.map Utf8.encode (Option.map (fun text => text.push '\n')
        (text :: later).head?) = some (rest ++ [10])) ↔ rest = Utf8.encode text := by
      rw [List.head?_cons, Option.map_some, Option.map_some, encode_push_newline, Option.some_inj,
        List.append_left_inj, eq_comm]
    rw [if_congr hline rfl rfl]
    have hnext : rest <+: Utf8.encode text ++ 10 :: Framing.join 10 (later.map Utf8.encode) := by
      simpa [Framing.join] using hrest
    have hprefix : rest <+: Utf8.encode text := Framing.prefix_of_notMem hkept hnext
    by_cases hwhole : rest = Utf8.encode text
    · rw [if_pos hwhole, hread (hwhole ▸ hcarries.encode_ne), hwhole,
        Utf8.decode_eq_some_iff.mpr rfl, hcarries.nextLine rfl, List.take_add_one, hsnap]
      exact (latest_concat _ snap).symm
    · rw [if_neg hwhole]
      by_cases hnil : rest = []
      · exact hunread hnil
      · rw [hread hnil, hcarries.nextLine_cut hprefix hwhole]

/-- **The client shows nothing but what was sent.** Of a stream of snapshots a client gets some
beginning, in chunks of any length, after which the connection may be closed or fail.  It shows the
latest snapshot whose line feed has come, which is the last one exactly if all bytes have come, and
nothing of the next one.  When the connection is closed, the next one counts if all but its line
feed has come. -/
theorem cli_shows_sent (hR : R.Documented) {lines : List String} {snaps : List (StateSnapshot F)}
    (h : List.Forall₂ (Sent serde) lines snaps) {chunks : List (List UInt8)}
    (hchunks : chunks.flatten <+: wire lines) :
    let k := chunks.flatten.count 10
    let s := (cliMachine serde R).final (.start R) (chunks.map .data)
    k ≤ snaps.length ∧ (k = snaps.length ↔ chunks.flatten = wire lines) ∧
      s.reading = true ∧ s.snapshot = latest (snaps.take k) ∧
      (s.step serde R .failed).1.snapshot = latest (snaps.take k) ∧
      ∃ rest, chunks.flatten = wire (lines.take k) ++ rest ∧ 10 ∉ rest ∧
        (s.step serde R .closed).1.snapshot = latest (snaps.take
          (if (lines[k]?).map Utf8.encode = some (rest ++ [10]) then k + 1 else k)) := by
  intro k s
  obtain ⟨hk, hend, hs⟩ := Cli.run_sent hR h hchunks
  rw [show s = _ from hs]
  exact ⟨hk, hend, rfl, rfl, rfl, Cli.closed_sent hR h hchunks⟩

end Wire

/-! ## A reader of lines -/

/-- A reader that keeps the bytes after the last line feed. -/
def LineReader.buffered : LineReader (List UInt8) where
  start := []
  feed := ⟨fun pending chunk =>
    let (complete, rest) := Framing.cut 10 (pending ++ chunk)
    (rest, complete.map fun bytes => (Utf8.decode bytes).map lineText)⟩
  finish pending := if pending = [] then none else some (Utf8.decode pending)

/-- Chunks do not matter to it. -/
lemma buffered_run {pending : List UInt8} (h : 10 ∉ pending) (chunks : List (List UInt8)) :
    LineReader.buffered.feed.final pending chunks =
        (Framing.cut 10 (pending ++ chunks.flatten)).2 ∧
      (LineReader.buffered.feed.outputs pending chunks).flatten =
        (Framing.cut 10 (pending ++ chunks.flatten)).1.map fun bytes =>
          (Utf8.decode bytes).map lineText := by
  induction chunks generalizing pending with
  | nil =>
    rw [List.flatten_nil, List.append_nil, Framing.cut_of_notMem 10 h]
    exact ⟨rfl, rfl⟩
  | cons chunk chunks ih =>
    obtain ⟨hfinal, houtputs⟩ := ih (Framing.join_cut 10 (pending ++ chunk)).2
    rw [List.flatten_cons, ← List.append_assoc, Framing.cut_append 10 (pending ++ chunk),
      Machine.final_cons, Machine.outputs_cons, List.flatten_cons, List.map_append]
    exact ⟨hfinal, congrArg _ houtputs⟩

lemma buffered_documented : LineReader.buffered.Documented where
  lines chunks texts h := by
    have houtputs := (buffered_run List.not_mem_nil chunks).2
    rw [List.nil_append, h, List.map_map] at houtputs
    refine houtputs.trans (List.map_congr_left fun text _ => ?_)
    rw [Function.comp_apply, Utf8.decode_eq_some_iff.mpr rfl, Option.map_some]
  rest chunks texts rest h := by
    have hfinal := (buffered_run List.not_mem_nil chunks).1
    rw [List.nil_append, h] at hfinal
    rw [show LineReader.buffered.feed.final LineReader.buffered.start chunks = rest from hfinal]
    rfl

/-! ## Some snapshots -/

/-- A JSON library that knows some snapshots and their texts. -/
def SnapshotSerde.ofTexts [DecidableEq F] (texts : List (StateSnapshot F × String)) :
    SnapshotSerde F where
  toText snap :=
    match texts.find? fun e => e.1 = snap with
    | some e => .ok e.2
    | none => .error "unknown snapshot"
  fromStr := readText texts

/-- A text on one line without closing braces. -/
def Plain (s : String) : Prop := ∀ c ∈ s.toList, c ≠ '\n' ∧ c ≠ '\x7d'

lemma plain_ofList (l : List Char)
    (h : (l.all fun c => c.toNat ≠ 10 && c.toNat ≠ 125) = true) : Plain (String.ofList l) := by
  intro c hc
  rw [String.toList_ofList] at hc
  have hc' := List.all_eq_true.mp h c hc
  rw [Bool.and_eq_true, decide_eq_true_eq, decide_eq_true_eq] at hc'
  refine ⟨?_, ?_⟩
  · rintro rfl
    exact hc'.1 rfl
  · rintro rfl
    exact hc'.2 rfl

lemma Plain.append {s t : String} (hs : Plain s) (ht : Plain t) : Plain (s ++ t) := by
  intro c hc
  rw [String.toList_append, List.mem_append] at hc
  exact hc.elim (hs c) (ht c)

/-- The text of an object. -/
def objectText (body : String) : String := String.ofList ('\x7b' :: body.toList ++ ['\x7d'])

/-- If its texts are different objects on one line, with no object inside, each of them carries its
snapshot. -/
lemma ofTexts_carries [DecidableEq F] {texts : List (StateSnapshot F × String)}
    (hnodup : (texts.map Prod.snd).Nodup)
    (hobject : ∀ e ∈ texts, ∃ body, e.2 = objectText body ∧ Plain body)
    {snap : StateSnapshot F} {text : String}
    (h : (SnapshotSerde.ofTexts texts).toText snap = .ok text) :
    (SnapshotSerde.ofTexts texts).Carries snap text := by
  have hmem : (snap, text) ∈ texts := by
    unfold SnapshotSerde.ofTexts at h
    cases hfind : texts.find? fun e => e.1 = snap with
    | none => simp [hfind] at h
    | some e =>
      have hsnap := List.find?_some hfind
      simp only [hfind, Except.ok.injEq] at h
      simp only [decide_eq_true_eq] at hsnap
      rw [← hsnap, ← h]
      exact List.mem_of_find?_eq_some hfind
  obtain ⟨body, rfl, hplain⟩ := hobject _ hmem
  have htext : (objectText body).toList = '\x7b' :: body.toList ++ ['\x7d'] :=
    String.toList_ofList
  refine ⟨h, ⟨body.toList, htext, fun hline => (hplain _ hline).1 rfl⟩,
    readText_of_mem hnodup hmem, fun part hpart hne => ?_⟩
  refine readText_eq_none fun e he heq => hne (String.toList_inj.mp ?_)
  -- a part that is a text of its own has the closing brace, which is the last letter
  obtain ⟨body', htext', -⟩ := hobject e he
  rw [htext] at hpart
  rcases List.prefix_concat_iff.mp hpart with hwhole | hshort
  · rw [hwhole, htext]
  · have hbrace : '\x7d' ∈ part.toList := by
      rw [← heq, htext', objectText, String.toList_ofList]
      simp
    rcases List.mem_cons.mp (hshort.subset hbrace) with hopen | hinside
    · cases hopen
    · exact absurd rfl (hplain _ hinside).2

/-- What stands between the braces of a snapshot without latency. -/
def snapshotBody (stream workload confidence governor status : String) : String :=
  "\"process_stream\":[" ++ stream ++ "],\"workload\":" ++ workload ++ ",\"confidence\":" ++
    confidence ++ ",\"latency_us\":0,\"active_governor\":\"" ++ governor ++ "\",\"status\":\"" ++
    status ++ "\""

lemma plain_snapshotBody {stream workload confidence governor status : String}
    (hstream : Plain stream) (hworkload : Plain workload) (hconfidence : Plain confidence)
    (hgovernor : Plain governor) (hstatus : Plain status) :
    Plain (snapshotBody stream workload confidence governor status) := by
  unfold snapshotBody
  refine .append (.append (.append (.append (.append (.append (.append (.append (.append (.append
    ?_ hstream) ?_) hworkload) ?_) hconfidence) ?_) hgovernor) ?_) hstatus) ?_
  all_goals exact plain_ofList _ rfl

section Snapshots

variable [FloatOps F]

/-- What a client is greeted with before there has been a decision. -/
def greetingSnapshot : StateSnapshot F :=
  { StateSnapshot.default with
    activeGovernor := "powersave"
    status := "memory policy — foverin_memory.json" }

/-- What is sent after the first decision. -/
def decidedSnapshot : StateSnapshot F :=
  { processStream := ["pid=0      rustc", "pid=0      cargo"]
    workload := some "COMPILING"
    confidence := FloatOps.lit 80
    latencyUs := 0
    activeGovernor := "performance"
    status := "memory bucket 0x3 hits=[rustc, cargo] → performance" }

/-- The text of the greeting. -/
def greetingText : String :=
  objectText (snapshotBody "" "null" "0.0" "powersave" "memory policy — foverin_memory.json")

/-- The text of the decision. -/
def decidedText : String :=
  objectText (snapshotBody "\"pid=0      rustc\",\"pid=0      cargo\"" "\"COMPILING\"" "80.0"
    "performance" "memory bucket 0x3 hits=[rustc, cargo] → performance")

/-- A JSON library for these two snapshots. -/
def exampleSerde [DecidableEq F] : SnapshotSerde F :=
  .ofTexts [(greetingSnapshot, greetingText), (decidedSnapshot, decidedText)]

lemma objectText_injective : Function.Injective objectText := by
  intro body body' h
  have hlist := congrArg String.toList h
  unfold objectText at hlist
  rw [String.toList_ofList, String.toList_ofList] at hlist
  exact String.toList_inj.mp (List.append_cancel_right (List.cons.inj hlist).2)

/-- Bodies with and without process lines differ. -/
lemma snapshotBody_ne {stream : String} {rest : List Char} (hstream : stream.toList = '"' :: rest)
    (workload workload' confidence confidence' governor governor' status status' : String) :
    snapshotBody "" workload confidence governor status ≠
      snapshotBody stream workload' confidence' governor' status' := by
  intro h
  have hlist := congrArg String.toList h
  unfold snapshotBody at hlist
  simp only [String.toList_append, List.append_assoc, List.append_cancel_left_eq,
    String.toList_empty, List.nil_append] at hlist
  have hclosing : "],\"workload\":".toList = ']' :: ",\"workload\":".toList := by simp
  rw [hclosing, hstream, List.cons_append, List.cons_append] at hlist
  exact absurd (List.cons.inj hlist).1 (by decide)

lemma exampleSerde_carries [DecidableEq F] {snap : StateSnapshot F} {text : String}
    (h : exampleSerde.toText snap = .ok text) : exampleSerde.Carries snap text := by
  refine ofTexts_carries ?_ ?_ h
  · refine List.nodup_cons.mpr ⟨fun hmem => ?_, List.nodup_singleton _⟩
    have hbody := objectText_injective (List.mem_singleton.mp hmem)
    exact snapshotBody_ne String.toList_ofList _ _ _ _ _ _ _ _ hbody
  · intro e he
    rcases List.mem_pair.mp he with rfl | rfl
    · exact ⟨_, rfl, plain_snapshotBody (plain_ofList _ rfl) (plain_ofList _ rfl)
        (plain_ofList _ rfl) (plain_ofList _ rfl) (plain_ofList _ rfl)⟩
    · exact ⟨_, rfl, plain_snapshotBody (plain_ofList _ rfl) (plain_ofList _ rfl)
        (plain_ofList _ rfl) (plain_ofList _ rfl) (plain_ofList _ rfl)⟩

lemma exampleSerde_greeting [DecidableEq F] :
    (exampleSerde (F := F)).toText greetingSnapshot = .ok greetingText := by
  simp [exampleSerde, SnapshotSerde.ofTexts]

lemma exampleSerde_decided [DecidableEq F] :
    (exampleSerde (F := F)).toText decidedSnapshot = .ok decidedText := by
  have hne : (greetingSnapshot : StateSnapshot F) ≠ decidedSnapshot := by
    intro heq
    have hworkload := congrArg StateSnapshot.workload heq
    cases hworkload
  simp [exampleSerde, SnapshotSerde.ofTexts, hne]

end Snapshots

/-- The greeting and the decision without its line feed, in two chunks: the decision is shown when
the connection is closed, but not when it fails. -/
theorem cli_shows_sent_two_chunks :
    let bytes := Utf8.encode (greetingText.push '\n') ++ Utf8.encode decidedText
    let s := (cliMachine (exampleSerde (F := ExtNum ℝ)) LineReader.buffered).final
      (.start LineReader.buffered) [.data (bytes.take 7), .data (bytes.drop 7)]
    s.snapshot = greetingSnapshot ∧
      (s.step exampleSerde LineReader.buffered .failed).1.snapshot = greetingSnapshot ∧
      (s.step exampleSerde LineReader.buffered .closed).1.snapshot = decidedSnapshot := by
  intro bytes s
  have hgreeting := exampleSerde_carries (F := ExtNum ℝ) exampleSerde_greeting
  have hdecided := exampleSerde_carries (F := ExtNum ℝ) exampleSerde_decided
  have hsent : List.Forall₂ (Sent (exampleSerde (F := ExtNum ℝ)))
      [greetingText.push '\n', decidedText.push '\n'] [greetingSnapshot, decidedSnapshot] :=
    .cons ⟨_, hgreeting, rfl⟩ (.cons ⟨_, hdecided, rfl⟩ .nil)
  have hall : [bytes.take 7, bytes.drop 7].flatten = bytes := by simp
  have hprefix : [bytes.take 7, bytes.drop 7].flatten <+:
      wire [greetingText.push '\n', decidedText.push '\n'] := by
    rw [hall]
    refine ⟨[10], ?_⟩
    rw [List.append_assoc, ← encode_push_newline]
    simp [wire]
  have hone : [bytes.take 7, bytes.drop 7].flatten.count 10 = 1 := by
    rw [hall, List.count_append, encode_push_newline, List.count_append,
      List.count_eq_zero_of_not_mem hgreeting.notMem_encode,
      List.count_eq_zero_of_not_mem hdecided.notMem_encode]
    rfl
  have hshows := cli_shows_sent buffered_documented hsent hprefix
  rw [hone] at hshows
  obtain ⟨-, -, -, hshown, hfailed, rest, hrest, -, hclosed⟩ := hshows
  have hrest' : rest = Utf8.encode decidedText := by
    rw [hall] at hrest
    refine (List.append_cancel_left (hrest.symm.trans ?_))
    simp [bytes, wire]
  have hnext : [greetingText.push '\n', decidedText.push '\n'][1]? =
      some (decidedText.push '\n') := rfl
  rw [hrest', ← encode_push_newline, hnext, Option.map_some, if_pos rfl] at hclosed
  generalize hs : (cliMachine (exampleSerde (F := ExtNum ℝ)) LineReader.buffered).final
    (.start LineReader.buffered) ([bytes.take 7, bytes.drop 7].map .data) = t
    at hshown hfailed hclosed
  rw [show s = t from hs]
  exact ⟨hshown, hfailed, hclosed⟩

end Foverin
