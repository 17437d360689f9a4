import Foverin.Lib.Utf8
import Foverin.Memory.Spec
import Foverin.Text

set_option relaxedAutoImplicit false
set_option autoImplicit false

/-!
# The record of a store

What `save` writes is a record of the store, as a text of the JSON library; what `open` reads is
such a text.  The table of the store is recovered from its record, in whatever orders the two maps
are walked.

## Main definitions

* `Foverin.EpisodeMemory.Finite` — every average is a finite number.
* `Foverin.Serde.ReadsBack`, `Foverin.Serde.Strict` — what is assumed of the JSON library.
* `Foverin.Serde.ofTexts` — a library that knows some texts.
* `Foverin.twoBuckets` — a store with two buckets.

## Main results

* `Foverin.parseBuckets_toFile` — the table is recovered from the record, in any order.
* `Foverin.EpisodeMemory.open_spec` — an opened store.
* `Foverin.open_written` — a file with the record of a store opens as that store.
* `Foverin.ofTexts_strict` — a library that knows texts of one size.
-/

namespace Foverin

open Finmap FloatOps

variable {F : Type}

/-! ## The record and the table -/

lemma lookup_toFile (o : BucketOrder F) (m : EpisodeMemory F) (s : String) (b : Bucket F) :
    (m.toFile o).buckets.lookup s = some b ↔
      ∃ fp, Decimal.printU64 fp = s ∧ m.buckets.lookup fp = some b :=
  o.lookup_ofEntries_map Decimal.printU64_injective m.buckets s b

/-- The record does not depend on the order in which the buckets are copied. -/
lemma toFile_congr (o o' : BucketOrder F) {m m' : EpisodeMemory F} (ht : m.tick = m'.tick)
    (hb : m.buckets = m'.buckets) : m.toFile o = m'.toFile o' := by
  have hbuckets : (m.toFile o).buckets = (m'.toFile o').buckets := by
    apply Finmap.ext_lookup
    intro s
    apply Option.ext
    intro b
    rw [lookup_toFile, lookup_toFile, hb]
  unfold EpisodeMemory.toFile at hbuckets ⊢
  rw [ht]
  exact congrArg _ hbuckets

/-- The record of an empty table. -/
lemma toFile_empty (o : BucketOrder F) {m : EpisodeMemory F} (h : m.buckets = ∅) :
    m.toFile o = ⟨m.tick, ∅⟩ := by
  rw [EpisodeMemory.toFile, h, IterOrder.visit_empty]
  rfl

/-- The record of a table with one bucket. -/
lemma toFile_singleton (o : BucketOrder F) {m : EpisodeMemory F} {fp : UInt64} {b : Bucket F}
    (h : m.buckets = (∅ : Buckets F).insert fp b) :
    m.toFile o =
      ⟨m.tick, (∅ : Finmap fun _ : String => Bucket F).insert (Decimal.printU64 fp) b⟩ := by
  rw [EpisodeMemory.toFile, h, IterOrder.visit_insert_empty]
  rfl

/-- Keys that were printed are read back one by one. -/
lemma mapM_parseKey (l : List (Σ _ : String, Bucket F))
    (h : ∀ e ∈ l, ∃ fp, Decimal.printU64 fp = e.1) :
    ∃ l' : List (Σ _ : UInt64, Bucket F),
      (l.mapM fun e => do
        let key ← parseKey e.1
        return (⟨key, e.2⟩ : Σ _ : UInt64, Bucket F)) = .ok l' ∧
      l'.map (fun e => (⟨Decimal.printU64 e.1, e.2⟩ : Σ _ : String, Bucket F)) = l := by
  induction l with
  | nil => exact ⟨[], rfl, rfl⟩
  | cons e l ih =>
    rw [List.forall_mem_cons] at h
    obtain ⟨s, b⟩ := e
    obtain ⟨⟨fp, rfl⟩, hl⟩ := h
    obtain ⟨l', hok, hmap⟩ := ih hl
    refine ⟨⟨fp, b⟩ :: l', ?_, by rw [List.map_cons, hmap]⟩
    have hkey : parseKey (Decimal.printU64 fp) = .ok fp := by
      rw [parseKey, Decimal.parseU64_printU64]
    rw [List.mapM_cons, hok]
    simp only [hkey]
    rfl

/-- **Re-keying.** The table is recovered from its record, whatever the two orders are.

**Proof sketch.** Every key of the record is the print of a fingerprint, which is read back.
Printing is injective, so that the entries which are collected have distinct keys, and a lookup in
their table is a lookup in the table of the store. -/
theorem parseBuckets_toFile (order : IterOrder String (Bucket F)) (o : BucketOrder F)
    (m : EpisodeMemory F) : parseBuckets order (m.toFile o) = .ok m.buckets := by
  obtain ⟨l', hok, hmap⟩ := mapM_parseKey (order.visit (m.toFile o).buckets) fun e he => by
    obtain ⟨fp, hfp, -⟩ := (lookup_toFile o m e.1 e.2).mp (order.mem_visit.mp he)
    exact ⟨fp, hfp⟩
  have hnodup : (l'.map Sigma.fst).Nodup := by
    have h := order.nodup_visit (m.toFile o).buckets
    rw [← hmap, List.map_map] at h
    exact List.Nodup.of_map Decimal.printU64 (by rwa [List.map_map])
  have htable : ofEntries l' = m.buckets := by
    apply Finmap.ext_lookup
    intro fp
    apply Option.ext
    intro b
    have hmem : (⟨fp, b⟩ : Σ _ : UInt64, Bucket F) ∈ l' ↔
        (⟨Decimal.printU64 fp, b⟩ : Σ _ : String, Bucket F) ∈
          order.visit (m.toFile o).buckets := by
      rw [← hmap, List.mem_map]
      constructor
      · intro h
        exact ⟨_, h, rfl⟩
      · rintro ⟨⟨fp', b'⟩, h, heq⟩
        simp only [Sigma.mk.injEq, heq_eq_eq, Decimal.printU64_injective.eq_iff] at heq
        obtain ⟨rfl, rfl⟩ := heq
        exact h
    rw [lookup_ofEntries hnodup, hmem, order.mem_visit, lookup_toFile]
    constructor
    · rintro ⟨fp', heq, h⟩
      rwa [← Decimal.printU64_injective heq]
    · intro h
      exact ⟨fp, rfl, h⟩
  rw [parseBuckets, hok, ← htable]
  rfl

/-! ## Reading a file -/

/-- **An opened store** has the path and the actions that it was opened with, and nothing to
save. -/
theorem EpisodeMemory.open_spec {serde : Serde F} {readOk : Bool}
    {order : IterOrder String (Bucket F)} {disk : Disk} {path : MemoryPath} {actions : List String}
    {m : EpisodeMemory F} (h : EpisodeMemory.open serde readOk order disk path actions = .ok m) :
    m.path = path ∧ m.actions = (actionsOrDefault actions).1 ∧ m.dirtySinceSave = 0 := by
  unfold EpisodeMemory.open at h
  cases disk with
  | none =>
    cases h
    exact ⟨rfl, rfl, rfl⟩
  | some bytes =>
    dsimp only at h
    cases hf : readFile serde readOk path bytes with
    | error e =>
      rw [hf] at h
      cases h
    | ok file =>
      rw [hf] at h
      cases hb : parseBuckets order file with
      | error e =>
        simp only [bind, Except.bind, hb] at h
        cases h
      | ok buckets =>
        simp only [bind, Except.bind, hb, pure, Except.pure, Except.ok.injEq] at h
        rw [← h]
        exact ⟨rfl, rfl, rfl⟩

/-- A file with the record of a store opens as that store, with nothing to save. -/
theorem open_written {serde : Serde F} {json : String} {o : BucketOrder F} {m : EpisodeMemory F}
    (h : serde.fromStr json = some (m.toFile o)) (order : IterOrder String (Bucket F)) :
    EpisodeMemory.open serde true order (some json.toUTF8) m.path m.actions =
      .ok { m with dirtySinceSave := 0 } := by
  have hread : readFile serde true m.path json.toUTF8 = .ok (m.toFile o) := by
    unfold readFile
    rw [if_pos rfl, Utf8.fromUTF8?_bytes]
    simp only [h]
  have hactions : actionsOrDefault m.actions = ⟨m.actions, m.actions_ne⟩ := dif_neg m.actions_ne
  simp only [EpisodeMemory.open, hread, bind, Except.bind, parseBuckets_toFile, hactions]
  rfl

/-- A file without an accepted text does not open. -/
lemma open_rejected {serde : Serde F} {bytes : ByteArray}
    (h : ∀ text : String, text.toByteArray = bytes → serde.fromStr text = none) (readOk : Bool)
    (order : IterOrder String (Bucket F)) (path : MemoryPath) (actions : List String) :
    Except.isOk (EpisodeMemory.open serde readOk order (some bytes) path actions) = false := by
  have hread : ∃ e, readFile serde readOk path bytes = .error e := by
    unfold readFile
    split
    · exact ⟨_, rfl⟩
    · rename_i text htext
      have hbytes : text.toByteArray = bytes := by
        split_ifs at htext
        exact Utf8.toByteArray_of_fromUTF8? htext
      rw [h text hbytes]
      exact ⟨_, rfl⟩
  obtain ⟨e, he⟩ := hread
  simp only [EpisodeMemory.open, he, bind, Except.bind]
  rfl

/-! ## What a save leaves in the file -/

/-- A save that succeeds has written a whole text. -/
lemma save_disk_of_ok {serde : Serde F} {io : SaveIo F} {m : EpisodeMemory F} {disk : Disk}
    (h : Except.isOk (m.save serde io disk).result = true) :
    ∃ json, serde.toStringPretty io.layout (m.toFile io.order) = some json ∧
      (m.save serde io disk).disk = some json.toUTF8 := by
  rw [EpisodeMemory.save_isOk, Bool.and_eq_true] at h
  obtain ⟨json, htext⟩ := Option.isSome_iff_exists.mp h.1
  refine ⟨json, toStringPretty_of_saveText htext, ?_⟩
  rw [EpisodeMemory.save_disk, htext, of_decide_eq_true h.2]
  rfl

/-- A save whose steps all succeed. -/
lemma save_complete {serde : Serde F} (io : SaveIo F) {m : EpisodeMemory F} {json : String}
    (disk : Disk) (hdir : io.createDir = true) (hwrite : io.write = .complete)
    (h : serde.toStringPretty io.layout (m.toFile io.order) = some json) :
    m.save serde io disk = ⟨.ok (), { m with dirtySinceSave := 0 }, some json.toUTF8⟩ := by
  obtain ⟨err, hsave⟩ := EpisodeMemory.save_eq serde io m disk
  have htext : saveText serde io m = some json := by
    rw [saveText, if_pos (Or.inr hdir), h]
  rw [hsave, htext, hwrite]
  rfl

/-! ## Finite averages -/

section Finite

variable [FloatOps F]

/-- Every average of the bucket is a finite number. -/
def Bucket.Finite (b : Bucket F) : Prop :=
  ∀ g s, b.actions.lookup g = some s → isFinite s.emaReward = true

/-- Every average of the record is a finite number. -/
def MemoryFile.Finite (f : MemoryFile F) : Prop := ∀ s b, f.buckets.lookup s = some b → b.Finite

/-- Every average of the store is a finite number. -/
def EpisodeMemory.Finite (m : EpisodeMemory F) : Prop :=
  ∀ fp b, m.buckets.lookup fp = some b → b.Finite

lemma toFile_finite (o : BucketOrder F) (m : EpisodeMemory F) :
    (m.toFile o).Finite ↔ m.Finite := by
  constructor
  · intro h fp b hb
    exact h _ b ((lookup_toFile o m _ b).mpr ⟨fp, rfl, hb⟩)
  · intro h s b hb
    obtain ⟨fp, -, hfp⟩ := (lookup_toFile o m s b).mp hb
    exact h fp b hfp

/-! ## The JSON library -/

/-- The JSON library reads back what it writes for finite numbers. -/
structure Serde.ReadsBack (serde : Serde F) : Prop where
  readsBack : ∀ layout (f : MemoryFile F) json, f.Finite →
    serde.toStringPretty layout f = some json → serde.fromStr json = some f

/-- The JSON library reads back what it writes for finite numbers, rejects the `null` that it
writes for other numbers, and rejects a text that ends too early. -/
structure Serde.Strict (serde : Serde F) : Prop extends serde.ReadsBack where
  rejectsNull : ∀ layout (f : MemoryFile F) json, ¬ f.Finite →
    serde.toStringPretty layout f = some json → serde.fromStr json = none
  rejectsPrefix : ∀ layout (f : MemoryFile F) json, serde.toStringPretty layout f = some json →
    ∀ (k : ℕ) (text : String), k < json.utf8ByteSize →
      text.toByteArray = json.toByteArray.extract 0 k → serde.fromStr text = none

/-! ## A library of some texts -/

/-- A library that knows some records and their texts.  A record may have several texts: the order
in which its maps are walked picks one of them. -/
def Serde.ofTexts [DecidableEq F] (texts : List (MemoryFile F × String)) : Serde F where
  toStringPretty layout f :=
    let known := (texts.filter fun e => e.1 = f).map Prod.snd
    known[layout % known.length]?
  fromStr := readText texts

section Texts

variable [DecidableEq F] {texts : List (MemoryFile F × String)}

omit [FloatOps F] in
/-- It writes what it knows. -/
lemma mem_of_ofTexts_writes {layout : ℕ} {f : MemoryFile F} {json : String}
    (h : (Serde.ofTexts texts).toStringPretty layout f = some json) : (f, json) ∈ texts := by
  have hmem := List.mem_of_getElem? h
  obtain ⟨e, he, rfl⟩ := List.mem_map.mp hmem
  rw [List.mem_filter, decide_eq_true_eq] at he
  obtain ⟨he, rfl⟩ := he
  exact he

omit [FloatOps F] in
/-- A record with a single text is written as that text. -/
lemma ofTexts_writes {f : MemoryFile F} {json : String}
    (h : (texts.filter fun e => e.1 = f) = [(f, json)]) (layout : ℕ) :
    (Serde.ofTexts texts).toStringPretty layout f = some json := by
  unfold Serde.ofTexts
  dsimp only
  rw [h, List.map_singleton, List.length_singleton, Nat.mod_one]
  rfl

/-- **A library of texts of one size.** If the texts are pairwise distinct and the records finite,
it reads back what it writes, and nothing that was cut off. -/
theorem ofTexts_strict (hnodup : (texts.map Prod.snd).Nodup)
    (hfinite : ∀ e ∈ texts, e.1.Finite)
    (hsize : ∀ e ∈ texts, ∀ e' ∈ texts, e.2.utf8ByteSize = e'.2.utf8ByteSize) :
    (Serde.ofTexts texts).Strict where
  readsBack layout f json _ h := readText_of_mem hnodup (mem_of_ofTexts_writes h)
  rejectsNull layout f json hf h := absurd (hfinite _ (mem_of_ofTexts_writes h)) hf
  rejectsPrefix layout f json h k text hk htext := by
    refine readText_eq_none fun e he heq => ?_
    have hbytes := congrArg ByteArray.size htext
    have hsame : e.2.utf8ByteSize = json.utf8ByteSize :=
      hsize e he _ (mem_of_ofTexts_writes h)
    rw [← heq, ByteArray.size_extract, String.size_toByteArray, String.size_toByteArray,
      hsame] at hbytes
    omega

end Texts

end Finite

/-- Two texts of one size. -/
lemma size_eq_of_pair {a b : MemoryFile F × String} (h : a.2.utf8ByteSize = b.2.utf8ByteSize) :
    ∀ e ∈ [a, b], ∀ e' ∈ [a, b], e.2.utf8ByteSize = e'.2.utf8ByteSize := by
  have hsize : ∀ e ∈ [a, b], e.2.utf8ByteSize = a.2.utf8ByteSize := by
    rintro e he
    rcases List.mem_pair.mp he with rfl | rfl
    · rfl
    · exact h.symm
  exact fun e he e' he' => (hsize e he).trans (hsize e' he').symm

/-! ## A store with two buckets -/

/-- A bucket with statistics of a governor that is not available any more. -/
noncomputable def ondemandBucket : Bucket (ExtNum ℝ) :=
  ⟨3, 40, (∅ : Finmap fun _ : String => ActionStats (ExtNum ℝ)).insert "ondemand"
    ⟨3, FloatOps.lit 0.25⟩⟩

/-- A bucket with statistics of two governors. -/
noncomputable def compileBucket (tick : UInt64) (total visits : UInt32) (ema : ℝ) :
    Bucket (ExtNum ℝ) :=
  ⟨total, tick, ((∅ : Finmap fun _ : String => ActionStats (ExtNum ℝ)).insert "powersave"
    ⟨1, FloatOps.lit 0.25⟩).insert "performance" ⟨visits, .num ema⟩⟩

lemma lookup_compileBucket (tick : UInt64) (total visits : UInt32) (ema : ℝ) :
    (compileBucket tick total visits ema).actions.lookup "performance" = some ⟨visits, .num ema⟩ ∧
      (compileBucket tick total visits ema).actions.lookup "powersave" =
        some ⟨1, .num (1 / 4)⟩ := by
  have hquarter : (FloatOps.lit 0.25 : ExtNum ℝ) = .num (1 / 4) := by
    rw [ExtNum.lit_eq]
    norm_num
  unfold compileBucket
  refine ⟨lookup_insert _, ?_⟩
  rw [lookup_insert_of_ne _ (by decide), lookup_insert, hquarter]

/-- A store with these two buckets, one of them under the greatest key. -/
noncomputable def twoBuckets (tick : UInt64) (total visits : UInt32) (ema : ℝ) (dirty : UInt64) :
    EpisodeMemory (ExtNum ℝ) where
  buckets := ((∅ : Buckets (ExtNum ℝ)).insert 18446744073709551615 ondemandBucket).insert 3
    (compileBucket tick total visits ema)
  actions := ["performance", "powersave"]
  actions_ne := List.cons_ne_nil _ _
  tick := tick
  path := defaultMemoryPath
  dirtySinceSave := dirty

/-- The text of its record. -/
def twoBucketsText (tick total visits ema : String) : String :=
  "\x7b\n  \"tick\": " ++ tick ++ ",\n  \"buckets\": \x7b\n" ++
    "    \"18446744073709551615\": \x7b\n      \"total_visits\": 3,\n" ++
    "      \"last_used\": 40,\n      \"actions\": \x7b\n        \"ondemand\": \x7b\n" ++
    "          \"visits\": 3,\n          \"ema_reward\": 0.25\n        \x7d\n" ++
    "      \x7d\n    \x7d,\n    \"3\": \x7b\n      \"total_visits\": " ++ total ++
    ",\n      \"last_used\": " ++ tick ++ ",\n      \"actions\": \x7b\n" ++
    "        \"performance\": \x7b\n          \"visits\": " ++ visits ++
    ",\n          \"ema_reward\": " ++ ema ++ "\n        \x7d,\n" ++
    "        \"powersave\": \x7b\n          \"visits\": 1,\n" ++
    "          \"ema_reward\": 0.25\n        \x7d\n      \x7d\n    \x7d\n  \x7d\n\x7d"

lemma lookup_twoBuckets_max (tick : UInt64) (total visits : UInt32) (ema : ℝ) (dirty : UInt64) :
    (twoBuckets tick total visits ema dirty).buckets.lookup 18446744073709551615 =
      some ondemandBucket := by
  unfold twoBuckets
  dsimp only
  rw [lookup_insert_of_ne _ (by decide), lookup_insert]

lemma lookup_twoBuckets (tick : UInt64) (total visits : UInt32) (ema : ℝ) (dirty : UInt64) :
    (twoBuckets tick total visits ema dirty).buckets.lookup 3 =
      some (compileBucket tick total visits ema) := lookup_insert _

/-- Its averages are finite. -/
lemma twoBuckets_finite (tick : UInt64) (total visits : UInt32) (ema : ℝ) (dirty : UInt64) :
    (twoBuckets tick total visits ema dirty).Finite := by
  intro fp b hb g s hs
  simp only [twoBuckets, lookup_insert_eq_ite, lookup_empty] at hb
  split_ifs at hb <;> cases hb
  · simp only [compileBucket, lookup_insert_eq_ite, lookup_empty] at hs
    split_ifs at hs <;> cases hs <;> rfl
  · simp only [ondemandBucket, lookup_insert_eq_ite, lookup_empty] at hs
    split_ifs at hs
    cases hs
    rfl

/-- A selection for the second bucket stamps it. -/
lemma twoBuckets_touch (order : BucketOrder (ExtNum ℝ)) (tick : UInt64)
    (total visits : UInt32) (ema : ℝ) (dirty : UInt64) :
    (twoBuckets tick total visits ema dirty).touch order 3 =
      twoBuckets (tick.saturatingAdd 1) total visits ema dirty := by
  have hlookup := lookup_twoBuckets tick total visits ema dirty
  unfold EpisodeMemory.touch
  dsimp only
  rw [makeRoom_of_mem order (mem_of_lookup_eq_some hlookup), entryOrNew_of_lookup hlookup]
  unfold twoBuckets
  dsimp only
  rw [insert_insert]
  rfl

/-- An update of the second bucket, for a governor that it knows. -/
lemma twoBuckets_credit (order : BucketOrder (ExtNum ℝ)) (tick : UInt64) (total : UInt32)
    (visits : UInt32) (hvisits : visits ≠ 0) (ema : ℝ) (dirty : UInt64) {r : ℝ} (h₀ : 0 ≤ r)
    (h₁ : r ≤ 1) :
    (twoBuckets tick total visits ema dirty).credit order 3 "performance" (.num r) =
      twoBuckets tick (total.saturatingAdd 1) (visits.saturatingAdd 1) (4 / 5 * ema + r / 5)
        (dirty.saturatingAdd 1) := by
  have hlookup := lookup_twoBuckets tick total visits ema dirty
  have hema : (FloatOps.lit 1 - FloatOps.lit 0.2) * ExtNum.num ema +
      FloatOps.lit 0.2 * ExtNum.num r = ExtNum.num (4 / 5 * ema + r / 5) := by
    simp only [ExtNum.lit_eq, ExtNum.num_sub, ExtNum.num_mul, ExtNum.num_add]
    congr 1
    push_cast
    ring
  have hrecord : (compileBucket tick total visits ema).record tick "performance" (.num r) =
      compileBucket tick (total.saturatingAdd 1) (visits.saturatingAdd 1)
        (4 / 5 * ema + r / 5) := by
    unfold Bucket.record compileBucket
    dsimp only
    rw [lookup_insert, Option.getD_some, insert_insert, ActionStats.record, if_neg hvisits, hema]
  unfold EpisodeMemory.credit
  dsimp only
  rw [makeRoom_of_mem order (mem_of_lookup_eq_some hlookup), entryOrNew_of_lookup hlookup,
    ExtNum.clamp_unit h₀ h₁]
  have htick : (twoBuckets tick total visits ema dirty).tick = tick := rfl
  rw [htick, hrecord]
  unfold twoBuckets
  dsimp only
  rw [insert_insert]

/-! ## A file with this store -/

/-- The store that is in the file. -/
noncomputable def savedBuckets : EpisodeMemory (ExtNum ℝ) := twoBuckets 41 2 1 (0.5 : ℚ) 0

lemma savedBuckets_eq : savedBuckets = twoBuckets 41 2 1 (1 / 2) 0 := by
  have hhalf : ((0.5 : ℚ) : ℝ) = 1 / 2 := by norm_num
  rw [savedBuckets, hhalf]

lemma savedBuckets_finite : savedBuckets.Finite := twoBuckets_finite _ _ _ _ _

/-- The text of the file. -/
def savedText : String := twoBucketsText "41" "2" "1" "0.5"

/-- A library that knows this file, and the text of one more store. -/
noncomputable def Serde.resaves (m : EpisodeMemory (ExtNum ℝ)) (text : String) :
    Serde (ExtNum ℝ) :=
  .ofTexts [(savedBuckets.toFile byFingerprint, savedText), (m.toFile byFingerprint, text)]

/-- An update that attempts no save. -/
lemma twoBuckets_update (serde : Serde (ExtNum ℝ)) (order : BucketOrder (ExtNum ℝ))
    (io : SaveIo (ExtNum ℝ)) (tick : UInt64) (total : UInt32) (visits : UInt32)
    (hvisits : visits ≠ 0) (ema : ℝ) (dirty : UInt64)
    (hdirty : (dirty.saturatingAdd 1).toNat < saveEvery) {r : ℝ} (h₀ : 0 ≤ r) (h₁ : r ≤ 1)
    (disk : Disk) :
    Stored.step serde ⟨twoBuckets tick total visits ema dirty, disk⟩
        (.update order io 3 "performance" (.num r)) =
      (⟨twoBuckets tick (total.saturatingAdd 1) (visits.saturatingAdd 1) (4 / 5 * ema + r / 5)
        (dirty.saturatingAdd 1), disk⟩, ⟨none, none⟩) := by
  have hcredit := twoBuckets_credit order tick total visits hvisits ema dirty h₀ h₁
  have hupdate : EpisodeMemory.update serde order io 3 "performance" (.num r)
      (twoBuckets tick total visits ema dirty) disk =
        (none, ⟨_, disk⟩) := if_neg (not_le.mpr hdirty)
  rw [hcredit] at hupdate
  unfold Stored.step
  dsimp only
  rw [hupdate]

lemma twoBuckets_select (serde : Serde (ExtNum ℝ)) (order : BucketOrder (ExtNum ℝ))
    (prior : String) (tick : UInt64) (total visits : UInt32) (ema : ℝ) (dirty : UInt64)
    (disk : Disk) :
    (Stored.step serde ⟨twoBuckets tick total visits ema dirty, disk⟩
      (.select order 3 prior)).1 =
        ⟨twoBuckets (tick.saturatingAdd 1) total visits ema dirty, disk⟩ := by
  rw [Stored.step_select, twoBuckets_touch]

/-- A selection, the credit for it, and another selection. -/
lemma savedBuckets_round (serde : Serde (ExtNum ℝ))
    (order order' order'' : BucketOrder (ExtNum ℝ)) (io : SaveIo (ExtNum ℝ))
    (prior prior' : String) (disk : Disk) :
    (storeMachine serde).final ⟨savedBuckets, disk⟩
      [.select order 3 prior, .update order' io 3 "performance" (.num 1),
        .select order'' 3 prior'] = ⟨twoBuckets 43 3 2 (3 / 5) 1, disk⟩ := by
  have hfirst : (Stored.step serde ⟨savedBuckets, disk⟩ (.select order 3 prior)).1 =
      ⟨twoBuckets 42 2 1 (1 / 2) 0, disk⟩ := by
    rw [savedBuckets_eq]
    exact twoBuckets_select ..
  have hupdate := twoBuckets_update serde order' io 42 2 1 (by decide) (1 / 2) 0
    (by decide) zero_le_one le_rfl disk
  have hema : (4 / 5 * (1 / 2) + 1 / 5 : ℝ) = 3 / 5 := by norm_num
  rw [hema] at hupdate
  have hlast := twoBuckets_select serde order'' prior' 42 3 2 (3 / 5) 1 disk
  simp only [Machine.final_cons, Machine.final_nil, storeMachine, hfirst, hupdate]
  exact hlast

section Resaves

variable {m m' : EpisodeMemory (ExtNum ℝ)} {text : String}

/-- The file opens as the store that is in it, for any path and any actions. -/
lemma resaves_opens (order : IterOrder String (Bucket (ExtNum ℝ)))
    (m' : EpisodeMemory (ExtNum ℝ)) (htick : m'.tick = 41)
    (hbuckets : m'.buckets = savedBuckets.buckets)
    (hdirty : m'.dirtySinceSave = 0) :
    EpisodeMemory.open (.resaves m text) true order (some savedText.toUTF8) m'.path m'.actions =
      .ok m' := by
  have hread : (Serde.resaves m text).fromStr savedText = some (m'.toFile byFingerprint) := by
    rw [toFile_congr byFingerprint byFingerprint (htick.trans rfl) hbuckets]
    simp [Serde.resaves, Serde.ofTexts, readText]
  rw [open_written hread order, ← hdirty]

/-- The other store is written as its text, whatever it has not saved. -/
lemma resaves_writes (hnew : m.tick ≠ 41) (layout : ℕ) (order : BucketOrder (ExtNum ℝ))
    (htick : m'.tick = m.tick) (hbuckets : m'.buckets = m.buckets) :
    (Serde.resaves m text).toStringPretty layout (m'.toFile order) = some text := by
  rw [toFile_congr order byFingerprint htick hbuckets]
  refine ofTexts_writes ?_ layout
  have hne : savedBuckets.toFile byFingerprint ≠ m.toFile byFingerprint := fun heq =>
    hnew (congrArg MemoryFile.tick heq).symm
  rw [List.filter_cons_of_neg (by simpa using hne), List.filter_singleton, decide_eq_true rfl]
  rfl

/-- It is as strict as the real one, if the two texts have one size. -/
lemma resaves_strict (hfinite : m.Finite) (hne : savedText ≠ text)
    (hsize : savedText.utf8ByteSize = text.utf8ByteSize) : (Serde.resaves m text).Strict := by
  refine ofTexts_strict (by simpa using hne) ?_ (size_eq_of_pair hsize)
  rintro e he
  rcases List.mem_pair.mp he with rfl | rfl
  · exact (toFile_finite _ _).mpr savedBuckets_finite
  · exact (toFile_finite _ _).mpr hfinite

end Resaves

end Foverin
