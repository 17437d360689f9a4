import Foverin.Brain.Fingerprint
import Foverin.Lib.Bitset
import Foverin.Lib.Utf8

set_option relaxedAutoImplicit false
set_option autoImplicit false

/-!
# What a fingerprint says

The fingerprint of a window is the set of the vocabulary entries that are the normalised name of
some event of it, and nothing else: neither the order of the events nor their number counts.  The
multi-hot vector, the soft label and the prior are functions of it.

## Main definitions

* `Foverin.fingerprint` — the fingerprint of a window.
* `Foverin.ProcessEvent.word` — the word that an event looks up.

## Main results

* `Foverin.bit_fingerprint` — the bits of a fingerprint.
* `Foverin.encodeEvents_eq` — the vector is read off the fingerprint.
* `Foverin.softLabel_eq` — so is the label.
* `Foverin.fingerprint_set_encoding` — all of it, for any two windows.
-/

namespace Foverin

open Bitset

/-- The fingerprint that `decide` computes for a window. -/
def fingerprint (events : List ProcessEvent) : UInt64 := fingerprintBits (encodeEvents events)

/-- The word that an event looks up in the vocabulary. -/
def ProcessEvent.word (e : ProcessEvent) : String :=
  normalizedName (filenameStr e.filename.toList)

/-! ## The vocabulary -/

/-- No entry occurs twice: an index stands for one word. -/
lemma vocab_nodup : vocab.Nodup := by decide +kernel

/-- Every entry is its own normal form, so that it can be met. -/
lemma normalizedName_of_mem_vocab : ∀ name ∈ vocab, normalizedName name = name := by
  decide +kernel

/-- The lookup finds the one index of a word. -/
lemma idxOf?_vocab {word : String} {i : ℕ} :
    vocab.idxOf? word = some i ↔ vocab[i]? = some word := by
  rw [List.idxOf?_eq_some_iff, List.getElem?_eq_some_iff]
  constructor
  · rintro ⟨hi, hword, -⟩
    exact ⟨hi, hword⟩
  · rintro ⟨hi, hword⟩
    refine ⟨hi, hword, fun j hj => ?_⟩
    rw [← hword, vocab_nodup.getElem_inj_iff]
    omega

/-! ## The vector -/

/-- One more name sets the entry of its word. -/
lemma encodeNames_concat (names : List String) (name : String) :
    encodeNames (names ++ [name]) =
      match vocab.idxOf? (normalizedName name) with
      | some idx => (encodeNames names).set idx 1
      | none => encodeNames names := by
  cases h : vocab.idxOf? (normalizedName name) with
  | none => simp [encodeNames, h]
  | some idx => simp [encodeNames, h]

lemma length_encodeNames (names : List String) :
    (encodeNames names).length = vocab.length := by
  induction names using List.reverseRecOn with
  | nil => rfl
  | append_singleton names name ih =>
    rw [encodeNames_concat]
    cases vocab.idxOf? (normalizedName name) with
    | none => exact ih
    | some idx => rw [List.length_set, ih]

/-- The entries of the vector: 1 for a word that some name has as its normal form, else 0. -/
lemma getElem?_encodeNames (names : List String) {i : ℕ} (hi : i < vocab.length) :
    (encodeNames names)[i]? =
      some (if ∃ name ∈ names, vocab[i]? = some (normalizedName name) then 1 else 0) := by
  induction names using List.reverseRecOn with
  | nil =>
    rw [encodeNames, List.foldl_nil, List.getElem?_replicate, if_pos hi]
    simp
  | append_singleton names name ih =>
    rw [encodeNames_concat]
    simp only [List.mem_append, List.mem_singleton, or_and_right, exists_or, exists_eq_left]
    cases hidx : vocab.idxOf? (normalizedName name) with
    | none =>
      have hne : vocab[i]? ≠ some (normalizedName name) := by
        intro h
        rw [idxOf?_vocab.mpr h] at hidx
        cases hidx
      simp only [ih, hne, or_false]
    | some idx =>
      have hword := idxOf?_vocab.mp hidx
      by_cases hidx' : idx = i
      · subst hidx'
        rw [List.getElem?_set_self (by rw [length_encodeNames]; exact hi)]
        simp only [hword, or_true, if_true]
      · have hne : vocab[i]? ≠ some (normalizedName name) := by
          intro h
          rw [idxOf?_vocab.mpr h] at hidx
          exact hidx' (Option.some.inj hidx).symm
        simp only [List.getElem?_set_ne hidx', ih, hne, or_false]

/-- The entries of the vector of a window. -/
lemma getElem?_encodeEvents (events : List ProcessEvent) {i : ℕ} (hi : i < vocab.length) :
    (encodeEvents events)[i]? =
      some (if ∃ e ∈ events, vocab[i]? = some e.word then 1 else 0) := by
  rw [encodeEvents, getElem?_encodeNames _ hi]
  refine congrArg some (if_congr ?_ rfl rfl)
  simp only [List.mem_map, exists_exists_and_eq_and, ProcessEvent.word]

/-! ## The fingerprint -/

/-- Bit `i` is set for a positive entry `i`. -/
lemma bit_fingerprintBits (multiHot : List ℚ) (i : ℕ) :
    bit (fingerprintBits multiHot) i = true ↔ i < 64 ∧ ∃ x, multiHot[i]? = some x ∧ 0 < x := by
  have hposition : ∀ e ∈ multiHot.zipIdx.take 64, e.2 < 64 := by
    rintro ⟨x, j⟩ he
    obtain ⟨k, hk, hget⟩ := List.mem_take_iff_getElem.mp he
    rw [List.getElem_zipIdx, Prod.mk.injEq] at hget
    omega
  have hmem : ∀ x, (x, i) ∈ multiHot.zipIdx.take 64 ↔ i < 64 ∧ multiHot[i]? = some x := by
    intro x
    constructor
    · intro he
      exact ⟨hposition _ he, List.mk_mem_zipIdx_iff_getElem?.mp (List.mem_of_mem_take he)⟩
    · rintro ⟨hi, hx⟩
      obtain ⟨hlen, hget⟩ := List.getElem?_eq_some_iff.mp hx
      refine List.mem_take_iff_getElem.mpr ⟨i, by rw [List.length_zipIdx]; omega, ?_⟩
      rw [List.getElem_zipIdx, hget, Nat.zero_add]
  unfold fingerprintBits
  rw [bit_foldl (fun e : ℚ × ℕ => 0 < e.1) Prod.snd i _ _ hposition]
  simp only [bit_zero, Bool.false_eq_true, false_or]
  constructor
  · rintro ⟨⟨x, j⟩, he, hpos, rfl⟩
    exact ⟨((hmem x).mp he).1, x, ((hmem x).mp he).2, hpos⟩
  · rintro ⟨hi, x, hx, hpos⟩
    exact ⟨(x, i), (hmem x).mpr ⟨hi, hx⟩, hpos, rfl⟩

/-- Bit `i` is set exactly if some event looks up entry `i` of the vocabulary. -/
theorem bit_fingerprint (events : List ProcessEvent) (i : ℕ) :
    bit (fingerprint events) i = true ↔ ∃ e ∈ events, vocab[i]? = some e.word := by
  rw [fingerprint, bit_fingerprintBits]
  by_cases hi : i < vocab.length
  · have h64 : i < 64 := hi.trans (by decide)
    rw [getElem?_encodeEvents events hi]
    constructor
    · rintro ⟨-, x, hx, hpos⟩
      by_contra hnone
      rw [if_neg hnone, Option.some.injEq] at hx
      exact hpos.ne hx
    · intro h
      exact ⟨h64, 1, by rw [if_pos h], by decide⟩
  · have hvocab : vocab[i]? = none := List.getElem?_eq_none (not_lt.mp hi)
    have hvec : (encodeEvents events)[i]? = none := by
      apply List.getElem?_eq_none
      rw [encodeEvents, length_encodeNames]
      exact not_lt.mp hi
    simp [hvocab, hvec]

/-- A window that is put together from two has the bits of both. -/
lemma fingerprint_append (A B : List ProcessEvent) :
    fingerprint (A ++ B) = fingerprint A ||| fingerprint B := by
  apply Bitset.ext
  intro i _
  rw [Bool.eq_iff_iff, bit_or, Bool.or_eq_true, bit_fingerprint, bit_fingerprint, bit_fingerprint]
  simp only [List.mem_append, or_and_right, exists_or]

/-- Windows with the same events have the same fingerprint, whatever the order of the events and
however often they occur. -/
lemma fingerprint_congr {A B : List ProcessEvent} (h : ∀ e, e ∈ A ↔ e ∈ B) :
    fingerprint A = fingerprint B := by
  apply Bitset.ext
  intro i _
  rw [Bool.eq_iff_iff, bit_fingerprint, bit_fingerprint]
  simp only [h]

/-- No bit is set beyond the vocabulary. -/
lemma bit_fingerprint_of_le (events : List ProcessEvent) {i : ℕ} (hi : vocab.length ≤ i) :
    bit (fingerprint events) i = false := by
  rw [← Bool.not_eq_true, bit_fingerprint]
  rintro ⟨e, -, he⟩
  rw [List.getElem?_eq_none hi] at he
  cases he

/-! ## What the fingerprint determines -/

/-- The vector of a window is read off its fingerprint. -/
theorem encodeEvents_eq (events : List ProcessEvent) :
    encodeEvents events =
      (List.range vocab.length).map fun i =>
        if bit (fingerprint events) i = true then 1 else 0 := by
  apply List.ext_getElem?
  intro i
  by_cases hi : i < vocab.length
  · rw [getElem?_encodeEvents events hi, List.getElem?_map, List.getElem?_range hi,
      Option.map_some]
    simp only [bit_fingerprint]
  · rw [List.getElem?_eq_none, List.getElem?_eq_none]
    · rw [List.length_map, List.length_range]
      exact not_lt.mp hi
    · rw [encodeEvents, length_encodeNames]
      exact not_lt.mp hi

/-- A range of the vector has a positive entry exactly if the fingerprint meets it. -/
lemma hit_encodeEvents (events : List ProcessEvent) (start : ℕ) {stop : ℕ}
    (hstop : stop ≤ vocab.length) :
    hit (encodeEvents events) start stop = true ↔ Meets (fingerprint events) start stop := by
  have hlength : (encodeEvents events).length = vocab.length := by
    rw [encodeEvents, length_encodeNames]
  have hbit : ∀ i < vocab.length,
      (∃ x, (encodeEvents events)[i]? = some x ∧ 0 < x) ↔ bit (fingerprint events) i = true := by
    intro i hi
    rw [fingerprint, bit_fingerprintBits]
    have h64 : i < 64 := hi.trans (by decide)
    simp only [h64, true_and]
  unfold hit Meets
  rw [if_pos (hlength ▸ hstop), List.any_eq_true]
  constructor
  · rintro ⟨x, hx, hpos⟩
    obtain ⟨k, hk⟩ := List.mem_iff_getElem?.mp hx
    rw [List.getElem?_drop, List.getElem?_take] at hk
    split_ifs at hk with hlt
    exact ⟨start + k, hlt, Nat.le_add_right .., (hbit _ (hlt.trans_le hstop)).mp
      ⟨x, hk, of_decide_eq_true hpos⟩⟩
  · rintro ⟨i, hi, hstart, hset⟩
    obtain ⟨x, hx, hpos⟩ := (hbit i (hi.trans_le hstop)).mpr hset
    refine ⟨x, List.mem_iff_getElem?.mpr ⟨i - start, ?_⟩, decide_eq_true hpos⟩
    rw [List.getElem?_drop, List.getElem?_take, Nat.add_sub_of_le hstart, if_pos hi, hx]

/-- The label is the first of three ranges that the fingerprint meets. -/
theorem softLabel_eq (events : List ProcessEvent) :
    softLabel (encodeEvents events) =
      if Meets (fingerprint events) 0 17 then .compiling
      else if Meets (fingerprint events) 17 31 then .gaming
      else if Meets (fingerprint events) 31 41 then .browsing
      else .idle := by
  unfold softLabel
  refine if_congr (hit_encodeEvents events 0 (by decide)) rfl ?_
  refine if_congr (hit_encodeEvents events compileEnd (by decide)) rfl ?_
  exact if_congr (hit_encodeEvents events gamingEnd (by decide)) rfl rfl

/-! ## Every set of words -/

/-- A list in a vector that is long enough is followed by zeros. -/
lemma toList_ofFn_getD {n : ℕ} {bytes : List UInt8} (h : bytes.length ≤ n) :
    (Vector.ofFn fun i : Fin n => bytes.getD i 0).toList =
      bytes ++ List.replicate (n - bytes.length) 0 := by
  apply List.ext_getElem
  · rw [Vector.length_toList, List.length_append, List.length_replicate]
    omega
  · intro i hi hi'
    rw [Vector.getElem_toList, Vector.getElem_ofFn, List.getD_eq_getElem?_getD]
    by_cases hlt : i < bytes.length
    · rw [List.getElem_append_left hlt, List.getElem?_eq_getElem hlt, Option.getD_some]
    · rw [List.getElem_append_right (not_lt.mp hlt), List.getElem_replicate,
        List.getElem?_eq_none (not_lt.mp hlt), Option.getD_none]

/-- The name of a record holds what fits, and zeros after it. -/
lemma toList_padded {bytes : List UInt8} (h : bytes.length ≤ filenameLen) :
    (padded bytes).toList = bytes ++ List.replicate (filenameLen - bytes.length) 0 :=
  toList_ofFn_getD h

/-- Bytes without NUL that fit are read up to their end. -/
lemma filenameStr_padded {bytes : List UInt8} (h : bytes.length ≤ filenameLen)
    (hnul : ∀ b ∈ bytes, b ≠ 0) :
    filenameStr (padded bytes).toList = (Utf8.decode bytes).getD "?" := by
  have htake : (bytes ++ List.replicate (filenameLen - bytes.length) 0).takeWhile (· ≠ 0) =
      bytes := by
    rw [List.takeWhile_append_of_pos (fun b hb => decide_eq_true (hnul b hb))]
    cases filenameLen - bytes.length with
    | zero => simp
    | succ n => simp [List.replicate_succ]
  rw [filenameStr, toList_padded h, htake, Utf8.decode]

/-- An event of a program whose whole path is one word. -/
def wordEvent (word : String) : ProcessEvent := ⟨0, padded (Utf8.encode word)⟩

/-- The entries of the vocabulary fit into a record and have no NUL. -/
lemma encode_vocab : ∀ word ∈ vocab, (Utf8.encode word).length ≤ filenameLen ∧
    ∀ b ∈ Utf8.encode word, b ≠ 0 := by
  decide +kernel

lemma word_wordEvent {word : String} (h : word ∈ vocab) : (wordEvent word).word = word := by
  obtain ⟨hlength, hnul⟩ := encode_vocab word h
  rw [ProcessEvent.word, wordEvent, filenameStr_padded hlength hnul,
    Utf8.decode_eq_some_iff.mpr rfl, Option.getD_some, normalizedName_of_mem_vocab word h]

/-- The window with one event for every word of a set. -/
def windowOf (mask : UInt64) : List ProcessEvent :=
  (vocab.zipIdx.filter fun e => bit mask e.2).map fun e => wordEvent e.1

/-- Every set of words is the fingerprint of some window. -/
lemma fingerprint_windowOf {mask : UInt64} (h : mask.toNat < 2 ^ vocab.length) :
    fingerprint (windowOf mask) = mask := by
  apply Bitset.ext
  intro i _
  rw [Bool.eq_iff_iff, bit_fingerprint]
  simp only [windowOf, List.mem_map, List.mem_filter, exists_exists_and_eq_and]
  constructor
  · rintro ⟨⟨word, j⟩, ⟨hmem, hbit⟩, hi⟩
    have hj := List.mk_mem_zipIdx_iff_getElem?.mp hmem
    rw [word_wordEvent (List.mem_of_getElem? hj), ← idxOf?_vocab, idxOf?_vocab.mpr hj] at hi
    obtain rfl : j = i := Option.some.inj hi
    exact hbit
  · intro hbit
    have hi : i < vocab.length := by
      by_contra hle
      rw [bit_of_lt h (not_lt.mp hle)] at hbit
      cases hbit
    have hword := List.getElem?_eq_getElem hi
    refine ⟨(vocab[i], i), ⟨List.mk_mem_zipIdx_iff_getElem?.mpr hword, hbit⟩, ?_⟩
    rw [word_wordEvent (List.getElem_mem hi), hword]

/-! ## All of it -/

/-- **The fingerprint is an order-free set encoding that determines the policy's inputs.** It
turns concatenation into union, depends only on which events occur, and grows with the window.
Bit `i` stands for entry `i` of the vocabulary, there are no other bits, and every set of entries
occurs.  Windows with equal fingerprints have equal vectors, labels and priors, and the label is
the first of three ranges that the fingerprint meets.

**Proof sketch.** Bit `i` of a fingerprint is set exactly if an event of the window normalises to
the entry `i` of the vocabulary, and two masks with the same bits are equal.  The vector has a one
exactly where the mask has a bit, so that the label is a function of the mask. -/
theorem fingerprint_set_encoding :
    (∀ A B, fingerprint (A ++ B) = fingerprint A ||| fingerprint B) ∧
    (∀ A B, (∀ e, e ∈ A ↔ e ∈ B) → fingerprint A = fingerprint B) ∧
    (∀ A B, A ⊆ B → ∀ i, bit (fingerprint A) i = true → bit (fingerprint B) i = true) ∧
    (∀ A i, bit (fingerprint A) i = true ↔ ∃ e ∈ A, vocab[i]? = some e.word) ∧
    (∀ A i, vocab.length ≤ i → bit (fingerprint A) i = false) ∧
    (∀ mask : UInt64, mask.toNat < 2 ^ vocab.length → ∃ A, fingerprint A = mask) ∧
    (∀ A B, fingerprint A = fingerprint B →
      encodeEvents A = encodeEvents B ∧
      softLabel (encodeEvents A) = softLabel (encodeEvents B) ∧
      ∀ listed actions, resolvePrior listed (softLabel (encodeEvents A)) actions =
        resolvePrior listed (softLabel (encodeEvents B)) actions) ∧
    ∀ A, softLabel (encodeEvents A) =
      if Meets (fingerprint A) 0 17 then .compiling
      else if Meets (fingerprint A) 17 31 then .gaming
      else if Meets (fingerprint A) 31 41 then .browsing
      else .idle := by
  refine ⟨fingerprint_append, fun A B => fingerprint_congr, ?_, bit_fingerprint, ?_, ?_, ?_,
    softLabel_eq⟩
  · intro A B hsub i hi
    obtain ⟨e, he, hword⟩ := (bit_fingerprint A i).mp hi
    exact (bit_fingerprint B i).mpr ⟨e, hsub he, hword⟩
  · intro A i hi
    exact bit_fingerprint_of_le A hi
  · intro mask hmask
    exact ⟨windowOf mask, fingerprint_windowOf hmask⟩
  · intro A B h
    have hvec : encodeEvents A = encodeEvents B := by
      rw [encodeEvents_eq, encodeEvents_eq, h]
    exact ⟨hvec, by rw [hvec], fun listed actions => by rw [hvec]⟩

end Foverin
