import Mathlib.Data.List.Basic
import Mathlib.Data.List.DropRight
import Mathlib.Data.List.Induction

set_option relaxedAutoImplicit false
set_option autoImplicit false

/-!
# UTF-8 and ASCII

A character below 128 is encoded as one byte below 128, any other character by bytes from 128 on.
Hence an operation on texts that only looks at ASCII characters is the same operation on their
bytes: splitting at an ASCII character, lower-casing ASCII letters, removing an ASCII suffix.

## Main definitions

* `Utf8.encode` — the bytes of a text, as a list.
* `Utf8.decode` — the text of a list of bytes, if there is one.
* `Utf8.lower`, `Utf8.dropSuffix` — operations on bytes.

## Main results

* `Utf8.decode_eq_some_iff` — a list of bytes has a text exactly if it encodes it.
* `Utf8.rtakeWhile_encode`, `Utf8.map_lower_encode`, `Utf8.dropSuffix_encode` — operations on bytes
  agree with those on texts.
* `Utf8.prefix_of_encodeChars_prefix` — the encoding of a text at the beginning of another.
-/

namespace Utf8

/-! ## Texts as bytes -/

/-- The bytes of a list of characters. -/
def encodeChars (l : List Char) : List UInt8 := l.flatMap String.utf8EncodeChar

/-- The bytes of a text. -/
def encode (s : String) : List UInt8 := encodeChars s.toList

/-- The text of some bytes. -/
def decode (bytes : List UInt8) : Option String := String.fromUTF8? ⟨bytes.toArray⟩

@[simp] lemma encode_ofList (l : List Char) : encode (String.ofList l) = encodeChars l := by
  rw [encode, String.toList_ofList]

@[simp] lemma encodeChars_nil : encodeChars [] = [] := rfl

@[simp] lemma encodeChars_append (l l' : List Char) :
    encodeChars (l ++ l') = encodeChars l ++ encodeChars l' := List.flatMap_append

lemma encodeChars_singleton (c : Char) : encodeChars [c] = String.utf8EncodeChar c := by
  simp [encodeChars]

/-- The bytes of a text, as an array. -/
lemma toByteArray_eq (s : String) : s.toByteArray = ⟨(encode s).toArray⟩ := by
  rw [← String.utf8Encode_toList, List.utf8Encode]
  apply ByteArray.ext
  apply Array.toList_inj.mp
  rw [List.toList_data_toByteArray]
  rfl

/-- Texts with the same bytes are the same. -/
lemma encode_injective : Function.Injective encode := by
  intro s t h
  apply String.toByteArray_inj.mp
  rw [toByteArray_eq, toByteArray_eq, h]

/-- The bytes of a text are read as that text. -/
lemma fromUTF8?_bytes (s : String) : String.fromUTF8? s.toUTF8 = some s := by
  have h : s.toUTF8.IsValidUTF8 := s.isValidUTF8
  rw [String.fromUTF8?, dif_pos h]
  rfl

lemma toByteArray_of_fromUTF8? {bytes : ByteArray} {s : String}
    (h : String.fromUTF8? bytes = some s) : s.toByteArray = bytes := by
  unfold String.fromUTF8? at h
  split_ifs at h with hv
  rw [← Option.some.inj h]
  rfl

/-- Decoding is the converse of encoding. -/
theorem decode_eq_some_iff {bytes : List UInt8} {s : String} :
    decode bytes = some s ↔ encode s = bytes := by
  constructor
  · intro h
    have hbytes := toByteArray_of_fromUTF8? h
    rw [toByteArray_eq, ByteArray.mk.injEq] at hbytes
    exact Array.toList_inj.mpr hbytes
  · rintro rfl
    rw [decode, ← toByteArray_eq]
    exact fromUTF8?_bytes s

/-! ## ASCII characters -/

/-- An ASCII character is one byte. -/
lemma utf8EncodeChar_of_ascii {c : Char} (h : c.toNat < 128) :
    String.utf8EncodeChar c = [UInt8.ofNat c.toNat] := by
  have hle : c.val.toNat ≤ 0x7f := Nat.le_of_lt_succ h
  unfold String.utf8EncodeChar
  simp only [hle, if_true]
  rfl

/-- The bytes of every other character are not those of an ASCII character. -/
lemma le_of_mem_utf8EncodeChar {c : Char} (h : 128 ≤ c.toNat) :
    ∀ b ∈ String.utf8EncodeChar c, 128 ≤ b.toNat := by
  have hle : ¬ c.val.toNat ≤ 0x7f := Nat.not_le.mpr h
  intro b hb
  unfold String.utf8EncodeChar at hb
  simp only [hle, if_false] at hb
  split_ifs at hb <;>
    simp only [List.mem_cons, List.not_mem_nil, or_false] at hb <;>
    rcases hb with rfl | rfl | rfl | rfl <;>
    simp only [UInt8.toNat_ofNat'] <;>
    omega

/-- An ASCII character occurs in no other character. -/
lemma ne_of_mem_utf8EncodeChar {c sep : Char} (hsep : sep.toNat < 128) (hne : c ≠ sep) {b : UInt8}
    (hb : b ∈ String.utf8EncodeChar c) : b ≠ UInt8.ofNat sep.toNat := by
  intro heq
  have hval : b.toNat = sep.toNat := by
    rw [heq, UInt8.toNat_ofNat']
    omega
  by_cases hc : c.toNat < 128
  · rw [utf8EncodeChar_of_ascii hc, List.mem_singleton] at hb
    have : c.toNat = sep.toNat := by
      rw [← hval, hb, UInt8.toNat_ofNat']
      omega
    exact hne (Char.ext (UInt32.toNat_inj.mp this))
  · have := le_of_mem_utf8EncodeChar (not_lt.mp hc) b hb
    omega

/-! ## Splitting -/

/-- The bytes after the last separator are those of the text after it.

**Proof sketch.** Induction on the text from its end.  The last character either is the separator,
and nothing follows it, or none of its bytes is, and all of them are part of the result. -/
theorem rtakeWhile_encode {sep : Char} (hsep : sep.toNat < 128) (l : List Char) :
    (encodeChars l).rtakeWhile (· ≠ UInt8.ofNat sep.toNat) =
      encodeChars (l.rtakeWhile (· ≠ sep)) := by
  induction l using List.reverseRecOn with
  | nil => rfl
  | append_singleton l c ih =>
    rw [encodeChars_append, encodeChars_singleton]
    by_cases hc : c = sep
    · subst hc
      rw [utf8EncodeChar_of_ascii hsep, List.rtakeWhile_concat_neg _ _ _ (by simp),
        List.rtakeWhile_concat_neg _ _ _ (by simp), encodeChars_nil]
    · have hall : ∀ b ∈ (String.utf8EncodeChar c).reverse,
          decide (b ≠ UInt8.ofNat sep.toNat) = true := by
        intro b hb
        exact decide_eq_true (ne_of_mem_utf8EncodeChar hsep hc (List.mem_reverse.mp hb))
      rw [List.rtakeWhile_concat_pos _ _ _ (by simpa using hc), encodeChars_append,
        encodeChars_singleton, ← ih]
      unfold List.rtakeWhile
      rw [List.reverse_append, List.takeWhile_append_of_pos hall, List.reverse_append,
        List.reverse_reverse]

/-! ## Lower case -/

/-- The lower case of an ASCII letter; other bytes are left alone. -/
def lower (b : UInt8) : UInt8 := if 65 ≤ b.toNat ∧ b.toNat ≤ 90 then b + 32 else b

lemma lower_of_ascii (n : ℕ) (h : n < 128) :
    [lower (UInt8.ofNat n)] = String.utf8EncodeChar (Char.ofNat n).toLower := by
  revert n
  decide +kernel

/-- Lower-casing the bytes of a text lower-cases the text. -/
theorem map_lower_encode (l : List Char) :
    (encodeChars l).map lower = encodeChars (l.map Char.toLower) := by
  induction l with
  | nil => rfl
  | cons c l ih =>
    have hchar : (String.utf8EncodeChar c).map lower = String.utf8EncodeChar c.toLower := by
      by_cases hc : c.toNat < 128
      · rw [utf8EncodeChar_of_ascii hc, List.map_singleton, lower_of_ascii _ hc, Char.ofNat_toNat]
      · have hlower : c.toLower = c := by
          unfold Char.toLower
          rw [dif_neg]
          intro hcase
          have : c.toNat ≤ 90 := hcase.2
          omega
        rw [hlower]
        conv_rhs => rw [← List.map_id (String.utf8EncodeChar c)]
        apply List.map_congr_left
        intro b hb
        have := le_of_mem_utf8EncodeChar (not_lt.mp hc) b hb
        unfold lower
        rw [if_neg (by omega), id_eq]
    show ((String.utf8EncodeChar c) ++ encodeChars l).map lower =
      String.utf8EncodeChar c.toLower ++ encodeChars (l.map Char.toLower)
    rw [List.map_append, hchar, ih]

/-! ## Suffixes -/

/-- The bytes without a suffix, if they end with it. -/
def dropSuffix (suffix bytes : List UInt8) : List UInt8 :=
  if suffix <:+ bytes then bytes.take (bytes.length - suffix.length) else bytes

/-- The bytes of a text that end with an ASCII text come from a text that ends with it.

**Proof sketch.** Induction on the suffix from its end: the last byte of the text is an ASCII
byte, so that its last character is that byte. -/
lemma eq_append_of_encode {w : List Char} (hw : ∀ c ∈ w, c.toNat < 128) {l : List Char}
    {t : List UInt8} (h : encodeChars l = t ++ encodeChars w) :
    ∃ l', l = l' ++ w ∧ encodeChars l' = t := by
  induction w using List.reverseRecOn generalizing l t with
  | nil => exact ⟨l, (List.append_nil l).symm, by simpa using h⟩
  | append_singleton w c ih =>
    have hc : c.toNat < 128 := hw c (by simp)
    rw [encodeChars_append, encodeChars_singleton, utf8EncodeChar_of_ascii hc,
      ← List.append_assoc] at h
    rcases List.eq_nil_or_concat' l with rfl | ⟨l, d, rfl⟩
    · simp at h
    · rw [encodeChars_append, encodeChars_singleton] at h
      have hmem : UInt8.ofNat c.toNat ∈ String.utf8EncodeChar d := by
        have hne : String.utf8EncodeChar d ≠ [] := String.utf8EncodeChar_ne_nil
        have hlast := congrArg List.getLast? h
        rw [List.getLast?_append_of_ne_nil _ hne, List.getLast?_append_of_ne_nil _ (by simp),
          List.getLast?_singleton] at hlast
        exact List.mem_of_getLast? hlast
      have hd : d = c := by
        by_contra hne
        exact ne_of_mem_utf8EncodeChar hc hne hmem rfl
      subst hd
      rw [utf8EncodeChar_of_ascii hc] at h
      obtain ⟨l', rfl, rfl⟩ := ih (fun x hx => hw x (by simp [hx]))
        (List.append_cancel_right h)
      exact ⟨l', by simp, rfl⟩

/-- A text ends with an ASCII text exactly if its bytes do. -/
lemma suffix_encode_iff {w : List Char} (hw : ∀ c ∈ w, c.toNat < 128) (l : List Char) :
    encodeChars w <:+ encodeChars l ↔ w <:+ l := by
  constructor
  · rintro ⟨t, ht⟩
    obtain ⟨l', hl', -⟩ := eq_append_of_encode hw ht.symm
    exact ⟨l', hl'.symm⟩
  · rintro ⟨l', rfl⟩
    exact ⟨encodeChars l', (encodeChars_append l' w).symm⟩

/-- Removing an ASCII suffix from the bytes of a text removes it from the text. -/
theorem dropSuffix_encode {w : List Char} (hw : ∀ c ∈ w, c.toNat < 128) (l : List Char) :
    dropSuffix (encodeChars w) (encodeChars l) =
      encodeChars (if w <:+ l then l.take (l.length - w.length) else l) := by
  unfold dropSuffix
  by_cases h : w <:+ l
  · rw [if_pos h, if_pos ((suffix_encode_iff hw l).mpr h)]
    obtain ⟨l', rfl⟩ := h
    simp
  · rw [if_neg h, if_neg (mt (suffix_encode_iff hw l).mp h)]

/-! ## Prefixes -/

/-- The bytes of a character are not the beginning of those of another. -/
lemma eq_of_utf8EncodeChar_append {c d : Char} {x y : List UInt8}
    (h : String.utf8EncodeChar c ++ x = String.utf8EncodeChar d ++ y) : c = d := by
  have hdecode : ∀ (e : Char) (z : List UInt8),
      (String.utf8EncodeChar e ++ z).toByteArray.utf8DecodeChar? 0 = some e := by
    intro e z
    rw [List.toByteArray_append]
    exact ByteArray.utf8DecodeChar?_utf8EncodeChar_append
  have hd := hdecode d y
  rw [← h, hdecode c x] at hd
  exact Option.some.inj hd

/-- A text whose bytes are the beginning of those of another text is the beginning of it. -/
theorem prefix_of_encodeChars_prefix {l m : List Char} (h : encodeChars l <+: encodeChars m) :
    l <+: m := by
  induction l generalizing m with
  | nil => exact List.nil_prefix
  | cons c l ih =>
    obtain ⟨z, hz⟩ := h
    have hcons : ∀ (e : Char) (k : List Char),
        encodeChars (e :: k) = String.utf8EncodeChar e ++ encodeChars k := fun _ _ => rfl
    cases m with
    | nil =>
      have hne : String.utf8EncodeChar c ≠ [] := String.utf8EncodeChar_ne_nil
      rw [hcons] at hz
      simp [hne] at hz
    | cons d m =>
      rw [hcons, hcons, List.append_assoc] at hz
      obtain rfl := eq_of_utf8EncodeChar_append hz
      exact List.cons_prefix_cons.mpr ⟨rfl, ih ⟨z, List.append_cancel_left hz⟩⟩

/-- An ASCII character that is not in a text is not in its bytes. -/
lemma notMem_encodeChars {sep : Char} (hsep : sep.toNat < 128) {l : List Char} (h : sep ∉ l) :
    UInt8.ofNat sep.toNat ∉ encodeChars l := by
  intro hmem
  obtain ⟨c, hc, hb⟩ := List.mem_flatMap.mp hmem
  exact ne_of_mem_utf8EncodeChar hsep (fun heq => h (heq ▸ hc)) hb rfl

end Utf8
