import Foverin.Lib.Decimal
import Foverin.Text

set_option relaxedAutoImplicit false
set_option autoImplicit false

/-!
# Offsets from `pahole`

The reader of member offsets in `foverin-ebpf/build.rs`, and the texts that it reads: the members
of a struct, one a line and each with a comment that holds its offset and its size, between blank
lines, lines that are a comment and nothing else, and lines that open or close a struct.

## Main definitions

* `Foverin.parsePaholeOffset` — the reader.
* `Foverin.PaholeLine`, `Foverin.printLines` — the lines of a text, and the text.

## Main results

* `Foverin.paholeLine_member`, `Foverin.paholeLine_other` — one line.
* `Foverin.parsePaholeOffset_print` — the offset of the first member of a name is read.
-/

namespace Foverin

/-! ## The reader -/

/-- One turn of the loop of `parse_pahole_offset`, on a trimmed line: go on with the next line, or
return a result. -/
def paholeLine (field trimmed : String) : Option (Option UInt64) :=
  let namePart := trimmed.toList.takeWhile (· != ';')
  match (splitWhitespace namePart).getLast? with
  | none => none
  | some word =>
    -- strip the suffix of an array
    let ident := String.ofList (word.toList.takeWhile (· != '['))
    if ident ≠ field then none
    else some do
      let start ← find trimmed "/*"
      -- the slice is always in bounds
      let body := trim (String.ofList (trimmed.toList.drop (start + 2)))
      let offsetStr ← (splitWhitespace body.toList).head?
      Decimal.parseU64 offsetStr

/-- `parse_pahole_offset`, on a host whose `usize` has 64 bits. -/
def parsePaholeOffset (text field : String) : Option UInt64 :=
  ((lines text).findSome? fun line => paholeLine field (trim line)).join

/-! ## What is printed -/

/-- White space within a line. A carriage return before the line feed is part of it. -/
structure Blanks where
  chars : List Char
  blank : ∀ c ∈ chars, isWhitespace c = true
  sameLine : '\n' ∉ chars

/-- White space between two words. -/
structure Gap extends Blanks where
  nonempty : chars ≠ []

/-- A word of the type of a member. The types of C have neither a semicolon nor a slash. -/
structure TypeWord where
  chars : List Char
  nonempty : chars ≠ []
  word : ∀ c ∈ chars, isWhitespace c = false
  noStop : ';' ∉ chars ∧ '/' ∉ chars

/-- The characters of an identifier. -/
def isIdentChar (c : Char) : Bool := c.isAlphanum || c = '_'

/-- The name of a member. -/
structure Identifier where
  chars : List Char
  nonempty : chars ≠ []
  ident : ∀ c ∈ chars, isIdentChar c = true
deriving DecidableEq

/-- The name as a string. -/
def Identifier.text (f : Identifier) : String := String.ofList f.chars

/-- A member of a struct: an array has its lengths behind the name, and the comment holds the offset
and the size. -/
structure PaholeMember where
  indent : Blanks
  types : List (TypeWord × Gap)
  name : Identifier
  dims : List ℕ
  gap : Blanks
  before : Blanks
  offset : ℕ
  between : Gap
  size : ℕ
  after : Blanks
  trailing : Blanks

/-- Text within a line that neither ends a declaration nor starts the suffix of an array. -/
structure Remark where
  chars : List Char
  sameLine : '\n' ∉ chars
  noStop : ';' ∉ chars ∧ '[' ∉ chars

/-- Text within a line. -/
structure Rest where
  chars : List Char
  sameLine : '\n' ∉ chars

/-- A line of the output: a member, a blank line, a comment (a hole, the mark of a cache line, a
total), the line that opens a struct, or the line that closes one, with attributes perhaps. A brace
with the name of an inner struct behind it is a member, whose type word is the brace. -/
inductive PaholeLine
  | member (m : PaholeMember)
  | blank (spaces : Blanks)
  | comment (indent : Blanks) (remark : Remark) (trailing : Blanks)
  | opening (indent : Blanks) (remark : Remark) (trailing : Blanks)
  | closing (indent : Blanks) (attributes : Option Remark) (gap : Blanks) (rest : Option Rest)

/-- The name with the lengths of an array. -/
def PaholeMember.declarator (m : PaholeMember) : List Char :=
  m.name.chars ++ m.dims.flatMap fun n => '[' :: (Nat.repr n).toList ++ [']']

/-- The words of the type. -/
def PaholeMember.typeWords (m : PaholeMember) : List Char :=
  m.types.flatMap fun word => word.1.chars ++ word.2.chars

/-- The comment from its first word on. -/
def PaholeMember.numbers (m : PaholeMember) : List Char :=
  (Nat.repr m.offset).toList ++ (m.between.chars ++ ((Nat.repr m.size).toList ++ m.after.chars))

/-- The line without the white space at its ends. -/
def PaholeMember.core (m : PaholeMember) : List Char :=
  m.typeWords ++ m.declarator ++ (';' :: m.gap.chars) ++
    '/' :: ['*'] ++ (m.before.chars ++ m.numbers ++ ['*', '/'])

/-- A line as it is printed. -/
def PaholeLine.print : PaholeLine → List Char
  | member m => m.indent.chars ++ m.core ++ m.trailing.chars
  | blank spaces => spaces.chars
  | comment indent remark trailing =>
    indent.chars ++ '/' :: '*' :: remark.chars ++ '*' :: '/' :: trailing.chars
  | opening indent remark trailing => indent.chars ++ remark.chars ++ '{' :: trailing.chars
  | closing indent attributes gap rest =>
    indent.chars ++ '}' ::
      (attributes.elim [] fun text => " __attribute__((".toList ++ text.chars ++ [')', ')']) ++
      gap.chars ++ rest.elim [] fun text => ';' :: text.chars

/-- The text of some lines. If it ends in a line feed, its last line is a blank one. -/
def printLines (ls : List PaholeLine) : String :=
  String.ofList (['\n'].intercalate (ls.map PaholeLine.print))

/-- The member on a line. -/
def PaholeLine.member? : PaholeLine → Option PaholeMember
  | member m => some m
  | _ => none

/-! ## Characters -/

lemma isIdentChar_iff (c : Char) :
    isIdentChar c = true ↔ ((65 ≤ c.toNat ∧ c.toNat ≤ 90 ∨ 97 ≤ c.toNat ∧ c.toNat ≤ 122) ∨
      48 ≤ c.toNat ∧ c.toNat ≤ 57) ∨ c = '_' := by
  have hranges : isIdentChar c = (((decide (65 ≤ c.val ∧ c.val ≤ 90) ||
      decide (97 ≤ c.val) && decide (c.val ≤ 122)) || decide (48 ≤ c.val) && decide (c.val ≤ 57)) ||
      decide (c = '_')) := rfl
  rw [hranges]
  simp only [Bool.or_eq_true, Bool.and_eq_true, decide_eq_true_eq, UInt32.le_iff_toNat_le]
  rfl

/-- An identifier is not interrupted by white space. -/
lemma isWhitespace_of_isIdentChar {c : Char} (h : isIdentChar c = true) :
    isWhitespace c = false := by
  rw [isIdentChar_iff] at h
  rcases h with h | rfl
  · simp only [isWhitespace, decide_eq_false_iff_not]
    omega
  · decide

lemma isIdentChar_of_mem_repr {n : ℕ} {c : Char} (h : c ∈ (Nat.repr n).toList) :
    isIdentChar c = true := by
  rw [Nat.toList_repr] at h
  have hdigit : c.isDigit = true := Nat.isDigit_of_mem_toDigits (by decide) (by decide) h
  simp [isIdentChar, Char.isAlphanum, hdigit]

lemma Blanks.not_mem (b : Blanks) {c : Char} (hc : isWhitespace c = false) : c ∉ b.chars := by
  intro h
  simp [b.blank c h] at hc

lemma Identifier.text_inj {f g : Identifier} : f.text = g.text ↔ f = g := by
  rw [Identifier.text, Identifier.text, String.ofList_inj]
  exact ⟨fun h => by cases f; cases g; simpa using h, fun h => congrArg _ h⟩

namespace PaholeMember

variable (m : PaholeMember)

/-- The characters of a name with its lengths. -/
lemma mem_declarator {c : Char} (h : c ∈ m.declarator) :
    isIdentChar c = true ∨ c = '[' ∨ c = ']' := by
  rw [declarator, List.mem_append, List.mem_flatMap] at h
  rcases h with h | ⟨n, -, h⟩
  · exact Or.inl (m.name.ident c h)
  · simp only [List.cons_append, List.mem_cons, List.mem_append, List.not_mem_nil, or_false] at h
    rcases h with h | h | h
    · exact Or.inr (Or.inl h)
    · exact Or.inl (isIdentChar_of_mem_repr h)
    · exact Or.inr (Or.inr h)

lemma isWhitespace_declarator {c : Char} (h : c ∈ m.declarator) : isWhitespace c = false := by
  rcases m.mem_declarator h with h | rfl | rfl
  · exact isWhitespace_of_isIdentChar h
  · decide
  · decide

/-- Neither the type nor the name holds a semicolon or a slash. -/
lemma not_mem_declaration {c : Char} (hc : c = ';' ∨ c = '/') :
    c ∉ m.typeWords ++ m.declarator := by
  intro h
  rcases List.mem_append.mp h with h | h
  · obtain ⟨⟨word, gap⟩, -, h⟩ := List.mem_flatMap.mp h
    rcases List.mem_append.mp h with h | h
    · rcases hc with rfl | rfl
      · exact word.noStop.1 h
      · exact word.noStop.2 h
    · rcases hc with rfl | rfl <;> exact gap.not_mem (by decide) h
  · rcases hc with rfl | rfl <;> rcases m.mem_declarator h with h | h | h <;>
      revert h <;> decide

/-- The type ends in white space. -/
lemma getLast?_typeWords : ∀ c ∈ m.typeWords.getLast?, isWhitespace c = true := by
  intro c hc
  rcases List.eq_nil_or_concat m.types with h | ⟨init, ⟨word, gap⟩, h⟩
  · simp [typeWords, h] at hc
  · have hends : m.typeWords =
        (init.flatMap fun word => word.1.chars ++ word.2.chars) ++ word.chars ++ gap.chars := by
      simp [typeWords, h]
    rw [hends, List.getLast?_append_of_ne_nil _ gap.nonempty] at hc
    exact gap.blank c (List.mem_of_getLast? hc)

/-- The line begins with a word. -/
lemma head?_core : ∀ c ∈ m.core.head?, isWhitespace c = false := by
  intro c hc
  cases htypes : m.types with
  | nil =>
    have hname : c ∈ m.name.chars := by
      have hhead : m.core.head? = m.name.chars.head? := by
        simp [core, typeWords, htypes, declarator, List.head?_append_of_ne_nil _ m.name.nonempty]
      rw [hhead] at hc
      exact List.mem_of_head? hc
    exact isWhitespace_of_isIdentChar (m.name.ident c hname)
  | cons first rest =>
    have hword : c ∈ first.1.chars := by
      have hhead : m.core.head? = first.1.chars.head? := by
        simp [core, typeWords, htypes, List.head?_append_of_ne_nil _ first.1.nonempty]
      rw [hhead] at hc
      exact List.mem_of_head? hc
    exact first.1.word c hword

/-- The trimmed line. -/
lemma trim_print :
    trim (String.ofList (PaholeLine.member m).print) = String.ofList m.core := by
  have hlast : ∀ c ∈ m.core.getLast?, isWhitespace c = false := by
    intro c hc
    have hends : m.core = m.typeWords ++ m.declarator ++ (';' :: m.gap.chars) ++
        '/' :: ['*'] ++ (m.before.chars ++ m.numbers ++ ['*']) ++ ['/'] := by
      simp [core]
    rw [hends, List.getLast?_concat, Option.mem_some] at hc
    subst hc
    decide
  rw [trim_ofList, PaholeLine.print,
    Words.trim_append m.indent.blank m.trailing.blank m.head?_core hlast]

/-- What stands before the semicolon. -/
lemma takeWhile_core :
    m.core.takeWhile (· != ';') = m.typeWords ++ m.declarator := by
  have hstop : ∀ c ∈ m.typeWords ++ m.declarator, (c != ';') = true := by
    intro c hc
    have hne : c ≠ ';' := fun h => m.not_mem_declaration (Or.inl h) hc
    simpa using hne
  unfold core
  rw [List.append_assoc, List.append_assoc, List.takeWhile_append_of_pos hstop]
  simp

/-- The name without the lengths. -/
lemma takeWhile_declarator : m.declarator.takeWhile (· != '[') = m.name.chars := by
  have hname : ∀ c ∈ m.name.chars, (c != '[') = true := by
    intro c hc
    have hne : c ≠ '[' := by
      rintro rfl
      exact absurd (m.name.ident _ hc) (by decide)
    simpa using hne
  unfold declarator
  rw [List.takeWhile_append_of_pos hname]
  cases m.dims <;> simp

/-- The comment starts behind the declaration. -/
lemma find_core :
    find (String.ofList m.core) "/*" =
      some (m.typeWords ++ m.declarator ++ ';' :: m.gap.chars).length := by
  have hslash : '/' ∉ m.typeWords ++ m.declarator ++ ';' :: m.gap.chars := by
    intro h
    rcases List.mem_append.mp h with h | h
    · exact m.not_mem_declaration (Or.inr rfl) h
    · rcases List.mem_cons.mp h with h | h
      · revert h
        decide
      · exact m.gap.not_mem (by decide) h
  exact find_append hslash

/-- The first word of the comment is the offset. -/
lemma head?_comment :
    (splitWhitespace (trim (String.ofList ((String.ofList m.core).toList.drop
      ((m.typeWords ++ m.declarator ++ ';' :: m.gap.chars).length + 2)))).toList).head? =
      some (Nat.repr m.offset) := by
  have hbody : m.core.drop ((m.typeWords ++ m.declarator ++ ';' :: m.gap.chars).length + 2) =
      m.before.chars ++ m.numbers ++ ['*', '/'] := by
    unfold core
    exact List.drop_left' (by simp only [List.length_append, List.length_cons, List.length_nil])
  obtain ⟨g, gs, hbetween⟩ : ∃ g gs, m.between.chars = g :: gs :=
    List.exists_cons_of_ne_nil m.between.nonempty
  have hg : isWhitespace g = true := m.between.blank g (by simp [hbetween])
  have hrepr : Words.words isWhitespace (Nat.repr m.offset).toList =
      [(Nat.repr m.offset).toList] :=
    Words.words_of_forall (by simp [Nat.toDigits_ne_nil])
      fun c hc => isWhitespace_of_isIdentChar (isIdentChar_of_mem_repr hc)
  rw [splitWhitespace_eq, toList_trim, Words.words_trim, String.toList_ofList,
    String.toList_ofList, hbody, numbers, hbetween, List.append_assoc,
    Words.words_append_left m.before.blank, List.append_assoc, List.cons_append, List.cons_append,
    Words.words_append_cons _ _ hg, hrepr]
  show some (String.ofList (Nat.repr m.offset).toList) = some (Nat.repr m.offset)
  rw [String.ofList_toList]

end PaholeMember

/-! ## One line -/

/-- **A member's line** is the end of the search if it has the name that is searched for, whether
its offset fits or not. -/
theorem paholeLine_member (f : Identifier) (m : PaholeMember) :
    paholeLine f.text (trim (String.ofList (PaholeLine.member m).print)) =
      if m.name = f then
        some (if m.offset < 2 ^ 64 then some (UInt64.ofNat m.offset) else none)
      else none := by
  have hlast : (splitWhitespace (m.core.takeWhile (· != ';'))).getLast? =
      some (String.ofList m.declarator) := by
    rw [m.takeWhile_core, splitWhitespace_eq, List.getLast?_map,
      Words.getLast?_words_append m.getLast?_typeWords
        (by simp [PaholeMember.declarator, m.name.nonempty])
        fun c hc => m.isWhitespace_declarator hc, Option.map_some]
  rw [m.trim_print, paholeLine]
  simp only [String.toList_ofList, hlast, m.takeWhile_declarator]
  by_cases hf : m.name = f
  · have htext : String.ofList m.name.chars = f.text := by rw [← hf]; rfl
    have hhead := m.head?_comment
    rw [String.toList_ofList] at hhead
    rw [if_neg (not_not.mpr htext), if_pos hf, m.find_core]
    simp only [Option.bind_eq_bind, Option.bind_some, hhead, Decimal.parseU64_repr]
  · have htext : String.ofList m.name.chars ≠ f.text :=
      fun h => hf (Identifier.text_inj.mp h)
    rw [if_pos htext, if_neg hf]

/-- A line whose last word before the semicolon is not the name is skipped. -/
lemma paholeLine_eq_none {field : String} {line : List Char}
    (h : ∀ w ∈ (Words.words isWhitespace (line.takeWhile (· != ';'))).getLast?,
      String.ofList (w.takeWhile (· != '[')) ≠ field) :
    paholeLine field (trim (String.ofList line)) = none := by
  have hstop : ∀ c, isWhitespace c = true → (c != ';') = true := by
    intro c hc
    have hne : c ≠ ';' := by
      rintro rfl
      revert hc
      decide
    simpa using hne
  have hwords : (splitWhitespace ((trim (String.ofList line)).toList.takeWhile
      (· != ';'))).getLast? =
      (Words.words isWhitespace (line.takeWhile (· != ';'))).getLast?.map String.ofList := by
    rw [toList_trim, String.toList_ofList, splitWhitespace_eq, List.getLast?_map,
      Words.words_takeWhile_trim hstop]
  cases hw : (Words.words isWhitespace (line.takeWhile (· != ';'))).getLast? with
  | none =>
    rw [hw, Option.map_none] at hwords
    simp only [paholeLine, hwords]
  | some w =>
    rw [hw, Option.map_some] at hwords
    simp only [paholeLine, hwords, String.toList_ofList]
    exact if_pos (h w hw)

/-- A line whose declaration ends in a character that no name has is skipped. -/
lemma paholeLine_skip (f : Identifier) {l spaces rest : List Char} {c : Char}
    (hl : ∀ x ∈ l ++ [c], x ≠ ';' ∧ x ≠ '[') (hc : isWhitespace c = false)
    (hident : isIdentChar c = false) (hspaces : ∀ x ∈ spaces, isWhitespace x = true)
    (hrest : ∀ x ∈ rest.head?, x = ';') :
    paholeLine f.text (trim (String.ofList (l ++ [c] ++ spaces ++ rest))) = none := by
  have htake : (l ++ [c] ++ spaces ++ rest).takeWhile (· != ';') = l ++ [c] ++ spaces := by
    have hstop : ∀ x ∈ l ++ [c] ++ spaces, (x != ';') = true := by
      intro x hx
      have hne : x ≠ ';' := by
        rcases List.mem_append.mp hx with hx | hx
        · exact (hl x hx).1
        · rintro rfl
          exact absurd (hspaces _ hx) (by decide)
      simpa using hne
    rw [List.takeWhile_append_of_pos hstop]
    cases rest with
    | nil => rw [List.takeWhile_nil, List.append_nil]
    | cons x rest => simp [hrest x rfl]
  apply paholeLine_eq_none
  intro w hw
  obtain ⟨w', hw', hcw, hsub⟩ := Words.getLast?_words_concat l hc
  rw [htake, Words.words_append_right _ hspaces, hw', Option.mem_some] at hw
  subst hw
  have hcut : w'.takeWhile (· != '[') = w' :=
    List.takeWhile_eq_self_iff.mpr fun x hx => by simpa using (hl x (hsub x hx)).2
  rw [hcut, Identifier.text, Ne, String.ofList_inj]
  rintro rfl
  simp [f.ident c hcw] at hident

/-- **Any other line** is skipped.

**Proof sketch.** The last word before the first `;` ends in a character that no name has, which is
a slash, a brace or a parenthesis.  A blank line has no word. -/
theorem paholeLine_other (f : Identifier) {line : PaholeLine} (h : line.member? = none) :
    paholeLine f.text (trim (String.ofList line.print)) = none := by
  have hblanks : ∀ (b : Blanks) {x : Char}, x ∈ b.chars → x ≠ ';' ∧ x ≠ '[' := by
    intro b x hx
    exact ⟨fun h => b.not_mem (by decide) (h ▸ hx), fun h => b.not_mem (by decide) (h ▸ hx)⟩
  have hremark : ∀ (r : Remark) {x : Char}, x ∈ r.chars → x ≠ ';' ∧ x ≠ '[' := by
    intro r x hx
    exact ⟨fun h => r.noStop.1 (h ▸ hx), fun h => r.noStop.2 (h ▸ hx)⟩
  cases line with
  | member m => cases h
  | blank spaces =>
    apply paholeLine_eq_none
    intro w hw
    rw [PaholeLine.print, Words.words_of_blanks fun x hx =>
      spaces.blank x ((List.takeWhile_prefix _).subset hx)] at hw
    cases hw
  | comment indent remark trailing =>
    have hline : (PaholeLine.comment indent remark trailing).print =
        (indent.chars ++ '/' :: '*' :: remark.chars ++ ['*']) ++ ['/'] ++ trailing.chars ++ [] := by
      simp [PaholeLine.print]
    rw [hline]
    refine paholeLine_skip f (fun x hx => ?_) (by decide) (by decide) trailing.blank nofun
    simp only [List.mem_append, List.mem_cons, List.not_mem_nil, or_false] at hx
    rcases hx with ((hx | rfl | rfl | hx) | rfl) | rfl
    · exact hblanks indent hx
    · decide
    · decide
    · exact hremark remark hx
    · decide
    · decide
  | opening indent remark trailing =>
    have hline : (PaholeLine.opening indent remark trailing).print =
        (indent.chars ++ remark.chars) ++ ['{'] ++ trailing.chars ++ [] := by
      simp [PaholeLine.print]
    rw [hline]
    refine paholeLine_skip f (fun x hx => ?_) (by decide) (by decide) trailing.blank nofun
    simp only [List.mem_append, List.mem_cons, List.not_mem_nil, or_false] at hx
    rcases hx with (hx | hx) | rfl
    · exact hblanks indent hx
    · exact hremark remark hx
    · decide
  | closing indent attributes gap rest =>
    have hrest : ∀ x ∈ (rest.elim [] fun text => ';' :: text.chars).head?, x = ';' := by
      cases rest with
      | none => nofun
      | some text => simp
    cases attributes with
    | none =>
      have hline : (PaholeLine.closing indent none gap rest).print =
          indent.chars ++ ['}'] ++ gap.chars ++ rest.elim [] fun text => ';' :: text.chars := by
        simp [PaholeLine.print]
      rw [hline]
      refine paholeLine_skip f (fun x hx => ?_) (by decide) (by decide) gap.blank hrest
      rcases List.mem_append.mp hx with hx | hx
      · exact hblanks indent hx
      · rw [List.mem_singleton.mp hx]
        decide
    | some text =>
      have hline : (PaholeLine.closing indent (some text) gap rest).print =
          (indent.chars ++ '}' :: " __attribute__((".toList ++ text.chars ++ [')']) ++ [')'] ++
            gap.chars ++ rest.elim [] fun text => ';' :: text.chars := by
        simp [PaholeLine.print]
      rw [hline]
      refine paholeLine_skip f (fun x hx => ?_) (by decide) (by decide) gap.blank hrest
      have hattribute : ∀ x ∈ '}' :: " __attribute__((".toList, x ≠ ';' ∧ x ≠ '[' := by
        simp
      simp only [List.mem_append, List.mem_singleton] at hx
      rcases hx with (((hx | hx) | hx) | rfl) | rfl
      · exact hblanks indent hx
      · exact hattribute x hx
      · exact hremark text hx
      · decide
      · decide

/-! ## The text -/

lemma PaholeMember.newline_not_mem_core (m : PaholeMember) : '\n' ∉ m.core := by
  have hword : ∀ {l : List Char}, (∀ c ∈ l, isWhitespace c = false) → '\n' ∉ l := by
    intro l hl h
    exact absurd (hl _ h) (by decide)
  have hrepr : ∀ n : ℕ, '\n' ∉ (Nat.repr n).toList := fun n =>
    hword fun c hc => isWhitespace_of_isIdentChar (isIdentChar_of_mem_repr hc)
  have htypes : '\n' ∉ m.typeWords := by
    intro h
    obtain ⟨⟨word, gap⟩, -, h⟩ := List.mem_flatMap.mp h
    rcases List.mem_append.mp h with h | h
    · exact hword word.word h
    · exact gap.sameLine h
  have hname : '\n' ∉ m.declarator := hword fun c hc => m.isWhitespace_declarator hc
  have hnumbers : '\n' ∉ m.numbers := by
    simp only [numbers, List.mem_append, not_or]
    exact ⟨hrepr _, m.between.sameLine, hrepr _, m.after.sameLine⟩
  simp [core, htypes, hname, hnumbers, m.gap.sameLine, m.before.sameLine]

/-- A printed line is one line. -/
lemma newline_not_mem_print (line : PaholeLine) : '\n' ∉ line.print := by
  cases line with
  | member m =>
    simp [PaholeLine.print, m.indent.sameLine, m.newline_not_mem_core, m.trailing.sameLine]
  | blank spaces => exact spaces.sameLine
  | comment indent remark trailing =>
    simp [PaholeLine.print, indent.sameLine, remark.sameLine, trailing.sameLine]
  | opening indent remark trailing =>
    simp [PaholeLine.print, indent.sameLine, remark.sameLine, trailing.sameLine]
  | closing indent attributes gap rest =>
    cases attributes with
    | none => cases rest <;> simp [PaholeLine.print, indent.sameLine, gap.sameLine, Rest.sameLine]
    | some text =>
      cases rest <;>
        simp [PaholeLine.print, indent.sameLine, text.sameLine, gap.sameLine, Rest.sameLine]

/-- The lines are found again. -/
lemma findSome?_printLines {f : String → Option (Option UInt64)} (hnil : f "" = none)
    (ls : List PaholeLine) :
    ((lines (printLines ls)).findSome? fun line => f (trim line)) =
      ls.findSome? fun line => f (trim (String.ofList line.print)) := by
  rw [findSome?_lines hnil, printLines, String.toList_ofList]
  cases ls with
  | nil =>
    have hempty : f (trim (String.ofList [])) = none := hnil
    simp [hempty]
  | cons line ls =>
    have hlines : ∀ l ∈ (line :: ls).map PaholeLine.print, '\n' ∉ l := by
      intro l hl
      obtain ⟨printed, -, rfl⟩ := List.mem_map.mp hl
      exact newline_not_mem_print printed
    rw [List.splitOn_intercalate '\n' hlines (by simp), List.findSome?_map]
    rfl

/-- The search finds the first member of the name. -/
lemma findSome?_paholeLine (ls : List PaholeLine) (f : Identifier) :
    (ls.findSome? fun line => paholeLine f.text (trim (String.ofList line.print))).join =
      ((ls.filterMap PaholeLine.member?).find? (·.name = f)).bind fun m =>
        if m.offset < 2 ^ 64 then some (UInt64.ofNat m.offset) else none := by
  induction ls with
  | nil => rfl
  | cons line ls ih =>
    rw [List.findSome?_cons]
    cases hline : line.member? with
    | none =>
      rw [paholeLine_other f hline, List.filterMap_cons_none hline]
      exact ih
    | some m =>
      obtain rfl : line = .member m := by
        cases line <;> simp_all [PaholeLine.member?]
      rw [paholeLine_member, List.filterMap_cons_some hline, List.find?_cons]
      by_cases hf : m.name = f
      · simp [hf]
      · simpa [hf] using ih

lemma parsePaholeOffset_printLines (ls : List PaholeLine) (f : Identifier) :
    parsePaholeOffset (printLines ls) f.text =
      (ls.findSome? fun line => paholeLine f.text (trim (String.ofList line.print))).join := by
  have hnil : paholeLine f.text "" = none := by
    let line : PaholeLine := .blank ⟨[], nofun, nofun⟩
    have hskip : paholeLine f.text (trim (String.ofList line.print)) = none :=
      paholeLine_other f rfl
    exact hskip
  rw [parsePaholeOffset, findSome?_printLines hnil]

/-- **The offset of the first member of a name is read.** For every text of members, blank lines,
comments and lines that open or close a struct, and every identifier, the result is the offset of
the first member of that name, if it fits 64 bits. It is nothing if no member has the name.

**Proof sketch.** Each line is read by itself.  A member line gives its offset exactly if the name
is asked for, and any other line gives nothing (`paholeLine_other`). -/
theorem parsePaholeOffset_print (ls : List PaholeLine) (f : Identifier) :
    parsePaholeOffset (printLines ls) f.text =
      ((ls.filterMap PaholeLine.member?).find? (·.name = f)).bind fun m =>
        if m.offset < 2 ^ 64 then some (UInt64.ofNat m.offset) else none := by
  rw [parsePaholeOffset_printLines, findSome?_paholeLine]

example :
    parsePaholeOffset "\tstruct comm * p; /* 8 8 */\n\n\tchar comm[16]; /*  3400  16 */\n" "comm" =
      some 3400 := by
  decide +kernel

end Foverin
