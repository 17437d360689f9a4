import Foverin.Lib.Words

set_option relaxedAutoImplicit false
set_option autoImplicit false

/-!
# Texts

The functions on strings that the readers of sensor files and of `pahole` output are built from,
over lists of characters.

## Main definitions

* `Foverin.isWhitespace`, `Foverin.splitWhitespace`, `Foverin.trim` — white space.
* `Foverin.lines`, `Foverin.find` — lines, and the first occurrence of a pattern.
* `Foverin.readText` — what a text stands for in a table of texts.

## Main results

* `Foverin.findSome?_lines` — a search that trims its lines does not see how they end.
* `Foverin.find_append` — the first occurrence after a text without the first letter.
-/

namespace Foverin

/-! ## Definitions -/

/-- `char::is_whitespace`. -/
def isWhitespace (c : Char) : Bool :=
  let n := c.toNat
  decide (9 ≤ n ∧ n ≤ 13 ∨ n = 0x20 ∨ n = 0x85 ∨ n = 0xA0 ∨ n = 0x1680 ∨ 0x2000 ≤ n ∧ n ≤ 0x200A ∨
    n = 0x2028 ∨ n = 0x2029 ∨ n = 0x202F ∨ n = 0x205F ∨ n = 0x3000)

/-- `str::split_whitespace`. -/
def splitWhitespace (line : List Char) : List String :=
  ((line.splitOnP isWhitespace).filter fun word => !word.isEmpty).map String.ofList

/-- `str::trim`. -/
def trim (text : String) : String :=
  String.ofList ((text.toList.dropWhile isWhitespace).rdropWhile isWhitespace)

/-- A line without the carriage return before its line feed. -/
def stripCarriageReturn (line : List Char) : List Char :=
  if line.getLast? = some '\r' then line.dropLast else line

/-- `str::lines`: what stands before a line feed, and what stands after the last one if this is not
empty. -/
def lines (text : String) : List String :=
  let pieces := text.toList.splitOn '\n'
  let last := pieces.getLastD []
  (pieces.dropLast.map stripCarriageReturn ++ if last = [] then [] else [last]).map String.ofList

/-- `str::find`, with positions counted in characters. -/
def find (text pattern : String) : Option ℕ :=
  text.toList.tails.findIdx? fun rest => pattern.toList.isPrefixOf rest

/-! ## White space -/

lemma splitWhitespace_eq (line : List Char) :
    splitWhitespace line = (Words.words isWhitespace line).map String.ofList := rfl

lemma toList_trim (text : String) : (trim text).toList = Words.trim isWhitespace text.toList := by
  rw [trim, String.toList_ofList]
  rfl

lemma trim_ofList (text : List Char) :
    trim (String.ofList text) = String.ofList (Words.trim isWhitespace text) := by
  rw [trim, String.toList_ofList]
  rfl

/-- A carriage return at the end is trimmed off as well. -/
lemma trim_stripCarriageReturn (line : List Char) :
    Words.trim isWhitespace (stripCarriageReturn line) = Words.trim isWhitespace line := by
  unfold stripCarriageReturn
  split_ifs with h
  · have hblank : ∀ c ∈ ['\r'], isWhitespace c = true := by
      simp [isWhitespace]
    rw [← Words.trim_append_right line.dropLast hblank,
      List.dropLast_append_getLast? _ (Option.mem_def.mpr h)]
  · rfl

/-- **A search that trims its lines** does not see how they end. -/
theorem findSome?_lines {β : Type} {f : String → Option β} (hnil : f "" = none) (text : String) :
    ((lines text).findSome? fun line => f (trim line)) =
      (text.toList.splitOn '\n').findSome? fun line => f (trim (String.ofList line)) := by
  have hstrip : ∀ line, trim (String.ofList (stripCarriageReturn line)) =
      trim (String.ofList line) := by
    intro line
    rw [trim_ofList, trim_stripCarriageReturn, trim_ofList]
  obtain ⟨init, last, hpieces⟩ : ∃ init last, text.toList.splitOn '\n' = init ++ [last] := by
    rcases List.eq_nil_or_concat (text.toList.splitOn '\n') with hnil | ⟨init, last, h⟩
    · exact absurd hnil (List.splitOn_ne_nil _ _)
    · exact ⟨init, last, by rw [h, List.concat_eq_append]⟩
  unfold lines
  rw [hpieces]
  simp only [List.getLastD_concat, List.dropLast_concat, List.map_append, List.map_map,
    List.findSome?_append, List.findSome?_map, Function.comp_def, hstrip]
  split_ifs with hlast
  · have hempty : f (trim (String.ofList [])) = none := hnil
    simp [hlast, hempty]
  · rfl

/-! ## Patterns -/

/-- The first occurrence of a pattern after a text without its first letter. -/
theorem find_append {c : Char} {l pattern rest : List Char} (h : c ∉ l) :
    find (String.ofList (l ++ c :: pattern ++ rest)) (String.ofList (c :: pattern)) =
      some l.length := by
  unfold find
  rw [String.toList_ofList, String.toList_ofList]
  induction l with
  | nil =>
    have hprefix : (c :: pattern).isPrefixOf (c :: (pattern ++ rest)) = true :=
      List.isPrefixOf_iff_prefix.mpr ⟨rest, rfl⟩
    rw [List.nil_append, List.cons_append, List.tails, List.findIdx?_cons, if_pos hprefix]
    rfl
  | cons d l ih =>
    rw [List.mem_cons, not_or] at h
    rw [List.cons_append, List.cons_append, List.tails, List.findIdx?_cons,
      if_neg (by simp [List.isPrefixOf, h.1]), ih h.2]
    rfl

/-! ## Tables of texts -/

section Tables

variable {α : Type}

/-- What a text stands for in a table. -/
def readText (texts : List (α × String)) (s : String) : Option α :=
  (texts.find? fun e => e.2 = s).map Prod.fst

/-- What is in the table is read. -/
lemma readText_of_mem {texts : List (α × String)} (hnodup : (texts.map Prod.snd).Nodup) {a : α}
    {s : String} (h : (a, s) ∈ texts) : readText texts s = some a := by
  unfold readText
  induction texts with
  | nil => cases h
  | cons e texts ih =>
    rw [List.map_cons, List.nodup_cons] at hnodup
    rw [List.find?_cons]
    rcases List.mem_cons.mp h with rfl | hmem
    · simp
    · have hne : e.2 ≠ s := by
        rintro rfl
        exact hnodup.1 (List.mem_map.mpr ⟨_, hmem, rfl⟩)
      simp only [hne, decide_false]
      exact ih hnodup.2 hmem

/-- Nothing else is read. -/
lemma readText_eq_none {texts : List (α × String)} {s : String} (h : ∀ e ∈ texts, e.2 ≠ s) :
    readText texts s = none := by
  unfold readText
  rw [Option.map_eq_none_iff, List.find?_eq_none]
  intro e he
  simpa using h e he

end Tables

end Foverin
