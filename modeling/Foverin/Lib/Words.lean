import Mathlib.Data.List.DropRight

set_option relaxedAutoImplicit false
set_option autoImplicit false

/-!
# Words and blanks

A list over an alphabet some of whose letters are blank: its words, and the list without the blanks
at its ends.  Texts that are put together from words and blanks are taken apart again by the lemmas
here.

## Main definitions

* `Words.words` — the maximal nonempty pieces without a blank.
* `Words.trim` — the list without the blanks at both ends.

## Main results

* `Words.words_append_cons` — a blank separates words.
* `Words.getLast?_words_concat` — the last word of a list that does not end in a blank.
* `Words.words_takeWhile_trim` — the words before the first stop, whether trimmed or not.
* `Words.trim_append` — what is trimmed off.
-/

namespace Words

variable {α : Type} (p : α → Bool)

/-- The words of a list. -/
def words (l : List α) : List (List α) := (l.splitOnP p).filter fun w => !w.isEmpty

/-- The list without the blanks at its ends. -/
def trim (l : List α) : List α := (l.dropWhile p).rdropWhile p

variable {p} {l l' w : List α}

@[simp] lemma words_nil : words p [] = [] := by
  simp [words]

/-- A blank separates words. -/
theorem words_append_cons (l l' : List α) {c : α} (hc : p c = true) :
    words p (l ++ c :: l') = words p l ++ words p l' := by
  simp [words, List.splitOnP_append_cons l l' hc]

/-- A nonempty list without a blank is a word. -/
lemma words_of_forall (hne : w ≠ []) (hw : ∀ x ∈ w, p x = false) : words p w = [w] := by
  simp [words, List.splitOnP_eq_singleton hw, hne]

lemma words_cons_of_pos {c : α} (hc : p c = true) (l : List α) :
    words p (c :: l) = words p l := by
  have h := words_append_cons [] l hc
  simpa using h

/-- Blanks in front of a list add no word. -/
lemma words_append_left (hl : ∀ x ∈ l, p x = true) (l' : List α) :
    words p (l ++ l') = words p l' := by
  induction l with
  | nil => rfl
  | cons c l ih =>
    rw [List.forall_mem_cons] at hl
    rw [List.cons_append, words_cons_of_pos hl.1, ih hl.2]

/-- Blanks have no words. -/
lemma words_of_blanks (hl : ∀ x ∈ l, p x = true) : words p l = [] := by
  have h := words_append_left hl []
  simpa using h

/-- Blanks behind a list add no word. -/
lemma words_append_right (l : List α) (hl' : ∀ x ∈ l', p x = true) :
    words p (l ++ l') = words p l := by
  cases l' with
  | nil => rw [List.append_nil]
  | cons c l' =>
    rw [List.forall_mem_cons] at hl'
    rw [words_append_cons l l' hl'.1, words_of_blanks hl'.2, List.append_nil]

lemma words_dropWhile (l : List α) : words p (l.dropWhile p) = words p l := by
  have hblank : ∀ x ∈ l.takeWhile p, p x = true := fun x hx => List.mem_takeWhile_imp hx
  rw [← words_append_left hblank (l.dropWhile p), List.takeWhile_append_dropWhile]

lemma words_rdropWhile (l : List α) : words p (l.rdropWhile p) = words p l := by
  have hblank : ∀ x ∈ l.rtakeWhile p, p x = true := fun x hx => List.mem_rtakeWhile_imp hx
  rw [← words_append_right (l.rdropWhile p) hblank, List.rdropWhile_append_rtakeWhile]

/-- Trimming keeps the words. -/
@[simp] lemma words_trim (l : List α) : words p (trim p l) = words p l := by
  rw [trim, words_rdropWhile, words_dropWhile]

/-- A word at the end, after a blank or at the start, is the last word. -/
lemma getLast?_words_append (hl : ∀ x ∈ l.getLast?, p x = true) (hne : w ≠ [])
    (hw : ∀ x ∈ w, p x = false) : (words p (l ++ w)).getLast? = some w := by
  rcases List.eq_nil_or_concat l with rfl | ⟨a, y, rfl⟩
  · simp [words_of_forall hne hw]
  · have hy : p y = true := hl y (by simp)
    rw [List.concat_append, words_append_cons a w hy, words_of_forall hne hw]
    simp

/-- The last word of a list that does not end in a blank holds the last letter. -/
theorem getLast?_words_concat (l : List α) {c : α} (hc : p c = false) :
    ∃ w, (words p (l ++ [c])).getLast? = some w ∧ c ∈ w ∧ ∀ x ∈ w, x ∈ l ++ [c] := by
  let a := l.rdropWhile fun x => !p x
  let b := l.rtakeWhile fun x => !p x
  have hsplit : a ++ b = l := List.rdropWhile_append_rtakeWhile
  have hblank : ∀ x ∈ a.getLast?, p x = true := by
    intro x hx
    obtain ⟨hne, rfl⟩ := List.mem_getLast?_eq_getLast hx
    simpa using List.rdropWhile_last_not (fun x => !p x) l hne
  have hword : ∀ x ∈ b ++ [c], p x = false := by
    intro x hx
    rcases List.mem_append.mp hx with hx | hx
    · simpa using List.mem_rtakeWhile_imp hx
    · rwa [List.mem_singleton.mp hx]
  refine ⟨b ++ [c], ?_, by simp, fun x hx => ?_⟩
  · rw [← hsplit, List.append_assoc]
    exact getLast?_words_append hblank (by simp) hword
  · rw [← hsplit, List.append_assoc]
    exact List.mem_append_right _ hx

/-- **The words before the first stop** are the same in the trimmed list, if no blank is a stop. -/
theorem words_takeWhile_trim {q : α → Bool} (hq : ∀ x, p x = true → q x = true) (l : List α) :
    words p ((trim p l).takeWhile q) = words p (l.takeWhile q) := by
  have hright : ∀ m : List α, words p ((m.rdropWhile p).takeWhile q) = words p (m.takeWhile q) := by
    intro m
    have hsplit : m.rdropWhile p ++ m.rtakeWhile p = m := List.rdropWhile_append_rtakeWhile
    have hblank : ∀ x ∈ (m.rtakeWhile p).takeWhile q, p x = true := fun x hx =>
      List.mem_rtakeWhile_imp ((List.takeWhile_prefix q).subset hx)
    conv_rhs => rw [← hsplit, List.takeWhile_append]
    split_ifs with hall
    · have hself : (m.rdropWhile p).takeWhile q = m.rdropWhile p :=
        (List.takeWhile_prefix q).eq_of_length hall
      rw [hself, words_append_right _ hblank]
    · rfl
  have hleft : (l.takeWhile p) ++ (l.dropWhile p).takeWhile q = l.takeWhile q := by
    have hblank : ∀ x ∈ l.takeWhile p, q x = true := fun x hx => hq x (List.mem_takeWhile_imp hx)
    rw [← List.takeWhile_append_of_pos hblank, List.takeWhile_append_dropWhile]
  rw [trim, hright, ← hleft, words_append_left fun x hx => List.mem_takeWhile_imp hx]

/-! ## Trimming -/

/-- Blanks at the start are trimmed off. -/
lemma trim_append_left (hl : ∀ x ∈ l, p x = true) (l' : List α) :
    trim p (l ++ l') = trim p l' := by
  rw [trim, List.dropWhile_append_of_pos hl]
  rfl

/-- Blanks at the end are trimmed off. -/
lemma trim_append_right (l : List α) (hl' : ∀ x ∈ l', p x = true) :
    trim p (l ++ l') = trim p l := by
  have hend : ∀ m : List α, (m ++ l').rdropWhile p = m.rdropWhile p := by
    intro m
    unfold List.rdropWhile
    rw [List.reverse_append, List.dropWhile_append_of_pos (by simpa using hl')]
  unfold trim
  rw [List.dropWhile_append]
  split_ifs with hempty
  · have hnil : l.dropWhile p = [] := List.isEmpty_iff.mp hempty
    have hnil' : l'.dropWhile p = [] := List.dropWhile_eq_nil_iff.mpr hl'
    rw [hnil, hnil']
  · exact hend _

/-- A list without blanks at its ends is not changed. -/
lemma trim_eq_self (hhead : ∀ x ∈ l.head?, p x = false) (hlast : ∀ x ∈ l.getLast?, p x = false) :
    trim p l = l := by
  have hdrop : l.dropWhile p = l := by
    cases l with
    | nil => rfl
    | cons x m => exact List.dropWhile_cons_of_neg (by simp [hhead x rfl])
  rw [trim, hdrop, List.rdropWhile_eq_self_iff]
  intro hne
  simp [hlast _ (List.getLast?_eq_some_getLast hne)]

/-- **What is trimmed off.** -/
theorem trim_append {a b : List α} (ha : ∀ x ∈ a, p x = true) (hb : ∀ x ∈ b, p x = true)
    (hhead : ∀ x ∈ l.head?, p x = false) (hlast : ∀ x ∈ l.getLast?, p x = false) :
    trim p (a ++ l ++ b) = l := by
  rw [trim_append_right _ hb, trim_append_left ha, trim_eq_self hhead hlast]

end Words
