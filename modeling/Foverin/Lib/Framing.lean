import Mathlib.Data.List.Infix
import Mathlib.Tactic.Common

set_option relaxedAutoImplicit false
set_option autoImplicit false

/-!
# Framing

A stream of letters in which a separator ends every frame.  A reader that gets the stream in chunks
keeps what has no separator behind it yet until more arrives.  The frames that it finds do not
depend on where the chunks end, and in the beginning of a stream of frames it finds the beginning
of the frames.

## Main definitions

* `Framing.cut` — the complete frames of a stream, and what is left over.
* `Framing.join` — the stream of some frames.

## Main results

* `Framing.cut_append` — what is left over is all that a reader has to keep.
* `Framing.cut_join` — frames are read as they were written.
* `Framing.cut_of_prefix` — the beginning of a stream.
-/

namespace Framing

variable {α : Type} [DecidableEq α] (sep : α)

/-- The complete frames of a stream, and the letters after the last separator. -/
def cut : List α → List (List α) × List α
  | [] => ([], [])
  | x :: xs =>
    if x = sep then ([] :: (cut xs).1, (cut xs).2)
    else
      match (cut xs).1 with
      | [] => ([], x :: (cut xs).2)
      | f :: fs => ((x :: f) :: fs, (cut xs).2)

/-- The stream of some frames. -/
def join (frames : List (List α)) : List α := frames.flatMap fun f => f ++ [sep]

/-! ## Cutting -/

@[simp] lemma cut_nil : cut sep [] = ([], []) := rfl

lemma cut_cons_self (xs : List α) :
    cut sep (sep :: xs) = ([] :: (cut sep xs).1, (cut sep xs).2) := by
  rw [cut, if_pos rfl]

lemma cut_cons_of_ne {x : α} (hx : x ≠ sep) (xs : List α) :
    cut sep (x :: xs) =
      match (cut sep xs).1 with
      | [] => ([], x :: (cut sep xs).2)
      | f :: fs => ((x :: f) :: fs, (cut sep xs).2) := by
  rw [cut, if_neg hx]

/-- **More of a stream.** The frames that were complete stay as they are, and what was left over
stands at the beginning of what comes. -/
theorem cut_append (xs ys : List α) :
    cut sep (xs ++ ys) =
      ((cut sep xs).1 ++ (cut sep ((cut sep xs).2 ++ ys)).1,
        (cut sep ((cut sep xs).2 ++ ys)).2) := by
  induction xs with
  | nil => rfl
  | cons x xs ih =>
    by_cases hx : x = sep
    · subst hx
      rw [List.cons_append, cut_cons_self, cut_cons_self, ih]
      rfl
    · rw [List.cons_append, cut_cons_of_ne sep hx, cut_cons_of_ne sep hx, ih]
      cases hfs : (cut sep xs).1 with
      | nil =>
        dsimp only
        rw [List.nil_append, List.cons_append, cut_cons_of_ne sep hx]
        rfl
      | cons f fs => rfl

/-- Letters without a separator are no complete frame. -/
lemma cut_of_notMem {xs : List α} (h : sep ∉ xs) : cut sep xs = ([], xs) := by
  induction xs with
  | nil => rfl
  | cons x xs ih =>
    rw [List.mem_cons, not_or] at h
    rw [cut_cons_of_ne sep (Ne.symm h.1), ih h.2]

/-- A frame is read as it was written. -/
lemma cut_frame {f : List α} (h : sep ∉ f) (xs : List α) :
    cut sep (f ++ sep :: xs) = (f :: (cut sep xs).1, (cut sep xs).2) := by
  induction f with
  | nil => exact cut_cons_self sep xs
  | cons x f ih =>
    rw [List.mem_cons, not_or] at h
    rw [List.cons_append, cut_cons_of_ne sep (Ne.symm h.1), ih h.2]

/-- The first separator shows where a frame ends. -/
lemma frame_injective {f g : List α} (hf : sep ∉ f) (hg : sep ∉ g) {xs ys : List α}
    (h : f ++ sep :: xs = g ++ sep :: ys) : f = g ∧ xs = ys := by
  have hcut := congrArg (cut sep) h
  rw [cut_frame sep hf, cut_frame sep hg] at hcut
  obtain rfl : f = g := (List.cons.inj (congrArg Prod.fst hcut)).1
  exact ⟨rfl, (List.cons.inj (List.append_cancel_left h)).2⟩

/-- **Frames are read as they were written.** -/
theorem cut_join {frames : List (List α)} (h : ∀ f ∈ frames, sep ∉ f) (xs : List α) :
    cut sep (join sep frames ++ xs) = (frames ++ (cut sep xs).1, (cut sep xs).2) := by
  induction frames with
  | nil => rfl
  | cons f frames ih =>
    rw [List.forall_mem_cons] at h
    have hcons : join sep (f :: frames) ++ xs = f ++ sep :: (join sep frames ++ xs) := by
      simp [join]
    rw [hcons, cut_frame sep h.1, ih h.2]
    rfl

/-- What is left over has no separator, and with the frames it is the whole stream. -/
lemma join_cut (xs : List α) :
    join sep (cut sep xs).1 ++ (cut sep xs).2 = xs ∧ sep ∉ (cut sep xs).2 := by
  induction xs with
  | nil => exact ⟨rfl, List.not_mem_nil⟩
  | cons x xs ih =>
    obtain ⟨hjoin, hrest⟩ := ih
    by_cases hx : x = sep
    · subst hx
      rw [cut_cons_self]
      exact ⟨congrArg (List.cons x) hjoin, hrest⟩
    · rw [cut_cons_of_ne sep hx]
      cases hfs : (cut sep xs).1 with
      | nil =>
        rw [hfs] at hjoin
        refine ⟨congrArg (List.cons x) hjoin, ?_⟩
        rw [List.mem_cons, not_or]
        exact ⟨Ne.symm hx, hrest⟩
      | cons f fs =>
        rw [hfs] at hjoin
        exact ⟨congrArg (List.cons x) hjoin, hrest⟩

omit [DecidableEq α] in
/-- What has no separator ends before the first one. -/
lemma prefix_of_notMem {sep : α} {xs f ys : List α} (h : sep ∉ xs) (hxs : xs <+: f ++ sep :: ys) :
    xs <+: f := by
  rcases List.prefix_or_prefix_of_prefix hxs (List.prefix_append f _) with hshort | ⟨zs, rfl⟩
  · exact hshort
  · cases zs with
    | nil => simp
    | cons z zs =>
      obtain ⟨rfl, -⟩ := List.cons_prefix_cons.mp ((List.prefix_append_right_inj f).mp hxs)
      simp at h

/-- Every separator ends a frame. -/
lemma length_cut (xs : List α) : (cut sep xs).1.length = xs.count sep := by
  induction xs with
  | nil => rfl
  | cons x xs ih =>
    by_cases hx : x = sep
    · subst hx
      rw [cut_cons_self, List.count_cons_self, List.length_cons, ih]
    · rw [cut_cons_of_ne sep hx, List.count_cons_of_ne hx, ← ih]
      cases (cut sep xs).1 <;> rfl

/-! ## The beginning of a stream -/

/-- **The beginning of a stream** of frames: as many frames as there are separators in it, and the
beginning of what follows them.

**Proof sketch.** Cutting goes on where it left off (`cut_append`), so that the frames of the
prefix are the first ones of the whole stream.  What they leave is cancelled against the rest of
it. -/
theorem cut_of_prefix {frames : List (List α)} (h : ∀ f ∈ frames, sep ∉ f) {xs : List α}
    (hxs : xs <+: join sep frames) :
    xs.count sep ≤ frames.length ∧ (cut sep xs).1 = frames.take (xs.count sep) ∧
      (cut sep xs).2 <+: join sep (frames.drop (xs.count sep)) ∧
      (xs.count sep = frames.length ↔ xs = join sep frames) := by
  obtain ⟨ys, hys⟩ := hxs
  have hall : cut sep (xs ++ ys) = (frames, []) := by
    have hcut := cut_join sep h []
    rw [List.append_nil] at hcut
    rw [hys, hcut, cut_nil, List.append_nil]
  rw [cut_append, Prod.mk.injEq] at hall
  obtain ⟨hframes, -⟩ := hall
  rw [← length_cut sep xs]
  have htake : (cut sep xs).1 = frames.take (cut sep xs).1.length := by
    conv_rhs => rw [← hframes]
    rw [List.take_left]
  have hlength : (cut sep xs).1.length ≤ frames.length := by
    rw [← hframes, List.length_append]
    exact Nat.le_add_right _ _
  have hrest : (cut sep xs).2 <+: join sep (frames.drop (cut sep xs).1.length) := by
    have hsplit : join sep (frames.take (cut sep xs).1.length) ++
        join sep (frames.drop (cut sep xs).1.length) =
          join sep (frames.take (cut sep xs).1.length) ++ ((cut sep xs).2 ++ ys) := by
      rw [← htake, ← List.append_assoc, (join_cut sep xs).1, hys]
      conv_rhs => rw [← List.take_append_drop (cut sep xs).1.length frames, ← htake]
      simp [join]
    exact ⟨ys, (List.append_cancel_left hsplit).symm⟩
  refine ⟨hlength, htake, hrest, fun hk => ?_, fun hxs => ?_⟩
  · rw [hk, List.drop_length] at hrest
    rw [hk, List.take_length] at htake
    have hnothing : (cut sep xs).2 = [] := List.prefix_nil.mp hrest
    calc xs = join sep (cut sep xs).1 ++ (cut sep xs).2 := (join_cut sep xs).1.symm
      _ = join sep frames := by rw [htake, hnothing, List.append_nil]
  · have hcut := cut_join sep h []
    rw [List.append_nil, ← hxs, cut_nil, List.append_nil] at hcut
    rw [hcut]

end Framing
