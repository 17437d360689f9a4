import Mathlib.Data.List.Basic
import Mathlib.Order.Nat

set_option relaxedAutoImplicit false
set_option autoImplicit false

/-!
# Broadcast channels

A channel whose messages go to every receiver.  It retains only the newest `cap` messages; a
receiver that has fallen behind them is told so, and goes on with the oldest one that is
retained.  A receiver is its position in the history of all messages.

A channel may drop a message that is sent while nobody is subscribed.  No receiver can tell:
every later one starts at the end of the history.

## Main definitions

* `Broadcast`, `Broadcast.send`, `Broadcast.subscribe`, `Broadcast.recv` — the channel.
* `Broadcast.Follows` — what a receiver has got, against what was sent.

## Main results

* `Broadcast.Follows.recv` — every answer keeps it, also one that skips messages.
* `Broadcast.Follows.getLast?_of_drained` — a receiver that has nothing left to read has got the
  latest message, however many it has missed before.
-/

/-- A channel that retains the newest `cap` messages, given by the history of all messages. -/
structure Broadcast (cap : ℕ) (M : Type) where
  sent : List M

namespace Broadcast

variable {cap : ℕ} {M : Type}

/-- A channel to which nothing was sent. -/
def empty : Broadcast cap M := ⟨[]⟩

/-- The position of the oldest retained message. -/
def oldest (b : Broadcast cap M) : ℕ := b.sent.length - cap

/-- Send a message. -/
def send (b : Broadcast cap M) (m : M) : Broadcast cap M := ⟨b.sent ++ [m]⟩

/-- The position of a new receiver. -/
def subscribe (b : Broadcast cap M) : ℕ := b.sent.length

/-- The answers that a receiver may get. -/
inductive Answer (M : Type) where
  /-- There is nothing to read; the receiver waits. -/
  | empty
  | message (m : M)
  | lagged (missed : ℕ)

/-- The messages in an answer. -/
def Answer.messages : Answer M → List M
  | .empty => []
  | .message m => [m]
  | .lagged _ => []

/-- The answer at a position, and the position afterwards. -/
def recv (b : Broadcast cap M) (next : ℕ) : Answer M × ℕ :=
  if next < b.oldest then (.lagged (b.oldest - next), b.oldest)
  else
    match b.sent[next]? with
    | some m => (.message m, next + 1)
    | none => (.empty, next)

/-- Nothing is left to read. -/
def Drained (b : Broadcast cap M) (next : ℕ) : Prop := (b.recv next).1 = .empty

@[simp] lemma sent_send (b : Broadcast cap M) (m : M) : (b.send m).sent = b.sent ++ [m] := rfl

lemma length_send (b : Broadcast cap M) (m : M) :
    (b.send m).sent.length = b.sent.length + 1 := by
  rw [sent_send, List.length_append, List.length_singleton]

lemma recv_message {b : Broadcast cap M} {next next' : ℕ} {m : M}
    (h : b.recv next = (.message m, next')) : b.sent[next]? = some m ∧ next' = next + 1 := by
  unfold recv at h
  split_ifs at h
  · cases h
  · cases hm : b.sent[next]? with
    | none =>
      rw [hm] at h
      cases h
    | some m' =>
      rw [hm] at h
      cases h
      exact ⟨rfl, rfl⟩

lemma le_of_recv_lagged {b : Broadcast cap M} {next next' missed : ℕ}
    (h : b.recv next = (.lagged missed, next')) : next ≤ next' := by
  unfold recv at h
  split_ifs at h with hlag
  · cases h
    exact hlag.le
  · cases hm : b.sent[next]? with
    | none =>
      rw [hm] at h
      cases h
    | some m' =>
      rw [hm] at h
      cases h

lemma length_le_of_drained {b : Broadcast cap M} {next : ℕ} (h : b.Drained next) :
    b.sent.length ≤ next := by
  unfold Drained recv at h
  split_ifs at h
  cases hm : b.sent[next]? with
  | none => exact List.getElem?_eq_none_iff.mp hm
  | some m =>
    rw [hm] at h
    cases h

/-! ## What a receiver has got -/

/-- A receiver that subscribed at `start` is at `next` and has got some messages: they were sent
after its subscription, in this order, and nothing newer is missing once it is at the end. -/
structure Follows (b : Broadcast cap M) (start next : ℕ) (got : List M) : Prop where
  start_le : start ≤ next
  le_length : next ≤ b.sent.length
  sublist : got.Sublist ((b.sent.take next).drop start)
  last : next = b.sent.length → got.getLast? = (b.sent.drop start).getLast?

namespace Follows

/-- A new receiver. -/
lemma subscribe (b : Broadcast cap M) : b.Follows b.subscribe b.subscribe [] where
  start_le := le_rfl
  le_length := le_rfl
  sublist := List.nil_sublist _
  last _ := by rw [Broadcast.subscribe, List.drop_length]

variable {b : Broadcast cap M} {start next : ℕ} {got : List M}

/-- A message is sent. -/
lemma send (h : b.Follows start next got) (m : M) : (b.send m).Follows start next got where
  start_le := h.start_le
  le_length := by
    have := h.le_length
    rw [length_send]
    omega
  sublist := by
    rw [sent_send, List.take_append_of_le_length h.le_length]
    exact h.sublist
  last hnext := by
    have := h.le_length
    rw [length_send] at hnext
    omega

/-- **A receiver asks for a message.** If it is told that it lags, it goes on before the end of
the history, so that the latest message is still to come.

**Proof sketch.** The three answers.  A message that leads to the end of the history is the
latest one. -/
theorem recv (h : b.Follows start next got) (hcap : 0 < cap) :
    b.Follows start (b.recv next).2 (got ++ (b.recv next).1.messages) := by
  have hstart := h.start_le
  unfold Broadcast.recv
  split_ifs with hlag
  · -- lagged
    have hold : b.oldest < b.sent.length := by
      unfold oldest at hlag ⊢
      omega
    refine ⟨by omega, hold.le, ?_, fun hlast => by omega⟩
    have hearlier : b.sent.take next <+: b.sent.take b.oldest :=
      List.take_prefix_take_left hlag.le
    simpa [Answer.messages] using h.sublist.trans (hearlier.sublist.drop start)
  · cases hm : b.sent[next]? with
    | none => simpa [Answer.messages] using h
    | some m =>
      obtain ⟨hlt, -⟩ := List.getElem?_eq_some_iff.mp hm
      have htake : b.sent.take (next + 1) = b.sent.take next ++ [m] := by
        rw [List.take_add_one, hm, Option.toList_some]
      have hlength : start ≤ (b.sent.take next).length := by
        rw [List.length_take]
        omega
      refine ⟨Nat.le_succ_of_le hstart, hlt, ?_, fun hlast => ?_⟩
      · change (got ++ [m]).Sublist ((b.sent.take (next + 1)).drop start)
        rw [htake, List.drop_append_of_le_length hlength]
        exact h.sublist.append_right [m]
      · have hsent : b.sent = b.sent.take next ++ [m] := by
          rw [← htake, show next + 1 = b.sent.length from hlast, List.take_length]
        change (got ++ [m]).getLast? = _
        rw [hsent, List.drop_append_of_le_length hlength, List.getLast?_concat,
          List.getLast?_concat]

/-- **A drained receiver is up to date**: the last message that it has got is the latest one
since its subscription. -/
theorem getLast?_of_drained (h : b.Follows start next got) (hdrained : b.Drained next) :
    got.getLast? = (b.sent.drop start).getLast? :=
  h.last (le_antisymm h.le_length (length_le_of_drained hdrained))

end Follows

end Broadcast
