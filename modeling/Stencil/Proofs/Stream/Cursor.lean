import Mathlib.Data.List.Induction
import Stencil.Stream

/-!
# Stream — Cursor

A stream is a cursor in a text: what matters of it is its place, the characters that are not
consumed, and whether the source breaks off behind them.  How many of these characters have arrived
does not matter (`Same`).  Looking ahead shows the next of these characters, if the source does not
break off before them, and leaves the stream the same (`Reaches.peeked`); and to advance over
characters that have arrived is to consume them (`Shows.reaches_advance`).
-/

namespace Stencil

/-- The place behind the beginning of a text: its line feeds tell the line, the characters behind
the last of them the column, and all its characters the offset. -/
theorem Position.after_start (name : String) (text : List Char) :
    (start name).after text =
      ⟨name, 1 + text.count '\n', (text.reverse.takeWhile (· != '\n')).length, text.length⟩ := by
  induction text using List.reverseRecOn with
  | nil => rfl
  | append_singleton text c ih =>
      rw [after_append, ih]
      by_cases hc : c = '\n'
      · simp [after, next, hc, Nat.add_assoc]
      · simp [after, next, hc, List.count_append]

namespace Stream

variable {s t u : Stream} {v w : List Char}

/-- The stream `t` is the stream `s` behind the characters `w`, whatever else has arrived. -/
structure Reaches (s : Stream) (w : List Char) (t : Stream) : Prop where
  unread : s.unread = w ++ t.unread
  position : t.position = s.position.after w
  failure : t.failure = s.failure

/-- The streams differ in nothing but in how much has arrived. -/
abbrev Same (s t : Stream) : Prop :=
  s.Reaches [] t

namespace Reaches

theorem refl (s : Stream) : s.Same s :=
  ⟨rfl, rfl, rfl⟩

/-- What is consumed first comes in front of what is consumed then. -/
theorem trans (h : s.Reaches w t) (h' : t.Reaches v u) : s.Reaches (w ++ v) u where
  unread := by rw [h.unread, h'.unread, List.append_assoc]
  position := by rw [h'.position, h.position, Position.after_append]
  failure := h'.failure.trans h.failure

/-- Two streams are the same behind the same characters, if they are before. -/
theorem same {s' t' : Stream} (h : s.Same t) (hs : s.Reaches w s') (ht : t.Reaches w t') :
    s'.Same t' where
  unread := by
    have hu := h.unread
    rw [hs.unread, ht.unread] at hu
    exact List.append_cancel_left hu
  position := by rw [ht.position, hs.position, h.position]; rfl
  failure := by rw [ht.failure, hs.failure, h.failure]

end Reaches

/-! ### Looking ahead -/

/-- Filling the buffer does not change what is in front of the stream. -/
theorem take_fill (n : Nat) (buffer : List Char) (chunks : List (List Char)) :
    (fill n buffer chunks).1.take n = (buffer ++ chunks.flatten).take n := by
  induction chunks generalizing buffer with
  | nil => simp [fill]
  | cons c cs ih =>
      rw [fill]
      split
      · next h => rw [List.take_append_of_le_length ((atLeast_iff n buffer).mp h)]
      · rw [ih, List.flatten_cons, List.append_assoc]

/-- The source does not break off before the next `n` characters. -/
def Grants (s : Stream) (n : Nat) : Prop :=
  s.failure = none ∨ n ≤ s.unread.length

theorem Reaches.grants_iff (h : s.Same t) (n : Nat) : s.Grants n ↔ t.Grants n := by
  rw [Grants, Grants, h.failure, h.unread, List.nil_append]

/-- The stream after it has taken in chunks until `n` characters have arrived. -/
def filled (n : Nat) (s : Stream) : Stream :=
  { s with buffer := (fill n s.buffer s.chunks).1, chunks := (fill n s.buffer s.chunks).2 }

/-- Filling the buffer does not change what matters of a stream. -/
theorem same_filled (n : Nat) (s : Stream) : s.Same (s.filled n) where
  unread := (fill_flatten n s.buffer s.chunks).symm
  position := rfl
  failure := rfl

theorem take_buffer_filled (n : Nat) (s : Stream) :
    (s.filled n).buffer.take n = s.unread.take n :=
  take_fill n s.buffer s.chunks

theorem le_length_buffer_filled_iff {n : Nat} :
    n ≤ (s.filled n).buffer.length ↔ n ≤ s.unread.length := by
  have h := congrArg List.length (take_buffer_filled n s)
  rw [List.length_take, List.length_take] at h
  omega

/-- Peeking fills the buffer and fails only if too little arrives before a failing end. -/
theorem peek_eq (n : Nat) (s : Stream) :
    s.peek n = match s.failure with
      | none => .ok ((s.filled n).buffer.take n) (s.filled n)
      | some reason =>
        if atLeast n (s.filled n).buffer then
          .ok ((s.filled n).buffer.take n) (s.filled n)
        else .error (.located (.readFailed reason) s.position) (s.filled n) :=
  rfl

/-- **Looking ahead** gives the next characters, if the source does not break off before them. -/
theorem peek_of_grants {n : Nat} (h : s.Grants n) :
    s.peek n = .ok (s.unread.take n) (s.filled n) := by
  rw [← take_buffer_filled, peek_eq]
  rcases h with h | h
  · rw [h]
  · cases s.failure with
    | none => rfl
    | some reason => exact if_pos ((atLeast_iff _ _).mpr (le_length_buffer_filled_iff.mpr h))

theorem peek_of_not_grants {n : Nat} (h : ¬s.Grants n) :
    ∃ reason, s.failure = some reason ∧
      s.peek n = .error (.located (.readFailed reason) s.position) (s.filled n) := by
  rw [Grants, not_or] at h
  obtain ⟨hfailure, hlength⟩ := h
  cases hf : s.failure with
  | none => exact absurd hf hfailure
  | some reason =>
      refine ⟨reason, rfl, ?_⟩
      rw [peek_eq, hf]
      exact if_neg fun h => hlength (le_length_buffer_filled_iff.mp ((atLeast_iff _ _).mp h))

/-- The characters `cs` are the next ones of `s`, and have arrived in `t`. -/
structure Shows (s : Stream) (cs : List Char) (t : Stream) : Prop where
  same : s.Same t
  ahead : cs <+: s.unread
  arrived : cs.length ≤ t.buffer.length

theorem shows_filled (n : Nat) (s : Stream) : s.Shows (s.unread.take n) (s.filled n) where
  same := same_filled n s
  ahead := List.take_prefix n s.unread
  arrived := by
    rw [← take_buffer_filled]
    exact List.length_take_le' _ _

theorem shows_of_peek_ok {n : Nat} {cs : List Char} (h : s.peek n = .ok cs t) :
    s.Grants n ∧ cs = s.unread.take n ∧ s.Shows cs t := by
  by_cases hn : s.Grants n
  · rw [peek_of_grants hn] at h
    cases h
    exact ⟨hn, rfl, shows_filled n s⟩
  · obtain ⟨reason, -, hpeek⟩ := peek_of_not_grants hn
    rw [hpeek] at h
    cases h

theorem same_of_peek_error {n : Nat} {f : Failure} (h : s.peek n = .error f t) :
    ¬s.Grants n ∧ s.Same t := by
  by_cases hn : s.Grants n
  · rw [peek_of_grants hn] at h
    cases h
  · obtain ⟨reason, -, hpeek⟩ := peek_of_not_grants hn
    rw [hpeek] at h
    cases h
    exact ⟨hn, same_filled n s⟩

/-- What two streams come to that differ in how much has arrived, when one looks ahead. -/
inductive Peeked (s t : Stream) : Outcome (List Char) → Outcome (List Char) → Prop where
  | ok {cs : List Char} {s' t' : Stream} (hs : s.Shows cs s') (ht : t.Shows cs t') :
      Peeked s t (.ok cs s') (.ok cs t')
  | error {f : Failure} {s' t' : Stream} (hs : s.Same s') (ht : t.Same t') :
      Peeked s t (.error f s') (.error f t')

/-- Streams that are the same show the same characters, or both fail. -/
theorem Reaches.peeked (h : s.Same t) (n : Nat) : Peeked s t (s.peek n) (t.peek n) := by
  have hunread : s.unread = t.unread := h.unread
  by_cases hn : s.Grants n
  · rw [peek_of_grants hn, peek_of_grants ((h.grants_iff n).mp hn), hunread]
    exact .ok (hunread ▸ shows_filled n s) (shows_filled n t)
  · obtain ⟨reason, hs, hpeek⟩ := peek_of_not_grants hn
    obtain ⟨reason', ht, hpeek'⟩ := peek_of_not_grants (mt (h.grants_iff n).mpr hn)
    rw [h.failure, hs] at ht
    cases ht
    rw [hpeek, hpeek', h.position]
    exact .error (same_filled n s) (same_filled n t)

/-- To advance over characters that have arrived is to consume them. -/
theorem Shows.reaches_advance {cs : List Char} {n : Nat} (h : s.Shows cs t) (hn : n ≤ cs.length) :
    s.Reaches (cs.take n) (t.advance n) := by
  obtain ⟨r, hr⟩ := h.ahead
  have harrived : n ≤ t.buffer.length := Nat.le_trans hn h.arrived
  have htake : t.buffer.take n = cs.take n := by
    rw [← List.take_append_of_le_length harrived, ← List.take_append_of_le_length hn, hr,
      h.same.unread]
    rfl
  refine ⟨?_, ?_, h.same.failure⟩
  · rw [h.same.unread, List.nil_append, unread, unread, advance, ← List.append_assoc, ← htake,
      List.take_append_drop]
  · rw [← htake, advance, h.same.position]
    rfl

end Stream

end Stencil
