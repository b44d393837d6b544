import Stencil.Error

/-!
# Stream

A text that arrives in chunks.  A stream holds the characters that have arrived and are not yet
consumed, the chunks still to come, and why the source breaks off after the last of them, if it
does.  Looking ahead takes in chunks until enough characters have arrived; it consumes nothing
(`unread_peek`), and fails only when the source breaks off before them.  A text that is at hand as
a whole is a stream without chunks to come.
-/

namespace Stencil

/-- The list has at least `n` elements; looks at no more than `n` of them. -/
def atLeast {α : Type} : Nat → List α → Bool
  | 0, _ => true
  | _ + 1, [] => false
  | n + 1, _ :: rest => atLeast n rest

theorem atLeast_iff {α : Type} (n : Nat) (l : List α) : atLeast n l = true ↔ n ≤ l.length := by
  induction l generalizing n with
  | nil => cases n <;> simp [atLeast]
  | cons a l ih => cases n <;> simp [atLeast, ih]

/-- A text that arrives in chunks, and how far it has been consumed. -/
structure Stream where
  position : Position
  buffer : List Char
  chunks : List (List Char)
  failure : Option String

/-- What reading from a stream comes to: a value or a failure, and the stream afterwards. -/
inductive Outcome (α : Type) where
  | ok (value : α) (rest : Stream)
  | error (failure : Failure) (rest : Stream)

/-- The stream after reading. -/
def Outcome.rest {α : Type} : Outcome α → Stream
  | .ok _ s => s
  | .error _ s => s

namespace Stream

/-- The name of a stream that is given none. -/
def defaultName : String := "<stream>"

/-- A text at hand as a whole. -/
def ofText (name : String) (text : List Char) : Stream :=
  ⟨.start name, text, [], none⟩

/-- A text at hand as a whole, of which the beginning lies before `position`. -/
def ofTextAt (position : Position) (text : List Char) : Stream :=
  ⟨position, text, [], none⟩

/-- A text that arrives in chunks; an empty chunk is its end, and if there is none, the source may
break off after the last chunk for the reason given. -/
def ofChunks (name : String) (chunks : List (List Char)) (failure : Option String) : Stream :=
  ⟨.start name, [], chunks.takeWhile (fun c => !c.isEmpty),
    if chunks.any List.isEmpty then none else failure⟩

/-- The characters that are not consumed, whether or not they have arrived. -/
def unread (s : Stream) : List Char :=
  s.buffer ++ s.chunks.flatten

/-- How many characters are not consumed. -/
def size (s : Stream) : Nat :=
  s.unread.length

/-- The arrived characters and the chunks to come, once at least `n` characters have arrived or no
more will. -/
def fill (n : Nat) : List Char → List (List Char) → List Char × List (List Char)
  | buffer, [] => (buffer, [])
  | buffer, c :: cs => if atLeast n buffer then (buffer, c :: cs) else fill n (buffer ++ c) cs

theorem fill_flatten (n : Nat) (buffer : List Char) (chunks : List (List Char)) :
    (fill n buffer chunks).1 ++ (fill n buffer chunks).2.flatten = buffer ++ chunks.flatten := by
  induction chunks generalizing buffer with
  | nil => rfl
  | cons c cs ih =>
    simp only [fill]
    split
    · rfl
    · simp [ih, List.append_assoc]

/-- The next `n` characters, or all there are if they are fewer. -/
def peek (n : Nat) (s : Stream) : Outcome (List Char) :=
  let filled := fill n s.buffer s.chunks
  let t : Stream := { s with buffer := filled.1, chunks := filled.2 }
  match s.failure with
  | none => .ok (t.buffer.take n) t
  | some reason =>
    if atLeast n t.buffer then .ok (t.buffer.take n) t
    else .error (.located (.readFailed reason) s.position) t

/-- The stream after `n` of its arrived characters. -/
def advance (n : Nat) (s : Stream) : Stream :=
  { s with position := s.position.after (s.buffer.take n), buffer := s.buffer.drop n }

theorem unread_peek (n : Nat) (s : Stream) : (s.peek n).rest.unread = s.unread := by
  have h := fill_flatten n s.buffer s.chunks
  unfold peek
  cases s.failure with
  | none => exact h
  | some reason => dsimp only; split <;> exact h

theorem size_peek (n : Nat) (s : Stream) : (s.peek n).rest.size = s.size := by
  simp only [size, unread_peek]

theorem peek_ok {n : Nat} {s t : Stream} {cs : List Char} (h : s.peek n = .ok cs t) :
    cs = t.buffer.take n := by
  unfold peek at h
  revert h
  cases s.failure with
  | none => rintro ⟨⟩; rfl
  | some reason =>
    dsimp only
    split
    · rintro ⟨⟩; rfl
    · rintro ⟨⟩

theorem size_of_peek_ok {n : Nat} {s t : Stream} {cs : List Char} (h : s.peek n = .ok cs t) :
    t.size = s.size := by
  rw [← size_peek n s, h, Outcome.rest]

theorem size_advance_le (n : Nat) (s : Stream) : (s.advance n).size ≤ s.size := by
  simp only [size, unread, advance, List.length_append, List.length_drop]
  omega

theorem size_advance_lt {n k : Nat} {s t : Stream} {c : Char} {cs : List Char}
    (h : s.peek n = .ok (c :: cs) t) : (t.advance (k + 1)).size < s.size := by
  rw [← size_of_peek_ok h]
  have hb := peek_ok h
  cases ht : t.buffer with
  | nil => simp [ht] at hb
  | cons d ds =>
    simp only [size, unread, advance, List.length_append, List.length_drop, ht, List.length_cons]
    omega

end Stream

end Stencil
