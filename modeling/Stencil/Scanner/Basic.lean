import Stencil.Stream

/-!
# Scanner — Basic

A scanner reads a value from the front of a stream.  It never gives characters back: the part of
its definition that is a proof says that a stream does not grow by being read (`size_le`).  This
is what lets scanners be repeated.  Three repetitions suffice for all readers: `fold` runs a
machine over characters, `collect` repeats an opening and a body, and `gather` does so until a body
says that it was the last.
-/

namespace Stencil

/-- A reader of values from the front of a stream. -/
structure Scanner (α : Type) where
  run : Stream → Outcome α
  size_le : ∀ s, (run s).rest.size ≤ s.size

namespace Scanner

variable {α β σ τ : Type}

theorem ext_run {x y : Scanner α} (h : ∀ s, x.run s = y.run s) : x = y := by
  cases x; cases y
  congr
  exact funext h

theorem size_of_ok {x : Scanner α} {s t : Stream} {a : α} (h : x.run s = .ok a t) :
    t.size ≤ s.size := by
  have := x.size_le s
  rwa [h] at this

theorem size_of_error {x : Scanner α} {s t : Stream} {f : Failure} (h : x.run s = .error f t) :
    t.size ≤ s.size := by
  have := x.size_le s
  rwa [h] at this

/-- Reads nothing. -/
def value (a : α) : Scanner α where
  run s := .ok a s
  size_le _ := Nat.le_refl _

/-- What two readings in a row come to on a stream. -/
def chain (x : Stream → Outcome α) (f : α → Stream → Outcome β) (s : Stream) : Outcome β :=
  match x s with
  | .ok a t => f a t
  | .error e t => .error e t

/-- Reads one thing, then another that may depend on it. -/
def andThen (x : Scanner α) (f : α → Scanner β) : Scanner β where
  run := chain x.run (fun a => (f a).run)
  size_le s := by
    unfold chain
    split
    · rename_i a t h
      exact Nat.le_trans ((f a).size_le t) (size_of_ok h)
    · rename_i e t h
      exact size_of_error h

instance : Monad Scanner where
  pure := value
  bind := andThen

@[simp] theorem run_pure (a : α) (s : Stream) : (pure a : Scanner α).run s = .ok a s := rfl

theorem run_bind (x : Scanner α) (f : α → Scanner β) (s : Stream) :
    (x >>= f).run s = chain x.run (fun a => (f a).run) s := rfl

instance : LawfulMonad Scanner := LawfulMonad.mk' Scanner
  (fun x => ext_run fun s => by
    change chain x.run _ s = _
    unfold chain
    cases h : x.run s <;> rfl)
  (fun _ _ => rfl)
  (fun x _ _ => ext_run fun s => by
    simp only [run_bind, chain]
    cases x.run s <;> rfl)

/-- The place reached. -/
def position : Scanner Position where
  run s := .ok s.position s
  size_le _ := Nat.le_refl _

/-- Ends the reading by a failure. -/
def throw (f : Failure) : Scanner α where
  run s := .error f s
  size_le _ := Nat.le_refl _

/-- Ends the reading by a cause at the place reached. -/
def fail (cause : Cause) : Scanner α where
  run s := .error (.located cause s.position) s
  size_le _ := Nat.le_refl _

/-- The next `n` characters, which are not consumed. -/
def peek (n : Nat) : Scanner (List Char) where
  run := Stream.peek n
  size_le s := Nat.le_of_eq (Stream.size_peek n s)

/-- The next character, which is not consumed. -/
def peekChar : Scanner (Option Char) := do
  return (← peek 1).head?

/-- Reads the next `n` characters, or all there are if they are fewer. -/
def take (n : Nat) : Scanner (List Char) where
  run s :=
    match s.peek n with
    | .ok cs t => .ok cs (t.advance cs.length)
    | .error f t => .error f t
  size_le s := by
    have hp := Stream.size_peek n s
    split
    · rename_i cs t h
      rw [h, Outcome.rest] at hp
      exact hp ▸ Stream.size_advance_le _ t
    · rename_i f t h
      rw [h, Outcome.rest] at hp
      exact Nat.le_of_eq hp

/-- The stream is at its end. -/
def atEnd : Scanner Bool := do
  return (← peek 1).isEmpty

/-- Looks at the next character and up to `ahead` more, and reads what `choose` wants: the first
character and a number of further ones.  Nothing is read at the end, or if `choose` declines. -/
def next (ahead : Nat) (choose : Char → List Char → Option (Nat × β)) : Scanner (Option β) where
  run s :=
    match s.peek (ahead + 1) with
    | .error f t => .error f t
    | .ok [] t => .ok none t
    | .ok (c :: cs) t =>
      match choose c cs with
      | none => .ok none t
      | some (extra, b) => .ok (some b) (t.advance (extra + 1))
  size_le s := by
    have hp := Stream.size_peek (ahead + 1) s
    split
    · rename_i f t h
      rw [h, Outcome.rest] at hp
      exact Nat.le_of_eq hp
    · rename_i t h
      rw [h, Outcome.rest] at hp
      exact Nat.le_of_eq hp
    · rename_i c cs t h
      split
      · exact Nat.le_of_eq (Stream.size_of_peek_ok h)
      · exact Nat.le_of_lt (Stream.size_advance_lt h)

/-- Reads the next character if it is wanted. -/
def accept (wanted : Char → Bool) : Scanner (Option Char) :=
  next 0 (fun c _ => if wanted c then some (0, c) else none)

/-- Reads the next character. -/
def anyChar : Scanner (Option Char) :=
  accept (fun _ => true)

/-- A scanner consumes characters whenever it reads something. -/
def Consumes (x : Scanner (Option β)) : Prop :=
  ∀ {s t b}, x.run s = .ok (some b) t → t.size < s.size

theorem consumes_next (ahead : Nat) (choose : Char → List Char → Option (Nat × β)) :
    Consumes (next ahead choose) := by
  intro s t b h
  simp only [next] at h
  split at h
  · cases h
  · cases h
  · rename_i hp
    split at h
    · cases h
    · cases h
      exact Stream.size_advance_lt hp

theorem consumes_accept (wanted : Char → Bool) : Consumes (accept wanted) :=
  consumes_next _ _

theorem consumes_anyChar : Consumes anyChar :=
  consumes_accept _

theorem consumes_bind {x : Scanner α} {f : α → Scanner (Option β)} (h : ∀ a, Consumes (f a)) :
    Consumes (x >>= f) := by
  intro s t b hr
  simp only [run_bind, chain] at hr
  split at hr
  · rename_i a u hx
    exact Nat.lt_of_lt_of_le (h a hr) (size_of_ok hx)
  · cases hr

/-- A scanner that reads nothing unless something else is read before consumes characters. -/
theorem consumes_opened {x : Scanner (Option α)} {f : Option α → Scanner (Option β)}
    (h : Consumes x) (hf : f none = pure none) : Consumes (x >>= f) := by
  intro s t b hr
  simp only [run_bind, chain] at hr
  split at hr
  · rename_i a u hx
    cases a with
    | none => rw [hf] at hr; cases hr
    | some a => exact Nat.lt_of_le_of_lt (size_of_ok hr) (h hx)
  · cases hr

/-- A move of a machine over characters: stop before the next character, or consume it together
with `extra` more, and go on or have done. -/
inductive Move (σ : Type) where
  | stop
  | last (extra : Nat) (state : σ)
  | step (extra : Nat) (state : σ)

/-- The run of a machine over the characters of a stream.  The machine sees the next character and
up to `ahead` more. -/
def foldFrom (ahead : Nat) (move : σ → Char → List Char → Move σ) (state : σ) (s : Stream) :
    Outcome σ :=
  match _h : s.peek (ahead + 1) with
  | .error f t => .error f t
  | .ok [] t => .ok state t
  | .ok (c :: cs) t =>
    match move state c cs with
    | .stop => .ok state t
    | .last extra state => .ok state (t.advance (extra + 1))
    | .step extra state => foldFrom ahead move state (t.advance (extra + 1))
termination_by s.size
decreasing_by exact Stream.size_advance_lt ‹_›

theorem size_foldFrom_le (ahead : Nat) (move : σ → Char → List Char → Move σ) (state : σ)
    (s : Stream) : (foldFrom ahead move state s).rest.size ≤ s.size := by
  fun_induction foldFrom ahead move state s with
  | case1 state s f t h =>
    have hp := Stream.size_peek (ahead + 1) s
    rw [h] at hp
    exact Nat.le_of_eq hp
  | case2 state s t h => exact Nat.le_of_eq (Stream.size_of_peek_ok h)
  | case3 state s c cs t h hm => exact Nat.le_of_eq (Stream.size_of_peek_ok h)
  | case4 state s c cs t h extra next hm => exact Nat.le_of_lt (Stream.size_advance_lt h)
  | case5 state s c cs t h extra next hm ih =>
    exact Nat.le_trans ih (Nat.le_of_lt (Stream.size_advance_lt h))

/-- Runs a machine over the characters of a stream, from `state` on. -/
def fold (ahead : Nat) (move : σ → Char → List Char → Move σ) (state : σ) : Scanner σ where
  run := foldFrom ahead move state
  size_le := size_foldFrom_le ahead move state

/-- The readings of an opening and a body in turn, until there is no opening or a body ends them. -/
def gatherFrom (opening : Scanner (Option β)) (consumes : Consumes opening)
    (body : β → Scanner (α ⊕ τ)) (ended : τ) (s : Stream) : Outcome (List α × τ) :=
  match _h : opening.run s with
  | .error f t => .error f t
  | .ok none t => .ok ([], ended) t
  | .ok (some b) t =>
    match _hb : (body b).run t with
    | .error f u => .error f u
    | .ok (.inr x) u => .ok ([], x) u
    | .ok (.inl a) u =>
      match gatherFrom opening consumes body ended u with
      | .error f v => .error f v
      | .ok (as, x) v => .ok (a :: as, x) v
termination_by s.size
decreasing_by exact Nat.lt_of_le_of_lt (size_of_ok ‹_›) (consumes ‹_›)

theorem size_gatherFrom_le (opening : Scanner (Option β)) (consumes : Consumes opening)
    (body : β → Scanner (α ⊕ τ)) (ended : τ) (s : Stream) :
    (gatherFrom opening consumes body ended s).rest.size ≤ s.size := by
  fun_induction gatherFrom opening consumes body ended s with
  | case1 s f t h => exact size_of_error h
  | case2 s t h => exact size_of_ok h
  | case3 s b t h f u hb => exact Nat.le_trans (size_of_error hb) (size_of_ok h)
  | case4 s b t h x u hb => exact Nat.le_trans (size_of_ok hb) (size_of_ok h)
  | case5 s b t h a u hb f v hv ih =>
    rw [hv] at ih
    exact Nat.le_trans ih (Nat.le_trans (size_of_ok hb) (size_of_ok h))
  | case6 s b t h a u hb as x v hv ih =>
    rw [hv] at ih
    exact Nat.le_trans ih (Nat.le_trans (size_of_ok hb) (size_of_ok h))

/-- Reads an opening and a body in turn.  The readings end with `ended` where there is no opening,
or with what a body says that ends them. -/
def gather (opening : Scanner (Option β)) (consumes : Consumes opening)
    (body : β → Scanner (α ⊕ τ)) (ended : τ) : Scanner (List α × τ) where
  run := gatherFrom opening consumes body ended
  size_le := size_gatherFrom_le opening consumes body ended

/-- Reads an opening and a body in turn, as long as there is an opening. -/
def collect (opening : Scanner (Option β)) (consumes : Consumes opening)
    (body : β → Scanner α) : Scanner (List α) := do
  let (as, ()) ← gather opening consumes (fun b => do return .inl (← body b)) ()
  return as

/-- How many accepted characters are at the front of a text; no more than the limit. -/
def acceptedLength (accepted : Char → Bool) (limit : Option Nat) (text : List Char) : Nat :=
  let n := (text.takeWhile accepted).length
  match limit with
  | none => n
  | some m => min n m

theorem acceptedLength_le (accepted : Char → Bool) (limit : Option Nat) (text : List Char) :
    acceptedLength accepted limit text ≤ text.length := by
  have h : (text.takeWhile accepted).length ≤ text.length :=
    (List.takeWhile_sublist accepted).length_le
  unfold acceptedLength
  cases limit with
  | none => exact h
  | some m => exact Nat.le_trans (Nat.min_le_left _ _) h

/-- The word at the front of a stream of which `n` characters are known.  It ends where one more
character has arrived and belongs to it no more. -/
def peekWordFrom (accepted : Char → Bool) (limit : Option Nat) (n : Nat) (s : Stream) :
    Outcome (List Char) :=
  if limit = some n then s.peek n
  else match _hp : s.peek (n + 1) with
    | .error f t => .error f t
    | .ok _ t =>
      let m := acceptedLength accepted limit t.buffer
      if n < m then peekWordFrom accepted limit m t else t.peek n
termination_by s.size - n
decreasing_by
  have hs := Stream.size_of_peek_ok _hp
  have hm := acceptedLength_le accepted limit t.buffer
  have : t.buffer.length ≤ t.size := by simp [Stream.size, Stream.unread]
  omega

theorem size_peekWordFrom_le (accepted : Char → Bool) (limit : Option Nat) (n : Nat) (s : Stream) :
    (peekWordFrom accepted limit n s).rest.size ≤ s.size := by
  fun_induction peekWordFrom accepted limit n s with
  | case1 n s h => exact Nat.le_of_eq (Stream.size_peek n s)
  | case2 n s h f t hp =>
    have := Stream.size_peek (n + 1) s
    rw [hp] at this
    exact Nat.le_of_eq this
  | case3 n s h cs t hp m hm ih =>
    exact Nat.le_trans ih (Nat.le_of_eq (Stream.size_of_peek_ok hp))
  | case4 n s h cs t hp m hm =>
    exact Nat.le_of_eq ((Stream.size_peek n t).trans (Stream.size_of_peek_ok hp))

/-- The longest word of accepted characters at the front, of no more characters than the limit.
It is not consumed. -/
def peekWord (accepted : Char → Bool) (limit : Option Nat) : Scanner (List Char) where
  run := peekWordFrom accepted limit 0
  size_le := size_peekWordFrom_le accepted limit 0

/-- Reads the longest word of accepted characters, of no more characters than the limit. -/
def word (accepted : Char → Bool) (limit : Option Nat) : Scanner (List Char) := do
  let cs ← peekWord accepted limit
  take cs.length

/-- Reads all blanks in front, and counts them. -/
def skipBlank : Scanner Nat :=
  fold 0 (fun n c _ => if Text.isBlank c then .step 0 (n + 1) else .stop) 0

/-- The value that a scanner reads from a stream. -/
def read (x : Scanner α) (s : Stream) : Except Failure α :=
  match x.run s with
  | .ok a _ => .ok a
  | .error f _ => .error f

end Scanner

end Stencil
