import Stencil.Scanner.Literals

/-!
# Scanner — Contracts

A *contract* is a property of scanners that sequences and repetitions keep, and that the basic
scanners have: those that look ahead, that read what they have seen, or that fail where they are.
Every reader that is made up of these has it.  Here are the readers that follow at once; those of
expressions and templates follow where they are.
-/

namespace Stencil.Scanner

open Text

/-- A property that is kept by whatever scanners are made up of.  A choice or a machine has it if it
reads no more characters than it has seen. -/
structure Contract (P : ∀ {α : Type}, Scanner α → Prop) : Prop where
  pure : ∀ {α : Type} (a : α), P (pure a : Scanner α)
  bind : ∀ {α β : Type} {x : Scanner α} {f : α → Scanner β}, P x → (∀ a, P (f a)) → P (x >>= f)
  fail : ∀ {α : Type} (cause : Cause), P (fail cause : Scanner α)
  peek : ∀ n, P (peek n)
  take : ∀ n, P (take n)
  next : ∀ {β : Type} {ahead : Nat} {choose : Char → List Char → Option (Nat × β)},
    (∀ {c cs extra b}, choose c cs = some (extra, b) → extra ≤ cs.length) → P (next ahead choose)
  fold : ∀ {σ : Type} {ahead : Nat} {move : σ → Char → List Char → Move σ},
    (∀ {a c cs extra b},
      move a c cs = .step extra b ∨ move a c cs = .last extra b → extra ≤ cs.length) →
    ∀ a, P (fold ahead move a)
  peekWord : ∀ accepted limit, P (peekWord accepted limit)
  gather : ∀ {α β τ : Type} {opening : Scanner (Option β)} {consumes : Consumes opening}
    {body : β → Scanner (α ⊕ τ)} {ended : τ}, P opening → (∀ b, P (body b)) →
    P (gather opening @consumes body ended)
  number : P number

namespace Contract

variable {P : ∀ {α : Type}, Scanner α → Prop} {α β : Type}

/-- A choice is made by something known, so it reads nothing. -/
theorem ite {c : Prop} [Decidable c] {x y : Scanner α} (hx : P x) (hy : P y) :
    P (if c then x else y) := by
  split
  · exact hx
  · exact hy

variable (C : Contract P)

include C

/-- What is made of a result afterwards reads nothing either. -/
theorem map {x : Scanner α} (hx : P x) (f : α → β) : P (do return f (← x)) :=
  C.bind hx fun a => C.pure (f a)

/-- The next character is a text of at most one character. -/
theorem peekChar : P peekChar :=
  C.map (C.peek 1) _

/-- One character is wanted, and no more has been seen. -/
theorem accept (wanted : Char → Bool) : P (accept wanted) := by
  refine C.next fun h => ?_
  split at h <;> cases h
  exact Nat.zero_le _

/-- Any character will do. -/
theorem anyChar : P anyChar :=
  C.accept _

/-- Blanks are skipped one by one, each as it is seen. -/
theorem skipBlank : P skipBlank := by
  refine C.fold (fun h => ?_) 0
  split at h <;> rcases h with h | h <;> cases h
  exact Nat.zero_le _

/-- A word is looked at as a whole before it is consumed. -/
theorem word (accepted : Char → Bool) (limit : Option Nat) : P (word accepted limit) :=
  C.bind (C.peekWord accepted limit) fun cs => C.take cs.length

/-- Repetition without an end of its own is repetition that stops where nothing opens. -/
theorem collect {opening : Scanner (Option β)} {consumes : Consumes opening} {body : β → Scanner α}
    (ho : P opening) (hb : ∀ b, P (body b)) : P (collect opening @consumes body) :=
  C.map (C.gather ho fun b => C.map (hb b) Sum.inl) Prod.fst

/-- A string is read by a machine that looks at one character at a time, escapes included. -/
theorem stringLiteral : P stringLiteral := by
  have within : ∀ {a : StringState} {c : Char} {cs : List Char} {extra : Nat} {b : StringState},
      a.move c cs = .step extra b ∨ a.move c cs = .last extra b → extra ≤ cs.length := by
    intro a c cs extra b h
    unfold StringState.move at h
    repeat' split at h
    all_goals rcases h with h | h <;> cases h
    all_goals exact Nat.zero_le _
  refine C.bind (C.accept _) fun o => ?_
  cases o with
  | none => exact C.fail _
  | some c => exact C.bind (C.fold within _) fun state => ite (C.pure _) (C.fail _)

end Contract

end Stencil.Scanner
