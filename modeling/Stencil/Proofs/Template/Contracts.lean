import Stencil.Proofs.Expr.Contracts
import Stencil.Template.Reading

/-!
# Template — Contracts

The readers of templates have whatever property scanners are made up with (`holds_nested`): data
and statements first, then the siblings of a block by induction on the levels that are left.
-/

namespace Stencil.Template

open Scanner Text

variable {P : ∀ {α : Type}, Scanner α → Prop} (C : Contract P) {inner : Inner}

/-- The readers one level further in have the property. -/
def HoldsInside (P : ∀ {α : Type}, Scanner α → Prop) (inner : Inner) : Prop :=
  ∀ readers, inner = some readers → ∀ context, P (readers context)

include C

/-- A sibling opens with a brace, or with the first character of its data. -/
theorem holds_opening : P opening := by
  refine C.next fun h => ?_
  split at h <;> cases h <;> exact Nat.zero_le _

/-- Data go on by a machine; a stray brace is found when they end. -/
theorem holds_dataRest (started : DataState) : P (dataRest started) := by
  have within : ∀ {a : DataState} {c : Char} {cs : List Char} {extra : Nat} {b : DataState},
      a.move c cs = .step extra b ∨ a.move c cs = .last extra b → extra ≤ cs.length := by
    intro a c cs extra b h
    unfold DataState.move at h
    repeat' split at h
    all_goals rcases h with h | h <;> cases h
    all_goals exact Nat.zero_le _
  have hlast : ∀ s : DataState, P (if s.stray then fail .strayBrace
      else pure (Node.data (String.ofList s.chars))) :=
    fun s => Contract.ite (C.fail _) (C.pure _)
  exact Contract.ite (C.bind (C.pure started) hlast) (C.bind (C.fold within started) hlast)

/-- A statement ends with a brace; whatever else stands there is consumed, and is an error. -/
theorem holds_endOfStatement (statement : Option Keyword) : P (endOfStatement statement) :=
  C.bind C.skipBlank fun _ => C.bind C.anyChar fun _ => Contract.ite (C.pure ()) (C.fail _)

/-- What goes on with the readers one level further in. -/
theorem holds_enter {α : Type} (h : HoldsInside P inner)
    {f : (Context → Scanner (List Node × Closing)) → Scanner α}
    (hf : ∀ readers, (∀ context, P (readers context)) → P (f readers)) :
    P (enter inner >>= f) := by
  cases inner with
  | none => exact (C.fail _ : P (fail (.blocksTooDeep blockLimit)))
  | some readers => exact hf readers (h readers rfl)

/-- The siblings of both branches are read one level further in. -/
theorem holds_ifBlock (h : HoldsInside P inner) : P (ifBlock inner) := by
  refine C.bind (Expr.holds_scanner C) fun condition => C.bind (holds_endOfStatement C _) fun _ =>
    holds_enter C h fun readers hreaders => C.bind (hreaders _) fun first => ?_
  obtain ⟨holds, closing⟩ := first
  cases closing with
  | endStatement => exact C.pure _
  | endOfText => exact C.fail _
  | elseStatement =>
      refine C.bind (hreaders _) fun second => ?_
      obtain ⟨fails, closing⟩ := second
      exact Contract.ite (C.pure _) (C.fail _)

/-- So are those of the body of a loop, behind its name and its items. -/
theorem holds_forBlock (h : HoldsInside P inner) : P (forBlock inner) := by
  refine C.bind C.skipBlank fun _ => C.bind (C.word _ _) fun name => Contract.ite (C.fail _) ?_
  refine C.bind C.skipBlank fun _ => C.bind (C.word _ _) fun keyword =>
    Contract.ite ?_ (C.fail _)
  refine C.bind (Expr.holds_scanner C) fun items => C.bind (holds_endOfStatement C _) fun _ =>
    holds_enter C h fun readers hreaders => C.bind (hreaders _) fun body => ?_
  obtain ⟨body, closing⟩ := body
  exact Contract.ite (C.pure _) (C.fail _)

/-- A keyword is consumed, but the word in front of an expression only looked at. -/
theorem holds_statement (h : HoldsInside P inner) (context : Context) :
    P (statement inner context) := by
  refine C.bind C.skipBlank fun _ => C.bind (C.peekWord _ _) fun word => ?_
  split
  · exact C.bind (C.take _) fun _ => C.map (holds_ifBlock C h) Sum.inl
  · exact C.bind (C.take _) fun _ => C.map (holds_forBlock C h) Sum.inl
  · exact C.bind (C.take _) fun _ => C.bind (holds_endOfStatement C _) fun _ =>
      Contract.ite (C.pure _) (C.fail _)
  · exact C.bind (C.take _) fun _ => C.bind (holds_endOfStatement C _) fun _ =>
      Contract.ite (C.fail _) (C.pure _)
  · exact C.bind (Expr.holds_scanner C) fun e => C.bind (holds_endOfStatement C _) fun _ =>
      C.pure _

/-- Siblings are gathered until one closes the block. -/
theorem holds_siblings (h : HoldsInside P inner) (context : Context) :
    P (siblings inner context) := by
  refine C.gather (holds_opening C) fun started => ?_
  cases started with
  | none => exact holds_statement C h context
  | some s => exact C.map (holds_dataRest C s) Sum.inl

/-- **The readers of templates** have the property at each level: there is none beyond the last. -/
theorem holds_nested (levels : Nat) (context : Context) : P (nested levels context) := by
  induction levels generalizing context with
  | zero => exact holds_siblings C (fun _ h => by cases h) context
  | succ levels ih =>
      refine holds_siblings C ?_ context
      rintro readers ⟨⟩
      exact ih

theorem holds_scanner : P Template.scanner :=
  C.map (holds_nested C blockLimit .outermost) _

end Stencil.Template
