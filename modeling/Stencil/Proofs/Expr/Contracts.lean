import Stencil.Proofs.Expr.Locality
import Stencil.Proofs.Scanner.Contracts

/-!
# Expr — Contracts

The readers of expressions have whatever property scanners are made up with (`holds_nested`): the
tokens first, then the expressions by induction on the levels that are left.
-/

namespace Stencil.Expr

open Scanner Text

/-- The machine for numbers consumes no more than it has seen. -/
theorem extra_le_of_move {l l' : Literal} {c : Char} {cs : List Char} {extra : Nat}
    (h : l.move c cs = .step extra l' ∨ l.move c cs = .last extra l') : extra ≤ cs.length := by
  rcases h with h | h
  · obtain ⟨-, rfl | ⟨rfl, base, hbase⟩⟩ := move_step h
    · exact Nat.zero_le _
    · obtain ⟨mark, digit, rest, rfl, -⟩ := baseAhead?_some hbase
      exact Nat.succ_le_succ (Nat.zero_le _)
  · exact absurd h move_ne_last

variable {P : ∀ {α : Type}, Scanner α → Prop} (C : Contract P) {inner : Scanner Expr}

include C

/-- A closing mark may have blanks before it; whatever else stands there is consumed, and is an
error. -/
theorem holds_closing (c : Char) (cause : Cause) : P (closing c cause) :=
  C.bind C.skipBlank fun _ => C.bind C.anyChar fun _ => Contract.ite (C.pure ()) (C.fail cause)

/-- An opening bracket is consumed only if it is there. -/
theorem holds_openIndex : P openIndex :=
  C.bind C.skipBlank fun _ => C.accept _

/-- The symbol of an operator is no longer than what was seen of the text (`at?_some`). -/
theorem holds_infixOperator : P infixOperator := by
  rw [infixOperator_eq]
  refine C.bind C.skipBlank fun _ => C.next fun {c cs extra op} h => ?_
  cases ho : Operator.at? (c :: cs) with
  | none => rw [chosen, ho] at h; cases h
  | some op' =>
      rw [chosen, ho] at h
      cases h
      obtain ⟨rest, hrest⟩ := at?_some ho
      have hlength := congrArg List.length hrest
      rw [List.length_append, String.length_toList, List.length_cons] at hlength
      omega

/-- A character that is glued to a number is only looked at. -/
theorem holds_numberOperand : P numberOperand := by
  refine C.bind C.number fun v => C.bind C.peekChar fun o => ?_
  cases o with
  | none => exact C.pure _
  | some c => exact Contract.ite (C.fail _) (C.pure _)

/-- An expression of the next level, with its closing mark. -/
theorem holds_closed (h : P inner) (c : Char) (cause : Cause) : P (closed inner c cause) :=
  C.bind h fun e => C.bind (holds_closing C c cause) fun _ => C.pure e

/-- Indices are expressions of the next level, too. -/
theorem holds_indexList (h : P inner) : P (indexList inner) :=
  C.collect (holds_openIndex C) fun _ => holds_closed C h ']' .missingBracket

/-- An operand is of one of four kinds, by its first two characters. -/
theorem holds_operandAhead (h : P inner) (missing : Cause) (ahead : List Char) :
    P (operandAhead inner missing ahead) := by
  cases ahead with
  | nil => exact C.fail missing
  | cons c rest =>
      rw [operandAhead]
      refine Contract.ite ?_ (Contract.ite ?_ (Contract.ite ?_ (Contract.ite ?_ ?_)))
      · exact C.bind C.anyChar fun _ => holds_closed C h ')' .missingParenthesis
      · exact C.map C.stringLiteral _
      · exact holds_numberOperand C
      · exact C.map (C.word _ _) _
      · exact C.fail missing

/-- The indices of an operand follow whatever kind it is of. -/
theorem holds_operand (h : P inner) (missing : Cause) : P (operand inner missing) := by
  refine C.bind ?_ fun e => C.map (holds_indexList C h) e.withIndices
  rw [bareOperand_eq]
  exact C.bind C.skipBlank fun _ => C.bind (C.peek 2) fun ahead =>
    holds_operandAhead C h missing ahead

/-- A chain is built up by precedence only when all of it has been read, which reads nothing. -/
theorem holds_chain (h : P inner) : P (chain inner) := by
  refine C.bind (holds_operand C h _) fun first => ?_
  refine C.map ?_ fun rest => (Chain.mk first rest).tree
  exact C.collect (holds_infixOperator C) fun op => C.map (holds_operand C h _) (Prod.mk op)

/-- **The readers of expressions** have the property at each level: beyond the last one they fail
where they are. -/
theorem holds_nested (levels : Nat) : P (nested levels) := by
  induction levels with
  | zero => exact holds_chain C (C.fail _)
  | succ levels ih => exact holds_chain C ih

theorem holds_scanner : P Expr.scanner :=
  holds_nested C nestingLimit

/-- So does the reader of a text that is one expression: what follows is only looked at. -/
theorem holds_wholeScanner : P wholeScanner := by
  refine C.bind (holds_scanner C) fun e => C.bind C.skipBlank fun _ =>
    C.bind C.peekChar fun o => ?_
  cases o with
  | none => exact C.pure e
  | some c => exact C.fail _

end Stencil.Expr
