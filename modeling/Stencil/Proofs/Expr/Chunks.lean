import Stencil.Proofs.Expr.Contracts
import Stencil.Proofs.Scanner.Chunks

/-!
# Expr — Chunks

The readers of literals and expressions are seamless: where the text is cut into chunks does not
show, though an operator, a number or the mark of a base may lie across the end of a chunk.  For no
machine and no choice among the tokens consumes more characters than it has seen, and to be seamless
is a contract (`seamless`).
-/

namespace Stencil.Expr

open Scanner

/-- Where chunks end does not matter to the reader of numbers, which looks two characters ahead. -/
theorem seamless_number : Seamless number := by
  refine (seamless_fold extra_le_of_move _).bind fun literal => seamless_position.bind fun p => ?_
  cases literal.evaluate p with
  | ok v => exact seamless_pure v
  | error f => exact seamless_throw f

/-- Scanners made up of seamless ones are seamless. -/
theorem seamless : Contract Seamless where
  pure := seamless_pure
  bind := Seamless.bind
  fail := seamless_fail
  peek := seamless_peek
  take := seamless_take
  next := seamless_next
  fold := seamless_fold
  peekWord _ _ := seamless_peekWord
  gather := seamless_gather
  number := seamless_number

theorem seamless_stringLiteral : Seamless stringLiteral :=
  seamless.stringLiteral

/-- Where chunks end does not matter to expressions. -/
theorem seamless_scanner : Seamless Expr.scanner :=
  holds_scanner seamless

theorem seamless_wholeScanner : Seamless wholeScanner :=
  holds_wholeScanner seamless

end Stencil.Expr
