import Stencil.Expr.Operator
import Stencil.Scanner.Literals

/-!
# Expr — Reading

The reader of expressions.  An expression is a chain of operands; an operand is a number, a
string, a name, or an expression between parentheses, followed by indices between brackets.
Indices behind a closing parenthesis take the place of those at the end of the expression inside.
Parentheses and brackets nest up to a limit, so the reader is defined by recursion on the levels
that are left.
-/

namespace Stencil.Expr

open Scanner Text

/-- How deep parentheses and brackets nest, counted together. -/
def nestingLimit : Nat := 64

/-- Reads a closing character behind blanks, for want of which the reading fails. -/
def closing (c : Char) (cause : Cause) : Scanner Unit := do
  let _ ← skipBlank
  if (← anyChar) = some c then return () else fail cause

/-- Reads the bracket that opens an index, behind blanks. -/
def openIndex : Scanner (Option Char) := do
  let _ ← skipBlank
  accept (· == '[')

theorem consumes_openIndex : Consumes openIndex :=
  consumes_bind fun _ => consumes_accept _

/-- Reads the indices behind an operand, each of which `inner` reads. -/
def indexList (inner : Scanner Expr) : Scanner (List Expr) :=
  collect openIndex consumes_openIndex fun _ => do
    let index ← inner
    closing ']' .missingBracket
    return index

/-- The characters ahead start a number. -/
def startsNumber : List Char → Bool
  | [] => false
  | c :: rest => isDigitOf 10 c || c == '.' || (isSign c && Literal.digitAhead rest)

/-- Reads a number, which may not run into a symbol. -/
def numberOperand : Scanner Expr := do
  let v ← number
  match ← peekChar with
  | some c => if isSymbol c then fail .gluedNumber else return .literal v []
  | none => return .literal v []

/-- Reads an operand up to its indices.  An expression between parentheses is read by `inner`; if
there is no operand, the reading fails by `missing`. -/
def bareOperand (inner : Scanner Expr) (missing : Cause) : Scanner Expr := do
  let _ ← skipBlank
  let ahead ← peek 2
  match ahead with
  | [] => fail missing
  | c :: _ =>
    if c = '(' then
      let _ ← anyChar
      let e ← inner
      closing ')' .missingParenthesis
      return e
    else if c = '"' then return .literal (.string (← stringLiteral)) []
    else if startsNumber ahead then numberOperand
    else if isSymbol c then return .ident (String.ofList (← word isSymbol none)) []
    else fail missing

/-- Reads an operand with its indices. -/
def operand (inner : Scanner Expr) (missing : Cause) : Scanner Expr := do
  let e ← bareOperand inner missing
  return e.withIndices (← indexList inner)

/-- Reads an operator behind blanks. -/
def infixOperator : Scanner (Option Operator) := do
  let _ ← skipBlank
  next 1 fun c ahead => do
    let op ← Operator.at? (c :: ahead)
    return (op.symbol.length - 1, op)

theorem consumes_infixOperator : Consumes infixOperator :=
  consumes_bind fun _ => consumes_next _ _

/-- Reads a chain of operands. -/
def chain (inner : Scanner Expr) : Scanner Expr := do
  let first ← operand inner .missingFirstOperand
  let rest ← collect infixOperator consumes_infixOperator fun op => do
    return (op, ← operand inner .missingOperand)
  return (Chain.mk first rest).tree

/-- Reads an expression inside of which parentheses and brackets nest by `levels`. -/
def nested : Nat → Scanner Expr
  | 0 => chain (fail (.expressionTooDeep nestingLimit))
  | levels + 1 => chain (nested levels)

/-- Reads an expression.  The reading stops before the first character that does not go on with
it. -/
def scanner : Scanner Expr :=
  nested nestingLimit

/-- Reads an expression that takes up all the rest. -/
def wholeScanner : Scanner Expr := do
  let e ← scanner
  let _ ← skipBlank
  match ← peekChar with
  | some c => fail (.trailingGarbage c)
  | none => return e

/-- The name of a text that is read as an expression. -/
def streamName : String := "<expression>"

/-- The expression that a text stands for. -/
def ofText (text : List Char) : Except Failure Expr :=
  wholeScanner.read (.ofText streamName text)

end Stencil.Expr
