import Stencil.Expr.Basic

/-!
# Expr — Operators

The operators of the language and how they bind.  A chain of operands with operators between them
stands for one tree (`Chain.tree`): operators of higher precedence are applied first, and of equal
ones the left one.
-/

namespace Stencil

/-- The binary operators of expressions. -/
inductive Operator where
  | pipe
  | equal
  | notEqual
  | less
  | lessEqual
  | greater
  | greaterEqual
  | both
  | either
  | plus
  | minus
  | times
  | divide
  | modulo
deriving DecidableEq, Repr

namespace Operator

/-- The symbol of an operator. -/
def symbol : Operator → String
  | .pipe => "|"
  | .equal => "=="
  | .notEqual => "!="
  | .less => "<"
  | .lessEqual => "<="
  | .greater => ">"
  | .greaterEqual => ">="
  | .both => "&&"
  | .either => "||"
  | .plus => "+"
  | .minus => "-"
  | .times => "*"
  | .divide => "/"
  | .modulo => "%"

/-- How tightly an operator binds its operands. -/
def precedence : Operator → Nat
  | .pipe => 0
  | .equal | .notEqual | .less | .lessEqual | .greater | .greaterEqual | .both | .either => 1
  | .plus | .minus => 2
  | .times | .divide | .modulo => 3

/-- All operators, those of two characters first, so that none is taken for the beginning of a
longer one. -/
def all : List Operator :=
  [.equal, .notEqual, .lessEqual, .greaterEqual, .both, .either, .pipe, .less, .greater, .plus,
    .minus, .times, .divide, .modulo]

theorem mem_all (op : Operator) : op ∈ all := by
  cases op <;> decide

/-- The operator of a symbol. -/
def ofSymbol? (symbol : String) : Option Operator :=
  all.find? (fun op => op.symbol == symbol)

theorem ofSymbol?_symbol (op : Operator) : ofSymbol? op.symbol = some op := by
  cases op <;> decide

/-- The operator at the front of a text. -/
def at? (text : List Char) : Option Operator :=
  all.find? (fun op => op.symbol.toList.isPrefixOf text)

/-- The application of an operator to two operands. -/
def application (op : Operator) (left right : Expr) : Expr :=
  .binary op.symbol left right []

end Operator

/-- Operands with operators between them. -/
structure Chain where
  first : Expr
  rest : List (Operator × Expr)

namespace Chain

/-- Left operands that wait for their right ones, the latest first, each with its operator. -/
abbrev Pending := List (Expr × Operator)

/-- Applies the waiting operators that bind at least as tightly as `precedence`, which come before
a further operator of that precedence.  The result is what still waits, and the operand. -/
def settle (precedence : Nat) : Pending → Expr → Pending × Expr
  | [], operand => ([], operand)
  | (left, op) :: pending, operand =>
    if precedence ≤ op.precedence then settle precedence pending (op.application left operand)
    else ((left, op) :: pending, operand)

/-- The tree of the waiting operands, an operand, and the rest of a chain. -/
def treeFrom : Pending → Expr → List (Operator × Expr) → Expr
  | pending, operand, [] => (settle 0 pending operand).2
  | pending, operand, (op, next) :: rest =>
    let settled := settle op.precedence pending operand
    treeFrom ((settled.2, op) :: settled.1) next rest

/-- The tree that a chain stands for. -/
def tree (chain : Chain) : Expr :=
  treeFrom [] chain.first chain.rest

end Chain

end Stencil
