import Stencil.Value.Basic

/-!
# Expr — Basic

Expressions are literal values, names, and applications of binary operators; any of them may be
followed by indices, which select from its value one after another.  The text of an expression
shows its structure: every application stands between parentheses.
-/

namespace Stencil

/-- An expression.  An operator is given by its symbol, which need not belong to the language. -/
inductive Expr where
  | literal (v : Value) (indices : List Expr)
  | ident (name : String) (indices : List Expr)
  | binary (symbol : String) (left right : Expr) (indices : List Expr)

namespace Expr

instance : Inhabited Expr := ⟨.literal default []⟩

/-- The indices that follow an expression. -/
def indices : Expr → List Expr
  | .literal _ indices => indices
  | .ident _ indices => indices
  | .binary _ _ _ indices => indices

/-- The expression followed by these indices in place of its own. -/
def withIndices : Expr → List Expr → Expr
  | .literal v _, indices => .literal v indices
  | .ident name _, indices => .ident name indices
  | .binary symbol left right _, indices => .binary symbol left right indices

/-- The characters of a string literal: a backslash stands before each backslash and each quote. -/
def quotedChars : List Char → List Char
  | [] => []
  | c :: cs => if c = '\\' ∨ c = '"' then '\\' :: c :: quotedChars cs else c :: quotedChars cs

/-- The text of a literal.  A string stands between double quotes. -/
def literalText : Value → String
  | .string s => String.ofList ('"' :: quotedChars s.toList ++ ['"'])
  | v => v.text

/-- The text of an expression. -/
def text : Expr → String
  | .literal v indices => literalText v ++ indexTexts indices
  | .ident name indices => name ++ indexTexts indices
  | .binary symbol left right indices =>
    "(" ++ left.text ++ " " ++ symbol ++ " " ++ right.text ++ ")" ++ indexTexts indices
where
  /-- The text of indices, each between brackets. -/
  indexTexts : List Expr → String
    | [] => ""
    | e :: es => "[" ++ e.text ++ "]" ++ indexTexts es

/-- The depth of the recursion that makes the text of an expression: one call for each node, and two
more for an index. -/
def textDepth : Expr → Nat
  | .literal v indices => max (v.textDepth + 1) (indexDepths indices)
  | .ident _ indices => max 1 (indexDepths indices)
  | .binary _ left right indices =>
    max (max left.textDepth right.textDepth + 1) (indexDepths indices)
where
  /-- The greatest depth of the recursions that make the texts of some indices. -/
  indexDepths : List Expr → Nat
    | [] => 0
    | e :: es => max (e.textDepth + 3) (indexDepths es)

/-- How many nodes lie on the longest path into an expression, through operands and indices. -/
def height : Expr → Nat
  | .literal _ indices => heights indices + 1
  | .ident _ indices => heights indices + 1
  | .binary _ left right indices => max (max left.height right.height) (heights indices) + 1
where
  /-- The greatest height of some expressions. -/
  heights : List Expr → Nat
    | [] => 0
    | e :: es => max e.height (heights es)

@[simp] theorem indices_withIndices (e : Expr) (indices : List Expr) :
    (e.withIndices indices).indices = indices := by
  cases e <;> rfl

@[simp] theorem withIndices_indices (e : Expr) : e.withIndices e.indices = e := by
  cases e <;> rfl

@[simp] theorem withIndices_withIndices (e : Expr) (indices others : List Expr) :
    (e.withIndices indices).withIndices others = e.withIndices others := by
  cases e <;> rfl

end Expr

end Stencil
