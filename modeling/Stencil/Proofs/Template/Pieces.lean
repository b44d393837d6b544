import Stencil.Template.Reading

/-!
# Template — Pieces

Templates as they are written.  A `Piece` is a sibling together with what its source leaves open:
the text that each of its expressions is written with, and whether an empty second branch is written
at all.  Pieces have a source (`source`), and they stand for siblings (`nodes`).

A text that is no expression, a name that is no symbol and an expression that would be taken for a
keyword are not among the parts of pieces.  What is left to ask for is that no data stand next to
data (`Spread`): the source of two data in a row is that of one.
-/

namespace Stencil.Template

open Scanner Text

/-- The text of an expression in a statement, and the expression it is read as. -/
structure Slot where
  text : List Char
  expr : Expr
  reads : Expr.ofText text = .ok expr

/-- The word that an expression text starts with, behind blanks. -/
def frontWord (text : List Char) : List Char :=
  (text.dropWhile isBlank).takeWhile isSymbol

/-- A name for the items of a loop. -/
structure LoopName where
  text : String
  nonempty : text.toList ≠ []
  symbols : ∀ c ∈ text.toList, isSymbol c = true

/-- A sibling as it is written. -/
inductive Piece where
  | data (text : String) (nonempty : text.toList ≠ [])
  | insert (slot : Slot) (plain : keyword? (frontWord slot.text) = none)
  | choose (slot : Slot) (holds fails : List Piece) (withElse : Bool)
  | loop (name : LoopName) (slot : Slot) (body : List Piece)

/-- Data as they are written: a backslash stands before each brace and each backslash. -/
def escaped : List Char → List Char
  | [] => []
  | c :: cs => if DataState.isSpecial c then '\\' :: c :: escaped cs else c :: escaped cs

/-- The source of an `if` statement up to its closing brace. -/
def ifHead (slot : Slot) : List Char :=
  "if".toList ++ ([' '] ++ (slot.text ++ ['}']))

/-- The source of a `for` statement behind its keyword, up to its closing brace. -/
def forTail (name : LoopName) (slot : Slot) : List Char :=
  [' '] ++ (name.text.toList ++ ([' '] ++ ("in".toList ++ ([' '] ++ (slot.text ++ ['}'])))))

/-- The source of a `for` statement up to its closing brace. -/
def forHead (name : LoopName) (slot : Slot) : List Char :=
  "for".toList ++ forTail name slot

mutual

/-- What is written for a sibling.  An empty second branch may be left out. -/
def Piece.source : Piece → List Char
  | .data text _ => escaped text.toList
  | .insert slot _ => '{' :: (slot.text ++ ['}'])
  | .choose slot holds fails withElse =>
    '{' :: (ifHead slot ++ (source holds ++
      ((if withElse || !fails.isEmpty then "{else}".toList ++ source fails else []) ++
        "{end}".toList)))
  | .loop name slot body => '{' :: (forHead name slot ++ (source body ++ "{end}".toList))

/-- What is written for some siblings. -/
def source : List Piece → List Char
  | [] => []
  | p :: ps => p.source ++ source ps

end

mutual

/-- The sibling that is written. -/
def Piece.node : Piece → Node
  | .data text _ => .data text
  | .insert slot _ => .insert slot.expr
  | .choose slot holds fails _ => .choose slot.expr (nodes holds) (nodes fails)
  | .loop name slot body => .loop name.text slot.expr (nodes body)

/-- The siblings that are written. -/
def nodes : List Piece → List Node
  | [] => []
  | p :: ps => p.node :: nodes ps

end

mutual

/-- How deep blocks nest in a sibling. -/
def Piece.depth : Piece → Nat
  | .data .. => 0
  | .insert .. => 0
  | .choose _ holds fails _ => max (depth holds) (depth fails) + 1
  | .loop _ _ body => depth body + 1

/-- How deep blocks nest in some siblings. -/
def depth : List Piece → Nat
  | [] => 0
  | p :: ps => max p.depth (depth ps)

end

/-- The sibling is data. -/
def Piece.isData : Piece → Bool
  | .data .. => true
  | _ => false

mutual

/-- Nowhere in a sibling do data stand next to data. -/
def Piece.Spread : Piece → Prop
  | .data .. => True
  | .insert .. => True
  | .choose _ holds fails _ => Spread holds ∧ Spread fails
  | .loop _ _ body => Spread body

/-- Nowhere do data stand next to data. -/
def Spread : List Piece → Prop
  | [] => True
  | p :: ps => p.Spread ∧ (p.isData = true → ∀ q ∈ ps.head?, q.isData = false) ∧ Spread ps

end

theorem pieces_induction {P : List Piece → Prop} (nil : P [])
    (data : ∀ text nonempty ps, P ps → P (.data text nonempty :: ps))
    (insert : ∀ slot plain ps, P ps → P (.insert slot plain :: ps))
    (choose : ∀ slot holds fails withElse ps, P holds → P fails → P ps →
      P (.choose slot holds fails withElse :: ps))
    (loop : ∀ name slot body ps, P body → P ps → P (.loop name slot body :: ps)) : ∀ ps, P ps
  | [] => nil
  | .data text h :: ps => data text h ps (pieces_induction nil data insert choose loop ps)
  | .insert slot h :: ps => insert slot h ps (pieces_induction nil data insert choose loop ps)
  | .choose slot holds fails w :: ps =>
    choose slot holds fails w ps (pieces_induction nil data insert choose loop holds)
      (pieces_induction nil data insert choose loop fails)
      (pieces_induction nil data insert choose loop ps)
  | .loop name slot body :: ps =>
    loop name slot body ps (pieces_induction nil data insert choose loop body)
      (pieces_induction nil data insert choose loop ps)

end Stencil.Template
