import Stencil.Scanner.Basic

/-!
# Description — Statements

A description is a sequence of statements, each of which ends with a semicolon.  A statement is
cut out of the stream before it is read: it runs from its first character to the first semicolon
outside strings and comments, or to the end of the text.  For this cut, only a line feed ends a
comment.
-/

namespace Stencil.Description

open Scanner Text

/-- What a character of a statement lies in: in a string, in a string behind a backslash, in a
comment, or in nothing of these. -/
inductive Region where
  | plain
  | string
  | escape
  | comment
deriving DecidableEq, Repr

/-- A statement as far as it is cut out: its characters, latest first, and the region that the next
one lies in. -/
structure Cut where
  taken : List Char
  region : Region

namespace Cut

/-- A statement of which nothing is cut out. -/
def empty : Cut := ⟨[], .plain⟩

/-- The next character of a statement. -/
def move (s : Cut) (c : Char) (_ : List Char) : Move Cut :=
  let taken := c :: s.taken
  match s.region with
  | .comment => .step 0 ⟨taken, if c = '\n' then .plain else .comment⟩
  | .escape => .step 0 ⟨taken, .string⟩
  | .string =>
    .step 0 ⟨taken, if c = '\\' then .escape else if c = '"' then .plain else .string⟩
  | .plain =>
    if c = ';' then .last 0 ⟨taken, .plain⟩
    else .step 0 ⟨taken, if c = '"' then .string else if c = '#' then .comment else .plain⟩

/-- The end of the statement lies inside a string. -/
def inString (s : Cut) : Bool :=
  s.region == .string || s.region == .escape

end Cut

/-- Reads blanks and comments. -/
def skipIgnored : Scanner Bool :=
  fold 0 (fun inComment c _ =>
    if inComment then .step 0 (c != '\n')
    else if isBlank c then .step 0 false
    else if c = '#' then .step 0 true
    else .stop) false

/-- Cuts out the rest of a statement that starts with this character. -/
def statementFrom (c : Char) : Scanner Cut :=
  match Cut.move .empty c [] with
  | .stop => return .empty
  | .last _ s => return s
  | .step _ s => fold 0 Cut.move s

/-- Cuts out the next statement, unless only blanks and comments are left.  The result is its place
and its text. -/
def statement : Scanner (Option (Position × List Char)) := do
  let _ ← skipIgnored
  let start ← position
  match ← anyChar with
  | none => return none
  | some c =>
    let s ← statementFrom c
    if s.inString then fail .endInString else return some (start, s.taken.reverse)

theorem consumes_statement : Consumes statement := by
  refine consumes_bind fun _ => consumes_bind fun _ => ?_
  refine consumes_opened consumes_anyChar ?_
  rfl

end Stencil.Description
