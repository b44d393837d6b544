import Stencil.Scanner.Literals

/-!
# Description — Tokens

The tokens of a statement, each with its place.  Blanks and comments stand between tokens; here a
carriage return ends a comment too.  The token of a number is wider than the numbers it stands
for: which of these tokens are numbers is decided when they are read.
-/

namespace Stencil.Description

open Text Numeral

/-- A token of a statement behind its symbol. -/
inductive Token where
  | equals
  | semicolon
  | comma
  | openBracket
  | closeBracket
  | string (s : String)
  | number (chars : List Char)
  | stray (c : Char)
deriving DecidableEq, Repr

/-- A character that ends a comment. -/
def endsLine (c : Char) : Bool :=
  c == '\r' || c == '\n'

/-- How many characters the exponent at the front of a text has. -/
def exponentLength (isMarker : Char → Bool) : List Char → Nat
  | [] => 0
  | c :: rest =>
    if isMarker c && Literal.exponentAhead rest then
      let (sign, digits) := splitSign rest
      1 + sign.toList.length + (digits.takeWhile (isDigitOf 10)).length
    else 0

/-- How many characters the digits and points at the front of a text have, with the exponent behind
them.  There has to be a digit or a point. -/
def figuresLength? (isFigure isMarker : Char → Bool) (text : List Char) : Option Nat :=
  let figures := text.takeWhile isFigure
  if figures.isEmpty then none
  else some (figures.length + exponentLength isMarker (text.drop figures.length))

/-- How many characters the figures behind the mark of a base have. -/
def markedLength? (base : Nat) (text : List Char) : Option Nat :=
  if base = 16 then
    figuresLength? (fun c => isDigitOf 16 c || c == '.') (fun c => c == 'p' || c == 'P') text
  else figuresLength? (isDigitOf base) (fun _ => false) text

/-- How many characters the decimal number at the front of a text has. -/
def decimalLength? : List Char → Option Nat :=
  figuresLength? (fun c => isDigitOf 10 c || c == '.') (fun c => c == 'e' || c == 'E')

/-- How many characters the number without sign at the front of a text has. -/
def unsignedLength? (text : List Char) : Option Nat :=
  match text with
  | '0' :: mark :: rest =>
    match (Literal.baseOfMark? mark).bind fun base => markedLength? base rest with
    | some n => some (n + 2)
    | none => decimalLength? text
  | _ => decimalLength? text

/-- How many characters the number at the front of a text has. -/
def numberLength? (text : List Char) : Option Nat :=
  let (sign, digits) := splitSign text
  (unsignedLength? digits).map (· + sign.toList.length)

/-- The string literal at the front of a text, and how many characters it has. -/
def stringAt? (text : List Char) : Option (String × Nat) :=
  match Scanner.stringLiteral.run (.ofText "" text) with
  | .ok s rest => some (s, rest.position.offset)
  | .error _ _ => none

/-- The token that the number at the front of a text is, or else its first character. -/
def numberOrStray (c : Char) (rest : List Char) : Token × Nat :=
  match numberLength? (c :: rest) with
  | some n => (.number ((c :: rest).take n), n - 1)
  | none => (.stray c, 0)

/-- The token that starts with a character, and how many further characters it has; there is no
token in blanks and comments. -/
def Token.start (c : Char) (rest : List Char) : Option Token × Nat :=
  if isBlank c then (none, 0)
  else if c = '#' then (none, (rest.takeWhile fun d => !endsLine d).length)
  else if c = '=' then (some .equals, 0)
  else if c = ';' then (some .semicolon, 0)
  else if c = ',' then (some .comma, 0)
  else if c = '[' then (some .openBracket, 0)
  else if c = ']' then (some .closeBracket, 0)
  else if c = '"' then
    match stringAt? (c :: rest) with
    | some (s, n) => (some (.string s), n - 1)
    | none => (some (.stray c), 0)
  else
    let (token, extra) := numberOrStray c rest
    (some token, extra)

/-- The tokens of a text that starts at `position`, each with its place. -/
def tokens (position : Position) : List Char → List (Position × Token)
  | [] => []
  | c :: rest =>
    let (token, extra) := Token.start c rest
    let others := tokens (position.after (c :: rest.take extra)) (rest.drop extra)
    match token with
    | some token => (position, token) :: others
    | none => others
termination_by text => text.length
decreasing_by simp only [List.length_drop, List.length_cons]; omega

end Stencil.Description
