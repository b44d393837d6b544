import Stencil.Numeral.Literal
import Stencil.Numeral.Reading
import Stencil.Scanner.Basic

/-!
# Scanner — Literals

The readers of string and numeric literals, which expressions and descriptions share.  Both run a
machine over the characters.  The machine for numbers builds the parts of a `Literal` and stops
before the first character that no number goes on with; whether what it took is a number, and
which, is decided after that (`Literal.evaluate`).
-/

namespace Stencil

open Text

/-- A string literal as far as it is read: its characters, latest first, and whether a backslash
stands just before the next character, or the closing quote has been read. -/
structure StringState where
  taken : List Char
  escaped : Bool
  closed : Bool

namespace StringState

/-- The string literal of which only the opening quote is read. -/
def opened : StringState := ⟨[], false, false⟩

/-- The next character of a string literal.  A backslash makes any character stand for itself. -/
def move (s : StringState) (c : Char) (_ : List Char) : Scanner.Move StringState :=
  if s.escaped then .step 0 { s with taken := c :: s.taken, escaped := false }
  else if c = '\\' then .step 0 { s with escaped := true }
  else if c = '"' then .last 0 { s with closed := true }
  else .step 0 { s with taken := c :: s.taken }

end StringState

namespace Literal

/-- The base that a mark after a leading zero announces. -/
def baseOfMark? (c : Char) : Option Nat :=
  if c = 'b' ∨ c = 'B' then some 2
  else if c = 'o' ∨ c = 'O' then some 8
  else if c = 'x' ∨ c = 'X' then some 16
  else none

/-- The base announced by a zero before these characters, of which the second has to be a digit of
it. -/
def baseAhead? : List Char → Option Nat
  | mark :: digit :: _ =>
    match baseOfMark? mark with
    | some base => if isDigitOf base digit then some base else none
    | none => none
  | _ => none

/-- The characters start with a decimal digit. -/
def digitAhead : List Char → Bool
  | c :: _ => isDigitOf 10 c
  | [] => false

/-- The characters start with the digits of an exponent, or with a sign and those. -/
def exponentAhead : List Char → Bool
  | c :: rest => isDigitOf 10 c || (isSign c && digitAhead rest)
  | [] => false

/-- The letter that starts an exponent in a base. -/
def isExponentMarker (base : Nat) (c : Char) : Bool :=
  (base == 10 && (c == 'e' || c == 'E')) || (base == 16 && (c == 'p' || c == 'P'))

/-- A literal with one more digit before or after the point. -/
def withDigit (l : Literal) (c : Char) : Literal :=
  if l.point then { l with fraction := l.fraction ++ [c] } else { l with whole := l.whole ++ [c] }

/-- The next character after the start of an exponent: its sign, which a digit has to follow, or a
digit. -/
def moveInExponent (l : Literal) (e : Exponent) (c : Char) (ahead : List Char) :
    Scanner.Move Literal :=
  if isSign c then
    if e.sign.isNone && e.digits.isEmpty && digitAhead ahead then
      .step 0 { l with exponent := some { e with sign := some c } }
    else .stop
  else if isDigitOf 10 c then
    .step 0 { l with exponent := some { e with digits := e.digits ++ [c] } }
  else .stop

/-- A sign before all digits, which a digit has to follow. -/
def moveAtSign (l : Literal) (c : Char) (ahead : List Char) : Scanner.Move Literal :=
  if l.hasMantissa || l.sign.isSome || l.strayed.isSome || !digitAhead ahead then .stop
  else if l.point then .step 0 { l with strayed := some c }
  else .step 0 { l with sign := some c }

/-- The next character before the start of an exponent: the point, a sign, the start of an
exponent, a digit, or a zero with the mark of another base behind it. -/
def moveInMantissa (l : Literal) (c : Char) (ahead : List Char) : Scanner.Move Literal :=
  if c = '.' then
    if l.point || l.base == 2 || l.base == 8 then .stop else .step 0 { l with point := true }
  else if isSign c then l.moveAtSign c ahead
  else if isExponentMarker l.base c then
    if l.hasMantissa && exponentAhead ahead then .step 0 { l with exponent := some ⟨c, none, []⟩ }
    else .stop
  else if isDigitOf l.base c then
    match baseAhead? ahead with
    | some base =>
      if c = '0' ∧ l.base = 10 ∧ !l.hasMantissa ∧ !l.point then .step 1 { l with base := base }
      else .step 0 (l.withDigit c)
    | none => .step 0 (l.withDigit c)
  else .stop

/-- The next character of a numeric literal. -/
def move (l : Literal) (c : Char) (ahead : List Char) : Scanner.Move Literal :=
  match l.exponent with
  | some e => l.moveInExponent e c ahead
  | none => l.moveInMantissa c ahead

/-- What a literal that has been read stands for, if it is in range, or else the failure at the
place behind it. -/
def evaluate (l : Literal) (behind : Position) : Except Failure Value :=
  if !l.hasMantissa then .error (.located .missingMantissa behind)
  else if !l.isFloat then
    if Numeral.overlong l.base l.whole then .error (.fault (.tooManyDigits l.whole.length))
    else if Numeral.inRange l.toInt then .ok (.integer l.toInt)
    else .error (.located (.numberOutOfRange l.chars) behind)
  else if l.strayed.isSome then .error (.fault (.malformedFloat l.chars))
  else
    let x := l.toBinary64
    if x.isFinite then .ok (.float x)
    else .error (.located (.numberOutOfRange (if l.base = 16 then l.unsignedChars else l.chars))
      behind)

end Literal

namespace Scanner

/-- Reads a string literal between double quotes. -/
def stringLiteral : Scanner String := do
  match ← accept (· == '"') with
  | none => fail .missingDelimiter
  | some _ =>
    let state ← fold 0 StringState.move .opened
    if state.closed then return String.ofList state.taken.reverse else fail .endInString

/-- Reads a numeric literal. -/
def number : Scanner Value := do
  let literal ← fold 2 Literal.move .empty
  match literal.evaluate (← position) with
  | .ok v => return v
  | .error f => throw f

end Scanner

end Stencil
