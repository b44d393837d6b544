import Stencil.Description.Token

/-!
# Description — Assignments

A statement assigns a value to a symbol: `symbol = value ;`, where a value is a string, a number,
or an array of values.  A statement is first read by its form alone (`Datum`); only a well formed
one is asked for the numbers its tokens stand for.  An error inside a statement is reported one
column behind its place (`shifted`), as columns are counted from one there.
-/

namespace Stencil.Description

open Text

/-- A value by its form: numbers are tokens with their places. -/
inductive Datum where
  | string (s : String)
  | number (position : Position) (chars : List Char)
  | array (items : List Datum)

/-- The place at which an error inside a statement is reported. -/
def shifted (position : Position) : Position :=
  { position with column := position.column + 1 }

/-- The items read so far of each array that is open, the innermost array first, and of each array
the latest item first. -/
abbrev OpenArrays := List (List Datum)

/-- What the tokens read so far call for: a value, or the end of an array that has just been opened;
a value; or what may follow a value. -/
inductive Expected where
  | valueOrEnd
  | value
  | behind (d : Datum)

/-- Reads the tokens behind the sign of equality.  `last` is the place of the token before. -/
def datum (expected : Expected) (arrays : OpenArrays) (last : Position) :
    List (Position × Token) → Except Error Datum
  | [] =>
    match expected with
    | .behind _ => .error ⟨.missingSemicolon, shifted last⟩
    | _ => .error ⟨.missingValue, shifted last⟩
  | (position, token) :: rest =>
    match expected with
    | .behind d =>
      match arrays, token with
      | items :: arrays, .comma => datum .value ((d :: items) :: arrays) position rest
      | items :: arrays, .closeBracket =>
        datum (.behind (.array (d :: items).reverse)) arrays position rest
      | _ :: _, .semicolon => .error ⟨.missingComma, shifted position⟩
      | [], .semicolon =>
        match rest with
        | [] => .ok d
        | (position, _) :: _ => .error ⟨.missingValue, shifted position⟩
      | _, _ => .error ⟨.missingSemicolon, shifted position⟩
    | expected =>
      match token with
      | .string s => datum (.behind (.string s)) arrays position rest
      | .number chars => datum (.behind (.number position chars)) arrays position rest
      | .openBracket => datum .valueOrEnd ([] :: arrays) position rest
      | .closeBracket =>
        match expected, arrays with
        | .valueOrEnd, _ :: arrays => datum (.behind (.array [])) arrays position rest
        | _, _ => .error ⟨.missingValue, shifted position⟩
      | _ => .error ⟨.missingValue, shifted position⟩

/-- The value that the token of a number stands for.  The token has to be a number as a whole. -/
def numberOf (position : Position) (chars : List Char) : Except Failure Value :=
  match Scanner.number.run (.ofText Stream.defaultName chars) with
  | .error (.error e) _ => .error (.located e.cause (shifted position))
  | .error (.fault f) _ => .error (.fault (.inDescription f))
  | .ok v rest =>
    if rest.unread.isEmpty then .ok v
    else .error (.located (.badNumber chars) (shifted position))

/-- How deep arrays nest.  It stands for a bound on the stack, which in fact is shared with whatever
is being done when the description is loaded. -/
def arrayLimit : Nat := 200

/-- The value of a datum in which arrays nest by `levels`.  `start` is the place of the
statement. -/
def Datum.toValue (start : Position) (levels : Nat) : Datum → Except Failure Value
  | .string s => .ok (.string s)
  | .number position chars => numberOf position chars
  | .array items =>
    match levels with
    | 0 => .error (.located .arrayTooDeep start)
    | levels + 1 => (toValues start levels items).map .array
where
  /-- The values of some data. -/
  toValues (start : Position) (levels : Nat) : List Datum → Except Failure (List Value)
    | [] => .ok []
    | d :: ds => do
      let v ← d.toValue start levels
      let vs ← toValues start levels ds
      pure (v :: vs)

/-- The datum that the tokens behind a symbol assign to it.  `symbol` is its place. -/
def assigned (symbol : Position) : List (Position × Token) → Except Error Datum
  | (position, .equals) :: rest => datum .value [] position rest
  | (position, _) :: _ => .error ⟨.missingEquals, shifted position⟩
  | [] => .error ⟨.missingEquals, shifted symbol⟩

/-- The symbol and the value of a statement at a place. -/
def assignment (start : Position) (text : List Char) : Except Failure (String × Value) := do
  let symbol := text.takeWhile isSymbol
  if symbol.isEmpty then .error (.located .missingSymbol (shifted start))
  else
    let behind := tokens (start.after symbol) (text.dropWhile isSymbol)
    let d ← (assigned start behind).mapError .error
    return (String.ofList symbol, ← d.toValue start arrayLimit)

end Stencil.Description
