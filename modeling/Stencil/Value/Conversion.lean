import Stencil.Numeral.Reading
import Stencil.Value.Basic

/-!
# Value — Conversion

Conversion of a value to another kind, which succeeds only when it is sure to lose nothing of the
value's meaning: anything has a text and can be the only item of an array; a float becomes an
integer when it is one; a string becomes a number when it is the text of one.  Nothing becomes a
filter.
-/

namespace Stencil.Value

open Numeral

/-- The integer a value converts to. -/
def toInt? : Value → Except Fault (Option Int)
  | .integer n => .ok (some n)
  | .float x =>
    match x.toInt? with
    | some n => .ok (if inRange n then some n else none)
    | none => .ok none
  | .string s => readInteger s.toList
  | _ => .ok none

/-- The floating point number a value converts to. -/
def toBinary64? : Value → Except Fault (Option Binary64)
  | .integer n =>
    let x := Binary64.ofInt n
    .ok (if x.isFinite then some x else none)
  | .float x => .ok (some x)
  | .string s => readFloat s.toList
  | _ => .ok none

/-- The value converted to a kind, if it can be. -/
def convert? (v : Value) (target : Kind) : Except Fault (Option Value) :=
  if v.kind = target then .ok (some v)
  else match target with
    | .string => .ok (some (.string v.text))
    | .array => .ok (some (.array [v]))
    | .integer => do return (← v.toInt?).map .integer
    | .float => do return (← v.toBinary64?).map .float
    | .filter => .ok none

/-- A value converted to a kind in its own place: whether it could be, and the value that is there
now. -/
def convert (v : Value) (target : Kind) : Except Fault (Bool × Value) := do
  match ← v.convert? target with
  | some w => return (true, w)
  | none => return (false, v)

end Stencil.Value
