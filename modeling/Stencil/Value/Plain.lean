import Stencil.Numeral.Reading
import Stencil.Value.Basic

/-!
# Value — Plain objects

Values from plain objects and plain objects from values.  A plain object has a value when all its
integers are integers of 64 bits and nothing in it is of an unsupported type; otherwise the first
obstacle, from left to right, is named.  A value inside a plain object is taken as it is.
-/

namespace Stencil

/-- Why a plain object has no value. -/
inductive Plain.Obstacle where
  /-- An object of a type that has no values. -/
  | unsupported (typeName : String)
  /-- An overflow: an integer that is not one of 64 bits. -/
  | outOfRange (n : Int)
deriving DecidableEq, Repr

/-- The message of an obstacle.  It is that of integers which have a text, so of no more than
`Numeral.digitLimit` digits. -/
def Plain.Obstacle.message : Plain.Obstacle → String
  | .unsupported typeName => "cannot build a Curly value from " ++ typeName
  | .outOfRange n => "integer " ++ Numeral.integerText n ++ " does not fit 64 bits"

/-- The value of a plain object.  The truth values are the integers one and zero, and a tuple is an
array just as a list is. -/
def Plain.toValue : Plain → Except Plain.Obstacle Value
  | .integer n => if Numeral.inRange n then .ok (.integer n) else .error (.outOfRange n)
  | .boolean b => .ok (.integer (if b then 1 else 0))
  | .float x => .ok (.float x)
  | .string s => .ok (.string s)
  | .list items | .tuple items => (toValues items).map .array
  | .value v => .ok v
  | .filter f => .ok (.filter f)
  | .unsupported typeName => .error (.unsupported typeName)
where
  /-- The values of a list of plain objects. -/
  toValues : List Plain → Except Plain.Obstacle (List Value)
    | [] => .ok []
    | p :: ps => do
      let v ← p.toValue
      let vs ← toValues ps
      pure (v :: vs)

/-- The plain object of a value. -/
def Value.toPlain : Value → Plain
  | .integer n => .integer n
  | .float x => .float x
  | .string s => .string s
  | .array items => .list (toPlains items)
  | .filter f => .filter f
where
  /-- The plain objects of a list of values. -/
  toPlains : List Value → List Plain
    | [] => []
    | v :: vs => v.toPlain :: toPlains vs

end Stencil
