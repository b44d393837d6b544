import Stencil.Error
import Stencil.Expr.Operator
import Stencil.Value.Conversion

/-!
# Value — Operations

What the operators of expressions, filters apart, make of two values.  Integers are added and
multiplied exactly and have to stay integers of 64 bits; subtraction and division are always those
of floating point numbers; the remainder is always that of integers.  Values are compared item by
item when both are arrays, as texts when one of them is a string, and else as numbers.
-/

namespace Stencil.Value

open Numeral

/-- Two values for which an operation has no meaning. -/
def invalid {α : Type} (operation : String) (a b : Value) : Except Failure α :=
  .error (.of (.invalidOperands operation a b))

/-- The floating point numbers that two operands convert to. -/
def floats (operation : String) (a b : Value) : Except Failure (Binary64 × Binary64) := do
  let x ← a.toBinary64?.mapError .fault
  let y ← b.toBinary64?.mapError .fault
  match x, y with
  | some x, some y => return (x, y)
  | _, _ => invalid operation a b

/-- The integers that two operands convert to. -/
def integers (operation : String) (a b : Value) : Except Failure (Int × Int) := do
  let n ← a.toInt?.mapError .fault
  let m ← b.toInt?.mapError .fault
  match n, m with
  | some n, some m => return (n, m)
  | _, _ => invalid operation a b

/-- The integer that an operation on two integers gives, if it is an integer of 64 bits. -/
def exact (operation : String) (a b : Value) (n : Int) : Except Failure Value :=
  if inRange n then .ok (.integer n) else .error (.of (.resultOutOfRange operation a b))

/-- The sum of two values: an array with the items of another or one more item, the exact sum of
integers, texts one behind the other, or the sum of numbers. -/
def add (a b : Value) : Except Failure Value :=
  match a, b with
  | .array vs, .array ws => .ok (.array (vs ++ ws))
  | .array vs, b => .ok (.array (vs ++ [b]))
  | .integer n, .integer m => exact "+" a b (n + m)
  | a, b =>
    if a.kind = .string ∨ b.kind = .string then
      if b.kind = .array then .error (.of (.unsuitedOperands a.kind b.kind))
      else .ok (.string (a.text ++ b.text))
    else do
      let (x, y) ← floats "+" a b
      return .float (x.add y)

/-- The difference of two values as numbers. -/
def sub (a b : Value) : Except Failure Value := do
  let (x, y) ← floats "-" a b
  return .float (x.sub y)

/-- The greatest length of a text made by repetition. -/
def textLimit : Nat := 2147483647

/-- A text `n` times in a row. -/
def times (n : Nat) (text : String) : String :=
  if text.isEmpty then "" else n.repeat (· ++ text) ""

/-- A text as many times as a number says, which has to be an integer; none for a number below
one. -/
def repeated (text : String) (count : Value) : Except Failure Value :=
  if !count.isNumber then .error (.of .multipliedByNonNumber)
  else do
    match ← count.toInt?.mapError .fault with
    | none => .error (.of (.multipliedByNonInteger count))
    | some n =>
      if n < 1 then .ok (.string "")
      else if n = 1 then .ok (.string text)
      else if (textLimit : Int) < text.length * n then
        .error (.of (.repeatedTooOften text.length n))
      else .ok (.string (times n.toNat text))

/-- The product of two values: a text repeated, the exact product of integers, or the product of
numbers. -/
def mul (a b : Value) : Except Failure Value :=
  if a.kind = .array ∨ b.kind = .array then .error (.of .multipliedArray)
  else
    match a, b with
    | .string s, b => repeated s b
    | a, .string t => repeated t a
    | a, b =>
      if a.kind = .float ∨ b.kind = .float then do
        let (x, y) ← floats "*" a b
        return .float (x.mul y)
      else do
        let (n, m) ← integers "*" a b
        exact "*" a b (n * m)

/-- The quotient of two values as numbers. -/
def div (a b : Value) : Except Failure Value := do
  let (x, y) ← floats "/" a b
  if y.same (.zero false) then .error (.of .divisionByZero) else return .float (x.div y)

/-- The remainder of two values as integers.  Division truncates toward zero, so that the remainder
has the sign of the dividend. -/
def mod (a b : Value) : Except Failure Value := do
  let (n, m) ← integers "%" a b
  if m = 0 then .error (.of .moduloByZero) else return .integer (n.tmod m)

/-- The order of two numbers.  What is neither the same nor less counts as greater. -/
def orderNumbers (x y : Binary64) : Ordering :=
  if x.same y then .eq else if x.lt y then .lt else .gt

/-- The order of two values: of arrays, that of the first items that differ, or else of the
lengths; if one is a string, that of the texts, by code points; or else that of the numbers. -/
def order : Value → Value → Except Failure Ordering
  | .array vs, .array ws => orderAll vs ws
  | .array vs, b => .error (.of (.incomparable (.array vs) b))
  | a, .array ws => .error (.of (.incomparable a (.array ws)))
  | .string s, b => .ok (compareOfLessAndEq s b.text)
  | a, .string t => .ok (compareOfLessAndEq a.text t)
  | .integer n, .integer m => .ok (compareOfLessAndEq n m)
  | a, b => do
    let (x, y) ← floats "compare" a b
    return orderNumbers x y
where
  /-- The order of two lists of items. -/
  orderAll : List Value → List Value → Except Failure Ordering
    | [], [] => .ok .eq
    | [], _ :: _ => .ok .lt
    | _ :: _, [] => .ok .gt
    | v :: vs, w :: ws =>
      match order v w with
      | .ok .eq => orderAll vs ws
      | decided => decided

/-- The integer that a condition stands for: one or zero. -/
def truth (b : Bool) : Value :=
  .integer (if b then 1 else 0)

/-- The truth value of a condition on the order of two values. -/
def ordered (holds : Ordering → Bool) (a b : Value) : Except Failure Value := do
  return truth (holds (← order a b))

end Stencil.Value
