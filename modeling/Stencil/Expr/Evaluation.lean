import Stencil.Expr.Application
import Stencil.Trace

/-!
# Expr — Evaluation

The value of an expression, given the visible values of names.  Evaluation is strict and goes from
left to right: both operands of every operator are evaluated, also those of `&&` and `||`, and the
indices last.  Expressions higher than a limit are not evaluated; the limit is met on the way down,
after whatever lies to the left of the place where it is exceeded.
-/

namespace Stencil.Expr

/-- The greatest height of an expression that is evaluated.  It stands for a bound on the stack. -/
def evaluationLimit : Nat := 900

/-- The level of detail at which evaluation is traced. -/
def traceLevel : Nat := 3

/-- The item of an array that an index selects. -/
def selectItem (v : Value) (items : List Value) (index : Value) : Except Failure Value := do
  match ← index.toInt?.mapError .fault with
  | none => .error (.of (.badIndex v))
  | some n =>
    match Value.itemAt? items n with
    | none => .error (.of (.indexOutOfRange v n))
    | some item => .ok item

/-- What an index, which is evaluated only for an array, selects from a value. -/
def select (v : Value) (index : Traced Value) : Traced Value :=
  match v with
  | .array items => do
    let i ← index
    .ofResult (selectItem v items i)
  | _ => .fail (.notIndexable v)

/-- The value that a name stands for. -/
def valueOf (lookup : String → Option Value) (name : String) : Traced Value :=
  match lookup name with
  | some v => pure v
  | none => .fail (.symbolNotFound name)

/-- What the operator of a symbol makes of two values.  A filter leaves a line. -/
def combine (level : Nat) (symbol : String) (a b : Value) : Traced Value := do
  match Operator.ofSymbol? symbol, b with
  | some .pipe, .filter f =>
    .note level traceLevel fun _ => ⟨"filter " ++ f.name ++ " <- " ++ a.text, a.textDepth⟩
  | _, _ => pure ()
  .ofResult (applySymbol symbol a b)

/-- The value of an expression of which `height` levels are evaluated. -/
def evaluateTo (level : Nat) (lookup : String → Option Value) : (height : Nat) → Expr → Traced Value
  | 0, _ => .fail .evaluationTooDeep
  | height + 1, e => do
    let bare ←
      match e with
      | .literal v _ => pure v
      | .ident name _ => valueOf lookup name
      | .binary symbol left right _ => do
        let a ← evaluateTo level lookup height left
        let b ← evaluateTo level lookup height right
        combine level symbol a b
    let v ← e.indices.foldlM (fun v index => select v (evaluateTo level lookup height index)) bare
    .note level traceLevel fun _ =>
      ⟨"eval " ++ e.text ++ " -> " ++ v.text, max e.textDepth v.textDepth⟩
    return v

/-- The value of an expression. -/
def evaluate (level : Nat) (lookup : String → Option Value) (e : Expr) : Traced Value :=
  evaluateTo level lookup evaluationLimit e

end Stencil.Expr
