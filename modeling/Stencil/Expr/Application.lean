import Stencil.Filter.Application
import Stencil.Value.Operation

/-!
# Expr — Application

The meaning of the operators: what each makes of the values of its operands.
-/

namespace Stencil

/-- What an operator makes of two values. -/
def Operator.apply (op : Operator) (a b : Value) : Except Failure Value :=
  match op with
  | .pipe => a.pipe b
  | .equal => a.ordered (· == .eq) b
  | .notEqual => a.ordered (· != .eq) b
  | .less => a.ordered (· == .lt) b
  | .lessEqual => a.ordered (· != .gt) b
  | .greater => a.ordered (· == .gt) b
  | .greaterEqual => a.ordered (· != .lt) b
  | .both => .ok (.truth (a.isTruthy && b.isTruthy))
  | .either => .ok (.truth (a.isTruthy || b.isTruthy))
  | .plus => a.add b
  | .minus => a.sub b
  | .times => a.mul b
  | .divide => a.div b
  | .modulo => a.mod b

/-- What the operator of a symbol makes of two values. -/
def applySymbol (symbol : String) (a b : Value) : Except Failure Value :=
  match Operator.ofSymbol? symbol with
  | some op => op.apply a b
  | none => .error (.of (.unknownOperator symbol))

end Stencil
