import Mathlib.Order.Defs.LinearOrder
import Stencil.Expr.Evaluation

/-!
# Expr — What operators, filters and indices fail by

An operator, a filter and an index fail, if they do, because of the values they are given: the cause
lies in these (`Cause.ofValues`), and is neither a name without a value nor a symbol without an
operator.  `ByValues` composes along a computation, so what an operator fails by is read off its
parts (`Operator.byValues_apply`).
-/

namespace Stencil

/-- The causes that lie in the values an expression comes to. -/
def Cause.ofValues : Cause → Bool
  | .notIterable _ | .notIndexable _ | .badIndex _ | .indexOutOfRange ..
  | .invalidOperands .. | .unsuitedOperands .. | .multipliedArray | .multipliedByNonNumber
  | .multipliedByNonInteger _ | .incomparable .. | .divisionByZero | .moduloByZero
  | .resultOutOfRange .. | .repeatedTooOften .. | .notAFilter _ | .undecodable ..
  | .badFilterResult .. => true
  | _ => false

section ByValues

variable {α β : Type}

/-- A result that, if it is an error, is one by the values at hand. -/
def ByValues (x : Except Failure α) : Prop :=
  ∀ e, x = .error (.error e) → e.cause.ofValues = true

/-- A result that is no error has no cause. -/
@[simp] theorem byValues_ok (a : α) : ByValues (.ok a : Except Failure α) :=
  fun _ h => by cases h

@[simp] theorem byValues_pure (a : α) : ByValues (pure a : Except Failure α) :=
  byValues_ok a

/-- An error at hand is looked at for its cause. -/
@[simp] theorem byValues_of {cause : Cause} :
    ByValues (.error (.of cause) : Except Failure α) ↔ cause.ofValues = true := by
  simp [ByValues, Failure.of]

/-- Faults are no errors, so they have no cause. -/
@[simp] theorem byValues_fault (f : Fault) : ByValues (.error (.fault f) : Except Failure α) :=
  fun _ h => by cases h

/-- Two computations in a row fail by values if the first does, and the second behind each of its
results. -/
theorem ByValues.bind {x : Except Failure α} {g : α → Except Failure β} (hx : ByValues x)
    (hg : ∀ a, x = .ok a → ByValues (g a)) : ByValues (x >>= g) := by
  cases x with
  | ok a => exact hg a rfl
  | error f =>
      intro e h
      cases h
      exact hx e rfl

/-- What can end only by a fault has no cause. -/
theorem byValues_mapError (x : Except Fault α) : ByValues (x.mapError .fault) := by
  cases x with
  | ok a => exact byValues_ok a
  | error f => exact byValues_fault f

namespace Value

/-- Both operands are told in the message. -/
@[simp] theorem byValues_invalid (operation : String) (a b : Value) :
    ByValues (invalid operation a b : Except Failure α) :=
  byValues_of.mpr rfl

/-- Operands that are no floats are refused together. -/
theorem byValues_floats (operation : String) (a b : Value) : ByValues (floats operation a b) := by
  refine (byValues_mapError _).bind fun x _ => (byValues_mapError _).bind fun y _ => ?_
  split <;> simp

/-- So are operands that are no integers. -/
theorem byValues_integers (operation : String) (a b : Value) :
    ByValues (integers operation a b) := by
  refine (byValues_mapError _).bind fun n _ => (byValues_mapError _).bind fun m _ => ?_
  split <;> simp

/-- An integer that is too great is told by the operands that it comes from. -/
theorem byValues_exact (operation : String) (a b : Value) (n : Int) :
    ByValues (exact operation a b n) := by
  unfold exact
  split <;> simp [Cause.ofValues]

/-- A sum is one of arrays, of integers, of strings or of floats; a string has none with anything
else. -/
theorem byValues_add (a b : Value) : ByValues (add a b) := by
  unfold add
  split
  · exact byValues_ok _
  · exact byValues_ok _
  · exact byValues_exact _ _ _ _
  · split
    · split <;> simp [Cause.ofValues]
    · exact (byValues_floats _ _ _).bind fun _ _ => byValues_pure _

theorem byValues_sub (a b : Value) : ByValues (sub a b) :=
  (byValues_floats _ _ _).bind fun _ _ => byValues_pure _

/-- A string is repeated as often as a number says, unless that is no number, no integer, or too
great. -/
theorem byValues_repeated (text : String) (count : Value) : ByValues (repeated text count) := by
  unfold repeated
  split
  · exact byValues_of.mpr rfl
  · refine (byValues_mapError _).bind fun n _ => ?_
    repeat' split
    all_goals simp [Cause.ofValues]

/-- A product repeats a string or multiplies two numbers. -/
theorem byValues_mul (a b : Value) : ByValues (mul a b) := by
  unfold mul
  split
  · exact byValues_of.mpr rfl
  split
  · exact byValues_repeated _ _
  · exact byValues_repeated _ _
  · split
    · exact (byValues_floats _ _ _).bind fun _ _ => byValues_pure _
    · exact (byValues_integers _ _ _).bind fun _ _ => byValues_exact _ _ _ _

theorem byValues_div (a b : Value) : ByValues (div a b) := by
  refine (byValues_floats _ _ _).bind fun _ _ => ?_
  dsimp only
  split <;> simp [Cause.ofValues]

theorem byValues_mod (a b : Value) : ByValues (mod a b) := by
  refine (byValues_integers _ _ _).bind fun _ _ => ?_
  dsimp only
  split <;> simp [Cause.ofValues]

mutual

/-- Values are compared as their kinds are; arrays item by item, in mutual recursion with
`byValues_orderAll`. -/
theorem byValues_order (a b : Value) : ByValues (order a b) := by
  unfold order
  split
  · exact byValues_orderAll _ _
  · exact byValues_of.mpr rfl
  · exact byValues_of.mpr rfl
  · exact byValues_ok _
  · exact byValues_ok _
  · exact byValues_ok _
  · exact (byValues_floats _ _ _).bind fun _ _ => byValues_pure _
termination_by sizeOf a

/-- The first items that differ decide about two arrays. -/
theorem byValues_orderAll (vs ws : List Value) : ByValues (order.orderAll vs ws) := by
  unfold order.orderAll
  split
  · exact byValues_ok _
  · exact byValues_ok _
  · exact byValues_ok _
  · split
    · exact byValues_orderAll _ _
    · exact byValues_order _ _
termination_by sizeOf vs

end

theorem byValues_ordered (holds : Ordering → Bool) (a b : Value) :
    ByValues (ordered holds a b) :=
  (byValues_order a b).bind fun _ _ => byValues_pure _

end Value

/-- Of the stock filters only one fails; a filter that is given fails by an answer that has no
value. -/
theorem Filter.byValues_apply (f : Filter) (v : Value) : ByValues (f.apply v) := by
  cases f with
  | stock f =>
      cases f with
      | base64decode =>
          rw [Filter.apply, StockFilter.apply, decodeBase64]
          repeat' split
          all_goals simp [Cause.ofValues]
      | _ => exact byValues_ok _
  | given name answer =>
      rw [Filter.apply]
      split <;> simp [Cause.ofValues]

/-- **An operator fails by the values it is given.** -/
theorem Operator.byValues_apply (op : Operator) (a b : Value) : ByValues (op.apply a b) := by
  cases op with
  | pipe =>
      rw [Operator.apply]
      cases b with
      | filter f => exact Filter.byValues_apply f a
      | integer | float | string | array => exact byValues_of.mpr rfl
  | both => exact byValues_ok _
  | either => exact byValues_ok _
  | plus => exact Value.byValues_add a b
  | minus => exact Value.byValues_sub a b
  | times => exact Value.byValues_mul a b
  | divide => exact Value.byValues_div a b
  | modulo => exact Value.byValues_mod a b
  | equal | notEqual | less | lessEqual | greater | greaterEqual =>
      exact Value.byValues_ordered _ a b

/-- **An index fails by its value and that of what it selects from.** -/
theorem Expr.byValues_selectItem (v : Value) (items : List Value) (index : Value) :
    ByValues (selectItem v items index) := by
  refine (byValues_mapError _).bind fun n _ => ?_
  repeat' split
  all_goals simp [Cause.ofValues]

end ByValues

end Stencil
