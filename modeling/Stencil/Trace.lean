import Stencil.Error

/-!
# Trace

Computations that leave lines for whoever wants to follow them.  How much is written depends on
the level of detail that is asked for; the lines have no influence on the result.  The text of a
line is made by recursion, which can be too deep; whoever writes the lines has to look.
-/

namespace Stencil

/-- A line, with the depth of the recursion that makes its text. -/
structure Line where
  text : String
  depth : Nat

/-- The greatest depth of the recursion that makes a text.  It stands for a bound on the stack,
which in fact is shared with whatever is being done when the text is made. -/
def Line.depthLimit : Nat := 900

/-- What a computation comes to, and the lines it leaves. -/
structure Traced (α : Type) where
  lines : List Line
  result : Except Failure α

namespace Traced

variable {α β : Type}

/-- A result without lines. -/
def ofResult (result : Except Failure α) : Traced α := ⟨[], result⟩

/-- A computation that goes on with the value of another, unless that fails. -/
def andThen (x : Traced α) (f : α → Traced β) : Traced β :=
  match x.result with
  | .ok a =>
    let y := f a
    ⟨x.lines ++ y.lines, y.result⟩
  | .error e => ⟨x.lines, .error e⟩

instance : Monad Traced where
  pure a := ofResult (.ok a)
  bind := andThen

/-- A failure without a place. -/
def fail (cause : Cause) : Traced α :=
  ofResult (.error (.of cause))

/-- Leaves a line, if the level of detail is at least `least`. -/
def note (level least : Nat) (line : Unit → Line) : Traced Unit :=
  ⟨if least ≤ level then [line ()] else [], .ok ()⟩

@[simp] theorem result_pure (a : α) : (pure a : Traced α).result = .ok a := rfl

@[simp] theorem result_ofResult (r : Except Failure α) : (ofResult r).result = r := rfl

@[simp] theorem result_note (level least : Nat) (line : Unit → Line) :
    (note level least line).result = .ok () := rfl

@[simp] theorem result_bind (x : Traced α) (f : α → Traced β) :
    (x >>= f).result = x.result >>= fun a => (f a).result := by
  change (andThen x f).result = _
  unfold andThen
  cases x.result <;> rfl

end Traced

end Stencil
