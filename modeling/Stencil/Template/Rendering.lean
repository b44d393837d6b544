import Stencil.Environment.Basic
import Stencil.Expr.Evaluation
import Stencil.Output
import Stencil.Template.Basic

/-!
# Template — Rendering

A template is rendered sibling by sibling.  Rendering reads and changes three things: the
environment, which holds the variables of loops while their bodies are rendered, the output, and
the trace.  A failure ends it at once, but the loops it leaves take their variables back.  One such
failure is a line of the trace that is made by too deep a recursion.
-/

namespace Stencil

/-- What rendering works on.  The latest line of the trace is the first. -/
structure Canvas where
  env : Environment
  output : Output
  trace : List String

/-- A step of rendering. -/
abbrev Render := EStateM Failure Canvas

namespace Render

/-- Leaves a line. -/
def leave (line : Line) : Render Unit := fun s =>
  if Line.depthLimit < line.depth then .error (.of .lineTooDeep) s
  else .ok () { s with trace := line.text :: s.trace }

/-- Leaves some lines, one after another. -/
def leaveAll : List Line → Render Unit
  | [] => pure ()
  | line :: lines => do
    leave line
    leaveAll lines

/-- Leaves a line, if the level of detail is at least `least`. -/
def note (level least : Nat) (line : Unit → Line) : Render Unit :=
  if least ≤ level then leave (line ()) else pure ()

/-- Writes a text to the output. -/
def write (text : String) : Render Unit := fun s =>
  match s.output.write text with
  | (output, none) => .ok () { s with output := output }
  | (output, some cause) => .error (.of cause) { s with output := output }

/-- Writes the text of a value to the output. -/
def writeValue (v : Value) : Render Unit :=
  if Line.depthLimit < v.textDepth then throw (.of .evaluationTooDeep) else write v.text

/-- Ends with a result. -/
def conclude {α : Type} : Except Failure α → Render α
  | .ok a => pure a
  | .error f => throw f

/-- Leaves the lines of a computation, and ends with its result. -/
def perform {α : Type} (traced : Traced α) : Render α := do
  leaveAll traced.lines
  conclude traced.result

/-- The value of an expression in the environment. -/
def evaluate (level : Nat) (e : Expr) : Render Value := fun s =>
  perform (e.evaluate level s.env.lookup) s

/-- Changes the environment. -/
def modifyEnv (change : Environment → Environment) : Render Unit := fun s =>
  .ok () { s with env := change s.env }

/-- Does something, and then something else whether or not the first fails. -/
def always (step : Render Unit) (last : Canvas → Canvas) : Render Unit := fun s =>
  match step s with
  | .ok () s => .ok () (last s)
  | .error f s => .error f (last s)

/-- The level of detail at which the course of rendering is traced. -/
def courseLevel : Nat := 2

/-- Renders a body once for each item, while a name stands for the item. -/
def forEach (level : Nat) (name : String) (body : Render Unit) : List Value → Render Unit
  | [] => pure ()
  | v :: vs => do
    note level courseLevel fun _ => ⟨"for " ++ name ++ " = " ++ v.text, v.textDepth⟩
    modifyEnv fun env => env.push name v
    always body fun s => { s with env := s.env.pop name }
    forEach level name body vs

end Render

/-- The word for a truth value in a trace. -/
def truthWord (b : Bool) : String :=
  if b then "True" else "False"

/-- Renders a sibling. -/
def Node.render (level : Nat) : Node → Render Unit
  | .data text => Render.write text
  | .insert e => do
    let v ← Render.evaluate level e
    Render.writeValue v
  | .choose condition holds fails => do
    let v ← Render.evaluate level condition
    Render.note level Render.courseLevel fun _ =>
      ⟨"if " ++ condition.text ++ " -> " ++ truthWord v.isTruthy, condition.textDepth⟩
    if v.isTruthy then renderAll level holds else renderAll level fails
  | .loop name items body => do
    let v ← Render.evaluate level items
    match v with
    | .array vs => Render.forEach level name (renderAll level body) vs
    | v => throw (.of (.notIterable v))
where
  /-- Renders some siblings. -/
  renderAll (level : Nat) : List Node → Render Unit
    | [] => pure ()
    | n :: ns => do
      render level n
      renderAll level ns

namespace Template

/-- The level of detail at which the outline of a template is part of the trace. -/
def outlineLevel : Nat := 4

/-- Renders a template. -/
def render (level : Nat) (t : Template) : Render Unit := do
  Render.note level outlineLevel fun _ => ⟨t.outline, t.outlineDepth⟩
  Node.render.renderAll level t.body

end Template

/-- What a rendering comes to: what it has written, the environment it leaves, its trace, and the
failure that ended it, if any. -/
structure Rendering where
  canvas : Canvas
  failure : Option Failure

namespace Rendering

/-- What has been written. -/
def text (r : Rendering) : String :=
  r.canvas.output.text

/-- The lines of the trace, in order. -/
def lines (r : Rendering) : List String :=
  r.canvas.trace.reverse

/-- The environment afterwards. -/
def env (r : Rendering) : Environment :=
  r.canvas.env

end Rendering

/-- Renders a template to an output. -/
def Template.renderTo (t : Template) (level : Nat) (env : Environment) (output : Output) :
    Rendering :=
  match t.render level ⟨env, output, []⟩ with
  | .ok () s => ⟨s, none⟩
  | .error f s => ⟨s, some f⟩

end Stencil
