import Stencil.Template.Rendering

/-!
# Template — Steps

The steps that rendering is made up of, and how they are put together.  A line is left unless it is
too deep, so lines are left one after another up to the first that is (`leaveAll_of_not_short`).  A
turn of a loop begins with a line and a push (`enter`), and an `if` with the value of its condition
(`Node.condition`).

A property of steps that sequences and turns of loops keep, and that the basic steps have, holds of
the rendering of all templates (`Contract.render`).
-/

namespace Stencil

variable {α β : Type} {level : Nat}

namespace Render

variable {x : Render α} {g : α → Render β} {s t : Canvas} {e : Failure}

theorem bind_of_ok {a : α} (h : x s = .ok a t) : (x >>= g) s = g a t := by
  change EStateM.bind x g s = _
  rw [EStateM.bind, h]

theorem bind_of_error (h : x s = .error e t) : (x >>= g) s = .error e t := by
  change EStateM.bind x g s = _
  rw [EStateM.bind, h]

/-- A sequence fails as its first step does, or as its second step does behind the first. -/
theorem bind_error (h : (x >>= g) s = .error e t) :
    x s = .error e t ∨ ∃ a u, x s = .ok a u ∧ g a u = .error e t := by
  cases hx : x s with
  | ok a u => exact .inr ⟨a, u, rfl, by rw [← h, bind_of_ok hx]⟩
  | error e' u => rw [bind_of_error hx] at h; cases h; exact .inl rfl

/-- The canvas that a run leaves, whether or not it fails. -/
def canvasOf : EStateM.Result Failure Canvas α → Canvas
  | .ok _ t => t
  | .error _ t => t

/-- What a step leaves, whether or not it fails. -/
def after (x : Render α) (s : Canvas) : Canvas :=
  canvasOf (x s)

theorem after_of_ok {a : α} (h : x s = .ok a t) : x.after s = t := by
  rw [after, h, canvasOf]

theorem after_of_error (h : x s = .error e t) : x.after s = t := by
  rw [after, h, canvasOf]

/-! ### Lines -/

/-- All lines can be left: none is too deep. -/
def Short (lines : List Line) : Prop :=
  ∀ line ∈ lines, line.depth ≤ Line.depthLimit

/-- A line that is not too deep is left as the latest one. -/
theorem leave_of_le {line : Line} (h : line.depth ≤ Line.depthLimit) (s : Canvas) :
    leave line s = .ok () { s with trace := line.text :: s.trace } :=
  if_neg (Nat.not_lt.mpr h)

/-- A line that is too deep leaves the canvas as it is. -/
theorem leave_of_lt {line : Line} (h : Line.depthLimit < line.depth) (s : Canvas) :
    leave line s = .error (.of .lineTooDeep) s :=
  if_pos h

/-- Where no line is too deep, all of them are left, the last one as the latest. -/
theorem leaveAll_of_short {lines : List Line} (h : Short lines) (s : Canvas) :
    leaveAll lines s = .ok () { s with trace := (lines.map Line.text).reverse ++ s.trace } := by
  induction lines generalizing s with
  | nil => rfl
  | cons line lines ih =>
      obtain ⟨hline, hlines⟩ := List.forall_mem_cons.mp h
      rw [leaveAll, bind_of_ok (leave_of_le hline s), ih hlines, List.map_cons, List.reverse_cons,
        List.append_assoc]
      rfl

/-- Where some line is too deep, no more than the lines in front of it are left. -/
theorem leaveAll_of_not_short {lines : List Line} (h : ¬Short lines) (s : Canvas) :
    ∃ trace, leaveAll lines s = .error (.of .lineTooDeep) { s with trace := trace } := by
  induction lines generalizing s with
  | nil => exact absurd nofun h
  | cons line lines ih =>
      rw [leaveAll]
      rcases Nat.lt_or_ge Line.depthLimit line.depth with hline | hline
      · exact ⟨s.trace, bind_of_error (leave_of_lt hline s)⟩
      · have hlines : ¬Short lines := fun hlines => h (List.forall_mem_cons.mpr ⟨hline, hlines⟩)
        rw [bind_of_ok (leave_of_le hline s)]
        exact ih hlines _

/-- The lines of a computation come before its result, also where that is a failure. -/
theorem perform_of_short {traced : Traced α} (h : Short traced.lines) (s : Canvas) :
    perform traced s =
      conclude traced.result { s with trace := (traced.lines.map Line.text).reverse ++ s.trace } :=
  bind_of_ok (leaveAll_of_short h s)

/-- Where some line is too deep, the result of a computation does not matter. -/
theorem perform_of_not_short {traced : Traced α} (h : ¬Short traced.lines) (s : Canvas) :
    ∃ trace, perform traced s = .error (.of .lineTooDeep) { s with trace := trace } := by
  obtain ⟨trace, htrace⟩ := leaveAll_of_not_short h s
  exact ⟨trace, bind_of_error htrace⟩

/-- An expression sees the environment as it is before its lines are left. -/
theorem evaluate_apply (level : Nat) (e : Expr) (s : Canvas) :
    evaluate level e s = perform (e.evaluate level s.env.lookup) s := rfl

theorem evaluate_bind_apply (level : Nat) (e : Expr) (g : Value → Render β) (s : Canvas) :
    (evaluate level e >>= g) s = (perform (e.evaluate level s.env.lookup) >>= g) s := by
  change EStateM.bind _ g s = EStateM.bind _ g s
  rw [EStateM.bind, EStateM.bind, evaluate_apply]

/-! ### Loops -/

/-- The beginning of a turn of a loop. -/
def enter (level : Nat) (name : String) (v : Value) : Render Unit := do
  note level courseLevel fun _ => ⟨"for " ++ name ++ " = " ++ v.text, v.textDepth⟩
  modifyEnv fun env => env.push name v

/-- A loop begins with a turn for the first item, behind which its variable is taken back. -/
theorem forEach_cons (name : String) (body : Render Unit) (v : Value) (vs : List Value) :
    forEach level name body (v :: vs) = (do
      enter level name v
      always body fun s => { s with env := s.env.pop name }
      forEach level name body vs) := by
  rw [forEach, enter, bind_assoc]

/-- Turns for some items and then for others are turns for all of them. -/
theorem forEach_append (name : String) (body : Render Unit) (before after : List Value) :
    forEach level name body (before ++ after) = (do
      forEach level name body before
      forEach level name body after) := by
  induction before with
  | nil => rfl
  | cons v before ih =>
      rw [List.cons_append, forEach_cons, forEach_cons, ih]
      simp only [bind_assoc]

end Render

open Render

namespace Node

/-- The beginning of rendering an `if` block: the value of its condition. -/
def condition (level : Nat) (e : Expr) : Render Value := do
  let v ← evaluate level e
  note level courseLevel fun _ =>
    ⟨"if " ++ e.text ++ " -> " ++ truthWord v.isTruthy, e.textDepth⟩
  return v

theorem renderAll_cons (n : Node) (ns : List Node) :
    render.renderAll level (n :: ns) = (do
      n.render level
      render.renderAll level ns) := by
  rw [render.renderAll]

/-- An `if` is its condition and then one of its branches. -/
theorem render_choose (e : Expr) (holds fails : List Node) :
    (Node.choose e holds fails).render level = (do
      let v ← condition level e
      render.renderAll level (if v.isTruthy then holds else fails)) := by
  rw [render, condition]
  simp only [bind_assoc, pure_bind]
  congr 1; funext v; congr 1; funext _
  split <;> rfl

end Node

/-! ### Properties of all steps -/

namespace Render

/-- A property that is kept by whatever rendering is made up of. -/
structure Contract (P : ∀ {α : Type}, Render α → Prop) : Prop where
  pure : ∀ {α : Type} (a : α), P (pure a : Render α)
  throw : ∀ {α : Type} (f : Failure), P (throw f : Render α)
  bind : ∀ {α β : Type} {x : Render α} {g : α → Render β}, P x → (∀ a, P (g a)) → P (x >>= g)
  look : ∀ {α : Type} {x : Environment → Render α}, (∀ env, P (x env)) → P fun s => x s.env s
  leave : ∀ line, P (leave line)
  write : ∀ text, P (write text)
  turn : ∀ {body : Render Unit} (name : String) (v : Value), P body → P (do
    modifyEnv fun env => env.push name v
    always body fun s => { s with env := s.env.pop name })

namespace Contract

variable {P : ∀ {α : Type}, Render α → Prop} (C : Contract P)

include C

/-- A line that is not asked for is nothing that is done. -/
theorem note (level least : Nat) (line : Unit → Line) : P (note level least line) := by
  unfold Render.note
  split
  · exact C.leave _
  · exact C.pure ()

/-- A value that is too deep has no text, and is an error. -/
theorem writeValue (v : Value) : P (writeValue v) := by
  unfold Render.writeValue
  split
  · exact C.throw _
  · exact C.write _

/-- Lines are left one by one. -/
theorem leaveAll : ∀ lines : List Line, P (leaveAll lines)
  | [] => C.pure ()
  | line :: lines => C.bind (C.leave line) fun _ => leaveAll lines

theorem perform (traced : Traced α) : P (perform traced) := by
  refine C.bind (C.leaveAll _) fun _ => ?_
  cases traced.result with
  | ok a => exact C.pure a
  | error f => exact C.throw f

/-- To evaluate is to perform what the environment at hand makes of the expression. -/
theorem evaluate (level : Nat) (e : Expr) : P (evaluate level e) :=
  C.look fun env => C.perform (e.evaluate level env.lookup)

/-- A loop keeps the property if its body does, turn by turn. -/
theorem forEach {body : Render Unit} (hbody : P body) (name : String) (vs : List Value) :
    P (forEach level name body vs) := by
  induction vs with
  | nil => exact C.pure ()
  | cons v vs ih =>
      have hturn := C.bind (C.turn name v hbody) fun _ => ih
      rw [bind_assoc] at hturn
      exact C.bind (C.note _ _ _) fun _ => hturn

mutual

/-- The siblings inside of a block are rendered by mutual recursion with `renderAll`. -/
theorem renderNode : ∀ n : Node, P (n.render level)
  | .data text => by
      rw [Node.render]
      exact C.write text
  | .insert e => by
      rw [Node.render]
      exact C.bind (C.evaluate level e) fun v => C.writeValue v
  | .choose e holds fails => by
      rw [Node.render_choose]
      refine C.bind (C.bind (C.evaluate level e) fun v => ?_) fun v => ?_
      · exact C.bind (C.note _ _ _) fun _ => C.pure v
      · split
        · exact renderAll holds
        · exact renderAll fails
  | .loop name e body => by
      rw [Node.render]
      refine C.bind (C.evaluate level e) fun v => ?_
      cases v with
      | array vs => exact C.forEach (renderAll body) name vs
      | integer | float | string | filter => exact C.throw _

theorem renderAll : ∀ ns : List Node, P (Node.render.renderAll level ns)
  | [] => C.pure ()
  | n :: ns => by
      rw [Node.renderAll_cons]
      exact C.bind (renderNode n) fun _ => renderAll ns

end

/-- Rendering a template has the property. -/
theorem render (t : Template) : P (t.render level) :=
  C.bind (C.note _ _ _) fun _ => C.renderAll t.body

end Contract

end Render

/-- A template with too deep an outline writes nothing where the outline is asked for. -/
theorem Template.renderTo_of_deep {t : Template} (h : Line.depthLimit < t.outlineDepth)
    (hlevel : outlineLevel ≤ level) (env : Environment) (output : Output) :
    t.renderTo level env output = ⟨⟨env, output, []⟩, some (.of .lineTooDeep)⟩ := by
  have hnote : note level outlineLevel (fun _ => ⟨t.outline, t.outlineDepth⟩) ⟨env, output, []⟩ =
      .error (.of .lineTooDeep) ⟨env, output, []⟩ := by
    rw [note, if_pos hlevel, leave_of_lt h]
  rw [renderTo, render, bind_of_error hnote]

end Stencil
