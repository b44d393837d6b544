import Mathlib.Logic.Function.Basic
import Stencil.Proofs.Template.Restoration

/-!
# Template — Course

What rendering does, told without an output.  It has effects that show, which are the lines that it
leaves and the texts that it writes, some of them while the variable of a loop has a value (`Act`).
Which acts these are, in which order, and which failure comes at their end, is told by the template
and the visible values alone (`Template.course`).  Rendering plays this course
(`Template.plays_render`): one act after another, until the course ends or a text is refused.
-/

namespace Stencil

open Render

variable {level : Nat}

/-- Something that shows: a line is left, or a text is written. -/
inductive Effect where
  | line (text : String)
  | write (text : String)
deriving DecidableEq, Repr

/-- Has the effect. -/
def Effect.play : Effect → Render Unit
  | .line text => fun s => .ok () { s with trace := text :: s.trace }
  | .write text => Render.write text

/-- Something that rendering does: it has an effect, or it does things while a name has a value. -/
inductive Act where
  | effect (e : Effect)
  | turn (name : String) (v : Value) (acts : List Act)

namespace Act

/-- Does it. -/
def play : Act → Render Unit
  | .effect e => e.play
  | .turn name v acts => do
    modifyEnv fun env => env.push name v
    always (playAll acts) fun s => { s with env := s.env.pop name }
where
  /-- Does one thing after another. -/
  playAll : List Act → Render Unit
    | [] => pure ()
    | a :: as => do
      play a
      playAll as

open play (playAll)

theorem playAll_append (as bs : List Act) :
    playAll (as ++ bs) = (do playAll as; playAll bs) := by
  induction as with
  | nil => rfl
  | cons a as ih => rw [List.cons_append, playAll, playAll, ih, bind_assoc]

end Act

open Act.play (playAll)

/-- What rendering does, in order, and the failure that ends it, if any. -/
structure Course where
  acts : List Act
  failure : Option Failure

namespace Course

/-- Nothing is done. -/
def done : Course := ⟨[], none⟩

/-- One course and then another, unless the first fails. -/
def andThen (c d : Course) : Course :=
  match c.failure with
  | none => ⟨c.acts ++ d.acts, d.failure⟩
  | some f => ⟨c.acts, some f⟩

/-- A line, unless it is too deep. -/
def ofLine (line : Line) : Course :=
  if Line.depthLimit < line.depth then ⟨[], some (.of .lineTooDeep)⟩
  else ⟨[.effect (.line line.text)], none⟩

/-- Some lines, up to the first that is too deep. -/
def ofLines : List Line → Course
  | [] => done
  | line :: lines => (ofLine line).andThen (ofLines lines)

/-- A line, if the level of detail is at least `least`. -/
def noted (level least : Nat) (line : Unit → Line) : Course :=
  if least ≤ level then ofLine (line ()) else done

/-- The text of a value, unless that is too deep. -/
def ofValue (v : Value) : Course :=
  if Line.depthLimit < v.textDepth then ⟨[], some (.of .evaluationTooDeep)⟩
  else ⟨[.effect (.write v.text)], none⟩

/-- The lines of an evaluation, and then what is done with its value. -/
def evaluated (x : Traced Value) (next : Value → Course) : Course :=
  (ofLines x.lines).andThen
    (match x.result with
    | .ok v => next v
    | .error f => ⟨[], some f⟩)

/-- A course during which a name has a value. -/
def within (c : Course) (name : String) (v : Value) : Course :=
  ⟨[.turn name v c.acts], c.failure⟩

/-- The turns of a loop, one for each item. -/
def turns (level : Nat) (name : String) (body : Value → Course) : List Value → Course
  | [] => done
  | v :: vs =>
    (noted level courseLevel fun _ => ⟨"for " ++ name ++ " = " ++ v.text, v.textDepth⟩).andThen
      (((body v).within name v).andThen (turns level name body vs))

/-- Ends by a failure, if there is one. -/
def finish : Option Failure → Render Unit
  | none => pure ()
  | some f => throw f

/-- Goes through a course. -/
def play (c : Course) : Render Unit := do
  playAll c.acts
  finish c.failure

theorem play_andThen (c d : Course) : (c.andThen d).play = (do c.play; d.play) := by
  obtain ⟨as, _ | f⟩ := c
  · simp only [andThen, play, finish, Act.playAll_append, bind_assoc, pure_bind]
  · simp only [andThen, play, bind_assoc]
    rfl

/-- What is done in any case is done before a failure goes on. -/
theorem always_finish (x : Render Unit) (f : Option Failure) (last : Canvas → Canvas) :
    always (do x; finish f) last = (do always x last; finish f) := by
  funext s
  cases hx : x s with
  | ok u t =>
      have hlast : always x last s = .ok () (last t) := by rw [always, hx]
      rw [bind_of_ok hlast, always, bind_of_ok hx]
      cases f <;> rfl
  | error e t =>
      have hlast : always x last s = .error e (last t) := by rw [always, hx]
      rw [bind_of_error hlast, always, bind_of_error hx]

theorem play_within (c : Course) (name : String) (v : Value) :
    (c.within name v).play = (do
      modifyEnv fun env => env.push name v
      always c.play fun s => { s with env := s.env.pop name }) := by
  change (do playAll [.turn name v c.acts]; finish c.failure) = _
  rw [playAll, playAll, Act.play]
  simp only [bind_assoc, pure_bind]
  congr 1; funext _
  exact (always_finish _ _ _).symm

end Course

namespace Render

variable {x y : Render Unit} {c d : (String → Option Value) → Course}

theorem modifyEnv_apply (change : Environment → Environment) (s : Canvas) :
    modifyEnv change s = .ok () { s with env := change s.env } := rfl

/-- Step by step, what is done is told by the visible values. -/
def Plays (x : Render Unit) (c : (String → Option Value) → Course) : Prop :=
  ∀ s, x s = (c s.env.lookup).play s

theorem plays_done : Plays (pure ()) fun _ => .done :=
  fun _ => rfl

theorem plays_throw (f : Failure) : Plays (throw f) fun _ => ⟨[], some f⟩ :=
  fun _ => rfl

theorem plays_write (text : String) :
    Plays (write text) fun _ => ⟨[.effect (.write text)], none⟩ := by
  have hplay : Course.play ⟨[.effect (.write text)], none⟩ = write text := by
    simp only [Course.play, Course.finish, playAll, Act.play, Effect.play, bind_pure_unit]
  intro s
  dsimp only
  rw [hplay]

theorem plays_leave (line : Line) : Plays (leave line) fun _ => .ofLine line := by
  intro s
  unfold leave Course.ofLine
  split <;> rfl

theorem plays_note (least : Nat) (line : Unit → Line) :
    Plays (note level least line) fun _ => .noted level least line := by
  unfold note Course.noted
  split
  · exact plays_leave _
  · exact plays_done

theorem plays_writeValue (v : Value) : Plays (writeValue v) fun _ => .ofValue v := by
  unfold writeValue Course.ofValue
  split
  · exact plays_throw _
  · exact plays_write _

/-- The second step sees what the first one saw, since that leaves every stack as it was. -/
theorem Plays.bind (hx : Plays x c)
    (hleaves : Leaves (fun env env' => ∀ n, env'.stack n = env.stack n) x) (hy : Plays y d) :
    Plays (do x; y) fun lookup => (c lookup).andThen (d lookup) := by
  intro s
  dsimp only
  rw [Course.play_andThen]
  cases h : x s with
  | ok u t =>
      have hlookup : t.env.lookup = s.env.lookup := by
        have hstack := hleaves s
        rw [after_of_ok h] at hstack
        exact funext fun n => congrArg List.head? (hstack n)
      rw [bind_of_ok h, bind_of_ok ((hx s).symm.trans h), hy t, hlookup]
  | error e t => rw [bind_of_error h, bind_of_error ((hx s).symm.trans h)]

theorem plays_leaveAll (lines : List Line) : Plays (leaveAll lines) fun _ => .ofLines lines := by
  induction lines with
  | nil => exact plays_done
  | cons line lines ih =>
      exact (plays_leave line).bind ((leaves_contract Node.bracketed_stack).leave line) ih

theorem plays_evaluate {e : Expr} {g : Value → Render Unit}
    {d : Value → (String → Option Value) → Course} (hg : ∀ v, Plays (g v) (d v)) :
    Plays (do let v ← evaluate level e; g v)
      fun lookup => .evaluated (e.evaluate level lookup) fun v => d v lookup := by
  have hperform : ∀ traced : Traced Value, Plays (do let v ← perform traced; g v)
      fun lookup => .evaluated traced fun v => d v lookup := by
    rintro ⟨lines, result⟩
    have hrest : Plays (do let v ← conclude result; g v) fun lookup =>
        match result with
        | .ok v => d v lookup
        | .error f => ⟨[], some f⟩ := by
      cases result with
      | ok v => exact hg v
      | error f => exact plays_throw f
    have hall := (plays_leaveAll lines).bind
      ((leaves_contract Node.bracketed_stack).leaveAll lines) hrest
    rwa [← bind_assoc] at hall
  intro s
  rw [evaluate_bind_apply]
  exact hperform (e.evaluate level s.env.lookup) s

/-- The body of a loop sees a value of the loop. -/
theorem Plays.turn (hx : Plays x c) (name : String) (v : Value) :
    Plays (do
      modifyEnv fun env => env.push name v
      always x fun s => { s with env := s.env.pop name })
      fun lookup => (c (Function.update lookup name (some v))).within name v := by
  intro s
  have hlookup : (s.env.push name v).lookup = Function.update s.env.lookup name (some v) := by
    funext n
    rw [Environment.lookup_push, Function.update_apply]
    simp only [eq_comm]
  have hbody := hx { s with env := s.env.push name v }
  dsimp only at hbody ⊢
  rw [hlookup] at hbody
  rw [Course.play_within, bind_of_ok (modifyEnv_apply _ s), bind_of_ok (modifyEnv_apply _ s), always,
    always, hbody]

theorem Plays.forEach (hx : Plays x c)
    (hleaves : Leaves (fun env env' => ∀ n, env'.stack n = env.stack n) x) (name : String)
    (vs : List Value) :
    Plays (forEach level name x vs)
      fun lookup => .turns level name (fun v => c (Function.update lookup name (some v))) vs := by
  induction vs with
  | nil => exact plays_done
  | cons v vs ih =>
      have hturn := (hx.turn name v).bind (leaves_turn Node.bracketed_stack hleaves name v) ih
      rw [bind_assoc] at hturn
      exact (plays_note _ _).bind ((leaves_contract Node.bracketed_stack).note _ _ _) hturn

end Render

namespace Node

/-- What rendering a sibling does, by the visible values. -/
def course (level : Nat) (lookup : String → Option Value) : Node → Course
  | .data text => ⟨[.effect (.write text)], none⟩
  | .insert e => .evaluated (e.evaluate level lookup) fun v => .ofValue v
  | .choose condition holds fails =>
    .evaluated (condition.evaluate level lookup) fun v =>
      (Course.noted level courseLevel fun _ =>
        ⟨"if " ++ condition.text ++ " -> " ++ truthWord v.isTruthy, condition.textDepth⟩).andThen
        (if v.isTruthy then courseAll level lookup holds else courseAll level lookup fails)
  | .loop name items body =>
    .evaluated (items.evaluate level lookup) fun v =>
      match v with
      | .array vs =>
        .turns level name
          (fun v => courseAll level (Function.update lookup name (some v)) body) vs
      | v => ⟨[], some (.of (.notIterable v))⟩
where
  /-- What rendering some siblings does. -/
  courseAll (level : Nat) (lookup : String → Option Value) : List Node → Course
    | [] => .done
    | n :: ns => (course level lookup n).andThen (courseAll level lookup ns)

open course (courseAll)

mutual

theorem plays_render : ∀ n : Node, Plays (n.render level) fun lookup => n.course level lookup
  | .data text => by
      rw [render]
      exact plays_write text
  | .insert e => by
      rw [render]
      exact plays_evaluate fun v => plays_writeValue v
  | .choose e holds fails => by
      rw [render]
      refine plays_evaluate fun v =>
        (plays_note _ _).bind ((leaves_contract bracketed_stack).note _ _ _) ?_
      split
      · exact plays_renderAll holds
      · exact plays_renderAll fails
  | .loop name e body => by
      rw [render]
      refine plays_evaluate fun v => ?_
      cases v with
      | array vs =>
          exact (plays_renderAll body).forEach ((leaves_contract bracketed_stack).renderAll body)
            name vs
      | integer | float | string | filter => exact plays_throw _

/-- Rendering some siblings plays their course. -/
theorem plays_renderAll : ∀ ns : List Node,
    Plays (render.renderAll level ns) fun lookup => courseAll level lookup ns
  | [] => plays_done
  | n :: ns => by
      rw [renderAll_cons]
      exact (plays_render n).bind ((leaves_contract bracketed_stack).renderNode n)
        (plays_renderAll ns)

end

end Node

namespace Template

/-- What rendering a template does, by the visible values. -/
def course (level : Nat) (lookup : String → Option Value) (t : Template) : Course :=
  (Course.noted level outlineLevel fun _ => ⟨t.outline, t.outlineDepth⟩).andThen
    (Node.course.courseAll level lookup t.body)

/-- Rendering a template plays its course. -/
theorem plays_render (t : Template) : Plays (t.render level) fun lookup => t.course level lookup :=
  (plays_note _ _).bind ((leaves_contract Node.bracketed_stack).note _ _ _)
    (Node.plays_renderAll t.body)

end Template

end Stencil
