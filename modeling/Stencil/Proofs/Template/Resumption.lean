import Stencil.Proofs.Template.FreeNames

/-!
# Template — Resumption

Rendering does not look back: on a canvas whose output takes any text, what was written and traced
before makes no difference to what a step does (`Resumes`).  So the rendering of siblings in a row
is told by what each of them writes on a fresh canvas (`writtenBy_append`).
-/

namespace Stencil

variable {α β : Type} {level : Nat}

/-- The canvas with something written and traced before. -/
def Canvas.behind (s before : Canvas) : Canvas where
  env := s.env
  output := { s.output with taken := s.output.taken ++ before.output.taken }
  trace := s.trace ++ before.trace

/-- The end of a run with something written and traced before. -/
def resumed (before : Canvas) :
    EStateM.Result Failure Canvas α → EStateM.Result Failure Canvas α
  | .ok a s => .ok a (s.behind before)
  | .error f s => .error f (s.behind before)

/-- The output takes any text. -/
def Canvas.Free (s : Canvas) : Prop :=
  ∃ taken, s.output = { Output.unlimited with taken := taken }

namespace Render

/-- On a canvas whose output takes any text, and does so after the step too, what was written and
traced before makes no difference to the step. -/
def Resumes (x : Render α) : Prop :=
  ∀ s : Canvas, s.Free → (x.after s).Free ∧ ∀ before, x (s.behind before) = resumed before (x s)

theorem free_behind {s : Canvas} (h : s.Free) (before : Canvas) : (s.behind before).Free := by
  obtain ⟨taken, h⟩ := h
  exact ⟨taken ++ before.output.taken, by rw [Canvas.behind, h]⟩

theorem write_of_free {s : Canvas} (h : s.Free) (text : String) :
    write text s =
      .ok () { s with output := { s.output with taken := text :: s.output.taken } } := by
  obtain ⟨taken, h⟩ := h
  rw [write, h]
  rfl

theorem resumes_contract : Contract Resumes where
  pure _ _ h := ⟨h, fun _ => rfl⟩
  throw _ _ h := ⟨h, fun _ => rfl⟩
  bind {_ _ x g} hx hg s h := by
    obtain ⟨hfree, hbehind⟩ := hx s h
    cases hs : x s with
    | ok a t =>
        rw [after_of_ok hs] at hfree
        obtain ⟨hfree', hbehind'⟩ := hg a t hfree
        refine ⟨?_, fun before => ?_⟩
        · rwa [after, bind_of_ok hs]
        · have hx' := hbehind before
          rw [hs] at hx'
          rw [bind_of_ok hx', bind_of_ok hs, hbehind']
    | error f t =>
        rw [after_of_error hs] at hfree
        refine ⟨?_, fun before => ?_⟩
        · rwa [after, bind_of_error hs]
        · have hx' := hbehind before
          rw [hs] at hx'
          rw [bind_of_error hx', bind_of_error hs]
          rfl
  look h s hs := ⟨(h s.env s hs).1, fun before => (h s.env s hs).2 before⟩
  leave line s h := by
    unfold after leave
    split
    · exact ⟨h, fun _ => rfl⟩
    · exact ⟨h, fun _ => rfl⟩
  write text s h := by
    rw [after, write_of_free h]
    refine ⟨?_, fun before => ?_⟩
    · obtain ⟨taken, h⟩ := h
      exact ⟨text :: taken, by rw [canvasOf, h]⟩
    · rw [write_of_free (free_behind h before)]
      rfl
  turn {body} name v hbody s h := by
    obtain ⟨hfree, hbehind⟩ := hbody { s with env := s.env.push name v } h
    change (after (always body _) { s with env := s.env.push name v }).Free ∧
      ∀ before, always body _ (Canvas.behind { s with env := s.env.push name v } before) =
        resumed before (always body _ { s with env := s.env.push name v })
    unfold after always at *
    cases hb : body { s with env := s.env.push name v } with
    | ok u t =>
        rw [hb] at hfree hbehind
        refine ⟨hfree, fun before => ?_⟩
        rw [hbehind]
        rfl
    | error f t =>
        rw [hb] at hfree hbehind
        refine ⟨hfree, fun before => ?_⟩
        rw [hbehind]
        rfl

end Render

open Render

/-! ### What siblings write -/

/-- A text that has been written, and the failure that ended the writing, if any. -/
structure Written where
  text : String
  failure : Option Failure

/-- What is written in a row: the second only where nothing ends the first. -/
def Written.andThen (x y : Written) : Written :=
  match x.failure with
  | none => ⟨x.text ++ y.text, y.failure⟩
  | some f => ⟨x.text, some f⟩

/-- Nothing is written. -/
def Written.nothing : Written := ⟨"", none⟩

theorem Written.nothing_andThen (x : Written) : nothing.andThen x = x := by
  simp [nothing, andThen]

theorem Written.andThen_assoc (x y z : Written) :
    (x.andThen y).andThen z = x.andThen (y.andThen z) := by
  obtain ⟨v, _ | f⟩ := x
  · obtain ⟨w, _ | f⟩ := y
    · simp [andThen, String.append_assoc]
    · simp [andThen]
  · simp [andThen]

/-- What a run has written, and how it has failed. -/
def written : EStateM.Result Failure Canvas Unit → Written
  | .ok () s => ⟨s.output.text, none⟩
  | .error f s => ⟨s.output.text, some f⟩

theorem written_resumed (before : Canvas) (r : EStateM.Result Failure Canvas Unit) :
    written (resumed before r) = Written.andThen ⟨before.output.text, none⟩ (written r) := by
  cases r <;>
    simp [resumed, written, Written.andThen, Canvas.behind, Output.text, Output.texts]

namespace Node

/-- What some siblings write to an output that takes any text. -/
def writtenBy (level : Nat) (env : Environment) (ns : List Node) : Written :=
  written (render.renderAll level ns ⟨env, .unlimited, []⟩)

theorem renderAll_append (ns ms : List Node) :
    render.renderAll level (ns ++ ms) = (do
      render.renderAll level ns
      render.renderAll level ms) := by
  induction ns with
  | nil => rfl
  | cons n ns ih => rw [List.cons_append, renderAll_cons, renderAll_cons, ih, bind_assoc]

theorem written_of_endAlike {E : Environment → Environment → Prop}
    {r r' : EStateM.Result Failure Canvas Unit} (h : EndAlike (Canvas.Alike E) Never r r') :
    written r = written r' := by
  rcases h.of_never with ⟨⟨⟩, s, t, rfl, rfl, halike⟩ | ⟨f, s, t, rfl, rfl, halike⟩
  · simp [written, halike.output]
  · simp [written, halike.output]

/-- **Siblings in a row write in a row**: those behind see the same visible values, and do not look
back. -/
theorem writtenBy_append (level : Nat) (env : Environment) (ns ms : List Node) :
    writtenBy level env (ns ++ ms) =
      (writtenBy level env ns).andThen (writtenBy level env ms) := by
  have hresumes : ∀ ns, Resumes (render.renderAll level ns) := resumes_contract.renderAll
  unfold writtenBy
  rw [renderAll_append]
  have hfresh : ∀ env : Environment, Canvas.Free ⟨env, .unlimited, []⟩ := fun env => ⟨[], rfl⟩
  cases h : render.renderAll level ns ⟨env, .unlimited, []⟩ with
  | error f s =>
      rw [bind_of_error h]
      rfl
  | ok u s =>
      have hfree : s.Free := by
        have hafter := (hresumes ns _ (hfresh env)).1
        rwa [after_of_ok h] at hafter
      have hstack : ∀ n, ((render.renderAll level ns).after ⟨env, .unlimited, []⟩).env.stack n =
          env.stack n := stack_renderAll ns ⟨env, .unlimited, []⟩
      rw [after_of_ok h] at hstack
      -- The first part leaves a fresh canvas behind what it has written.
      have hbehind : Canvas.behind ⟨s.env, .unlimited, []⟩ s = s := by
        obtain ⟨env', output, trace⟩ := s
        obtain ⟨taken, rfl⟩ := hfree
        rfl
      have hall : Sees Set.univ (render.renderAll level ms) :=
        sees_renderAll ms fun _ _ => trivial
      have hsees := hall.ends (s := ⟨s.env, .unlimited, []⟩) (t := ⟨env, .unlimited, []⟩)
        ⟨rfl, rfl, fun n _ => congrArg List.head? (hstack n)⟩
      have hms := (hresumes ms _ (hfresh s.env)).2 s
      rw [hbehind] at hms
      rw [bind_of_ok h, hms, written_resumed, written_of_endAlike hsees]
      rfl

theorem writtenBy_data (level : Nat) (env : Environment) (text : String) :
    writtenBy level env [.data text] = ⟨text, none⟩ := by
  have hwrite := write_of_free (s := ⟨env, .unlimited, []⟩) ⟨[], rfl⟩ text
  rw [writtenBy, renderAll_cons, render, bind_of_ok hwrite]
  change Written.mk (String.join [text]) none = _
  rw [String.join_cons, String.join_nil, String.append_empty]

end Node

namespace Template

/-- What a template writes to an output that takes any text. -/
def writes (t : Template) (level : Nat) (env : Environment) : Written where
  text := (t.renderTo level env .unlimited).text
  failure := (t.renderTo level env .unlimited).failure

theorem writes_eq_written (t : Template) (level : Nat) (env : Environment) :
    t.writes level env = written (t.render level ⟨env, .unlimited, []⟩) := by
  unfold writes renderTo
  cases t.render level ⟨env, .unlimited, []⟩ <;> rfl

/-- A template writes what its siblings write, unless its outline is asked for and is too deep. -/
theorem writes_eq_writtenBy {t : Template} {level : Nat} (env : Environment)
    (h : ¬(outlineLevel ≤ level ∧ Line.depthLimit < t.outlineDepth)) :
    t.writes level env = Node.writtenBy level env t.body := by
  have hnote : ∃ trace, note level outlineLevel (fun _ => ⟨t.outline, t.outlineDepth⟩)
      ⟨env, .unlimited, []⟩ = .ok () ⟨env, .unlimited, trace⟩ := by
    unfold note
    split
    · next hlevel =>
      exact ⟨_, leave_of_le (Nat.not_lt.mp fun hdeep => h ⟨hlevel, hdeep⟩) _⟩
    · exact ⟨_, rfl⟩
  obtain ⟨trace, hnote⟩ := hnote
  have hall : Resumes (Node.render.renderAll level t.body) := resumes_contract.renderAll t.body
  have hresumes := (hall ⟨env, .unlimited, []⟩ ⟨[], rfl⟩).2 ⟨env, .unlimited, trace⟩
  change Node.render.renderAll level t.body ⟨env, .unlimited, trace⟩ = _ at hresumes
  rw [writes_eq_written, render, bind_of_ok hnote, hresumes, written_resumed]
  exact Written.nothing_andThen _

/-- If its outline is asked for and is too deep, a template writes nothing. -/
theorem writes_of_deep {t : Template} {level : Nat} (env : Environment)
    (h : outlineLevel ≤ level ∧ Line.depthLimit < t.outlineDepth) :
    t.writes level env = ⟨"", some (.of .lineTooDeep)⟩ := by
  rw [writes, renderTo_of_deep h.2 h.1]
  rfl

end Template

end Stencil
