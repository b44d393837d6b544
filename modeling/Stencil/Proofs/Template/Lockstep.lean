import Stencil.Proofs.Template.Steps

/-!
# Template — Lockstep

Two renderings of the same template, kept in step.  What they work on may differ in the environment
and in the trace, and they may be traced at different levels of detail.  A relation between their
canvases that survives each thing that rendering does (`Lockstep`) survives all of rendering: both
end alike, and what they leave is related again (`Template.inStep_render`).

Only a line that is too deep can part them: it ends the second run, and the first goes on.  What is
known of the canvases then is a relation of its own, which has to survive whatever the first run
still does.  Two runs at one level of detail leave the same lines and are never parted (`Never`).
-/

namespace Stencil

variable {α β : Type}

namespace Render

/-- How two runs end: with the same value or by the same failure, and with canvases that are related
by `I`; or the second by a line that is too deep, and with canvases related by `H`. -/
inductive EndAlike (I H : Canvas → Canvas → Prop) :
    EStateM.Result Failure Canvas α → EStateM.Result Failure Canvas α → Prop where
  | ok {a : α} {s t : Canvas} (h : I s t) : EndAlike I H (.ok a s) (.ok a t)
  | error {f : Failure} {s t : Canvas} (h : I s t) : EndAlike I H (.error f s) (.error f t)
  | halted {r : EStateM.Result Failure Canvas α} {t : Canvas} (h : H (canvasOf r) t) :
      EndAlike I H r (.error (.of .lineTooDeep) t)

/-- From canvases that are related, the two steps end alike; and what is known once the second run
has been halted is still so after a further step of the first. -/
structure InStep (I H : Canvas → Canvas → Prop) (x y : Render α) : Prop where
  ends : ∀ {s t}, I s t → EndAlike I H (x s) (y t)
  goesOn : ∀ {s t}, H s t → H (x.after s) t

variable {I H : Canvas → Canvas → Prop} {x y : Render α} {g k : α → Render β}

theorem inStep_pure (a : α) : InStep I H (pure a : Render α) (pure a) :=
  ⟨fun h => .ok h, id⟩

theorem inStep_throw (f : Failure) : InStep I H (throw f : Render α) (throw f) :=
  ⟨fun h => .error h, id⟩

theorem InStep.after_bind (hg : ∀ a, InStep I H (g a) (k a)) {s t : Canvas}
    (h : H (x.after s) t) : H ((x >>= g).after s) t := by
  cases hs : x s with
  | ok a u =>
      rw [after_of_ok hs] at h
      rw [after, bind_of_ok hs]
      exact (hg a).goesOn h
  | error f u =>
      rw [after_of_error hs] at h
      rwa [after_of_error (bind_of_error hs)]

/-- Sequences are in step if their parts are. -/
theorem InStep.bind (hx : InStep I H x y) (hg : ∀ a, InStep I H (g a) (k a)) :
    InStep I H (x >>= g) (y >>= k) where
  ends {s t} hst := by
    have hends := hx.ends hst
    generalize hs : x s = r at hends
    generalize ht : y t = r' at hends
    cases hends with
    | ok h =>
        rw [bind_of_ok hs, bind_of_ok ht]
        exact (hg _).ends h
    | error h =>
        rw [bind_of_error hs, bind_of_error ht]
        exact .error h
    | halted h =>
        rw [bind_of_error ht]
        refine .halted (InStep.after_bind hg ?_)
        rwa [after, hs]
  goesOn h := InStep.after_bind hg (hx.goesOn h)

/-- The relations survive each thing that rendering does, at two levels of detail. -/
structure Lockstep (I H : Canvas → Canvas → Prop) (level level' : Nat) : Prop where
  note : ∀ least line, InStep I H (note level least line) (note level' least line)
  write : ∀ text, InStep I H (write text) (write text)
  evaluate : ∀ e, InStep I H (evaluate level e) (evaluate level' e)
  push : ∀ name v {s t}, I s t →
    I { s with env := s.env.push name v } { t with env := t.env.push name v }
  pop : ∀ name {s t}, I s t → I { s with env := s.env.pop name } { t with env := t.env.pop name }
  halted : ∀ env env' {s t}, H s t → H { s with env := env } { t with env := env' }

variable {level level' : Nat}

theorem Lockstep.writeValue (hI : Lockstep I H level level') (v : Value) :
    InStep I H (writeValue v) (writeValue v) := by
  unfold Render.writeValue
  split
  · exact inStep_throw _
  · exact hI.write _

theorem Lockstep.modifyEnv_push (hI : Lockstep I H level level') (name : String) (v : Value) :
    InStep I H (modifyEnv fun env => env.push name v) (modifyEnv fun env => env.push name v) :=
  ⟨fun h => .ok (hI.push name v h), fun h => hI.halted _ _ h⟩

theorem Lockstep.always_pop (hI : Lockstep I H level level') {x y : Render Unit}
    (hx : InStep I H x y) (name : String) :
    InStep I H (always x fun s => { s with env := s.env.pop name })
      (always y fun s => { s with env := s.env.pop name }) where
  ends {s t} hst := by
    have hends := hx.ends hst
    unfold always
    generalize x s = r at hends ⊢
    generalize y t = r' at hends ⊢
    cases hends with
    | ok h => exact .ok (hI.pop name h)
    | error h => exact .error (hI.pop name h)
    | halted h =>
        cases r with
        | ok u s' => exact .halted (hI.halted _ _ h)
        | error f s' => exact .halted (hI.halted _ _ h)
  goesOn {s t} h := by
    have hafter := hx.goesOn h
    unfold after always at *
    cases hs : x s with
    | ok u s' => rw [hs] at hafter; exact hI.halted _ _ hafter
    | error f s' => rw [hs] at hafter; exact hI.halted _ _ hafter

/-- Loops over the same items are in step if their bodies are. -/
theorem Lockstep.forEach (hI : Lockstep I H level level') {x y : Render Unit}
    (hx : InStep I H x y) (name : String) (vs : List Value) :
    InStep I H (forEach level name x vs) (forEach level' name y vs) := by
  induction vs with
  | nil => exact inStep_pure ()
  | cons v vs ih =>
      rw [forEach_cons, forEach_cons]
      have henter : InStep I H (enter level name v) (enter level' name v) :=
        (hI.note _ _).bind fun _ => hI.modifyEnv_push name v
      exact henter.bind fun _ => (hI.always_pop hx name).bind fun _ => ih

end Render

open Render

namespace Node

variable {I H : Canvas → Canvas → Prop} {level level' : Nat}

mutual

/-- Rendering the same node at the two levels is in step. -/
theorem inStep_render (hI : Lockstep I H level level') :
    ∀ n : Node, InStep I H (n.render level) (n.render level')
  | .data text => by
      rw [render, render]
      exact hI.write text
  | .insert e => by
      rw [render, render]
      exact (hI.evaluate e).bind fun v => hI.writeValue v
  | .choose e holds fails => by
      rw [render_choose, render_choose]
      refine ((hI.evaluate e).bind fun v => ?_).bind fun v => ?_
      · exact (hI.note _ _).bind fun _ => inStep_pure v
      · split
        · exact inStep_renderAll hI holds
        · exact inStep_renderAll hI fails
  | .loop name e body => by
      rw [render, render]
      refine (hI.evaluate e).bind fun v => ?_
      cases v with
      | array vs => exact hI.forEach (inStep_renderAll hI body) name vs
      | integer | float | string | filter => exact inStep_throw _

/-- Two renderings of the same siblings stay in step. -/
theorem inStep_renderAll (hI : Lockstep I H level level') :
    ∀ ns : List Node, InStep I H (render.renderAll level ns) (render.renderAll level' ns)
  | [] => inStep_pure ()
  | n :: ns => by
      rw [renderAll_cons, renderAll_cons]
      exact (inStep_render hI n).bind fun _ => inStep_renderAll hI ns

end

end Node

/-- Two renderings of a template stay in step. -/
theorem Template.inStep_render {I H : Canvas → Canvas → Prop} {level level' : Nat}
    (hI : Lockstep I H level level') (t : Template) :
    InStep I H (t.render level) (t.render level') :=
  (hI.note _ _).bind fun _ => Node.inStep_renderAll hI t.body

/-! ### Two runs at one level -/

/-- The canvases have the same output and the same trace, over environments that are related. -/
structure Canvas.Alike (E : Environment → Environment → Prop) (s t : Canvas) : Prop where
  output : s.output = t.output
  trace : s.trace = t.trace
  env : E s.env t.env

namespace Render

variable {E : Environment → Environment → Prop} {level : Nat}

/-- Nothing halts the second run alone. -/
def Never (_ _ : Canvas) : Prop := False

theorem inStep_leave (line : Line) :
    InStep (Canvas.Alike E) Never (leave line) (leave line) where
  ends {s t} h := by
    unfold leave
    split
    · exact .error h
    · exact .ok ⟨h.output, congrArg (line.text :: ·) h.trace, h.env⟩
  goesOn h := h

theorem inStep_note (least : Nat) (line : Unit → Line) :
    InStep (Canvas.Alike E) Never (note level least line) (note level least line) := by
  unfold note
  split
  · exact inStep_leave _
  · exact inStep_pure ()

theorem inStep_write (text : String) :
    InStep (Canvas.Alike E) Never (write text) (write text) where
  ends {s t} h := by
    unfold write
    rw [h.output]
    split
    · exact .ok ⟨rfl, h.trace, h.env⟩
    · exact .error ⟨rfl, h.trace, h.env⟩
  goesOn h := h

/-- The same lines are left alike on both sides. -/
theorem inStep_leaveAll (lines : List Line) :
    InStep (Canvas.Alike E) Never (leaveAll lines) (leaveAll lines) := by
  induction lines with
  | nil => exact inStep_pure ()
  | cons line lines ih => exact (inStep_leave line).bind fun _ => ih

theorem inStep_perform (traced : Traced α) :
    InStep (Canvas.Alike E) Never (perform traced) (perform traced) := by
  refine (inStep_leaveAll _).bind fun _ => ?_
  cases traced.result with
  | ok a => exact inStep_pure a
  | error f => exact inStep_throw f

/-- An expression is evaluated alike where it comes to the same in environments that are related. -/
theorem inStep_evaluate {e : Expr}
    (he : ∀ {env env'}, E env env' → e.evaluate level env.lookup = e.evaluate level env'.lookup) :
    InStep (Canvas.Alike E) Never (evaluate level e) (evaluate level e) where
  ends {s t} h := by
    rw [evaluate_apply, evaluate_apply, he h.env]
    exact (inStep_perform _).ends h
  goesOn h := h

/-- What is related after two runs that end alike: the canvases, and the runs end the same way. -/
theorem EndAlike.of_never {I : Canvas → Canvas → Prop}
    {r r' : EStateM.Result Failure Canvas α} (h : EndAlike I Never r r') :
    (∃ a s t, r = .ok a s ∧ r' = .ok a t ∧ I s t) ∨
      ∃ f s t, r = .error f s ∧ r' = .error f t ∧ I s t := by
  cases h with
  | ok h => exact .inl ⟨_, _, _, rfl, rfl, h⟩
  | error h => exact .inr ⟨_, _, _, rfl, rfl, h⟩
  | halted h => exact h.elim

end Render

/-- Two renderings that end alike leave related canvases and the same failure. -/
theorem Template.renderTo_alike {E : Environment → Environment → Prop} {t : Template} {level : Nat}
    (h : InStep (Canvas.Alike E) Never (t.render level) (t.render level)) {env env' : Environment}
    (henv : E env env') (output : Output) :
    Canvas.Alike E (t.renderTo level env output).canvas (t.renderTo level env' output).canvas ∧
      (t.renderTo level env output).failure = (t.renderTo level env' output).failure := by
  have hends := h.ends (s := ⟨env, output, []⟩) (t := ⟨env', output, []⟩) ⟨rfl, rfl, henv⟩
  unfold Template.renderTo
  rcases hends.of_never with ⟨u, s, s', hs, hs', hcanvas⟩ | ⟨f, s, s', hs, hs', hcanvas⟩
  · rw [hs, hs']
    exact ⟨hcanvas, rfl⟩
  · rw [hs, hs']
    exact ⟨hcanvas, rfl⟩

end Stencil
