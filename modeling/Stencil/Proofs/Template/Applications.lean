import Stencil.Proofs.Expr.Applications
import Stencil.Proofs.Template.Steps

/-!
# Template — Applications

Which operators rendering comes to apply, and to which values, and by which indices it comes to
select.  Rendering goes from sibling to sibling, evaluates the expression of each first, and enters
the branch that the value of a condition chooses, or the body of a loop once for each item
(`Node.Reaches`).

Rendering ends by a fault just when it comes to a step that does (`renderAll_fault_iff`): all else
that rendering does fails by errors only.  Since the lines of an evaluation are left before its
failure goes on, a line that is too deep keeps rendering from the steps of that evaluation.
-/

namespace Stencil

variable {α β : Type} {level : Nat}

namespace Render

variable {x : Render α} {g : α → Render β} {s t : Canvas} {e : Failure}

/-- The step from a canvas is a fault. -/
def Faults (x : Render α) (s : Canvas) (f : Fault) : Prop :=
  ∃ t, x s = .error (.fault f) t

/-- Two steps in a row are a fault where the first is, or the second behind it. -/
theorem faults_bind {f : Fault} :
    Faults (x >>= g) s f ↔ Faults x s f ∨ ∃ a u, x s = .ok a u ∧ Faults (g a) u f := by
  constructor
  · rintro ⟨t, h⟩
    rcases bind_error h with h | ⟨a, u, hx, hg⟩
    · exact .inl ⟨t, h⟩
    · exact .inr ⟨a, u, hx, t, hg⟩
  · rintro (⟨t, h⟩ | ⟨a, u, hx, t, hg⟩)
    · exact ⟨t, bind_of_error h⟩
    · exact ⟨t, (bind_of_ok hx).trans hg⟩

theorem not_faults_throw (cause : Cause) (s : Canvas) (f : Fault) :
    ¬Faults (throw (.of cause) : Render α) s f := by
  rintro ⟨t, ⟨⟩⟩

theorem not_faults_write (text : String) (s : Canvas) (f : Fault) : ¬Faults (write text) s f := by
  rintro ⟨t, h⟩
  unfold write at h
  split at h <;> cases h

theorem not_faults_writeValue (v : Value) (s : Canvas) (f : Fault) :
    ¬Faults (writeValue v) s f := by
  unfold writeValue
  split
  · exact not_faults_throw _ s f
  · exact not_faults_write _ s f

theorem not_faults_leave (line : Line) (s : Canvas) (f : Fault) : ¬Faults (leave line) s f := by
  rintro ⟨t, h⟩
  unfold leave at h
  split at h <;> cases h

theorem not_faults_note (level least : Nat) (line : Unit → Line) (s : Canvas) (f : Fault) :
    ¬Faults (note level least line) s f := by
  unfold note
  split
  · exact not_faults_leave _ s f
  · rintro ⟨t, ⟨⟩⟩

/-- A computation is a fault where all of its lines are left and its result is one. -/
theorem faults_perform {x : Traced α} {f : Fault} :
    Faults (perform x) s f ↔ Short x.lines ∧ x.result = .error (.fault f) := by
  by_cases h : Short x.lines
  · rw [Faults, perform_of_short h, and_iff_right h]
    cases x.result with
    | ok a => exact iff_of_false (by rintro ⟨t, ⟨⟩⟩) nofun
    | error e =>
        constructor
        · rintro ⟨t, ⟨⟩⟩
          rfl
        · rintro ⟨⟩
          exact ⟨_, rfl⟩
  · obtain ⟨trace, htrace⟩ := perform_of_not_short h s
    rw [Faults, htrace]
    exact iff_of_false (by rintro ⟨t, ⟨⟩⟩) fun hx => h hx.1

/-- To evaluate is a fault if no line is too deep and a step that is reached is one. -/
theorem faults_evaluate {expr : Expr} {f : Fault} : Faults (evaluate level expr) s f ↔
    Short (expr.evaluate level s.env.lookup).lines ∧
      ∃ step, expr.Reaches level s.env.lookup Expr.evaluationLimit step ∧
        step.result = .error (.fault f) := by
  have hresult : (expr.evaluate level s.env.lookup).result = .error (.fault f) ↔
      ∃ step, expr.Reaches level s.env.lookup Expr.evaluationLimit step ∧
        step.result = .error (.fault f) := by
    rw [Expr.evaluate]
    exact Expr.evaluateTo_fault_iff
  rw [← hresult, ← faults_perform (s := s), Faults, evaluate_apply, Faults]

theorem not_faults_enter (level : Nat) (name : String) (v : Value) (s : Canvas) (f : Fault) :
    ¬Faults (enter level name v) s f := by
  rw [enter, faults_bind]
  rintro (h | ⟨⟨⟩, u, -, t, ⟨⟩⟩)
  exact not_faults_note _ _ _ s f h

/-- What is done behind a body does not change its faults. -/
theorem faults_always {body : Render Unit} {last : Canvas → Canvas} {f : Fault} :
    Faults (always body last) s f ↔ Faults body s f := by
  unfold Faults always
  cases body s <;> simp

/-- A loop is a fault where its body is in some turn, which comes after all turns before it. -/
theorem faults_forEach {name : String} {body : Render Unit} {vs : List Value} {f : Fault} :
    Faults (forEach level name body vs) s f ↔
      ∃ before v after s₁ s₂, vs = before ++ v :: after ∧
        forEach level name body before s = .ok () s₁ ∧ enter level name v s₁ = .ok () s₂ ∧
        Faults body s₂ f := by
  constructor
  · intro h
    induction vs generalizing s with
    | nil => obtain ⟨t, ⟨⟩⟩ := h
    | cons v vs ih =>
        rw [forEach_cons, faults_bind] at h
        obtain ⟨⟨⟩, u, hu, h⟩ := h.resolve_left (not_faults_enter level name v s f)
        rcases faults_bind.mp h with h | ⟨⟨⟩, t, ht, h⟩
        · exact ⟨[], v, vs, s, u, rfl, rfl, hu, faults_always.mp h⟩
        · obtain ⟨before, w, after, s₁, s₂, rfl, h₁, h₂, h⟩ := ih h
          refine ⟨v :: before, w, after, s₁, s₂, rfl, ?_, h₂, h⟩
          rw [forEach_cons, bind_of_ok hu, bind_of_ok ht]
          exact h₁
  · rintro ⟨before, v, after, s₁, s₂, rfl, h₁, h₂, h⟩
    rw [forEach_append, faults_bind]
    refine .inr ⟨(), s₁, h₁, ?_⟩
    rw [forEach_cons, faults_bind]
    refine .inr ⟨(), s₂, h₂, ?_⟩
    rw [faults_bind]
    exact .inl (faults_always.mpr h)

end Render

open Render

namespace Node

/-- The expression that is evaluated first to render a sibling. -/
def expr? : Node → Option Expr
  | .data _ => none
  | .insert e => some e
  | .choose condition _ _ => some condition
  | .loop _ items _ => some items

/-- Rendering some siblings from a canvas comes to a step. -/
inductive Reaches (level : Nat) : List Node → Canvas → Expr.Step → Prop where
  | here {n : Node} {ns : List Node} {s : Canvas} {e : Expr} {step : Expr.Step}
      (he : n.expr? = some e) (hlines : Short (e.evaluate level s.env.lookup).lines)
      (h : e.Reaches level s.env.lookup Expr.evaluationLimit step) :
      Reaches level (n :: ns) s step
  | branch {e : Expr} {holds fails ns : List Node} {s t : Canvas} {v : Value} {step : Expr.Step}
      (hv : condition level e s = .ok v t)
      (h : Reaches level (if v.isTruthy then holds else fails) t step) :
      Reaches level (.choose e holds fails :: ns) s step
  | turn {name : String} {e : Expr} {body ns : List Node} {s t s₁ s₂ : Canvas}
      {before after : List Value} {v : Value} {step : Expr.Step}
      (hv : evaluate level e s = .ok (.array (before ++ v :: after)) t)
      (h₁ : forEach level name (render.renderAll level body) before t = .ok () s₁)
      (h₂ : enter level name v s₁ = .ok () s₂) (h : Reaches level body s₂ step) :
      Reaches level (.loop name e body :: ns) s step
  | next {n : Node} {ns : List Node} {s t : Canvas} {step : Expr.Step}
      (hn : n.render level s = .ok () t) (h : Reaches level ns t step) :
      Reaches level (n :: ns) s step

variable {s : Canvas} {f : Fault}

/-- The faults of a condition are those of its expression. -/
theorem faults_condition {e : Expr} :
    Faults (condition level e) s f ↔ Faults (evaluate level e) s f := by
  rw [condition, faults_bind]
  refine or_iff_left ?_
  rintro ⟨v, u, -, h⟩
  rcases faults_bind.mp h with h | ⟨⟨⟩, w, -, t, ⟨⟩⟩
  exact not_faults_note _ _ _ u f h

/-- The faults of an insertion are those of its expression. -/
theorem faults_insert {e : Expr} :
    Faults ((Node.insert e).render level) s f ↔ Faults (evaluate level e) s f := by
  rw [render, faults_bind]
  refine or_iff_left ?_
  rintro ⟨v, u, -, h⟩
  exact not_faults_writeValue _ _ _ h

/-- The faults of a loop are those of its items, or of a turn. -/
theorem faults_loop {name : String} {e : Expr} {body : List Node} :
    Faults ((Node.loop name e body).render level) s f ↔ Faults (evaluate level e) s f ∨
      ∃ vs t, evaluate level e s = .ok (.array vs) t ∧
        Faults (forEach level name (render.renderAll level body) vs) t f := by
  rw [render, faults_bind]
  refine or_congr_right ⟨?_, ?_⟩
  · rintro ⟨v, t, hv, h⟩
    cases v with
    | array vs => exact ⟨vs, t, hv, h⟩
    | _ => obtain ⟨t, ⟨⟩⟩ := h
  · rintro ⟨vs, t, hv, h⟩
    exact ⟨_, t, hv, h⟩

/-- Rendering that ends by a fault has come to a step which is one. -/
theorem exists_reaches {ns : List Node} (h : Faults (render.renderAll level ns) s f) :
    ∃ step, Reaches level ns s step ∧ step.result = .error (.fault f) := by
  -- The induction is on the size of the siblings: a block holds smaller ones.
  induction hn : sizeOf ns using Nat.strongRecOn generalizing ns s with
  | ind size ih =>
    subst hn
    cases ns with
    | nil => obtain ⟨t, ⟨⟩⟩ := h
    | cons n ns =>
        have here : ∀ e, n.expr? = some e → Faults (evaluate level e) s f →
            ∃ step, Reaches level (n :: ns) s step ∧ step.result = .error (.fault f) := by
          intro e he h
          obtain ⟨hlines, step, hstep, hf⟩ := faults_evaluate.mp h
          exact ⟨step, .here he hlines hstep, hf⟩
        rw [renderAll_cons, faults_bind] at h
        rcases h with h | ⟨⟨⟩, t, hn, h⟩
        · cases n with
          | data text => rw [render] at h; exact absurd h (not_faults_write _ _ _)
          | insert e => exact here e rfl (faults_insert.mp h)
          | choose e holds fails =>
              rw [render_choose, faults_bind] at h
              rcases h with h | ⟨v, t, hv, h⟩
              · exact here e rfl (faults_condition.mp h)
              · have hlt : sizeOf (if v.isTruthy then holds else fails) <
                    sizeOf (choose e holds fails :: ns) := by
                  split <;> simp only [List.cons.sizeOf_spec, choose.sizeOf_spec] <;> omega
                obtain ⟨step, hstep, hf⟩ := ih _ hlt h rfl
                exact ⟨step, .branch hv hstep, hf⟩
          | loop name e body =>
              rcases faults_loop.mp h with h | ⟨vs, t, hv, h⟩
              · exact here e rfl h
              · obtain ⟨before, v, after, s₁, s₂, rfl, h₁, h₂, h⟩ := faults_forEach.mp h
                have hlt : sizeOf body < sizeOf (loop name e body :: ns) := by
                  simp only [List.cons.sizeOf_spec, loop.sizeOf_spec]
                  omega
                obtain ⟨step, hstep, hf⟩ := ih _ hlt h rfl
                exact ⟨step, .turn hv h₁ h₂ hstep, hf⟩
        · have hlt : sizeOf ns < sizeOf (n :: ns) := by
            simp only [List.cons.sizeOf_spec]
            omega
          obtain ⟨step, hstep, hf⟩ := ih _ hlt h rfl
          exact ⟨step, .next hn hstep, hf⟩

/-- A sibling whose expression is a fault is one itself. -/
theorem faults_of_expr? {n : Node} {e : Expr} (he : n.expr? = some e)
    (h : Faults (evaluate level e) s f) : Faults (n.render level) s f := by
  cases n with
  | data text => cases he
  | insert e => cases he; exact faults_insert.mpr h
  | choose e holds fails =>
      cases he
      rw [render_choose, faults_bind]
      exact .inl (faults_condition.mpr h)
  | loop name e body => cases he; exact faults_loop.mpr (.inl h)

/-- Rendering that comes to a step which is a fault ends by it. -/
theorem Reaches.faults {ns : List Node} {step : Expr.Step} (h : Reaches level ns s step)
    (hf : step.result = .error (.fault f)) :
    Faults (render.renderAll level ns) s f := by
  induction h with
  | here he hlines h =>
      rw [renderAll_cons, faults_bind]
      exact .inl (faults_of_expr? he (faults_evaluate.mpr ⟨hlines, _, h, hf⟩))
  | branch hv _ ih =>
      rw [renderAll_cons, faults_bind, render_choose, faults_bind]
      exact .inl (.inr ⟨_, _, hv, ih hf⟩)
  | turn hv h₁ h₂ _ ih =>
      rw [renderAll_cons, faults_bind, faults_loop]
      exact .inl (.inr ⟨_, _, hv, faults_forEach.mpr ⟨_, _, _, _, _, rfl, h₁, h₂, ih hf⟩⟩)
  | next hn _ ih =>
      rw [renderAll_cons, faults_bind]
      exact .inr ⟨(), _, hn, ih hf⟩

/-- **Rendering ends by a fault** just when it comes to a step that does. -/
theorem renderAll_fault_iff {ns : List Node} : Faults (render.renderAll level ns) s f ↔
    ∃ step, Reaches level ns s step ∧ step.result = .error (.fault f) :=
  ⟨exists_reaches, fun ⟨_, h, hf⟩ => h.faults hf⟩

end Node

end Stencil
