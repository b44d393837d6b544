import Mathlib.Data.Set.Insert
import Stencil.Proofs.Expr.Names
import Stencil.Proofs.Template.Lockstep
import Stencil.Proofs.Template.Restoration

/-!
# Template — Free names

A name is free in a template if it occurs in some expression that no `for` of that name has in its
body.  Rendering sees of an environment only the visible values of the free names: in two
environments that agree on these, a template writes the same output, leaves the same trace, and ends
in the same way (`renderTo_congr`).

The two runs are kept in step from sibling to sibling (`Sees`).  A body of a loop is rendered where
the loop's variable is visible with the same value in both runs, so it may see that name too; when
the loop takes its variable back, both environments show again what they showed before, as rendering
leaves every stack as it was.
-/

namespace Stencil

namespace Node

/-- The free names of a sibling. -/
def freeNames : Node → List String
  | .data _ => []
  | .insert e => e.names
  | .choose condition holds fails => condition.names ++ freeOfAll holds ++ freeOfAll fails
  | .loop name items body => items.names ++ (freeOfAll body).filter (· != name)
where
  /-- The free names of some siblings. -/
  freeOfAll : List Node → List String
    | [] => []
    | n :: ns => n.freeNames ++ freeOfAll ns

end Node

/-- The free names of a template. -/
def Template.freeNames (t : Template) : List String :=
  Node.freeNames.freeOfAll t.body

/-- The environments show the same values of the names in a set. -/
def Environment.AgreeOn (S : Set String) (env env' : Environment) : Prop :=
  ∀ n ∈ S, env.lookup n = env'.lookup n

namespace Render

variable {α : Type} {level : Nat} {S : Set String}

/-- A step sees of the environment only the visible values of the names in a set. -/
def Sees (S : Set String) (x : Render α) : Prop :=
  InStep (Canvas.Alike (Environment.AgreeOn S)) Never x x

/-- Evaluation sees the names of the expression. -/
theorem sees_evaluate {e : Expr} (he : ∀ n ∈ e.names, n ∈ S) : Sees S (evaluate level e) :=
  inStep_evaluate fun h => Expr.evaluate_congr fun n hn => h n (he n hn)

theorem sees_writeValue (v : Value) : Sees S (writeValue v) := by
  unfold writeValue
  split
  · exact inStep_throw _
  · exact inStep_write _

/-- A turn of a loop, of which the body sees the variable besides. -/
theorem sees_turn {name : String} {body : Render Unit} (hbody : Sees (insert name S) body)
    (hleaves : Leaves (fun env env' => ∀ n, env'.stack n = env.stack n) body) (v : Value) :
    Sees S (do
      modifyEnv fun env => env.push name v
      always body fun s => { s with env := s.env.pop name }) where
  goesOn h := h
  ends {s t} hst := by
    have hpushed : Canvas.Alike (Environment.AgreeOn (insert name S))
        { s with env := s.env.push name v } { t with env := t.env.push name v } := by
      refine ⟨hst.output, hst.trace, fun n hn => ?_⟩
      rw [Environment.lookup_push, Environment.lookup_push]
      split
      · rfl
      · next hne => exact hst.env n (Set.mem_of_mem_insert_of_ne hn fun h => hne h.symm)
    -- Popping the variable shows again what was visible before the turn, in both runs.
    have hpopped : ∀ (u : Canvas) n,
        ((body.after { u with env := u.env.push name v }).env.pop name).lookup n =
          u.env.lookup n := fun u n =>
      congrArg List.head? (Node.bracketed_stack.pop name v (hleaves { u with env := _ }) n)
    have halike : ∀ {s' t'}, body.after { s with env := s.env.push name v } = s' →
        body.after { t with env := t.env.push name v } = t' →
        s'.Alike (Environment.AgreeOn (insert name S)) t' →
        Canvas.Alike (Environment.AgreeOn S) { s' with env := s'.env.pop name }
          { t' with env := t'.env.pop name } := by
      rintro s' t' rfl rfl h
      refine ⟨h.output, h.trace, fun n hn => ?_⟩
      rw [hpopped s n, hpopped t n, hst.env n hn]
    have hends := (hbody.ends hpushed).of_never
    change EndAlike _ _ (always body _ { s with env := s.env.push name v })
      (always body _ { t with env := t.env.push name v })
    unfold always
    rcases hends with ⟨u, s', t', hs, ht, h⟩ | ⟨f, s', t', hs, ht, h⟩
    · rw [hs, ht]
      exact .ok (halike (after_of_ok hs) (after_of_ok ht) h)
    · rw [hs, ht]
      exact .error (halike (after_of_error hs) (after_of_error ht) h)

theorem sees_forEach {name : String} {body : Render Unit} (hbody : Sees (insert name S) body)
    (hleaves : Leaves (fun env env' => ∀ n, env'.stack n = env.stack n) body) (vs : List Value) :
    Sees S (forEach level name body vs) := by
  induction vs with
  | nil => exact inStep_pure ()
  | cons v vs ih =>
      have hturn := (sees_turn hbody hleaves v).bind fun _ => ih
      rw [bind_assoc] at hturn
      exact (inStep_note _ _).bind fun _ => hturn

end Render

open Render

namespace Node

variable {level : Nat}

mutual

theorem sees_render : ∀ (n : Node) {S : Set String}, (∀ m ∈ n.freeNames, m ∈ S) →
    Sees S (n.render level)
  | .data text, S, _ => by
      rw [render]
      exact inStep_write text
  | .insert e, S, h => by
      rw [render]
      exact (sees_evaluate h).bind fun v => sees_writeValue v
  | .choose e holds fails, S, h => by
      simp only [freeNames, List.mem_append] at h
      rw [render_choose]
      refine InStep.bind ?_ fun v => ?_
      · exact (sees_evaluate fun m hm => h m (.inl (.inl hm))).bind fun v =>
          (inStep_note _ _).bind fun _ => inStep_pure v
      · split
        · exact sees_renderAll holds fun m hm => h m (.inl (.inr hm))
        · exact sees_renderAll fails fun m hm => h m (.inr hm)
  | .loop name e body, S, h => by
      simp only [freeNames, List.mem_append, List.mem_filter] at h
      rw [render]
      refine (sees_evaluate fun m hm => h m (.inl hm)).bind fun v => ?_
      cases v with
      | array vs =>
          refine sees_forEach (sees_renderAll body fun m hm => ?_)
            ((leaves_contract bracketed_stack).renderAll body) vs
          -- The variable of a loop is bound in its body, so it need not be seen outside.
          by_cases hname : m = name
          · exact hname ▸ Set.mem_insert m S
          · exact Set.mem_insert_of_mem name (h m (.inr ⟨hm, by simpa using hname⟩))
      | integer | float | string | filter => exact inStep_throw _

/-- Rendering some siblings sees their free names only. -/
theorem sees_renderAll : ∀ (ns : List Node) {S : Set String},
    (∀ m ∈ freeNames.freeOfAll ns, m ∈ S) → Sees S (render.renderAll level ns)
  | [], _, _ => inStep_pure ()
  | n :: ns, S, h => by
      simp only [freeNames.freeOfAll, List.mem_append] at h
      rw [renderAll_cons]
      exact (sees_render n fun m hm => h m (.inl hm)).bind fun _ =>
        sees_renderAll ns fun m hm => h m (.inr hm)

end

end Node

namespace Template

theorem sees_render (t : Template) (level : Nat) : Sees {n | n ∈ t.freeNames} (t.render level) :=
  (inStep_note _ _).bind fun _ => Node.sees_renderAll t.body fun _ hm => hm

/-- **A template sees only the visible values of its free names**: in two environments that show the
same values of them, it writes the same output, leaves the same trace, and ends with the same
success or the same failure. -/
theorem renderTo_congr (t : Template) (level : Nat) {env env' : Environment}
    (h : ∀ n ∈ t.freeNames, env.lookup n = env'.lookup n) (output : Output) :
    (t.renderTo level env output).canvas.output = (t.renderTo level env' output).canvas.output ∧
      (t.renderTo level env output).lines = (t.renderTo level env' output).lines ∧
      (t.renderTo level env output).failure = (t.renderTo level env' output).failure := by
  obtain ⟨hcanvas, hfailure⟩ := renderTo_alike (sees_render t level) h output
  exact ⟨hcanvas.output, congrArg List.reverse hcanvas.trace, hfailure⟩

/-- Two environments that show the same values of the free names: only in one of them does the
variable of the loop have a value, there another value lies below that of a free name, and the
symbols come in another order. -/
theorem renderTo_congr_of_shadowing :
    let t : Template :=
      ⟨[.loop "x" (.ident "xs" []) [.insert (.ident "x" []), .insert (.ident "y" [])]]⟩
    let items : Value := .array [.integer 3, .integer 4]
    let env := (Environment.empty.push "xs" items).push "y" (.integer 5)
    let env' := (((Environment.empty.push "x" (.integer 1)).push "y" (.integer 2)).push "y"
      (.integer 5)).push "xs" items
    t.freeNames = ["xs", "y"] ∧ env.names = ["xs", "y"] ∧ env'.names = ["x", "y", "xs"] ∧
      (∀ n ∈ t.freeNames, env.lookup n = env'.lookup n) ∧
      (t.renderTo 3 env .unlimited).canvas.output = (t.renderTo 3 env' .unlimited).canvas.output ∧
      (t.renderTo 3 env .unlimited).lines = (t.renderTo 3 env' .unlimited).lines ∧
      (t.renderTo 3 env .unlimited).failure = (t.renderTo 3 env' .unlimited).failure := by
  intro t items env env'
  have hagree : ∀ n ∈ t.freeNames, env.lookup n = env'.lookup n := by
    intro n hn
    have hn : n = "xs" ∨ n = "y" := by simpa using (show n ∈ ["xs", "y"] from hn)
    rcases hn with rfl | rfl <;> rfl
  exact ⟨rfl, rfl, rfl, hagree, renderTo_congr t 3 hagree .unlimited⟩

end Template

end Stencil
