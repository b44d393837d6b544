import Stencil.Proofs.Environment.Stacks
import Stencil.Proofs.Template.Steps

/-!
# Template — Restoration

Rendering changes the environment for the bodies of loops only, and every loop takes its variable
back, also when its body fails.  So whatever is true of environments before and after an equal
number of pushes and pops is true before and after rendering: a relation that is reflexive,
transitive, and kept when a pushed value is popped (`Bracketed`) holds between the environment
before rendering and the one after it, however rendering ends (`leaves_contract`).

Two such relations matter.  Every stack is as before (`stack_renderAll`).  If every stack holds a
value to begin with, the environment itself is as before, the order of its symbols included
(`renderTo_env`).
-/

namespace Stencil

variable {α β : Type} {level : Nat}

/-- The relation holds between environments where nothing happens in between, where it holds in
steps, and where a value is pushed before and the symbol popped after. -/
structure Bracketed (R : Environment → Environment → Prop) : Prop where
  refl : ∀ env, R env env
  trans : ∀ {env₁ env₂ env₃}, R env₁ env₂ → R env₂ env₃ → R env₁ env₃
  pop : ∀ {env env'} name v, R (env.push name v) env' → R env (env'.pop name)

namespace Render

/-- The relation holds between the environments before and after a step. -/
def Leaves (R : Environment → Environment → Prop) (x : Render α) : Prop :=
  ∀ s, R s.env (x.after s).env

variable {R : Environment → Environment → Prop} {x : Render α} {g : α → Render β}

theorem Leaves.bind (hR : Bracketed R) (hx : Leaves R x) (hg : ∀ a, Leaves R (g a)) :
    Leaves R (x >>= g) := by
  intro s
  have hs := hx s
  cases h : x s with
  | ok a t =>
      rw [after_of_ok h] at hs
      have ht := hg a t
      rw [after, bind_of_ok h]
      exact hR.trans hs ht
  | error e t =>
      rw [after_of_error h] at hs
      rw [after, bind_of_error h]
      exact hs

/-- A turn of a loop: the variable is pushed before the body and popped after it, whether or not
the body fails. -/
theorem leaves_turn (hR : Bracketed R) {body : Render Unit} (hbody : Leaves R body) (name : String)
    (v : Value) :
    Leaves R (do
      modifyEnv fun env => env.push name v
      always body fun s => { s with env := s.env.pop name }) := by
  intro s
  have h := hbody { s with env := s.env.push name v }
  have hrun : (modifyEnv fun env => env.push name v) s =
      .ok () { s with env := s.env.push name v } := rfl
  rw [after, bind_of_ok hrun, always]
  unfold after at h
  cases hb : body { s with env := s.env.push name v } with
  | ok u t => rw [hb] at h; exact hR.pop name v h
  | error e t => rw [hb] at h; exact hR.pop name v h

/-- Only turns of loops touch the environment, and they keep the relation. -/
theorem leaves_contract (hR : Bracketed R) : Contract (Leaves R) where
  pure _ s := hR.refl s.env
  throw _ s := hR.refl s.env
  bind := Leaves.bind hR
  look h s := h s.env s
  leave line s := by
    unfold after leave
    split <;> exact hR.refl s.env
  write text s := by
    unfold after write
    split <;> exact hR.refl s.env
  turn name v h := leaves_turn hR h name v

end Render

open Render

namespace Node

/-- Every stack is as before. -/
theorem bracketed_stack : Bracketed fun env env' => ∀ n, env'.stack n = env.stack n where
  refl _ _ := rfl
  trans h₁ h₂ n := (h₂ n).trans (h₁ n)
  pop name v h n := by
    rw [Environment.stack_pop, h, Environment.stack_push]
    split <;> rfl

/-- If every stack holds a value, the environment is as before. -/
theorem bracketed_occupied : Bracketed fun env env' => env.Occupied → env' = env where
  refl _ _ := rfl
  trans h₁ h₂ h := by
    obtain rfl := h₁ h
    exact h₂ h
  pop name v h hocc := by
    rw [h (hocc.push name v)]
    exact Environment.pop_push hocc name v

theorem stack_renderAll (ns : List Node) (s : Canvas) (n : String) :
    ((render.renderAll level ns).after s).env.stack n = s.env.stack n :=
  (leaves_contract bracketed_stack).renderAll ns s n

end Node

namespace Template

/-- Rendering a template is a step that leaves what rendering to an output leaves. -/
theorem canvas_renderTo (t : Template) (level : Nat) (env : Environment) (output : Output) :
    (t.renderTo level env output).canvas = (t.render level).after ⟨env, output, []⟩ := by
  unfold renderTo after canvasOf
  cases t.render level ⟨env, output, []⟩ <;> rfl

/-- **Rendering restores the environment**, however it ends and whatever the output refuses: if
every stack holds a value, the environment after rendering is the one before. -/
theorem renderTo_env (t : Template) (level : Nat) {env : Environment} (h : env.Occupied)
    (output : Output) : (t.renderTo level env output).env = env := by
  rw [Rendering.env, canvas_renderTo]
  exact (leaves_contract Node.bracketed_occupied).render t ⟨env, output, []⟩ h

/-- Two loops, of which the outer one shadows a symbol, and the inner one has a body that fails. -/
theorem renderTo_env_of_failing_loops :
    let env := (Environment.empty.push "x" (.integer 1)).push "y" (.integer 2)
    let t : Template :=
      ⟨[.loop "x" (.literal (.array [.array [.integer 3, .integer 4]]) [])
        [.loop "z" (.ident "x" []) [.insert (.ident "z" []), .insert (.ident "w" [])]]]⟩
    env.Occupied ∧
      (t.renderTo 4 env .unlimited).failure = some (.of (.symbolNotFound "w")) ∧
      (t.renderTo 4 env .unlimited).env = env := by
  intro env t
  have hocc : env.Occupied := (Environment.occupied_empty.push _ _).push _ _
  exact ⟨hocc, by with_unfolding_all rfl, renderTo_env t 4 hocc .unlimited⟩

end Template

end Stencil
