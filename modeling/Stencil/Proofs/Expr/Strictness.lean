import Stencil.Proofs.Expr.Applications
import Stencil.Proofs.Expr.Causes
import Stencil.Proofs.Expr.Names
import Stencil.Proofs.Value.Range

/-!
# Expr — Strictness

The expressions that evaluation comes to one after another are the *steps* of an expression: they go
through all of it, from left to right.  Evaluation takes them up to the last one, or until it fails
(`Strict`).  So an expression comes to a value only if all its names have one, those of the operands
of `&&` and `||` and those of indices too; and what fails by a name without a value has come to a
value at every step before that name (`evaluate_strict`).

Steps are taken with differing numbers of levels left; a value that is come to with some is come to
with more as well (`evaluateTo_mono`).
-/

namespace Stencil.Expr

/-- The expression with one index more. -/
def followedBy (e i : Expr) : Expr :=
  e.withIndices (e.indices ++ [i])

theorem ident_ne_followedBy (name : String) (e i : Expr) : .ident name [] ≠ e.followedBy i := by
  cases e <;> simp [followedBy, withIndices, indices]

/-- The expressions that evaluation comes to, one after another: the left operand, the right one and
the application, and then each index and what is selected by the indices up to it. -/
def steps : Expr → List Expr
  | .literal v indices => .literal v [] :: selections (.literal v []) indices
  | .ident name indices => .ident name [] :: selections (.ident name []) indices
  | .binary symbol left right indices =>
    left.steps ++ right.steps ++
      .binary symbol left right [] :: selections (.binary symbol left right []) indices
where
  /-- The steps of selecting from an expression by some indices. -/
  selections (e : Expr) : List Expr → List Expr
    | [] => []
    | i :: is => i.steps ++ e.followedBy i :: selections (e.followedBy i) is

open steps (selections)

/-- The indices come last. -/
theorem steps_eq (e : Expr) :
    e.steps = (e.withIndices []).steps ++ selections (e.withIndices []) e.indices := by
  cases e <;> simp [steps, selections, withIndices, indices]

mutual

/-- The names of an expression are those that its evaluation comes to. -/
theorem ident_mem_steps_iff {n : String} (e : Expr) : .ident n [] ∈ e.steps ↔ n ∈ e.names := by
  cases e with
  | literal v is => simp [steps, names, ident_mem_selections_iff _ is]
  | ident name is => simp [steps, names, ident_mem_selections_iff _ is]
  | binary symbol left right is =>
      simp [steps, names, ident_mem_steps_iff left, ident_mem_steps_iff right,
        ident_mem_selections_iff _ is]

theorem ident_mem_selections_iff {n : String} (e : Expr) (is : List Expr) :
    .ident n [] ∈ selections e is ↔ n ∈ names.namesOfAll is := by
  cases is with
  | nil => simp [selections, names.namesOfAll]
  | cons i is =>
      simp [selections, names.namesOfAll, ident_mem_steps_iff i, ident_mem_selections_iff _ is,
        ident_ne_followedBy]

end

/-! ### More levels -/

section Levels

variable {α β : Type} {level : Nat} {lookup : String → Option Value} {height limit : Nat}

theorem bind_mono {x x' : Except Failure α} {g g' : α → Except Failure β}
    (hx : ∀ a, x = .ok a → x' = .ok a) (hg : ∀ a b, g a = .ok b → g' a = .ok b) (b : β)
    (h : x >>= g = .ok b) : x' >>= g' = .ok b := by
  cases x with
  | error f => cases h
  | ok a =>
      rw [hx a rfl]
      exact hg a b h

theorem select_mono {index index' : Traced Value}
    (h : ∀ i, index.result = .ok i → index'.result = .ok i) (v w : Value)
    (hw : (select v index).result = .ok w) : (select v index').result = .ok w := by
  cases v with
  | array items =>
      rw [select, Traced.result_bind] at hw ⊢
      exact bind_mono h (fun _ _ hi => hi) w hw
  | integer | float | string | filter => cases hw

theorem selectAll_mono {is : List Expr}
    (h : ∀ i ∈ is, ∀ v, (evaluateTo level lookup height i).result = .ok v →
      (evaluateTo level lookup limit i).result = .ok v) (v w : Value)
    (hw : selectAll level lookup height v is = .ok w) :
    selectAll level lookup limit v is = .ok w := by
  induction is generalizing v w with
  | nil => exact hw
  | cons i is ih =>
      rw [selectAll_cons] at hw ⊢
      exact bind_mono (select_mono (h i List.mem_cons_self) v)
        (ih fun j hj => h j (List.mem_cons_of_mem _ hj)) w hw

/-- What comes to a value does so with more levels too. -/
theorem evaluateTo_mono {e : Expr} {v : Value}
    (h : (evaluateTo level lookup height e).result = .ok v) (hle : height ≤ limit) :
    (evaluateTo level lookup limit e).result = .ok v := by
  induction height generalizing limit e v with
  | zero => cases h
  | succ height ih =>
      obtain ⟨limit, rfl⟩ := Nat.exists_eq_add_of_le' (Nat.lt_of_lt_of_le height.succ_pos hle)
      replace hle : height ≤ limit := Nat.le_of_succ_le_succ hle
      rw [result_evaluateTo] at h ⊢
      refine bind_mono (fun u hu => ?_) (selectAll_mono fun i _ w hw => ih hw hle) v h
      cases e with
      | literal _ is => exact hu
      | ident name is => exact hu
      | binary symbol left right is =>
          rw [result_bare_binary] at hu ⊢
          exact bind_mono (fun a ha => ih ha hle)
            (fun a => bind_mono (fun b hb => ih hb hle) fun _ _ happ => happ) u hu

end Levels

/-! ### Going through the steps -/

section Strict

variable {α β : Type} {lookup : String → Option Value} {Done : Expr → Prop}
variable {x : Except Failure α} {es fs : List Expr}

/-- A result for which expressions are done one after another: all of them if it is a value, and
those before a name without a value if it fails by that name. -/
structure Strict (lookup : String → Option Value) (Done : Expr → Prop) (x : Except Failure α)
    (es : List Expr) : Prop where
  all : ∀ a, x = .ok a → ∀ e ∈ es, Done e
  upTo : ∀ s p, x = .error (.error ⟨.symbolNotFound s, p⟩) →
    lookup s = none ∧
      ∃ before after, es = before ++ .ident s [] :: after ∧ ∀ e ∈ before, Done e

theorem Strict.bind {g : α → Except Failure β} (hx : Strict lookup Done x es)
    (hg : ∀ a, x = .ok a → Strict lookup Done (g a) fs) :
    Strict lookup Done (x >>= g) (es ++ fs) := by
  cases x with
  | error f =>
      refine ⟨fun b h => (by cases h), fun s p h => ?_⟩
      cases h
      obtain ⟨hs, before, after, rfl, hbefore⟩ := hx.upTo s p rfl
      exact ⟨hs, before, after ++ fs, List.append_assoc _ _ _, hbefore⟩
  | ok a =>
      refine ⟨fun b h => List.forall_mem_append.mpr ⟨hx.all a rfl, (hg a rfl).all b h⟩,
        fun s p h => ?_⟩
      obtain ⟨hs, before, after, rfl, hbefore⟩ := (hg a rfl).upTo s p h
      exact ⟨hs, es ++ before, after, (List.append_assoc _ _ _).symm,
        List.forall_mem_append.mpr ⟨hx.all a rfl, hbefore⟩⟩

/-- A failure by the values at hand is not one by a name. -/
theorem strict_of_byValues (hx : ByValues x) (h : ∀ a, x = .ok a → ∀ e ∈ es, Done e) :
    Strict lookup Done x es :=
  ⟨h, fun _ _ hs => absurd (hx _ hs) Bool.false_ne_true⟩

theorem strict_valueOf {name : String} (h : ∀ v, lookup name = some v → Done (.ident name [])) :
    Strict lookup Done (valueOf lookup name).result [.ident name []] := by
  unfold valueOf
  cases hv : lookup name with
  | some v => exact strict_of_byValues (byValues_ok v) fun _ _ =>
      List.forall_mem_singleton.mpr (h v hv)
  | none =>
      refine ⟨fun _ h => (by cases h), fun s p h => ?_⟩
      cases h
      exact ⟨hv, [], [], rfl, by simp⟩

theorem strict_applySymbol {symbol : String} {a b : Value} {e : Expr}
    (h : ∀ v, applySymbol symbol a b = .ok v → Done e) :
    Strict lookup Done (applySymbol symbol a b) [e] := by
  refine ⟨fun v hv => List.forall_mem_singleton.mpr (h v hv), fun s p hs => ?_⟩
  unfold applySymbol at hs
  split at hs
  · next op _ => exact absurd (op.byValues_apply a b _ hs) Bool.false_ne_true
  · cases hs

theorem strict_select {v : Value} {index : Traced Value} {e : Expr}
    (hindex : Strict lookup Done index.result es)
    (h : ∀ w, (select v index).result = .ok w → Done e) :
    Strict lookup Done (select v index).result (es ++ [e]) := by
  cases v with
  | array items =>
      rw [select, Traced.result_bind] at h ⊢
      refine hindex.bind fun i hi =>
        strict_of_byValues (byValues_selectItem _ items i) fun w hw => ?_
      rw [hi] at h
      exact List.forall_mem_singleton.mpr (h w hw)
  | integer | float | string | filter =>
      exact strict_of_byValues (byValues_of.mpr rfl) fun w hw => (by cases hw)

end Strict

section Evaluation

variable {level : Nat} {lookup : String → Option Value} {height limit : Nat}

/-- An expression comes to a value. -/
def Evaluates (level : Nat) (lookup : String → Option Value) (limit : Nat) (e : Expr) : Prop :=
  ∃ v, (evaluateTo level lookup limit e).result = .ok v

/-- A name comes to the value it has. -/
theorem exists_of_evaluates_ident {name : String}
    (h : Evaluates level lookup limit (.ident name [])) : ∃ v, lookup name = some v := by
  obtain ⟨v, hv⟩ := h
  cases limit with
  | zero => cases hv
  | succ limit =>
      have hbare := (result_evaluateTo_bare limit (.ident name [])).symm.trans hv
      rw [bare, valueOf] at hbare
      split at hbare
      · next w hw => exact ⟨w, hw⟩
      · cases hbare

/-- What an expression with one index more comes to. -/
theorem result_followedBy {e : Expr} {v : Value}
    (he : (evaluateTo level lookup (height + 1) e).result = .ok v) (i : Expr) :
    (evaluateTo level lookup (height + 1) (e.followedBy i)).result =
      (select v (evaluateTo level lookup height i)).result := by
  rw [result_evaluateTo] at he
  rw [followedBy, result_evaluateTo, bare_withIndices, indices_withIndices]
  obtain ⟨b, hb, hv⟩ := exists_of_bind_ok he
  rw [hb]
  change selectAll level lookup height b (e.indices ++ [i]) = _
  rw [selectAll_append, hv]
  change selectAll level lookup height v [i] = _
  rw [selectAll_cons]
  exact bind_pure _

theorem strict_selectAll {is : List Expr} (hle : height + 1 ≤ limit)
    (his : ∀ i ∈ is, Strict lookup (Evaluates level lookup limit)
      (evaluateTo level lookup height i).result i.steps)
    {e : Expr} {v : Value} (he : (evaluateTo level lookup (height + 1) e).result = .ok v) :
    Strict lookup (Evaluates level lookup limit) (selectAll level lookup height v is)
      (selections e is) := by
  induction is generalizing e v with
  | nil => exact strict_of_byValues (byValues_ok v) (by simp [selections])
  | cons i is ih =>
      rw [selectAll_cons, selections, List.append_cons]
      have hselect := result_followedBy he i
      refine Strict.bind (strict_select (his i List.mem_cons_self) fun w hw => ?_) fun w hw =>
        ih (fun j hj => his j (List.mem_cons_of_mem _ hj)) (hselect.trans hw)
      exact ⟨w, evaluateTo_mono (hselect.trans hw) hle⟩

/-- The bare value of an expression takes the steps without its indices. -/
theorem strict_bare (hle : height + 1 ≤ limit)
    (ih : ∀ e, Strict lookup (Evaluates level lookup limit)
      (evaluateTo level lookup height e).result e.steps) (e : Expr) :
    Strict lookup (Evaluates level lookup limit) (bare level lookup height e).result
      (e.withIndices []).steps := by
  have done : ∀ v, (bare level lookup height e).result = .ok v →
      Evaluates level lookup limit (e.withIndices []) := fun v hv =>
    ⟨v, evaluateTo_mono ((result_evaluateTo_bare height e).trans hv) hle⟩
  cases e with
  | literal v is =>
      exact strict_of_byValues (byValues_ok v) fun w hw =>
        List.forall_mem_singleton.mpr (done w hw)
  | ident name is =>
      refine strict_valueOf fun v hv => done v ?_
      rw [bare, valueOf, hv]
      rfl
  | binary symbol left right is =>
      rw [result_bare_binary] at done ⊢
      simp only [withIndices, steps, selections, List.append_assoc]
      refine (ih left).bind fun a ha => (ih right).bind fun b hb =>
        strict_applySymbol fun v hv => ?_
      rw [ha, hb] at done
      exact done v hv

theorem strict_evaluateTo (hle : height ≤ limit) (e : Expr) :
    Strict lookup (Evaluates level lookup limit) (evaluateTo level lookup height e).result
      e.steps := by
  induction height generalizing e with
  | zero => exact ⟨fun v h => (by cases h), fun s p h => (by cases h)⟩
  | succ height ih =>
      have hparts := ih (Nat.le_of_succ_le hle)
      rw [result_evaluateTo, steps_eq]
      exact (strict_bare hle hparts e).bind fun v hv =>
        strict_selectAll hle (fun i _ => hparts i) ((result_evaluateTo_bare height e).trans hv)

/-- **Evaluation is strict.**  If an expression comes to a value, all names in it have one, and so
have all its steps.  If its evaluation fails by a name, this is a name in it without a value, and
all steps before it have come to a value. -/
theorem evaluate_strict (level : Nat) (lookup : String → Option Value) (e : Expr) :
    (∀ v, (e.evaluate level lookup).result = .ok v →
      (∀ name ∈ e.names, ∃ w, lookup name = some w) ∧
        ∀ step ∈ e.steps, ∃ w, (step.evaluate level lookup).result = .ok w) ∧
    ∀ name position,
      (e.evaluate level lookup).result = .error (.error ⟨.symbolNotFound name, position⟩) →
        name ∈ e.names ∧ lookup name = none ∧
          ∃ before after, e.steps = before ++ .ident name [] :: after ∧
            ∀ step ∈ before, ∃ w, (step.evaluate level lookup).result = .ok w := by
  have hstrict : Strict lookup (Evaluates level lookup evaluationLimit)
      (e.evaluate level lookup).result e.steps := strict_evaluateTo (Nat.le_refl _) e
  refine ⟨fun v hv => ⟨fun name hname => ?_, hstrict.all v hv⟩, fun name position h => ?_⟩
  · exact exists_of_evaluates_ident (hstrict.all v hv _ ((ident_mem_steps_iff e).mpr hname))
  · obtain ⟨hnone, before, after, hsteps, hbefore⟩ := hstrict.upTo name position h
    refine ⟨(ident_mem_steps_iff e).mp ?_, hnone, before, after, hsteps, hbefore⟩
    rw [hsteps]
    exact List.mem_append_right _ List.mem_cons_self

/-- `0 && n`: the right operand is looked up, whatever the left one is. -/
theorem evaluate_strict_second_operand :
    let e : Expr := .binary "&&" (.literal (.integer 0) []) (.ident "n" []) []
    ((e.evaluate 0 fun _ => none).result = .error (.error ⟨.symbolNotFound "n", none⟩) ∧
      ∃ before after, e.steps = before ++ .ident "n" [] :: after ∧
        ∀ step ∈ before, ∃ w, (step.evaluate 0 fun _ => none).result = .ok w) ∧
    (e.evaluate 0 fun _ => some (.integer 5)).result = .ok (.integer 0) ∧
      ∀ step ∈ e.steps, ∃ w, (step.evaluate 0 fun _ => some (.integer 5)).result = .ok w := by
  intro e
  have hunbound : (e.evaluate 0 fun _ => none).result =
      .error (.error ⟨.symbolNotFound "n", none⟩) := rfl
  have hbound : (e.evaluate 0 fun _ => some (.integer 5)).result = .ok (.integer 0) := rfl
  exact ⟨⟨hunbound, ((evaluate_strict 0 _ e).2 _ _ hunbound).2.2⟩, hbound,
    ((evaluate_strict 0 _ e).1 _ hbound).2⟩

end Evaluation

end Stencil.Expr
