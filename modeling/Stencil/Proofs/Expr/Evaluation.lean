import Stencil.Expr.Evaluation

/-!
# Expr — Evaluation by parts

The result of an evaluation, apart from the lines it leaves: what the expression comes to without
its indices (`bare`), and what these select from it one after another (`selectAll`).  The parts of
an expression are evaluated with one level of height less than itself (`result_evaluateTo`).

An index selects an item of an array, so what indices select is smaller than what they select it
from (`selectAll_lt`).
-/

namespace Stencil.Expr

variable {level : Nat} {lookup : String → Option Value}

/-- What an expression comes to before its indices select from it. -/
def bare (level : Nat) (lookup : String → Option Value) (height : Nat) : Expr → Traced Value
  | .literal v _ => pure v
  | .ident name _ => valueOf lookup name
  | .binary symbol left right _ => do
    let a ← evaluateTo level lookup height left
    let b ← evaluateTo level lookup height right
    combine level symbol a b

/-- What indices select from a value, one after another. -/
def selectAll (level : Nat) (lookup : String → Option Value) (height : Nat) (v : Value)
    (indices : List Expr) : Except Failure Value :=
  indices.foldlM (fun v i => (select v (evaluateTo level lookup height i)).result) v

theorem result_foldlM_select (height : Nat) (indices : List Expr) (v : Value) :
    (indices.foldlM (fun v i => select v (evaluateTo level lookup height i)) v).result =
      selectAll level lookup height v indices := by
  induction indices generalizing v with
  | nil => rfl
  | cons i indices ih =>
      rw [selectAll, List.foldlM_cons, List.foldlM_cons, Traced.result_bind]
      congr 1
      funext w
      exact ih w

/-- An expression is evaluated without its indices, and then these select from its value. -/
theorem result_evaluateTo (height : Nat) (e : Expr) :
    (evaluateTo level lookup (height + 1) e).result =
      (bare level lookup height e).result >>=
        fun v => selectAll level lookup height v e.indices := by
  have selected : ∀ (is : List Expr) (v : Value) (line : Value → Unit → Line),
      (do
        let w ← is.foldlM (fun v i => select v (evaluateTo level lookup height i)) v
        .note level traceLevel (line w)
        return w : Traced Value).result = selectAll level lookup height v is := by
    intro is v line
    simp only [Traced.result_bind, Traced.result_note, Traced.result_pure, result_foldlM_select]
    cases selectAll level lookup height v is <;> rfl
  cases e with
  | literal v indices => exact selected indices v _
  | ident name indices =>
      rw [evaluateTo, Traced.result_bind]
      congr 1
      funext v
      exact selected indices v _
  | binary symbol left right indices =>
      rw [evaluateTo]
      -- The operands, the operator and the indices follow one another in a single sequence.
      simp only [Traced.result_bind (evaluateTo level lookup height left),
        Traced.result_bind (evaluateTo level lookup height right),
        Traced.result_bind (combine level symbol _ _), bare, bind_assoc]
      congr 1; funext a; congr 1; funext b; congr 1; funext v
      exact selected indices v _

theorem bare_withIndices (height : Nat) (e : Expr) (indices : List Expr) :
    bare level lookup height (e.withIndices indices) = bare level lookup height e := by
  cases e <;> rfl

/-- Followed by no index, an expression comes to its bare value. -/
theorem result_evaluateTo_bare (height : Nat) (e : Expr) :
    (evaluateTo level lookup (height + 1) (e.withIndices [])).result =
      (bare level lookup height e).result := by
  rw [result_evaluateTo, indices_withIndices, bare_withIndices]
  cases (bare level lookup height e).result <;> rfl

/-! ### What indices select -/

theorem mem_of_itemAt? {items : List Value} {n : Int} {w : Value}
    (h : Value.itemAt? items n = some w) : w ∈ items := by
  unfold Value.itemAt? at h
  split at h
  · cases h
  · exact List.mem_of_getElem? h

/-- What an index selects is an item of the array. -/
theorem select_ok {v w : Value} {index : Traced Value} (h : (select v index).result = .ok w) :
    ∃ items, v = .array items ∧ w ∈ items := by
  cases v with
  | array items =>
      refine ⟨items, rfl, ?_⟩
      rw [select, Traced.result_bind] at h
      cases hi : index.result with
      | error f => rw [hi] at h; cases h
      | ok i =>
          rw [hi] at h
          change selectItem (.array items) items i = .ok w at h
          unfold selectItem at h
          rcases hn : i.toInt? with fault | _ | n <;> rw [hn] at h
          · cases h
          · cases h
          · change Except.bind (.ok (some n)) _ = _ at h
            simp only [Except.bind] at h
            split at h
            · cases h
            · next hat => cases h; exact mem_of_itemAt? hat
  | integer | float | string | filter => cases h

theorem select_lt {v w : Value} {index : Traced Value} (h : (select v index).result = .ok w) :
    sizeOf w < sizeOf v := by
  obtain ⟨items, rfl, hw⟩ := select_ok h
  have := List.sizeOf_lt_of_mem hw
  rw [Value.array.sizeOf_spec]
  omega

/-- What one index or more select is smaller than what they select it from. -/
theorem selectAll_lt {height : Nat} {indices : List Expr} {v w : Value} (hne : indices ≠ [])
    (h : selectAll level lookup height v indices = .ok w) : sizeOf w < sizeOf v := by
  induction indices generalizing v with
  | nil => exact absurd rfl hne
  | cons i indices ih =>
      rw [selectAll, List.foldlM_cons] at h
      cases hu : (select v (evaluateTo level lookup height i)).result with
      | error f => rw [hu] at h; cases h
      | ok u =>
          rw [hu] at h
          have hlt := select_lt hu
          cases indices with
          | nil => cases h; exact hlt
          | cons j indices => exact Nat.lt_trans (ih (by simp) h) hlt

end Stencil.Expr
