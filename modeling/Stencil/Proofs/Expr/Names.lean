import Stencil.Expr.Evaluation

/-!
# Expr — Names

The names that occur in an expression, in its indices too.  Evaluation looks up these names and no
others, so two ways to look up names that agree on them give the same value or the same failure, and
leave the same lines (`evaluate_congr`).
-/

namespace Stencil.Expr

/-- The names that occur in an expression, from left to right. -/
def names : Expr → List String
  | .literal _ indices => namesOfAll indices
  | .ident name indices => name :: namesOfAll indices
  | .binary _ left right indices => left.names ++ right.names ++ namesOfAll indices
where
  /-- The names that occur in some expressions. -/
  namesOfAll : List Expr → List String
    | [] => []
    | e :: es => e.names ++ namesOfAll es

theorem mem_namesOfAll {n : String} {es : List Expr} :
    n ∈ names.namesOfAll es ↔ ∃ e ∈ es, n ∈ e.names := by
  induction es with
  | nil => simp [names.namesOfAll]
  | cons e es ih => simp [names.namesOfAll, ih]

theorem mem_names_of_mem_indices {n : String} {e i : Expr} (hi : i ∈ e.indices) (hn : n ∈ i.names) :
    n ∈ e.names := by
  have h : n ∈ names.namesOfAll e.indices := mem_namesOfAll.mpr ⟨i, hi, hn⟩
  cases e with
  | literal v indices => exact h
  | ident name indices => exact List.mem_cons_of_mem _ h
  | binary symbol left right indices => exact List.mem_append_right _ h

variable {level : Nat} {lookup lookup' : String → Option Value}

/-- Indices that come to the same select the same. -/
theorem foldlM_select_congr {height : Nat} {indices : List Expr}
    (h : ∀ i ∈ indices, evaluateTo level lookup height i = evaluateTo level lookup' height i)
    (v : Value) :
    indices.foldlM (fun v i => select v (evaluateTo level lookup height i)) v =
      indices.foldlM (fun v i => select v (evaluateTo level lookup' height i)) v := by
  induction indices generalizing v with
  | nil => rfl
  | cons i indices ih =>
      rw [List.foldlM_cons, List.foldlM_cons, h i List.mem_cons_self]
      congr 1
      funext w
      exact ih (fun j hj => h j (List.mem_cons_of_mem _ hj)) w

theorem evaluateTo_congr (height : Nat) {e : Expr} (h : ∀ n ∈ e.names, lookup n = lookup' n) :
    evaluateTo level lookup height e = evaluateTo level lookup' height e := by
  induction height generalizing e with
  | zero => rfl
  | succ height ih =>
      have hindices : ∀ i ∈ e.indices,
          evaluateTo level lookup height i = evaluateTo level lookup' height i :=
        fun i hi => ih fun n hn => h n (mem_names_of_mem_indices hi hn)
      have hselect := foldlM_select_congr hindices
      cases e with
      | literal v indices => simp only [evaluateTo, hselect]
      | ident name indices =>
          have hname : valueOf lookup name = valueOf lookup' name := by
            rw [valueOf, valueOf, h name List.mem_cons_self]
          simp only [evaluateTo, hname, hselect]
      | binary symbol left right indices =>
          have hleft := ih fun n hn =>
            h n (List.mem_append_left _ (List.mem_append_left _ hn))
          have hright := ih fun n hn =>
            h n (List.mem_append_left _ (List.mem_append_right _ hn))
          simp only [evaluateTo, hleft, hright, hselect]

/-- **Evaluation sees only the names of the expression.** -/
theorem evaluate_congr {e : Expr} (h : ∀ n ∈ e.names, lookup n = lookup' n) :
    e.evaluate level lookup = e.evaluate level lookup' :=
  evaluateTo_congr evaluationLimit h

end Stencil.Expr
