import Stencil.Proofs.Expr.Evaluation
import Stencil.Proofs.Expr.Readings

/-!
# Expr — Grouping

What parentheses around an expression do.  A text between parentheses is an operand, and the indices
read behind the closing parenthesis take the place of the indices that the expression inside ends
with (`ofText_enclosed`, `ofText_enclosed_indexed`).  So parentheses only group where the expression
ends with no index.  Since what indices select is smaller than what they select it from, the value
that lost its indices is another one: the two evaluations agree just when there were no indices, or
nothing to select from (`enclosed_drops_indices`).
-/

namespace Stencil.Expr

open Scanner Text

variable {E I : List Char} {e i : Expr}

/-! ### Reading -/

/-- A text that nests less deep than the limit is read as an operand between parentheses. -/
theorem reads_enclosed_text (h : ofText E = .ok e) (hE : nesting E < nestingLimit)
    (missing : Cause) (r : List Char) :
    (bareOperand (nested (nestingLimit - 1)) missing).Reads ('(' :: (E ++ [')'])) e r := by
  obtain ⟨w, b, rfl, hb, hw⟩ :=
    reads_of_ofText_of_closer h (Nat.le_pred_of_lt hE) (c := ')') (.inl rfl) r
  rw [← List.nil_append ('(' :: _), List.append_assoc]
  exact reads_enclosed (fun c hc => by cases hc) hw hb

/-- What is read with its parentheses and its indices up to the end is an expression. -/
theorem ofText_of_operand {v z : List Char} {as : List Expr}
    (hv : (bareOperand (nested (nestingLimit - 1)) .missingFirstOperand).Reads v e (z ++ []))
    (hz : (indexList (nested (nestingLimit - 1))).Reads z as []) :
    ofText (v ++ z) = .ok (e.withIndices as) := by
  have hscan : scanner.Reads (v ++ z) (e.withIndices as) [] :=
    reads_chain_one (reads_operand hv hz) closes_nil
  have := ofText_of_reads hscan fun c hc => by cases hc
  rwa [List.append_nil] at this

theorem reads_indexList_end : (indexList (nested (nestingLimit - 1))).Reads [] [] [] :=
  reads_indexList_nil (fun c hc => by cases hc) (fun c hc => by cases hc) (fun c hc => by cases hc)

theorem ofText_enclosed (h : ofText E = .ok e) (hE : nesting E < nestingLimit) :
    ofText ('(' :: (E ++ [')'])) = .ok (e.withIndices []) := by
  have := ofText_of_operand (reads_enclosed_text h hE _ []) reads_indexList_end
  rwa [List.append_nil] at this

/-- An index behind the parentheses takes the place of those inside. -/
theorem ofText_enclosed_indexed (h : ofText E = .ok e) (hE : nesting E < nestingLimit)
    (h' : ofText I = .ok i) (hI : nesting I < nestingLimit) :
    ofText ('(' :: (E ++ [')']) ++ '[' :: (I ++ [']'])) = .ok (e.withIndices [i]) := by
  obtain ⟨w, b, rfl, hb, hw⟩ :=
    reads_of_ofText_of_closer h' (Nat.le_pred_of_lt hI) (c := ']') (.inr (.inl rfl)) []
  have hindex := reads_indexList_cons (s := []) (fun c hc => by cases hc) hw hb reads_indexList_end
  refine ofText_of_operand (reads_enclosed_text h hE _ _) ?_
  simpa using hindex

/-! ### Evaluating -/

variable {level : Nat} {lookup : String → Option Value}

theorem result_withIndices (e : Expr) (indices : List Expr) :
    (evaluate level lookup (e.withIndices indices)).result =
      (evaluate level lookup (e.withIndices [])).result >>=
        fun v => selectAll level lookup (evaluationLimit - 1) v indices := by
  unfold evaluate
  rw [show evaluationLimit = (evaluationLimit - 1) + 1 from rfl, result_evaluateTo_bare,
    result_evaluateTo, bare_withIndices, indices_withIndices]
  rfl

/-- Without its indices, an expression comes to the same only if it has none, or if there is no
value that they could select from. -/
theorem result_withIndices_nil_iff (e : Expr) :
    (evaluate level lookup (e.withIndices [])).result = (evaluate level lookup e).result ↔
      e.indices = [] ∨ ∃ f, (evaluate level lookup (e.withIndices [])).result = .error f := by
  have h : (evaluate level lookup (e.withIndices e.indices)).result =
      (evaluate level lookup (e.withIndices [])).result >>= fun v =>
        selectAll level lookup (evaluationLimit - 1) v e.indices := result_withIndices e e.indices
  rw [withIndices_indices] at h
  rw [h]
  cases hr : (evaluate level lookup (e.withIndices [])).result with
  | error f => exact ⟨fun _ => .inr ⟨f, rfl⟩, fun _ => rfl⟩
  | ok v =>
      constructor
      · intro hv
        refine .inl ?_
        by_contra hne
        exact absurd (selectAll_lt hne hv.symm) (Nat.lt_irrefl _)
      · rintro (hnil | ⟨f, hf⟩)
        · rw [hnil]; rfl
        · cases hf

/-- **Parentheses take away the indices at the end of what they enclose**, and give those behind
them in their place.  So an expression between parentheses comes to what it does without them just
when it ends with no index, or has no value but for its indices; and an index behind the parentheses
selects from the value that the expression has without its own indices. -/
theorem enclosed_drops_indices (E I : List Char) (e i : Expr) (hE : ofText E = .ok e)
    (hI : ofText I = .ok i) (nestE : nesting E ≤ 63) (nestI : nesting I ≤ 63) :
    ofText ('(' :: (E ++ [')'])) = .ok (e.withIndices []) ∧
    ofText ('(' :: (E ++ [')']) ++ '[' :: (I ++ [']'])) = .ok (e.withIndices [i]) ∧
    ∀ level lookup,
      ((evaluate level lookup (e.withIndices [])).result = (evaluate level lookup e).result ↔
        e.indices = [] ∨ ∃ f, (evaluate level lookup (e.withIndices [])).result = .error f) ∧
      (evaluate level lookup (e.withIndices [i])).result =
        (evaluate level lookup (e.withIndices [])).result >>= fun v =>
          (select v (evaluateTo level lookup (evaluationLimit - 1) i)).result := by
  have hE' : nesting E < nestingLimit := Nat.lt_succ_of_le nestE
  have hI' : nesting I < nestingLimit := Nat.lt_succ_of_le nestI
  refine ⟨ofText_enclosed hE hE', ofText_enclosed_indexed hE hE' hI hI', fun level lookup =>
    ⟨result_withIndices_nil_iff e, ?_⟩⟩
  rw [result_withIndices]
  congr 1
  funext v
  rw [selectAll, List.foldlM_cons]
  cases (select v (evaluateTo level lookup (evaluationLimit - 1) i)).result <;> rfl

/-- The first item of `a`, with parentheses around it and an index behind. -/
theorem enclosed_drops_indices_of_name :
    ofText "a[0]".toList = .ok (.ident "a" [.literal (.integer 0) []]) ∧
    ofText "1".toList = .ok (.literal (.integer 1) []) ∧
    nesting "a[0]".toList ≤ 63 ∧ nesting "1".toList ≤ 63 ∧
    ofText "(a[0])".toList = .ok (.ident "a" []) ∧
    ofText "(a[0])[1]".toList = .ok (.ident "a" [.literal (.integer 1) []]) := by
  have hE : ofText "a[0]".toList = .ok (.ident "a" [.literal (.integer 0) []]) := by
    with_unfolding_all rfl
  have hI : ofText "1".toList = .ok (.literal (.integer 1) []) := by with_unfolding_all rfl
  have h := enclosed_drops_indices _ _ _ _ hE hI (by decide) (by decide)
  exact ⟨hE, hI, by decide, by decide, h.1, h.2.1⟩

/-- Parentheses do not only group: where `a` is an array, the value of `(a[0])` is not that of
`a[0]`. -/
theorem enclosed_not_transparent :
    ¬∀ (E : List Char) (e : Expr) (lookup : String → Option Value), ofText E = .ok e →
      nesting E ≤ 63 → ∃ e', ofText ('(' :: (E ++ [')'])) = .ok e' ∧
        (evaluate 0 lookup e').result = (evaluate 0 lookup e).result := by
  intro h
  obtain ⟨e', he', hval⟩ := h "a[0]".toList (.ident "a" [.literal (.integer 0) []])
    (fun _ => some (.array [.integer 1, .integer 2])) (by with_unfolding_all rfl) (by decide)
  have hE' : ofText "(a[0])".toList = .ok (.ident "a" []) := by with_unfolding_all rfl
  rw [show ofText ('(' :: ("a[0]".toList ++ [')'])) = _ from hE'] at he'
  cases he'
  cases hval

end Stencil.Expr
