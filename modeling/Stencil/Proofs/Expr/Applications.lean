import Stencil.Proofs.Expr.Evaluation
import Stencil.Proofs.Value.Faults

/-!
# Expr — Applications

Which operators the evaluation of an expression comes to apply, and to which values, and from which
arrays it comes to select by which indices (`Step`).  Evaluation is strict and goes from left to
right, so an operator is applied once both operands have a value, and an index is evaluated once
what comes before it has an array for its value (`Reaches`).

Evaluation ends by a fault just when it comes to a step that does (`evaluateTo_fault_iff`).
-/

namespace Stencil.Expr

variable {level : Nat} {lookup : String → Option Value} {height : Nat}

/-- What evaluation does with values it has: it applies an operator to two of them, or selects the
item of an array that an index says. -/
inductive Step where
  | apply (op : Operator) (a b : Value)
  | select (items : List Value) (index : Value)

/-- What a step comes to. -/
def Step.result : Step → Except Failure Value
  | .apply op a b => op.apply a b
  | .select items index => selectItem (.array items) items index

/-- The step does not guard against its values. -/
def Step.Unguarded : Step → Prop
  | .apply op a b => op.Unguarded a b
  | .select _ index => ManyDigits index

theorem Step.faulty_iff (step : Step) : Faulty step.result ↔ step.Unguarded := by
  cases step with
  | apply op a b => exact op.apply_faulty_iff a b
  | select items index => exact selectItem_faulty_iff (.array items) items index

/-- Evaluating an expression to a height comes to a step. -/
inductive Reaches (level : Nat) (lookup : String → Option Value) : Nat → Expr → Step → Prop where
  | apply {height : Nat} {symbol : String} {left right : Expr} {indices : List Expr} {op : Operator}
      {a b : Value} (hop : Operator.ofSymbol? symbol = some op)
      (ha : (evaluateTo level lookup height left).result = .ok a)
      (hb : (evaluateTo level lookup height right).result = .ok b) :
      Reaches level lookup (height + 1) (.binary symbol left right indices) (.apply op a b)
  | select {height : Nat} {e i : Expr} {before after : List Expr} {items : List Value}
      {index : Value} (he : e.indices = before ++ i :: after)
      (hitems : (evaluateTo level lookup (height + 1) (e.withIndices before)).result =
        .ok (.array items))
      (hi : (evaluateTo level lookup height i).result = .ok index) :
      Reaches level lookup (height + 1) e (.select items index)
  | left {height : Nat} {symbol : String} {left right : Expr} {indices : List Expr} {step : Step}
      (h : Reaches level lookup height left step) :
      Reaches level lookup (height + 1) (.binary symbol left right indices) step
  | right {height : Nat} {symbol : String} {left right : Expr} {indices : List Expr} {step : Step}
      {v : Value} (hv : (evaluateTo level lookup height left).result = .ok v)
      (h : Reaches level lookup height right step) :
      Reaches level lookup (height + 1) (.binary symbol left right indices) step
  | index {height : Nat} {e i : Expr} {before after : List Expr} {items : List Value} {step : Step}
      (he : e.indices = before ++ i :: after)
      (hitems : (evaluateTo level lookup (height + 1) (e.withIndices before)).result =
        .ok (.array items))
      (h : Reaches level lookup height i step) : Reaches level lookup (height + 1) e step

/-! ### Parts of an evaluation -/

@[simp] theorem result_combine (level : Nat) (symbol : String) (a b : Value) :
    (combine level symbol a b).result = applySymbol symbol a b := by
  unfold combine
  split
  · simp only [Traced.result_bind, Traced.result_note, Traced.result_ofResult]
    rfl
  · rw [Traced.result_ofResult]

theorem result_bare_binary (symbol : String) (left right : Expr) (indices : List Expr) :
    (bare level lookup height (.binary symbol left right indices)).result = (do
      let a ← (evaluateTo level lookup height left).result
      let b ← (evaluateTo level lookup height right).result
      applySymbol symbol a b) := by
  simp only [bare, Traced.result_bind, result_combine]

theorem selectAll_append (v : Value) (before after : List Expr) :
    selectAll level lookup height v (before ++ after) =
      selectAll level lookup height v before >>=
        fun w => selectAll level lookup height w after := by
  unfold selectAll
  rw [List.foldlM_append]

theorem selectAll_cons (v : Value) (i : Expr) (after : List Expr) :
    selectAll level lookup height v (i :: after) =
      (select v (evaluateTo level lookup height i)).result >>=
        fun w => selectAll level lookup height w after := by
  unfold selectAll
  rw [List.foldlM_cons]

/-- To select is a fault where there is an array to select from, and the index is a fault, or its
value does not select without one. -/
theorem select_fault_iff {v : Value} {index : Traced Value} {f : Fault} :
    (select v index).result = .error (.fault f) ↔ ∃ items, v = .array items ∧
      (index.result = .error (.fault f) ∨
        ∃ i, index.result = .ok i ∧ (Step.select items i).result = .error (.fault f)) := by
  cases v with
  | array items =>
      rw [select, Traced.result_bind]
      cases index.result <;> simp [bind, Except.bind, Step.result]
  | _ => simp [select, Traced.fail, Failure.of]

/-- To select by some indices is a fault where the indices before one of them select an array, and
that one is a fault, or its value does not select without one. -/
theorem selectAll_fault_iff {v : Value} {indices : List Expr} {f : Fault} :
    selectAll level lookup height v indices = .error (.fault f) ↔
      ∃ before i after items, indices = before ++ i :: after ∧
        selectAll level lookup height v before = .ok (.array items) ∧
        ((evaluateTo level lookup height i).result = .error (.fault f) ∨
          ∃ w, (evaluateTo level lookup height i).result = .ok w ∧
            (Step.select items w).result = .error (.fault f)) := by
  constructor
  · intro h
    -- The indices in front of the one that fails have each selected something.
    induction indices generalizing v with
    | nil => cases h
    | cons i indices ih =>
        rw [selectAll_cons] at h
        cases hi : (select v (evaluateTo level lookup height i)).result with
        | error e =>
            rw [hi] at h
            cases h
            obtain ⟨items, rfl, hf⟩ := select_fault_iff.mp hi
            exact ⟨[], i, indices, items, rfl, rfl, hf⟩
        | ok w =>
            rw [hi] at h
            obtain ⟨before, j, after, items, rfl, hbefore, hf⟩ := ih h
            refine ⟨i :: before, j, after, items, rfl, ?_, hf⟩
            rw [selectAll_cons, hi]
            exact hbefore
  · rintro ⟨before, i, after, items, rfl, hbefore, hf⟩
    rw [selectAll_append, hbefore]
    change selectAll level lookup height (.array items) (i :: after) = _
    rw [selectAll_cons, select_fault_iff.mpr ⟨items, rfl, hf⟩]
    rfl

/-- An expression is a fault as its bare value is, or by one of its indices. -/
theorem evaluateTo_succ_fault_iff {e : Expr} {f : Fault} :
    (evaluateTo level lookup (height + 1) e).result = .error (.fault f) ↔
      (bare level lookup height e).result = .error (.fault f) ∨
        ∃ before i after items, e.indices = before ++ i :: after ∧
          (evaluateTo level lookup (height + 1) (e.withIndices before)).result =
            .ok (.array items) ∧
          ((evaluateTo level lookup height i).result = .error (.fault f) ∨
            ∃ w, (evaluateTo level lookup height i).result = .ok w ∧
              (Step.select items w).result = .error (.fault f)) := by
  simp only [result_evaluateTo, bare_withIndices, indices_withIndices]
  cases (bare level lookup height e).result with
  | error e' => simp [bind, Except.bind]
  | ok v => simp [bind, Except.bind, selectAll_fault_iff]

theorem applySymbol_fault_iff {symbol : String} {a b : Value} {f : Fault} :
    applySymbol symbol a b = .error (.fault f) ↔
      ∃ op, Operator.ofSymbol? symbol = some op ∧ op.apply a b = .error (.fault f) := by
  unfold applySymbol
  cases Operator.ofSymbol? symbol with
  | none => simp [Failure.of]
  | some op => simp

/-! ### Whole evaluations -/

theorem exists_reaches {e : Expr} {f : Fault}
    (h : (evaluateTo level lookup height e).result = .error (.fault f)) :
    ∃ step, Reaches level lookup height e step ∧ step.result = .error (.fault f) := by
  induction height generalizing e with
  | zero => cases h
  | succ height ih =>
      rcases evaluateTo_succ_fault_iff.mp h with
        h | ⟨before, i, after, items, he, hitems, h | ⟨w, hw, hf⟩⟩
      · cases e with
        | literal v indices => cases h
        | ident name indices =>
            rw [bare, valueOf] at h
            split at h <;> cases h
        | binary symbol left right indices =>
            rw [result_bare_binary] at h
            -- The first of the three that ends by a fault is the one that is passed on.
            cases ha : (evaluateTo level lookup height left).result with
            | error e =>
                rw [ha] at h
                cases h
                obtain ⟨step, hstep, hf⟩ := ih ha
                exact ⟨step, .left hstep, hf⟩
            | ok a =>
                cases hb : (evaluateTo level lookup height right).result with
                | error e =>
                    rw [ha, hb] at h
                    cases h
                    obtain ⟨step, hstep, hf⟩ := ih hb
                    exact ⟨step, .right ha hstep, hf⟩
                | ok b =>
                    rw [ha, hb] at h
                    obtain ⟨op, hop, hf⟩ := applySymbol_fault_iff.mp h
                    exact ⟨.apply op a b, .apply hop ha hb, hf⟩
      · obtain ⟨step, hstep, hf⟩ := ih h
        exact ⟨step, .index he hitems hstep, hf⟩
      · exact ⟨.select items w, .select he hitems hw, hf⟩

theorem Reaches.fault {e : Expr} {step : Step} {f : Fault}
    (h : Reaches level lookup height e step) (hf : step.result = .error (.fault f)) :
    (evaluateTo level lookup height e).result = .error (.fault f) := by
  induction h with
  | apply hop ha hb =>
      refine evaluateTo_succ_fault_iff.mpr (.inl ?_)
      rw [result_bare_binary, ha, hb]
      exact applySymbol_fault_iff.mpr ⟨_, hop, hf⟩
  | select he hitems hi =>
      exact evaluateTo_succ_fault_iff.mpr (.inr ⟨_, _, _, _, he, hitems, .inr ⟨_, hi, hf⟩⟩)
  | left _ ih =>
      refine evaluateTo_succ_fault_iff.mpr (.inl ?_)
      rw [result_bare_binary, ih hf]
      rfl
  | right hv _ ih =>
      refine evaluateTo_succ_fault_iff.mpr (.inl ?_)
      rw [result_bare_binary, hv, ih hf]
      rfl
  | index he hitems _ ih =>
      exact evaluateTo_succ_fault_iff.mpr (.inr ⟨_, _, _, _, he, hitems, .inl (ih hf)⟩)

/-- **Evaluation ends by a fault** just when it comes to a step that does. -/
theorem evaluateTo_fault_iff {e : Expr} {f : Fault} :
    (evaluateTo level lookup height e).result = .error (.fault f) ↔
      ∃ step, Reaches level lookup height e step ∧ step.result = .error (.fault f) :=
  ⟨exists_reaches, fun ⟨_, h, hf⟩ => h.fault hf⟩

end Stencil.Expr
