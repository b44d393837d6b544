import Stencil.Proofs.Expr.Applications
import Stencil.Proofs.Expr.Causes
import Stencil.Proofs.Expr.Tokens
import Stencil.Proofs.Scanner.Yields

/-!
# Expr — Well-formed expressions

An expression is *well formed* when its literals are integers of 64 bits, finite numbers or strings,
its names are names, and its operators are those of the language, in its operands and indices too.
All expressions that are read are well formed (`yields_scanner`).

The evaluation of a well-formed expression may fail, but never by an operator that is not known
(`knows_evaluateTo`): there is one for each of its symbols, and what operators and filters fail by
lies in their values (`Operator.knows_apply`).
-/

namespace Stencil

namespace Expr

open Scanner Text Numeral

/-- The value of a literal: an integer of 64 bits, a finite number or a string. -/
def IsLiteral : Value → Prop
  | .integer n => inRange n = true
  | .float x => x.isFinite = true
  | .string _ => True
  | .array _ | .filter _ => False

mutual

/-- The literals, names and operators of an expression are those of the language. -/
def WellFormed : Expr → Prop
  | .literal v is => IsLiteral v ∧ AllWellFormed is
  | .ident name is => IsName name ∧ AllWellFormed is
  | .binary symbol left right is =>
    (∃ op : Operator, op.symbol = symbol) ∧ WellFormed left ∧ WellFormed right ∧ AllWellFormed is

/-- Those of some indices are. -/
def AllWellFormed : List Expr → Prop
  | [] => True
  | i :: is => WellFormed i ∧ AllWellFormed is

end

/-- The list form is the for-all over the list. -/
theorem allWellFormed_iff {is : List Expr} : AllWellFormed is ↔ ∀ i ∈ is, WellFormed i := by
  induction is with
  | nil => simp [AllWellFormed]
  | cons i is ih => simp [AllWellFormed, ih]

theorem WellFormed.withIndices {e : Expr} {is : List Expr} (h : e.WellFormed)
    (his : AllWellFormed is) : (e.withIndices is).WellFormed := by
  cases e with
  | literal v _ => exact ⟨h.1, his⟩
  | ident name _ => exact ⟨h.1, his⟩
  | binary symbol left right _ => exact ⟨h.1, h.2.1, h.2.2.1, his⟩

theorem WellFormed.allIndices {e : Expr} (h : e.WellFormed) : AllWellFormed e.indices := by
  cases e with
  | literal v _ => exact h.2
  | ident name _ => exact h.2
  | binary symbol left right _ => exact h.2.2.2

/-! ### Chains -/

theorem wellFormed_application (op : Operator) {left right : Expr} (hl : left.WellFormed)
    (hr : right.WellFormed) : (op.application left right).WellFormed :=
  ⟨⟨op, rfl⟩, hl, hr, trivial⟩

/-- To apply the pending operators that bind as tightly keeps trees well-formed. -/
theorem wellFormed_settle (precedence : Nat) {pending : Chain.Pending} {operand : Expr}
    (hp : ∀ left ∈ pending, left.1.WellFormed) (ho : operand.WellFormed) :
    (∀ left ∈ (Chain.settle precedence pending operand).1, left.1.WellFormed) ∧
      (Chain.settle precedence pending operand).2.WellFormed := by
  fun_induction Chain.settle precedence pending operand with
  | case1 operand => exact ⟨hp, ho⟩
  | case2 left op pending operand h ih =>
    exact ih (fun l hl => hp l (List.mem_cons_of_mem _ hl))
      (wellFormed_application op (hp _ List.mem_cons_self) ho)
  | case3 left op pending operand h => exact ⟨hp, ho⟩

/-- The tree of a chain of well-formed operands is well-formed. -/
theorem wellFormed_treeFrom {pending : Chain.Pending} {operand : Expr}
    {rest : List (Operator × Expr)} (hp : ∀ left ∈ pending, left.1.WellFormed)
    (ho : operand.WellFormed) (hr : ∀ next ∈ rest, next.2.WellFormed) :
    (Chain.treeFrom pending operand rest).WellFormed := by
  fun_induction Chain.treeFrom pending operand rest with
  | case1 pending operand => exact (wellFormed_settle 0 hp ho).2
  | case2 pending operand op next rest settled ih =>
    obtain ⟨hpending, hoperand⟩ := wellFormed_settle op.precedence hp ho
    refine ih (fun left hl => ?_) (hr _ List.mem_cons_self)
      (fun next hn => hr next (List.mem_cons_of_mem _ hn))
    rcases List.mem_cons.mp hl with rfl | hl
    · exact hoperand
    · exact hpending left hl

/-! ### Readers -/

/-- A number that is read is an integer of 64 bits, or finite. -/
theorem yields_number : Yields IsLiteral number := by
  intro p cs v t h
  obtain ⟨l, -, hv⟩ := run_number_ok h
  refine ⟨?_, (follows_number (e := 0) (d := 0)).yields p cs v t h |>.2⟩
  have heval := hv p
  unfold Literal.evaluate at heval
  split at heval
  · cases heval
  split at heval
  · split at heval
    · cases heval
    split at heval
    · next hn => cases heval; exact hn
    · cases heval
  split at heval
  · cases heval
  dsimp only at heval
  split at heval
  · next hx => cases heval; exact hx
  · cases heval

variable {inner : Scanner Expr}

theorem yields_closed (h : Yields WellFormed inner) {c : Char} {cause : Cause} :
    Yields WellFormed (closed inner c cause) := by
  refine h.bind fun e he => ?_
  intro p cs a t hrun
  obtain ⟨u, s, hclosing, hrun⟩ := run_bind_ok hrun
  obtain ⟨w, r, -, rfl, -⟩ := run_closing_ok hclosing
  exact yields_pure he _ _ _ _ hrun

theorem yields_indexList (h : Yields WellFormed inner) :
    Yields AllWellFormed (indexList inner) := by
  have hopen : Yields (fun _ => True) openIndex := by
    intro p cs o t ho
    obtain ⟨w, r, -, ⟨-, -, rfl⟩ | ⟨-, -, rfl, -⟩⟩ := run_openIndex ho
    · exact ⟨trivial, _, _, rfl⟩
    · exact ⟨trivial, _, _, rfl⟩
  exact (yields_collect hopen fun _ => yields_closed h).imp fun is => allWellFormed_iff.mpr

theorem yields_numberOperand : Yields WellFormed numberOperand := by
  refine yields_number.bind fun v hv => ?_
  intro p cs e t hrun
  refine ⟨?_, (follows_afterNumber (e := 0) (d := 0) v).yields p cs e t hrun |>.2⟩
  rw [run_peekChar_bind] at hrun
  split at hrun
  · split at hrun
    · cases hrun
    · cases hrun; exact ⟨hv, trivial⟩
  · cases hrun; exact ⟨hv, trivial⟩

/-- The word at a symbol that starts no number is a name. -/
theorem run_word_isName {c : Char} {cs w : List Char} {p : Position} {t : Stencil.Stream}
    (hsym : isSymbol c = true) (hnum : ¬startsNumber (c :: cs.take 1) = true)
    (h : (word isSymbol none).run (.ofTextAt p (c :: cs)) = .ok w t) :
    IsName (String.ofList w) ∧ ∃ q r, t = .ofTextAt q r := by
  obtain ⟨v, r, rfl, hv, hr⟩ := exists_front isSymbol cs
  have hcv : ∀ d ∈ c :: v, isSymbol d = true := by
    intro d hd
    rcases List.mem_cons.mp hd with rfl | hd
    · exact hsym
    · exact hv d hd
  have hread := reads_word hcv hr p
  rw [List.cons_append, h] at hread
  cases hread
  refine ⟨⟨?_, ?_, ?_⟩, _, _, rfl⟩
  · simp
  · simpa using hcv
  · intro d hd
    obtain rfl : c = d := by simpa using hd
    by_contra hdigit
    exact hnum (by simp [startsNumber, hdigit])

/-- Each kind of operand is well-formed. -/
theorem yields_bareOperand (h : Yields WellFormed inner) (missing : Cause) :
    Yields WellFormed (bareOperand inner missing) := by
  rw [bareOperand_eq]
  refine (follows_skipBlank (e := 0) (d := 0)).yields.bind fun _ _ => yields_peek ?_
  intro p cs e t hrun
  cases cs with
  | nil => cases hrun
  | cons c cs =>
      -- The character ahead tells the operand: in parentheses, a string, a number or a name.
      rw [List.take_succ_cons, operandAhead] at hrun
      split at hrun
      · have hany : Yields (fun _ => True) anyChar := by
          intro p cs o t ho
          cases cs with
          | nil => cases ho; exact ⟨trivial, _, _, rfl⟩
          | cons c cs =>
              have hread := reads_anyChar c cs p
              rw [List.singleton_append, ho] at hread
              cases hread
              exact ⟨trivial, _, _, rfl⟩
        exact (hany.bind fun _ _ => yields_closed h) _ _ _ _ hrun
      split at hrun
      · exact (follows_stringLiteral (e := 0) (d := 0)).yields.map
          (fun s _ => ⟨trivial, trivial⟩) _ _ _ _ hrun
      split at hrun
      · exact yields_numberOperand _ _ _ _ hrun
      split at hrun
      · next hnum hsym =>
        obtain ⟨w, s, hw, hrun⟩ := run_bind_ok hrun
        obtain ⟨hname, q, r, rfl⟩ := run_word_isName hsym hnum hw
        cases hrun
        exact ⟨⟨hname, trivial⟩, q, r, rfl⟩
      · cases hrun

theorem yields_operand (h : Yields WellFormed inner) (missing : Cause) :
    Yields WellFormed (operand inner missing) :=
  (yields_bareOperand h missing).bind fun _ he =>
    (yields_indexList h).map fun _ his => he.withIndices his

theorem yields_chain (h : Yields WellFormed inner) : Yields WellFormed (chain inner) := by
  refine (yields_operand h _).bind fun first hfirst => ?_
  refine (yields_collect (Q := fun next => next.2.WellFormed)
    (follows_infixOperator (e := 0) (d := 0)).yields fun op => ?_).map
    fun rest hrest => wellFormed_treeFrom (by simp) hfirst hrest
  exact (yields_operand h _).map fun _ he => he

/-- Expressions are well-formed, however many levels they may nest by. -/
theorem yields_nested (levels : Nat) : Yields WellFormed (nested levels) := by
  induction levels with
  | zero => exact yields_chain (yields_fail _)
  | succ levels ih => exact yields_chain ih

/-- **All expressions that are read are well formed.** -/
theorem yields_scanner : Yields WellFormed Expr.scanner :=
  yields_nested nestingLimit

end Expr

/-! ### Known operators -/

section Knows

variable {α β : Type}

/-- A result that is no failure by an operator that is not known. -/
def Knows (x : Except Failure α) : Prop :=
  ∀ symbol position, x ≠ .error (.error ⟨.unknownOperator symbol, position⟩)

@[simp] theorem knows_ok (a : α) : Knows (.ok a : Except Failure α) := nofun

@[simp] theorem knows_of {cause : Cause} :
    Knows (.error (.of cause) : Except Failure α) ↔ ∀ symbol, cause ≠ .unknownOperator symbol := by
  simp [Knows, Failure.of]

/-- A sequence fails for no unknown operator if neither of its parts does. -/
theorem Knows.bind {x : Except Failure α} {g : α → Except Failure β} (hx : Knows x)
    (hg : ∀ a, x = .ok a → Knows (g a)) : Knows (x >>= g) := by
  cases x with
  | ok a => exact hg a rfl
  | error f =>
      intro symbol position h
      cases h
      exact hx symbol position rfl

/-- What fails by the values at hand does not fail by an operator that is not known. -/
theorem ByValues.knows {x : Except Failure α} (h : ByValues x) : Knows x :=
  fun _ _ hx => absurd (h _ hx) Bool.false_ne_true

/-- An operator of the language is known. -/
theorem Operator.knows_apply (op : Operator) (a b : Value) : Knows (op.apply a b) :=
  (op.byValues_apply a b).knows

end Knows

namespace Expr

variable {level : Nat} {lookup : String → Option Value} {height : Nat}

theorem knows_select {index : Traced Value} (h : Knows index.result) (v : Value) :
    Knows (select v index).result := by
  cases v with
  | array items =>
      rw [select, Traced.result_bind]
      exact h.bind fun i _ => (byValues_selectItem _ items i).knows
  | integer | float | string | filter => simp [select, Traced.fail]

/-- To select fails for no unknown operator if no index does. -/
theorem knows_selectAll {is : List Expr} (v : Value)
    (h : ∀ i ∈ is, Knows (evaluateTo level lookup height i).result) :
    Knows (selectAll level lookup height v is) := by
  induction is generalizing v with
  | nil => exact knows_ok v
  | cons i is ih =>
      rw [selectAll_cons]
      exact (knows_select (h i List.mem_cons_self) v).bind fun w _ =>
        ih w fun j hj => h j (List.mem_cons_of_mem _ hj)

/-- **The operators of a well-formed expression are known.** -/
theorem knows_evaluateTo {e : Expr} (he : e.WellFormed) :
    Knows (evaluateTo level lookup height e).result := by
  induction height generalizing e with
  | zero => simp [evaluateTo, Traced.fail]
  | succ height ih =>
      rw [result_evaluateTo]
      refine Knows.bind ?_ fun v _ => knows_selectAll v fun i hi =>
        ih (allWellFormed_iff.mp he.allIndices i hi)
      cases e with
      | literal v is => exact knows_ok v
      | ident name is =>
          rw [bare, valueOf]
          split
          · exact knows_ok _
          · simp [Traced.fail]
      | binary symbol left right is =>
          obtain ⟨⟨op, rfl⟩, hleft, hright, -⟩ := he
          rw [result_bare_binary]
          refine (ih hleft).bind fun a _ => (ih hright).bind fun b _ => ?_
          rw [applySymbol, Operator.ofSymbol?_symbol]
          exact op.knows_apply a b

end Expr

end Stencil
