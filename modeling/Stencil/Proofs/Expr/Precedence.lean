import Mathlib.Data.List.Basic
import Stencil.Expr.Operator

/-!
# Expr — Precedence

The tree of a chain is the only one over its operands and operators in which tighter operators are
applied first, and of operators that bind equally the left one (`tree_grouping_unique`).

The operands of a chain may themselves be applications, so the nodes that are made of a chain are
told apart by a `Grouping`: a tree whose operands are not looked into.  While a chain is gone
through, the left operands that wait and the operand at hand make up one grouping, in which each of
them is applied to all that is on its right (`closed`).  To settle operators leaves it as it is
(`settle_closed`); a further operator and its operand take the place of its last part, and it goes
on to respect how the operators bind (`respects_closed`).
-/

namespace Stencil

/-- Operands that are grouped by operators. -/
inductive Grouping where
  | operand (e : Expr)
  | apply (op : Operator) (left right : Grouping)

namespace Grouping

/-- The expression that a grouping stands for. -/
def expr : Grouping → Expr
  | .operand e => e
  | .apply op left right => op.application left.expr right.expr

/-- The operands and operators of a grouping, from left to right. -/
def tokens : Grouping → List (Expr ⊕ Operator)
  | .operand e => [.inl e]
  | .apply op left right => left.tokens ++ .inr op :: right.tokens

/-- The operator that is applied last. -/
def top? : Grouping → Option Operator
  | .operand _ => none
  | .apply op _ _ => some op

/-- The operator that was applied last on the left of an operator binds at least as tightly as it,
and the one on its right binds more tightly. -/
def Respects : Grouping → Prop
  | .operand _ => True
  | .apply op left right =>
    (∀ o ∈ left.top?, op.precedence ≤ o.precedence) ∧
      (∀ o ∈ right.top?, op.precedence < o.precedence) ∧ left.Respects ∧ right.Respects

/-! ### A grouping is determined by its tokens -/

/-- No operator binds less tightly than the one on top. -/
theorem Respects.le_precedence {t : Grouping} (h : t.Respects) {n : Nat}
    (hn : ∀ o ∈ t.top?, n ≤ o.precedence) : ∀ o, .inr o ∈ t.tokens → n ≤ o.precedence := by
  induction t with
  | operand e => intro o ho; simp [tokens] at ho
  | apply op left right ihl ihr =>
      obtain ⟨hleft, hright, hl, hr⟩ := h
      have hop : n ≤ op.precedence := hn op rfl
      intro o ho
      rcases List.mem_append.mp ho with ho | ho
      · exact ihl hl (fun x hx => Nat.le_trans hop (hleft x hx)) o ho
      rcases List.mem_cons.mp ho with ho | ho
      · cases ho
        exact hop
      · exact ihr hr (fun x hx => Nat.le_trans hop (Nat.le_of_lt (hright x hx))) o ho

/-- The last of the operators that bind least divides a row of tokens in one way only. -/
theorem division_unique {o o' : Operator} {a a' b b' : List (Expr ⊕ Operator)}
    (h : a ++ .inr o :: b = a' ++ .inr o' :: b')
    (ha : ∀ x, .inr x ∈ a → o.precedence ≤ x.precedence)
    (hb : ∀ x, .inr x ∈ b → o.precedence < x.precedence)
    (ha' : ∀ x, .inr x ∈ a' → o'.precedence ≤ x.precedence)
    (hb' : ∀ x, .inr x ∈ b' → o'.precedence < x.precedence) : a = a' ∧ o = o' ∧ b = b' := by
  -- If one of the two stood farther left, it would bind no tighter than the other, and yet tighter.
  rcases List.append_eq_append_iff.mp h with ⟨c, rfl, hc⟩ | ⟨c, rfl, hc⟩
  · cases c with
    | nil => simpa using hc
    | cons x c =>
        obtain ⟨rfl, rfl⟩ : .inr o = x ∧ b = c ++ .inr o' :: b' := List.cons.inj hc
        exact absurd (hb o' (by simp)) (Nat.not_lt.mpr (ha' o (by simp)))
  · cases c with
    | nil => simpa [eq_comm] using hc
    | cons x c =>
        obtain ⟨rfl, rfl⟩ : .inr o' = x ∧ b' = c ++ .inr o :: b := List.cons.inj hc
        exact absurd (hb' o (by simp)) (Nat.not_lt.mpr (ha o' (by simp)))

/-- Two groupings of the same tokens that respect how the operators bind are the same. -/
theorem Respects.unique {s t : Grouping} (hs : s.Respects) (ht : t.Respects)
    (h : s.tokens = t.tokens) : s = t := by
  induction s generalizing t with
  | operand e =>
      cases t with
      | operand e' =>
          obtain rfl : e = e' := by simpa [tokens] using h
          rfl
      | apply op left right =>
          have hop : .inr op ∈ tokens (.operand e) := by rw [h]; simp [tokens]
          simp [tokens] at hop
  | apply op left right ihl ihr =>
      cases t with
      | operand e =>
          have hop : .inr op ∈ tokens (.operand e) := by rw [← h]; simp [tokens]
          simp [tokens] at hop
      | apply op' left' right' =>
          obtain ⟨hleft, hright, hl, hr⟩ := hs
          obtain ⟨hleft', hright', hl', hr'⟩ := ht
          obtain ⟨hls, rfl, hrs⟩ := division_unique h (hl.le_precedence hleft)
            (hr.le_precedence hright) (hl'.le_precedence hleft') (hr'.le_precedence hright')
          rw [ihl hl hl' hls, ihr hr hr' hrs]

/-! ### Waiting operands -/

/-- Left operands that wait, the latest first, each with its operator. -/
abbrev Waiting := List (Grouping × Operator)

/-- The expressions of what waits. -/
def Waiting.pending (waiting : Waiting) : Chain.Pending :=
  waiting.map fun (left, op) => (left.expr, op)

/-- The grouping in which each waiting operand is applied to all that is on its right. -/
def closed : Waiting → Grouping → Grouping
  | [], t => t
  | (left, op) :: waiting, t => closed waiting (.apply op left t)

variable {waiting : Waiting} {s t : Grouping}

theorem respects_of_closed (h : (closed waiting t).Respects) : t.Respects := by
  induction waiting generalizing t with
  | nil => exact h
  | cons w waiting ih => exact (ih h).2.2.2

/-- What stands last binds more tightly than the operator that waits for it. -/
theorem lt_top_of_closed (h : (closed waiting t).Respects) :
    ∀ w ∈ waiting.head?, ∀ o ∈ t.top?, w.2.precedence < o.precedence := by
  cases waiting with
  | nil => simp
  | cons w waiting =>
      rintro w ⟨⟩
      exact (respects_of_closed (t := .apply w.2 w.1 t) h).2.1

/-- What stands last may be replaced by what binds more tightly than the operator that waits. -/
theorem respects_closed (h : (closed waiting s).Respects) (ht : t.Respects)
    (htop : ∀ w ∈ waiting.head?, ∀ o ∈ t.top?, w.2.precedence < o.precedence) :
    (closed waiting t).Respects := by
  induction waiting generalizing s t with
  | nil => exact ht
  | cons w waiting ih =>
      obtain ⟨left, op⟩ := w
      obtain ⟨hleft, -, hl, -⟩ := respects_of_closed (t := .apply op left s) h
      refine ih (s := .apply op left s) h ⟨hleft, htop _ rfl, hl, ht⟩ ?_
      exact lt_top_of_closed (t := .apply op left s) h

/-- The tokens of what stands last are the last of all. -/
theorem exists_tokens_closed (waiting : Waiting) :
    ∃ front, ∀ t, (closed waiting t).tokens = front ++ t.tokens := by
  induction waiting with
  | nil => exact ⟨[], fun t => rfl⟩
  | cons w waiting ih =>
      obtain ⟨front, hfront⟩ := ih
      exact ⟨front ++ (w.1.tokens ++ [.inr w.2]), fun t => by simp [closed, hfront, tokens]⟩

/-- **To settle operators** applies those that wait and bind at least as tightly as some precedence,
and changes nothing in the grouping as a whole. -/
theorem settle_closed (n : Nat) (waiting : Waiting) (t : Grouping)
    (ht : ∀ o ∈ t.top?, n ≤ o.precedence) :
    ∃ rest s, Chain.settle n waiting.pending t.expr = (rest.pending, s.expr) ∧
      closed rest s = closed waiting t ∧ (∀ w ∈ rest.head?, w.2.precedence < n) ∧
      ∀ o ∈ s.top?, n ≤ o.precedence := by
  induction waiting generalizing t with
  | nil => exact ⟨[], t, rfl, rfl, by simp, ht⟩
  | cons w waiting ih =>
      obtain ⟨left, op⟩ := w
      by_cases hop : n ≤ op.precedence
      · obtain ⟨rest, s, hsettle, hclosed, hrest, hs⟩ :=
          ih (.apply op left t) fun o ho => by cases ho; exact hop
        refine ⟨rest, s, ?_, hclosed, hrest, hs⟩
        rw [← hsettle]
        exact if_pos hop
      · refine ⟨(left, op) :: waiting, t, if_neg hop, rfl, ?_, ht⟩
        rintro w ⟨⟩
        exact Nat.lt_of_not_le hop

end Grouping

namespace Chain

open Grouping

/-- Operators with the operands behind them, in the order in which they are read. -/
def tokensOf (rest : List (Operator × Expr)) : List (Expr ⊕ Operator) :=
  rest.flatMap fun (op, e) => [.inr op, .inl e]

/-- The operands and operators of a chain, from left to right. -/
def tokens (chain : Chain) : List (Expr ⊕ Operator) :=
  .inl chain.first :: tokensOf chain.rest

/-- From some waiting operands on, the tree of a chain is that of a grouping with all tokens, which
respects how the operators bind.  The induction is on the rest of the chain. -/
theorem exists_grouping (rest : List (Operator × Expr)) (waiting : Waiting) (e : Expr)
    (h : (closed waiting (.operand e)).Respects) :
    ∃ t : Grouping, treeFrom waiting.pending e rest = t.expr ∧
      t.tokens = (closed waiting (.operand e)).tokens ++ tokensOf rest ∧ t.Respects := by
  induction rest generalizing waiting e with
  | nil =>
      obtain ⟨rest, s, hsettle, hclosed, hrest, -⟩ :=
        settle_closed 0 waiting (.operand e) fun o ho => by cases ho
      -- No operator binds less tightly than all, so nothing waits any more.
      obtain rfl : rest = [] := by
        cases rest with
        | nil => rfl
        | cons w rest => exact absurd (hrest w rfl) (Nat.not_lt_zero _)
      refine ⟨s, congrArg Prod.snd hsettle, ?_, ?_⟩
      · rw [← hclosed, tokensOf, List.flatMap_nil, List.append_nil, closed]
      · rwa [← hclosed] at h
  | cons next rest ih =>
      obtain ⟨op, e'⟩ := next
      obtain ⟨settled, s, hsettle, hclosed, hrest, hs⟩ :=
        settle_closed op.precedence waiting (.operand e) fun o ho => by cases ho
      rw [← hclosed] at h ⊢
      have hnext : (closed ((s, op) :: settled) (.operand e')).Respects := by
        refine respects_closed (t := .apply op s (.operand e')) h
          ⟨hs, (fun o ho => by cases ho), respects_of_closed h, trivial⟩ ?_
        rintro w hw o ⟨⟩
        exact hrest w hw
      obtain ⟨t, htree, htokens, ht⟩ := ih ((s, op) :: settled) e' hnext
      refine ⟨t, ?_, ?_, ht⟩
      · rw [← htree]
        change (let settled := settle op.precedence waiting.pending e
          treeFrom ((settled.2, op) :: settled.1) e' rest) = _
        rw [show settle op.precedence waiting.pending e = _ from hsettle]
        rfl
      · obtain ⟨front, hfront⟩ := exists_tokens_closed settled
        rw [htokens, closed, hfront, hfront]
        simp [Grouping.tokens, tokensOf]

/-- **The tree of a chain** is that of the one grouping that has the operands and operators of the
chain, all of them and in their order, and in which the operators on the left of an operator bind at
least as tightly as it and those on its right more tightly. -/
theorem tree_grouping_unique (chain : Chain) :
    ∃ t : Grouping, chain.tree = t.expr ∧ t.tokens = chain.tokens ∧ t.Respects ∧
      ∀ s : Grouping, s.tokens = chain.tokens → s.Respects → s = t := by
  obtain ⟨t, htree, htokens, ht⟩ := exists_grouping chain.rest [] chain.first trivial
  exact ⟨t, htree, htokens, ht, fun s hs hrespects =>
    hrespects.unique ht (hs.trans htokens.symm)⟩

end Chain

end Stencil
