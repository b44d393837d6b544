import Stencil.Proofs.Expr.Locality

/-!
# Expr — Readings

What the readers of expressions make of the parts of an expression text, one lemma a form: an
expression between parentheses, an operand with indices, one operand, two operands with an operator
between them.  Every part takes up the blanks in front of it, and the indices also those behind the
operand.
-/

namespace Stencil.Expr

open Scanner Text

variable {inner : Scanner Expr} {missing cause : Cause} {a b : Expr} {as : List Expr}
  {s v w z r : List Char}

/-! ### Operands -/

/-- Behind blanks, the sort of an operand is decided by two characters. -/
theorem reads_bareOperand (hs : ∀ c ∈ s, isBlank c = true)
    (hw : ∀ c ∈ (w ++ r).head?, isBlank c = false)
    (h : (operandAhead inner missing ((w ++ r).take 2)).Reads w a r) :
    (bareOperand inner missing).Reads (s ++ w) a r := by
  rw [bareOperand_eq]
  exact (reads_skipBlank hs hw).bind ((reads_peek 2 (w ++ r)).nil_bind h)

/-- An operand fails as the reader that its first characters choose does. -/
theorem fails_bareOperand {cs : List Char} {failure : Position → Failure}
    (hs : ∀ c ∈ s, isBlank c = true) (hcs : ∀ c ∈ cs.head?, isBlank c = false)
    (h : (operandAhead inner missing (cs.take 2)).FailsBy cs failure) :
    (bareOperand inner missing).FailsBy (s ++ cs) failure := by
  rw [bareOperand_eq]
  exact (reads_skipBlank hs hcs).fails ((reads_peek 2 cs).fails (w := []) h)

/-- Where an expression is read, it is an operand between parentheses. -/
theorem reads_enclosed (hs : ∀ c ∈ s, isBlank c = true) (hv : inner.Reads v a (w ++ ')' :: r))
    (hw : ∀ c ∈ w, isBlank c = true) :
    (bareOperand inner missing).Reads (s ++ '(' :: (v ++ (w ++ [')']))) a r := by
  refine reads_bareOperand hs (fun c hc => by cases hc; rfl) ?_
  rw [List.cons_append, List.take_succ_cons, operandAhead, if_pos rfl]
  exact (reads_anyChar '(' _).bind (reads_closed (by decide) hv hw _)

/-- Parentheses fail as what is inside of them does. -/
theorem fails_enclosed {cs : List Char} (hs : ∀ c ∈ s, isBlank c = true)
    (h : inner.Fails cs cause) : (bareOperand inner missing).Fails (s ++ '(' :: cs) cause := by
  refine fails_bareOperand hs (fun c hc => by cases hc; rfl) ?_
  rw [List.take_succ_cons, operandAhead, if_pos rfl]
  exact (reads_anyChar '(' cs).fails (h.bind _)

/-! ### Indices -/

theorem reads_indexList_nil (hw : ∀ c ∈ w, isBlank c = true)
    (hr : ∀ c ∈ r.head?, isBlank c = false) (hb : ∀ c ∈ r.head?, (c == '[') = false) :
    (indexList inner).Reads w [] r :=
  reads_collect_nil (reads_openIndex_none hw hr hb)

/-- An index between brackets, and the indices behind it. -/
theorem reads_indexList_cons (hs : ∀ c ∈ s, isBlank c = true)
    (hv : inner.Reads v a (w ++ ']' :: (z ++ r))) (hw : ∀ c ∈ w, isBlank c = true)
    (hz : (indexList inner).Reads z as r) :
    (indexList inner).Reads (s ++ '[' :: (v ++ (w ++ ']' :: z))) (a :: as) r := by
  have h : (indexList inner).Reads ((s ++ ['[']) ++ ((v ++ (w ++ [']'])) ++ z)) (a :: as) r :=
    reads_collect_cons (reads_openIndex hs _) (reads_closed (by decide) hv hw _) hz
  simpa using h

/-- Indices fail as the first of them does. -/
theorem fails_indexList {cs : List Char} (hs : ∀ c ∈ s, isBlank c = true)
    (h : inner.Fails cs cause) : (indexList inner).Fails (s ++ '[' :: cs) cause := by
  have : (indexList inner).Fails ((s ++ ['[']) ++ cs) cause :=
    fails_collect (reads_openIndex hs cs) (h.bind _)
  simpa using this

/-- Indices fail as one behind the first does. -/
theorem fails_indexList_cons {cs : List Char} (hs : ∀ c ∈ s, isBlank c = true)
    (hv : inner.Reads v a (w ++ ']' :: cs)) (hw : ∀ c ∈ w, isBlank c = true)
    (h : (indexList inner).Fails cs cause) :
    (indexList inner).Fails (s ++ '[' :: (v ++ (w ++ ']' :: cs))) cause := by
  have : (indexList inner).Fails ((s ++ ['[']) ++ ((v ++ (w ++ [']'])) ++ cs)) cause :=
    fails_collect_cons (reads_openIndex hs _) (reads_closed (by decide) hv hw _) h
  simpa using this

/-- An operand is read as what it is and then its indices. -/
theorem reads_operand (hv : (bareOperand inner missing).Reads v a (z ++ r))
    (hz : (indexList inner).Reads z as r) :
    (operand inner missing).Reads (v ++ z) (a.withIndices as) r :=
  hv.bind hz.map

/-! ### Chains -/

/-- No operator stands where a text ends or closes. -/
theorem reads_infixOperator_none (h : Closes r) : infixOperator.Reads [] none r := by
  rw [infixOperator_eq]
  refine (reads_skipBlank (w := []) (fun c hc => by cases hc)
    fun c hc => isBlank_closer (h c hc)).nil_bind (reads_next_none ?_)
  intro c cs hcs
  have hc : IsCloser c := h c (by rw [hcs]; rfl)
  rw [chosen, at?_closer (.inl hc)]
  rfl

/-- One operand is a chain. -/
theorem reads_chain_one (hw : (operand inner .missingFirstOperand).Reads w a r) (hr : Closes r) :
    (chain inner).Reads w a r := by
  refine hw.bind_nil ?_
  exact Reads.map (f := fun rest => (Chain.mk a rest).tree)
    (reads_collect_nil (reads_infixOperator_none hr))

theorem tree_two (op : Operator) (a b : Expr) :
    (Chain.mk a [(op, b)]).tree = op.application a b := by
  simp [Chain.tree, Chain.treeFrom, Chain.settle]

/-- Two operands with an operator between them are a chain. -/
theorem reads_chain_two {op : Operator}
    (hv : (operand inner .missingFirstOperand).Reads v a (s ++ (w ++ r)))
    (hs : infixOperator.Reads s (some op) (w ++ r))
    (hw : (operand inner .missingOperand).Reads w b r) (hr : Closes r) :
    (chain inner).Reads (v ++ (s ++ w)) (op.application a b) r := by
  have hrest : (collect infixOperator consumes_infixOperator fun op => do
      return (op, ← operand inner .missingOperand)).Reads (s ++ (w ++ [])) [(op, b)] r :=
    reads_collect_cons hs hw.map (reads_collect_nil (reads_infixOperator_none hr))
  rw [List.append_nil] at hrest
  rw [← tree_two]
  refine Reads.bind (by rwa [List.append_assoc]) ?_
  exact Reads.map (f := fun rest => (Chain.mk a rest).tree) hrest

theorem fails_chain_two {op : Operator} {cs : List Char}
    (hv : (operand inner .missingFirstOperand).Reads v a (s ++ cs))
    (hs : infixOperator.Reads s (some op) cs)
    (h : (operand inner .missingOperand).Fails cs cause) :
    (chain inner).Fails (v ++ (s ++ cs)) cause :=
  have hrest : (collect infixOperator consumes_infixOperator fun op => do
      return (op, ← operand inner .missingOperand)).Fails (s ++ cs) cause :=
    fails_collect hs (h.bind _)
  hv.fails (hrest.bind _)

/-- An operator is told by its own symbol, unless a character behind it makes it another one. -/
theorem at?_symbol (op : Operator) {r : List Char}
    (hr : ∀ c ∈ r.head?, c ≠ '=' ∧ c ≠ '|' ∧ c ≠ '&') :
    Operator.at? ((op.symbol.toList ++ r).take 2) = some op := by
  cases r with
  | nil => cases op <;> decide
  | cons c r =>
      have hc := hr c rfl
      have h₁ : ('=' == c) = false := by simpa using hc.1.symm
      have h₂ : ('|' == c) = false := by simpa using hc.2.1.symm
      have h₃ : ('&' == c) = false := by simpa using hc.2.2.symm
      cases op <;>
        simp [Operator.at?, Operator.all, Operator.symbol, List.find?, List.isPrefixOf, h₁, h₂, h₃]

/-- An operator is read in front of what does not make it a longer one. -/
theorem reads_infixOperator (op : Operator) (hr : ∀ c ∈ r.head?, c ≠ '=' ∧ c ≠ '|' ∧ c ≠ '&') :
    infixOperator.Reads op.symbol.toList (some op) r := by
  have hat := at?_symbol op hr
  have hlen := op.symbol.length_toList
  cases hsym : op.symbol.toList with
  | nil => cases op <;> cases hsym
  | cons c w =>
      rw [hsym] at hat hlen
      have hblank : isBlank c = false := by
        cases op <;> cases hsym <;> rfl
      rw [infixOperator_eq]
      refine (reads_skipBlank (w := []) (fun b hb => by cases hb) fun b hb => ?_).nil_bind
        (reads_next_some ?_)
      · cases hb
        exact hblank
      · rw [List.cons_append, List.take_succ_cons] at hat
        rw [chosen, hat, Option.map_some, ← hlen]
        rfl

end Stencil.Expr
