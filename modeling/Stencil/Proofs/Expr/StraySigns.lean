import Stencil.Proofs.Numeral.LongestMatch

/-!
# Expr — Stray signs

Reading an expression is a fault just where a number in it starts with a point, a sign and a digit,
or has too many digits (`strays_nested`).  The readers of all other tokens fail by errors only; of
the reader of numbers this is known once it has a character to read (`straysAt_number`), and it is
only made to read where there is one.
-/

namespace Stencil

open Text Scanner

/-- Two texts that are cut off behind the same point are alike to the machine for numbers. -/
theorem Scanner.Pointed.alike {r r' : List Char} (h : Pointed r r') : Expr.Alike r r' := by
  obtain ⟨w, s, s', rfl, rfl⟩ := h
  exact Expr.Alike.prefixClosed (.point s s') w

namespace Expr

/-- What is local to the readers of expressions does not look beyond points. -/
theorem upToPoints_of_tracks {α : Type} {d : Nat} {x : Scanner α} (h : Tracks d d x x) :
    UpToPoints x :=
  h.mono Pointed.alike le_rfl

theorem strays_skipBlank : Strays skipBlank :=
  .of_regular (upToPoints_of_tracks (follows_skipBlank (d := 0))) regular_skipBlank

theorem strays_word : Strays (word isSymbol none) :=
  .of_regular (upToPoints_of_tracks (follows_word (d := 0))) (regular_word _ _)

/-- A missing mark is another error than a missing mantissa. -/
theorem strays_closing {cause : Cause} (h : cause ≠ .missingMantissa) (c : Char) :
    Strays (closing c cause) := by
  exact strays_skipBlank.bind fun _ => strays_anyChar.bind fun o =>
    strays_ite (strays_pure ()) (strays_fail h)

theorem strays_openIndex : Strays openIndex :=
  strays_skipBlank.bind fun _ => strays_accept _

theorem strays_infixOperator : Strays infixOperator :=
  .of_regular (upToPoints_of_tracks (follows_infixOperator (d := 0)))
    (regular_skipBlank.bind fun _ => regular_next _ _)

/-- The machine for strings looks at one character at a time, and takes no part in numbers. -/
theorem strays_stringLiteral : Strays stringLiteral := by
  refine .of_regular (upToPoints_of_tracks (follows_stringLiteral (d := 0))) ?_
  refine (regular_accept _).bind fun o => ?_
  cases o with
  | none => exact regular_fail nofun
  | some c =>
      refine (regular_fold _ _ _).bind fun s => ?_
      split
      · exact regular_pure _
      · exact regular_fail nofun

/-- What is glued to a number is looked at behind it. -/
theorem strays_afterNumber (v : Value) : Strays (afterNumber v) := by
  refine .of_regular (upToPoints_of_tracks (follows_afterNumber (d := 0) v)) ?_
  refine regular_peekChar.bind fun o => ?_
  cases o with
  | none => exact regular_pure _
  | some c =>
      dsimp only
      split
      · exact regular_fail nofun
      · exact regular_pure _

/-- At the end of a text no number begins, so the text has to go on. -/
theorem straysAt_number (p : Position) {cs : List Char} (h : cs ≠ []) : number.StraysAt p cs := by
  constructor
  · intro f t hf
    rcases Numeral.of_number_fault hf with ⟨v, rfl, hv⟩ | ⟨w, l, r, hlongest, hlong, rfl⟩
    · exact .inl ⟨[], v, rfl, hv, number_wants_point p⟩
    · exact .inr ⟨⟨_, rfl⟩, hlongest.text_eq ▸ hlong.longRun r⟩
  · intro hw
    rcases eq_of_number_wants hw with rfl | rfl
    · exact absurd rfl h
    · exact ⟨[], rfl, fun v hv => number_faults_of_stray hv⟩

theorem straysAt_numberOperand (p : Position) {cs : List Char} (h : cs ≠ []) :
    numberOperand.StraysAt p cs :=
  (straysAt_number p h).bind (upToPoints_of_tracks (follows_number (d := 0)))
    fun v _ r _ _ => (strays_afterNumber v).straysAt _ r

/-- Before texts that agree up to a point, operands of the same sort are read. -/
theorem operandAhead_pointed (inner : Scanner Expr) (missing : Cause) {cs s : List Char}
    (h : Pointed cs s) :
    operandAhead inner missing (s.take 2) = operandAhead inner missing (cs.take 2) := by
  obtain ⟨c, r, r', rfl, rfl⟩ := h.exists_cons
  by_cases hc : IsCloser c
  · simp only [List.take_succ_cons, operandAhead_closer inner missing hc]
  · exact operandAhead_alike inner missing h.alike hc

variable {inner : Scanner Expr} {missing : Cause}

/-- An expression of the next level, with its closing mark. -/
theorem strays_closed (h : Strays inner) {cause : Cause} (hcause : cause ≠ .missingMantissa)
    (c : Char) : Strays (closed inner c cause) :=
  h.bind fun e => (strays_closing hcause c).bind fun _ => strays_pure e

theorem strays_indexList (h : Strays inner) : Strays (indexList inner) :=
  strays_collect strays_openIndex fun _ => strays_closed h (by simp) ']'

/-- What is read as an operand has the faults of the expression inside, or is a number. -/
theorem strays_operandAhead (h : Strays inner) (hmissing : missing ≠ .missingMantissa)
    (ahead : List Char) : Strays (operandAhead inner missing ahead) ∨
      ahead ≠ [] ∧ operandAhead inner missing ahead = numberOperand := by
  cases ahead with
  | nil => exact .inl (strays_fail hmissing)
  | cons c rest =>
      rw [operandAhead]
      split
      · exact .inl (strays_anyChar.bind fun _ => strays_closed h (by simp) ')')
      split
      · exact .inl (strays_stringLiteral.map _)
      split
      · exact .inr ⟨by simp, rfl⟩
      split
      · exact .inl (strays_word.map _)
      · exact .inl (strays_fail hmissing)

/-- A number is tried only where the text goes on; the other operands have no mantissa. -/
theorem strays_bareOperand (h : Strays inner) (hmissing : missing ≠ .missingMantissa) :
    Strays (bareOperand inner missing) := by
  rw [bareOperand_eq]
  refine strays_skipBlank.bind fun _ => strays_peek (operandAhead_pointed inner missing)
    (fun ahead => ?_) fun p cs => ?_
  · rcases strays_operandAhead h hmissing ahead with hs | ⟨-, hn⟩
    · exact hs.upToPoints
    · rw [hn]
      exact upToPoints_of_tracks (follows_numberOperand (d := 0))
  · rcases strays_operandAhead h hmissing (cs.take 2) with hs | ⟨hne, hn⟩
    · exact hs.straysAt p cs
    · rw [hn]
      exact straysAt_numberOperand p fun hcs => hne (by rw [hcs, List.take_nil])

/-- The indices of an operand follow whatever kind it is of. -/
theorem strays_operand (h : Strays inner) (hmissing : missing ≠ .missingMantissa) :
    Strays (operand inner missing) :=
  (strays_bareOperand h hmissing).bind fun e => (strays_indexList h).map e.withIndices

/-- A chain is an operand, and pairs of an operator and an operand. -/
theorem strays_chain (h : Strays inner) : Strays (chain inner) := by
  refine (strays_operand h (by simp)).bind fun first => ?_
  refine Strays.map ?_ fun rest => (Chain.mk first rest).tree
  exact strays_collect strays_infixOperator fun op => (strays_operand h (by simp)).map (Prod.mk op)

/-- **Reading an expression is a fault** just at the stray signs behind points where it wants for a
mantissa, or at digits in too long a row. -/
theorem strays_nested (d : Nat) : Strays (nested d) := by
  induction d with
  | zero => exact strays_chain (strays_fail (by simp))
  | succ d ih => exact strays_chain ih

theorem strays_scanner : Strays Expr.scanner :=
  strays_nested nestingLimit

end Expr

end Stencil
