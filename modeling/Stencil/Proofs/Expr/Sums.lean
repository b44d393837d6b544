import Stencil.Proofs.Expr.Printing

/-!
# Expr — Sums

Expressions may be as high as their texts are long: a sum of ones is read, however many there are,
as a tree that leans to the left (`ofText_ones`).  It is as high as there are ones, and so is the
recursion that makes its text, but for one call.
-/

namespace Stencil.Expr

open Scanner Text

/-- The summand of the sums. -/
def one : Expr :=
  .literal (.integer 1) []

/-- The tree of a sum of ones, with as many plus signs. -/
def sum : Nat → Expr
  | 0 => one
  | k + 1 => .binary "+" (sum k) one []

theorem textDepth_sum (k : Nat) : (sum k).textDepth = k + 2 := by
  induction k with
  | zero => rfl
  | succ k ih =>
      change max (max (sum k).textDepth 2 + 1) 0 = _
      omega

/-- Plus signs, each with a one behind it. -/
def plusOnes : Nat → List Char
  | 0 => []
  | k + 1 => '+' :: '1' :: plusOnes k

/-- A sum of ones, with as many plus signs. -/
def ones (k : Nat) : List Char :=
  '1' :: plusOnes k

theorem beyond_plusOnes (k : Nat) : Beyond (plusOnes k) := by
  cases k with
  | zero => exact beyond_nil
  | succ k => exact beyond_operator .plus _

theorem reads_one (d : Nat) (missing : Cause) {r : List Char} (hr : Beyond r) :
    (operand (inside d) missing).Reads ['1'] one r := by
  have htext : one.text.toList = ['1'] := by with_unfolding_all rfl
  rw [← htext]
  exact reads_spaced one ⟨rfl, trivial⟩ (spaced_text one) (Nat.zero_le d) hr

theorem reads_plusOnes (d k : Nat) :
    (collect infixOperator consumes_infixOperator fun op => do
      return (op, ← operand (inside d) .missingOperand)).Reads (plusOnes k)
        (List.replicate k (.plus, one)) [] := by
  induction k with
  | zero => exact reads_collect_nil (reads_infixOperator_none closes_nil)
  | succ k ih =>
      have hplus : infixOperator.Reads ['+'] (some .plus) (['1'] ++ (plusOnes k ++ [])) :=
        reads_infixOperator .plus fun c hc => by cases hc; decide
      have hone : (operand (inside d) .missingOperand).Reads ['1'] one (plusOnes k ++ []) :=
        reads_one d _ (by rw [List.append_nil]; exact beyond_plusOnes k)
      exact reads_collect_cons hplus hone.map ih

/-- Each further summand is added to the sum of those before it. -/
theorem treeFrom_ones (j k : Nat) :
    Chain.treeFrom [(sum j, .plus)] one (List.replicate k (.plus, one)) = sum (j + 1 + k) := by
  induction k generalizing j with
  | zero => rfl
  | succ k ih =>
      -- The next plus sign settles the one that waits, since neither binds more tightly.
      change Chain.treeFrom [(sum (j + 1), .plus)] one (List.replicate k (.plus, one)) = _
      rw [ih, Nat.add_assoc _ 1 k, Nat.add_comm 1 k]

/-- **A sum of ones** is read as its tree. -/
theorem ofText_ones (k : Nat) : ofText (ones (k + 1)) = .ok (sum (k + 1)) := by
  have htree : (Chain.mk one (List.replicate (k + 1) (.plus, one))).tree = sum (k + 1) := by
    change Chain.treeFrom [(sum 0, .plus)] one (List.replicate k (.plus, one)) = _
    rw [treeFrom_ones, Nat.zero_add, Nat.add_comm]
  have hchain : scanner.Reads (ones (k + 1))
      (Chain.mk one (List.replicate (k + 1) (.plus, one))).tree [] := by
    rw [scanner, nested_eq_chain]
    refine Reads.bind (v := ['1']) (reads_one nestingLimit _ ?_) ?_
    · rw [List.append_nil]
      exact beyond_plusOnes (k + 1)
    · exact Reads.map (f := fun rest => (Chain.mk one rest).tree)
        (reads_plusOnes nestingLimit (k + 1))
  rw [htree] at hchain
  have htext := ofText_of_reads hchain fun c hc => by cases hc
  rwa [List.append_nil] at htext

end Stencil.Expr
