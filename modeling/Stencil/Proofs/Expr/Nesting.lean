import Stencil.Proofs.Scanner.Locality
import Stencil.Text.Classes

/-!
# Expr — Nesting

How deep parentheses and brackets nest in the text of an expression.  Those inside a string literal
do not count, so a text is gone over with what is open so far (`Opened`).

A text is *balanced* to a depth when going over it closes whatever it opens, and opens no more than
that many at once (`Balanced`).  Balanced texts can be put in a row (`Balanced.append`) and enclosed
(`Balanced.enclosed`), and the depth is the nesting of the text (`nesting_of_balanced`).
-/

namespace Stencil

/-- What is open at a place of an expression text: whether a string literal is, whether a backslash
stands just before in it, how many parentheses and brackets are, and the most there have been. -/
structure Opened where
  quoted : Bool
  escaped : Bool
  depth : Nat
  deepest : Nat
deriving DecidableEq, Repr

namespace Opened

/-- Nothing is open. -/
def none : Opened := ⟨false, false, 0, 0⟩

/-- What is open behind one more character. -/
def next (s : Opened) (c : Char) : Opened :=
  if s.quoted then
    if s.escaped then { s with escaped := false }
    else if c = '\\' then { s with escaped := true }
    else if c = '"' then { s with quoted := false }
    else s
  else if c = '"' then { s with quoted := true }
  else if c = '(' ∨ c = '[' then
    { s with depth := s.depth + 1, deepest := max s.deepest (s.depth + 1) }
  else if c = ')' ∨ c = ']' then { s with depth := s.depth - 1 }
  else s

end Opened

namespace Expr

/-- How deep the parentheses and brackets of a text nest. -/
def nesting (text : List Char) : Nat :=
  (text.foldl Opened.next .none).deepest

/-- Going over a text outside of string literals leaves open what was, and opens no more than `k`
parentheses and brackets at once. -/
def Balanced (w : List Char) (k : Nat) : Prop :=
  ∀ n m, n ≤ m → w.foldl Opened.next ⟨false, false, n, m⟩ = ⟨false, false, n, max m (n + k)⟩

theorem nesting_of_balanced {w : List Char} {k : Nat} (h : Balanced w k) : nesting w = k := by
  have h₀ := h 0 0 (Nat.le_refl 0)
  rw [nesting, Opened.none, h₀, Nat.zero_max, Nat.zero_add]

namespace Balanced

theorem nil : Balanced [] 0 := by
  intro n m h
  rw [List.foldl_nil, Nat.add_zero, Nat.max_eq_left h]

theorem append {v w : List Char} {k m : Nat} (hv : Balanced v k) (hw : Balanced w m) :
    Balanced (v ++ w) (max k m) := by
  intro n g h
  rw [List.foldl_append, hv n g h, hw n _ (h.trans (Nat.le_max_left _ _)), Nat.max_assoc,
    Nat.add_max_add_left]

/-- A character that opens and closes nothing. -/
def Plain (c : Char) : Prop :=
  c ≠ '"' ∧ c ≠ '(' ∧ c ≠ '[' ∧ c ≠ ')' ∧ c ≠ ']'

theorem of_plain {w : List Char} (h : ∀ c ∈ w, Plain c) : Balanced w 0 := by
  induction w with
  | nil => exact nil
  | cons c w ih =>
      intro n m hnm
      obtain ⟨h₁, h₂, h₃, h₄, h₅⟩ := h c (by simp)
      have hc : Opened.next ⟨false, false, n, m⟩ c = ⟨false, false, n, m⟩ := by
        simp [Opened.next, h₁, h₂, h₃, h₄, h₅]
      rw [List.foldl_cons, hc]
      exact ih (fun d hd => h d (by simp [hd])) n m hnm

/-- A balanced text between parentheses, or between brackets, goes one deeper. -/
theorem enclosed {w : List Char} {k : Nat} (h : Balanced w k) {o c : Char}
    (ho : o = '(' ∨ o = '[') (hc : c = ')' ∨ c = ']') : Balanced (o :: (w ++ [c])) (k + 1) := by
  intro n m hnm
  have hopen : Opened.next ⟨false, false, n, m⟩ o = ⟨false, false, n + 1, max m (n + 1)⟩ := by
    rcases ho with rfl | rfl <;> rfl
  have hclose : ∀ g, Opened.next ⟨false, false, n + 1, g⟩ c = ⟨false, false, n, g⟩ := by
    intro g
    rcases hc with rfl | rfl <;> rfl
  rw [List.foldl_cons, hopen, List.foldl_append, h (n + 1) _ (Nat.le_max_right _ _),
    List.foldl_cons, List.foldl_nil, hclose, Nat.max_assoc]
  congr 2
  rw [Nat.max_eq_right (Nat.le_add_right _ _), Nat.add_assoc, Nat.add_comm 1 k]

/-- A balanced text that is entered and left within a string literal. -/
theorem of_quoted {w : List Char}
    (h : ∀ n m, w.foldl Opened.next ⟨true, false, n, m⟩ = ⟨false, false, n, m⟩) :
    Balanced ('"' :: w) 0 := by
  intro n m hnm
  rw [List.foldl_cons, Nat.add_zero, Nat.max_eq_left hnm]
  exact h n m

/-- The nesting of texts, as a measure of what is read. -/
def measure : Scanner.Measure where
  Holds := Balanced
  nil := nil
  append := append

end Balanced

theorem plain_of_isBlank {c : Char} (h : Text.isBlank c = true) : Balanced.Plain c := by
  refine ⟨?_, ?_, ?_, ?_, ?_⟩ <;> rintro rfl <;> exact absurd h (by decide)

theorem plain_of_isSymbol {c : Char} (h : Text.isSymbol c = true) : Balanced.Plain c := by
  refine ⟨?_, ?_, ?_, ?_, ?_⟩ <;> rintro rfl <;> exact absurd h (by decide)

theorem balanced_of_blanks {w : List Char} (h : ∀ c ∈ w, Text.isBlank c = true) : Balanced w 0 :=
  .of_plain fun c hc => plain_of_isBlank (h c hc)

end Expr

end Stencil
