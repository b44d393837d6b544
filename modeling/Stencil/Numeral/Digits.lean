import Stencil.Text.Classes

/-!
# Numeral — Digits

Positional notation: the number a list of digits stands for in a base, and the decimal digits of
a number, most significant first and without a leading zero.  The two are inverse
(`valueOf_decimal`).
-/

namespace Stencil.Numeral

open Stencil.Text

/-- The number that `digits` stands for in `base`; a character that is no digit counts as zero. -/
def valueOf (base : Nat) (digits : List Char) : Nat :=
  digits.foldl (fun n c => base * n + (digit? c).getD 0) 0

/-- The greatest number of decimal digits that are read as an integer. -/
def digitLimit : Nat := 4300

/-- Too many digits to be read as an integer.  Only decimal digits are limited, as the other bases
are powers of two. -/
def overlong (base : Nat) (digits : List Char) : Bool :=
  base == 10 && digitLimit < digits.length

/-- The decimal digit of `d`, for `d` below ten. -/
def digitChar (d : Nat) : Char :=
  Char.ofNat ('0'.toNat + d)

/-- The decimal digits of `n`; zero is written `0`. -/
def decimal (n : Nat) : List Char :=
  if n < 10 then [digitChar n] else decimal (n / 10) ++ [digitChar (n % 10)]
termination_by n
decreasing_by omega

/-- The decimal text of an integer, a minus sign before its digits when it is negative.  Integers of
more than `digitLimit` digits are not told apart, though they have no text in fact: no computation
of the engine comes to one, only its surroundings may give it one. -/
def integerText (n : Int) : String :=
  String.ofList (if n < 0 then '-' :: decimal n.natAbs else decimal n.natAbs)

theorem digit?_digitChar {d : Nat} (h : d < 10) : digit? (digitChar d) = some d := by
  have hd : d = 0 ∨ d = 1 ∨ d = 2 ∨ d = 3 ∨ d = 4 ∨ d = 5 ∨ d = 6 ∨ d = 7 ∨ d = 8 ∨ d = 9 := by
    omega
  rcases hd with rfl | rfl | rfl | rfl | rfl | rfl | rfl | rfl | rfl | rfl <;> decide

theorem valueOf_append_singleton (base : Nat) (digits : List Char) (c : Char) :
    valueOf base (digits ++ [c]) = base * valueOf base digits + (digit? c).getD 0 := by
  simp [valueOf, List.foldl_append]

theorem valueOf_decimal (n : Nat) : valueOf 10 (decimal n) = n := by
  fun_induction decimal n with
  | case1 n h => simp [valueOf, digit?_digitChar h]
  | case2 n h ih =>
    rw [valueOf_append_singleton, ih, digit?_digitChar (Nat.mod_lt n (by decide))]
    simp only [Option.getD_some]
    omega

theorem decimal_ne_nil (n : Nat) : decimal n ≠ [] := by
  rw [decimal]; split <;> simp

/-- A number below a power of ten has no more digits than its exponent says. -/
theorem length_decimal_le {n k : Nat} (h : n < Nat.pow 10 (k + 1)) :
    (decimal n).length ≤ k + 1 := by
  induction k generalizing n with
  | zero =>
    rw [decimal, if_pos h]
    exact Nat.le_refl 1
  | succ k ih =>
    have hten : n < Nat.pow 10 (k + 1) * 10 := h
    rw [decimal]
    split
    · exact Nat.succ_le_succ (Nat.zero_le _)
    · rw [List.length_append]
      exact Nat.add_le_add_right (ih (Nat.div_lt_of_lt_mul (Nat.mul_comm _ _ ▸ hten))) 1

end Stencil.Numeral
