/-!
# Numeral — Rounding

Division rounded to the nearest natural number, a tie going to the even neighbour.  The result is
within half a unit of the quotient (`two_mul_roundDiv_le`, `le_two_mul_roundDiv`), and an exact
quotient is left alone (`roundDiv_mul_right`).
-/

namespace Stencil.Numeral

/-- `n / d` to the nearest natural number, ties to even. -/
def roundDiv (n d : Nat) : Nat :=
  if 2 * (n % d) < d then n / d
  else if d < 2 * (n % d) then n / d + 1
  else n / d + n / d % 2

theorem roundDiv_le_succ (n d : Nat) : roundDiv n d ≤ n / d + 1 := by
  unfold roundDiv
  split
  · omega
  split
  · omega
  · have := Nat.mod_lt (n / d) (by decide : 0 < 2)
    omega

/-- The rounded quotient is one of the two integers next to the quotient. -/
theorem le_roundDiv (n d : Nat) : n / d ≤ roundDiv n d := by
  unfold roundDiv
  split
  · omega
  split <;> omega

/-- It exceeds the quotient by a half at most. -/
theorem two_mul_roundDiv_le (n d : Nat) : 2 * (roundDiv n d * d) ≤ 2 * n + d := by
  have hn := Nat.div_add_mod n d
  rw [Nat.mul_comm d] at hn
  have hm : (n / d + 1) * d = n / d * d + d := Nat.succ_mul _ _
  unfold roundDiv
  split
  · omega
  split
  · omega
  · rcases Nat.mod_two_eq_zero_or_one (n / d) with h | h <;> rw [h]
    · rw [Nat.add_zero]; omega
    · omega

/-- It falls short of the quotient by a half at most. -/
theorem le_two_mul_roundDiv {n d : Nat} (hd : 0 < d) : 2 * n ≤ 2 * (roundDiv n d * d) + d := by
  have hn := Nat.div_add_mod n d
  rw [Nat.mul_comm d] at hn
  have hm : (n / d + 1) * d = n / d * d + d := Nat.succ_mul _ _
  have hlt := Nat.mod_lt n hd
  unfold roundDiv
  split
  · omega
  split
  · omega
  · rcases Nat.mod_two_eq_zero_or_one (n / d) with h | h <;> rw [h]
    · rw [Nat.add_zero]; omega
    · omega

/-- A quotient without a remainder is not rounded. -/
theorem roundDiv_mul_right (q : Nat) {d : Nat} (hd : 0 < d) : roundDiv (q * d) d = q := by
  simp [roundDiv, Nat.mul_div_cancel q hd, hd]

end Stencil.Numeral
