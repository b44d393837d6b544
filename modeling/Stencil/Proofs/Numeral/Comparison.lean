import Stencil.Value.Operation

/-!
# Numeral — Comparison

The order of two floating point numbers.  Two numbers are the same when their difference is exactly
zero, and the difference of two finite numbers is exact as far as zero is concerned: it rounds to
zero only where it is zero (`same_finite`).  So finite numbers are ordered by their signed units
(`orderNumbers_finite`), and the comparison the other way round gives the opposite order
(`orderNumbers_swap`).

An infinity has no difference from itself.  It is neither the same as itself nor less, so it counts
as greater than itself (`orderNumbers_infinite`).
-/

namespace Stencil

open Numeral

namespace Binary64

/-! ### Rounding to zero -/

theorem limit_pos : 0 < limit := by
  decide +kernel

@[simp] theorem roundUnits_zero : roundUnits 0 1 = 0 :=
  roundUnits_of_fits (Nat.dvd_zero _)

theorem spacing_le {u : Nat} (h : u ≠ 0) : spacing u ≤ u :=
  Nat.le_trans (Nat.pow_le_pow_right (by decide) (Nat.sub_le _ _)) (Nat.log2_self_le h)

/-- Only zero units round to zero. -/
theorem roundUnits_eq_zero_iff {u : Nat} : roundUnits u 1 = 0 ↔ u = 0 := by
  refine ⟨fun h => ?_, fun h => by rw [h, roundUnits_zero]⟩
  apply Classical.byContradiction
  intro hu
  have hone : 1 ≤ u / spacing u := Nat.div_pos (spacing_le hu) (spacing_pos u)
  have hle : u / spacing u ≤ roundDiv u (spacing u) := le_roundDiv u (spacing u)
  simp only [roundUnits, Nat.div_one, Nat.one_mul, Nat.mul_eq_zero] at h
  rcases h with h | h
  · omega
  · exact Nat.ne_of_gt (spacing_pos u) h

theorem isZero_ofRatio (negative : Bool) (num den : Nat) :
    (ofRatio negative num den).isZero = (roundUnits num den == 0) := by
  unfold ofRatio
  split
  · rfl
  · next h =>
    have hne : roundUnits num den ≠ 0 := fun h0 => h (h0 ▸ limit_pos)
    exact (beq_eq_false_iff_ne.mpr hne).symm

@[simp] theorem isZero_zero (negative : Bool) : (zero negative).isZero = true := by
  rw [zero, isZero_ofRatio, roundUnits_zero]
  rfl

/-! ### Sameness -/

theorem signed_not (negative : Bool) (u : Nat) : signed (!negative) u = -signed negative u := by
  cases negative <;> simp [signed]

/-- **Finite numbers are the same** just when they have the same units and sign, or are zeros. -/
theorem same_finite {n m : Bool} {u v : Nat} (hu : Fits u) (hv : Fits v) :
    (finite n u hu).same (finite m v hv) = true ↔ signed n u = signed m v := by
  have hsum : signed n u + signed (!m) v = signed n u - signed m v := by
    rw [signed_not]
    omega
  rw [same, sub, neg, add]
  simp only [hsum]
  split
  · rw [isZero_zero]
    exact iff_of_true rfl (by omega)
  · rw [isZero_ofRatio, beq_iff_eq, roundUnits_eq_zero_iff]
    omega

end Binary64

/-! ### Order -/

namespace Value

open Binary64

/-- Finite numbers are ordered by their signed units. -/
theorem orderNumbers_finite {n m : Bool} {u v : Nat} (hu : Fits u) (hv : Fits v) :
    orderNumbers (.finite n u hu) (.finite m v hv) =
      compareOfLessAndEq (signed n u) (signed m v) := by
  rw [orderNumbers, compareOfLessAndEq]
  by_cases heq : signed n u = signed m v
  · rw [if_pos ((same_finite hu hv).mpr heq), if_neg (by omega), if_pos heq]
  · rw [if_neg (heq ∘ (same_finite hu hv).mp), if_neg heq]
    simp only [lt, decide_eq_true_eq]

/-- An infinity counts as greater than itself. -/
theorem orderNumbers_infinite (n : Bool) : orderNumbers (.infinite n) (.infinite n) = .gt := by
  cases n <;> rfl

/-- **The order of two numbers the other way round is the opposite one**, if neither is not-a-number
and they are not the same infinity. -/
theorem orderNumbers_swap {x y : Binary64} (hx : x ≠ .nan) (hy : y ≠ .nan)
    (hxy : ∀ n, ¬(x = .infinite n ∧ y = .infinite n)) :
    orderNumbers y x = (orderNumbers x y).swap := by
  cases x with
  | nan => exact absurd rfl hx
  | infinite n =>
      cases y with
      | nan => exact absurd rfl hy
      | infinite m =>
          have hne : n ≠ m := by
            rintro rfl
            exact hxy n ⟨rfl, rfl⟩
          obtain rfl : n = !m := Bool.eq_not_of_ne hne
          cases m <;> rfl
      | finite => cases n <;> rfl
  | finite n u hu =>
      cases y with
      | nan => exact absurd rfl hy
      | infinite m => cases m <;> rfl
      | finite m v hv =>
          rw [orderNumbers_finite, orderNumbers_finite]
          exact compareOfLessAndEq_eq_swap Int.le_antisymm Int.le_total Int.not_le

end Value

end Stencil
