import Stencil.Proofs.Numeral.Comparison
import Stencil.Proofs.Value.Range

/-!
# Numeral — The float nearest to an integer

A float that is an integer is the float nearest to that integer (`eq_ofInt_of_toInt?`), and an
integer is what the float nearest to it is just when it has no more than 53 significant binary
digits (`Represents`, `toInt?_ofInt_iff`).  Integers of 64 bits have a finite nearest float
(`isFinite_ofInt`).

Rounding moves a number of units by no more than half of the distance between neighbours there, and
that distance is small beside the number (`spacing_small`).  So of two numbers that are far enough
apart for their size, the smaller one rounds to less (`roundUnits_lt_roundUnits`).
-/

namespace Stencil

open Numeral

namespace Binary64

variable {x : Binary64} {n : Int} {u v m : Nat}

/-! ### Distances -/

/-- The distance between neighbours is one unit, or small beside the numbers there. -/
theorem spacing_small (h : u ≠ 0) : spacing u = 1 ∨ 4503599627370496 * spacing u ≤ u := by
  rcases Nat.lt_or_ge u.log2 52 with hlog | hlog
  · left
    rw [spacing, Nat.sub_eq_zero_of_le (Nat.le_of_lt hlog)]
  · right
    have hpow : 4503599627370496 * Nat.pow 2 (u.log2 - 52) = Nat.pow 2 (52 + (u.log2 - 52)) :=
      (Nat.pow_add 2 52 _).symm
    rw [spacing, hpow, Nat.add_sub_cancel' hlog]
    exact Nat.log2_self_le h

/-- Rounding adds at most half the spacing. -/
theorem two_mul_roundUnits_le (u : Nat) : 2 * roundUnits u 1 ≤ 2 * u + spacing u := by
  have h := two_mul_roundDiv_le u (spacing u)
  simpa only [roundUnits, Nat.div_one, Nat.one_mul] using h

/-- Rounding takes away at most half the spacing. -/
theorem le_two_mul_roundUnits (u : Nat) : 2 * u ≤ 2 * roundUnits u 1 + spacing u := by
  have h := le_two_mul_roundDiv (n := u) (spacing_pos u)
  simpa only [roundUnits, Nat.div_one, Nat.one_mul] using h

theorem roundUnits_le_two_mul (u : Nat) : roundUnits u 1 ≤ 2 * u := by
  rcases Nat.eq_zero_or_pos u with rfl | hu
  · exact Nat.le_of_eq roundUnits_zero
  · have hle := spacing_le (Nat.ne_of_gt hu)
    have hround := two_mul_roundUnits_le u
    omega

/-- Of two numbers of units of which one is greater by an eighth, the smaller rounds to less. -/
theorem roundUnits_lt_roundUnits (hu : 4503599627370496 ≤ u) (h : 9 * u ≤ 8 * v) :
    roundUnits u 1 < roundUnits v 1 := by
  have hsmall : 4503599627370496 * spacing u ≤ u := by
    rcases spacing_small (u := u) (by omega) with hs | hs <;> omega
  have hsmall' : 4503599627370496 * spacing v ≤ v := by
    rcases spacing_small (u := v) (by omega) with hs | hs <;> omega
  -- Rounding brings the two closer by half a distance each, which is far less than an eighth.
  have hround := two_mul_roundUnits_le u
  have hround' := le_two_mul_roundUnits v
  omega

/-! ### Integers in units -/

theorem one_pos : 0 < one := by
  decide +kernel

/-- Two to the power `k` times a number has `k` binary digits more. -/
theorem log2_mul_pow (h : m ≠ 0) (k : Nat) : (m * Nat.pow 2 k).log2 = m.log2 + k := by
  have hpos : 0 < Nat.pow 2 k := Nat.two_pow_pos k
  have hlow : Nat.pow 2 (m.log2 + k) = Nat.pow 2 m.log2 * Nat.pow 2 k := Nat.pow_add 2 _ _
  have hhigh : Nat.pow 2 (m.log2 + k + 1) = Nat.pow 2 (m.log2 + 1) * Nat.pow 2 k := by
    rw [Nat.add_right_comm]
    exact Nat.pow_add 2 _ _
  rw [Nat.log2_eq_iff (Nat.mul_ne_zero h (Nat.ne_of_gt hpos))]
  refine ⟨?_, ?_⟩
  · change Nat.pow 2 (m.log2 + k) ≤ _
    rw [hlow]
    exact Nat.mul_le_mul_right _ (Nat.log2_self_le h)
  · change _ < Nat.pow 2 (m.log2 + k + 1)
    rw [hhigh]
    exact Nat.mul_lt_mul_of_pos_right Nat.lt_log2_self hpos

/-- An integer has no more than 53 significant binary digits: it is a multiple of the distance
between neighbours around it. -/
def Represents (n : Int) : Prop :=
  spacing n.natAbs ∣ n.natAbs

instance (n : Int) : Decidable (Represents n) :=
  inferInstanceAs (Decidable (_ ∣ _))

theorem exists_one_eq_pow : ∃ k, 52 ≤ k ∧ one = Nat.pow 2 k :=
  ⟨1074, by decide, by decide +kernel⟩

/-- A multiple of the distance in ones is one in units, and the other way round. -/
theorem spacing_dvd_mul_one_iff (m : Nat) : spacing (m * one) ∣ m * one ↔ spacing m ∣ m := by
  rcases Nat.eq_zero_or_pos m with rfl | hm
  · rw [Nat.zero_mul]
  have hm : m ≠ 0 := Nat.ne_of_gt hm
  obtain ⟨k, hk, hone⟩ := exists_one_eq_pow
  have hlog : (m * one).log2 = m.log2 + k := hone ▸ log2_mul_pow hm k
  rcases Nat.lt_or_ge m.log2 52 with hsmall | hlarge
  · -- Neighbours of a number with so few digits are no more than one apart.
    have hunits : spacing (m * one) ∣ one := by
      rw [spacing, hlog, hone]
      exact Nat.pow_dvd_pow 2 (by omega)
    have hones : spacing m = 1 := by
      rw [spacing, Nat.sub_eq_zero_of_le (Nat.le_of_lt hsmall)]
    rw [hones]
    exact iff_of_true (Nat.dvd_trans hunits (Nat.dvd_mul_left _ _)) (Nat.one_dvd m)
  · have hunits : spacing (m * one) = spacing m * one := by
      have hexponent : m.log2 + k - 52 = (m.log2 - 52) + k := by omega
      rw [spacing, hlog, hexponent, hone]
      exact Nat.pow_add 2 _ _
    rw [hunits]
    exact Nat.mul_dvd_mul_iff_right one_pos

/-! ### The nearest float -/

theorem signed_natAbs (n : Int) : signed (n < 0) n.natAbs = n := by
  by_cases hn : n < 0
  · rw [signed, if_pos (decide_eq_true hn)]
    omega
  · rw [signed, if_neg (by simp [hn])]
    omega

theorem natAbs_signed (negative : Bool) (u : Nat) : (signed negative u).natAbs = u := by
  cases negative <;> simp [signed]

/-- An integer of 64 bits rounds to no more than the units that a finite number may have. -/
theorem roundUnits_lt_limit (hn : inRange n = true) : roundUnits (n.natAbs * one) 1 < limit := by
  have hwide : 2 * (9223372036854775808 * one) < limit := by decide +kernel
  have hle : n.natAbs ≤ 9223372036854775808 := by
    rw [inRange_iff] at hn
    omega
  exact Nat.lt_of_le_of_lt
    (Nat.le_trans (roundUnits_le_two_mul _) (Nat.mul_le_mul_left 2 (Nat.mul_le_mul_right one hle)))
    hwide

/-- What is a finite number already stays what it is. -/
theorem ofRatio_of_fits (negative : Bool) (h : Fits u) :
    ofRatio negative u 1 = .finite negative u h := by
  have hround : roundUnits u 1 = u := roundUnits_of_fits h.2
  have hlimit : roundUnits u 1 < limit := hround.symm ▸ h.1
  rw [ofRatio, dif_pos hlimit]
  congr 1

theorem fits_roundUnits (h : roundUnits u 1 < limit) : Fits (roundUnits u 1) :=
  ⟨h, spacing_dvd_roundUnits u 1⟩

/-- The float of an integer of 64 bits is finite, and its units are rounded once. -/
theorem ofInt_eq (hn : inRange n = true) : ofInt n =
    .finite (n < 0) (roundUnits (n.natAbs * one) 1) (fits_roundUnits (roundUnits_lt_limit hn)) := by
  rw [ofInt, ofRatio, dif_pos (roundUnits_lt_limit hn)]

theorem isFinite_ofInt (hn : inRange n = true) : (ofInt n).isFinite = true := by
  rw [ofInt_eq hn]
  rfl

/-- A finite float is an integer just if its units make whole ones. -/
theorem toInt?_finite (negative : Bool) {u : Nat} (h : Fits u) :
    (finite negative u h).toInt? = if u % one = 0 then some (signed negative (u / one)) else none :=
  rfl

/-- **The float nearest to an integer is that integer** just when the integer has no more than 53
significant binary digits. -/
theorem toInt?_ofInt_iff (hn : inRange n = true) : (ofInt n).toInt? = some n ↔ Represents n := by
  rw [Represents, ← spacing_dvd_mul_one_iff, ofInt_eq hn, toInt?_finite]
  constructor
  · intro h
    split at h
    · next hmod =>
      -- What is rounded is a multiple of the distance there, and here rounding changed nothing.
      have hround : roundUnits (n.natAbs * one) 1 = n.natAbs * one := by
        rw [← Nat.div_mul_cancel (Nat.dvd_of_mod_eq_zero hmod)]
        congr 1
        rw [← natAbs_signed (n < 0) (_ / one), Option.some.inj h]
      exact hround ▸ spacing_dvd_roundUnits (n.natAbs * one) 1
    · cases h
  · intro h
    rw [roundUnits_of_fits h, Nat.mul_mod_left, if_pos rfl, Nat.mul_div_cancel _ one_pos,
      signed_natAbs]

/-- A natural number with a sign, rounded, is the float nearest to the integer, unless it is zero
with a minus sign. -/
theorem ofRatio_natural {negative : Bool} (h : ¬(m = 0 ∧ negative = true)) :
    ofRatio negative (m * one) 1 = ofInt (signed negative m) := by
  have hsign : decide (signed negative m < 0) = negative := by
    cases negative with
    | false => exact decide_eq_false (by simp [signed])
    | true =>
        have hm : m ≠ 0 := fun hzero => h ⟨hzero, rfl⟩
        have hneg : signed true m = -(m : Int) := rfl
        exact decide_eq_true (by rw [hneg]; omega)
  rw [ofInt, natAbs_signed, hsign]

theorem ofRatio_zero (negative : Bool) : ofRatio negative (0 * one) 1 = zero negative := by
  rw [Nat.zero_mul, zero]

theorem signed_zero (negative : Bool) : signed negative 0 = 0 := by
  cases negative <;> rfl

theorem ofScaled_zero (negative : Bool) (m base : Nat) :
    ofScaled negative m base 0 = ofRatio negative (m * one) 1 := by
  rcases Nat.eq_zero_or_pos m with rfl | hm
  · unfold ofScaled
    rw [if_pos rfl, Nat.zero_mul, zero]
  · have hpow : m * base.pow 0 = m := Nat.mul_one m
    have h : ofScaled negative m base (.ofNat 0) = ofRatio negative (m * base.pow 0 * one) 1 := by
      unfold ofScaled
      rw [if_neg (Nat.ne_of_gt hm)]
      exact if_neg (by decide)
    rw [hpow] at h
    exact h

/-- **A float that is an integer is the float nearest to it**, but for the sign of a zero. -/
theorem eq_ofInt_of_toInt? (h : x.toInt? = some n) : x = ofInt n ∨ n = 0 ∧ x = zero true := by
  cases x with
  | nan | infinite => cases h
  | finite negative u hu =>
      rw [toInt?_finite] at h
      split at h
      · next hmod =>
        have hn : n = signed negative (u / one) := (Option.some.inj h).symm
        have hunits : u / one * one = u := Nat.div_mul_cancel (Nat.dvd_of_mod_eq_zero hmod)
        have hx : finite negative u hu = ofRatio negative (u / one * one) 1 := by
          rw [hunits, ofRatio_of_fits]
        rw [hx, hn]
        by_cases hzero : u / one = 0 ∧ negative = true
        · right
          rw [hzero.1, hzero.2, signed_zero]
          exact ⟨rfl, ofRatio_zero true⟩
        · exact .inl (ofRatio_natural hzero)
      · cases h

/-! ### Equality of numbers -/

theorem ofRatio_ne_nan (negative : Bool) (num den : Nat) : ofRatio negative num den ≠ .nan := by
  unfold ofRatio
  split <;> simp

/-- A number equals itself. -/
theorem beq_self (h : x ≠ .nan) : x.beq x = true := by
  cases x with
  | nan => exact absurd rfl h
  | infinite n => exact beq_self_eq_true n
  | finite n u => exact beq_self_eq_true (signed n u)

theorem beq_comm (x y : Binary64) : x.beq y = y.beq x := by
  cases x with
  | nan => cases y <;> rfl
  | infinite n =>
      cases y with
      | nan | finite => rfl
      | infinite m => exact Bool.beq_comm
  | finite n u =>
      cases y with
      | nan | infinite => rfl
      | finite m v => exact Bool.eq_iff_iff.mpr (by rw [beq, beq, beq_iff_eq, beq_iff_eq, eq_comm])

theorem zero_eq (negative : Bool) :
    zero negative = .finite negative 0 ⟨limit_pos, Nat.dvd_zero _⟩ :=
  ofRatio_of_fits negative ⟨limit_pos, Nat.dvd_zero _⟩

theorem ofInt_ne_nan (n : Int) : ofInt n ≠ .nan := by
  rw [ofInt]
  exact ofRatio_ne_nan _ _ _

theorem ofInt_zero : ofInt 0 = zero false := by
  have hunits : (0 : Int).natAbs * one = 0 := by rw [Int.natAbs_zero, Nat.zero_mul]
  have hsign : decide ((0 : Int) < 0) = false := by decide
  rw [ofInt, zero, hunits, hsign]

/-- What is the float nearest to an integer but for the sign of a zero equals it. -/
theorem beq_ofInt (h : x = ofInt n ∨ n = 0 ∧ x = zero true) : x.beq (ofInt n) = true := by
  rcases h with h | ⟨hn, hx⟩
  · rw [h]
    exact beq_self (ofInt_ne_nan n)
  · rw [hn, hx, ofInt_zero, zero_eq, zero_eq]
    rfl

/-- A ratio that is finite as a float has been rounded once. -/
theorem ofRatio_of_isFinite {negative : Bool} {num den : Nat}
    (h : (ofRatio negative num den).isFinite = true) :
    ∃ hfits, ofRatio negative num den = .finite negative (roundUnits num den) hfits := by
  unfold ofRatio at h ⊢
  split at h
  · next hlimit => exact ⟨_, dif_pos hlimit⟩
  · cases h

/-- A number that is greater than an integer of 64 bits by an eighth is not rounded to the float
nearest to that integer. -/
theorem beq_ofRatio_eq_false {negative : Bool} (hpos : 0 < n.natAbs) (h : 9 * n.natAbs ≤ 8 * m)
    (hn : inRange n = true) (hfinite : (ofRatio negative (m * one) 1).isFinite = true) :
    (ofRatio negative (m * one) 1).beq (ofInt n) = false := by
  have hone : 4503599627370496 ≤ one := by decide +kernel
  have hless : roundUnits (n.natAbs * one) 1 < roundUnits (m * one) 1 := by
    refine roundUnits_lt_roundUnits (Nat.le_trans hone (Nat.le_mul_of_pos_left _ hpos)) ?_
    rw [← Nat.mul_assoc, ← Nat.mul_assoc]
    exact Nat.mul_le_mul_right _ h
  obtain ⟨hfits, hx⟩ := ofRatio_of_isFinite hfinite
  rw [hx, ofInt_eq hn, Bool.eq_false_iff]
  intro heq
  have hunits := congrArg Int.natAbs (eq_of_beq heq)
  rw [natAbs_signed, natAbs_signed] at hunits
  exact Nat.ne_of_gt hless hunits

end Binary64

end Stencil
