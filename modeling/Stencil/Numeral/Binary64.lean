import Stencil.Numeral.Rounding

/-!
# Numeral — Binary64

The numbers of the 64-bit binary floating point format, with exact definitions of their
arithmetic.  Every finite number of the format is a whole multiple of the smallest positive one,
`2^-1074`; so a finite number is held as a sign and that multiple, its *units*, and each operation
computes its exact result in units and rounds it once (`ofRatio`), to the nearest number and on a
tie to the one with even last bit.  A multiple that needs no rounding is left alone
(`roundUnits_of_fits`).
-/

namespace Stencil

open Numeral

/-- The number of units in one. -/
def Binary64.one : Nat := Nat.pow 2 1074

/-- Units at and above this bound belong to no finite number. -/
def Binary64.limit : Nat := Nat.pow 2 2098

/-- The distance between neighbours in the format, in units, around `u` units: 53 bits are
significant. -/
def Binary64.spacing (u : Nat) : Nat := Nat.pow 2 (u.log2 - 52)

/-- `u` units are a finite number: below the bound, and a multiple of the spacing there. -/
def Binary64.Fits (u : Nat) : Prop :=
  u < Binary64.limit ∧ Binary64.spacing u ∣ u

instance (u : Nat) : Decidable (Binary64.Fits u) :=
  inferInstanceAs (Decidable (_ ∧ _))

/-- A binary floating point number of 64 bits.  Zero has a sign; there is one not-a-number. -/
inductive Binary64 where
  | nan
  | infinite (negative : Bool)
  | finite (negative : Bool) (units : Nat) (fits : Binary64.Fits units)
deriving DecidableEq

namespace Binary64

/-- `num / den` units, rounded to 53 significant bits and to no less than one unit.  The result
may lie at or above `limit`. -/
def roundUnits (num den : Nat) : Nat :=
  let step := spacing (num / den)
  roundDiv num (den * step) * step

theorem spacing_pos (u : Nat) : 0 < spacing u :=
  Nat.two_pow_pos (u.log2 - 52)

/-- A quotient lies below the spacing around it times the power of two with 53 zeros. -/
theorem lt_spacing_mul (u : Nat) : u < Nat.pow 2 53 * spacing u := by
  have hu : u < Nat.pow 2 (u.log2 + 1) := Nat.lt_log2_self
  have hp : Nat.pow 2 53 * spacing u = Nat.pow 2 (53 + (u.log2 - 52)) := (Nat.pow_add 2 53 _).symm
  rw [hp]
  exact Nat.lt_of_lt_of_le hu (Nat.pow_le_pow_right (by decide) (by omega))

theorem roundDiv_spacing_le (num den : Nat) :
    roundDiv num (den * spacing (num / den)) ≤ Nat.pow 2 53 := by
  refine Nat.le_trans (roundDiv_le_succ _ _) (Nat.succ_le_of_lt ?_)
  rw [← Nat.div_div_eq_div_mul, Nat.div_lt_iff_lt_mul (spacing_pos _)]
  exact lt_spacing_mul _

theorem spacing_dvd_mul {r k : Nat} (h : r ≤ Nat.pow 2 53) :
    spacing (r * Nat.pow 2 k) ∣ r * Nat.pow 2 k := by
  by_cases h0 : r = 0
  · simp [h0]
  by_cases hr : r = Nat.pow 2 53
  · have hp : r * Nat.pow 2 k = Nat.pow 2 (53 + k) := by rw [hr]; exact (Nat.pow_add 2 53 k).symm
    have hl : (Nat.pow 2 (53 + k)).log2 = 53 + k := Nat.log2_two_pow
    rw [hp, spacing, hl]
    exact Nat.pow_dvd_pow 2 (by omega)
  · have hp : Nat.pow 2 53 * Nat.pow 2 k = Nat.pow 2 (53 + k) := (Nat.pow_add 2 53 k).symm
    have hlt : r * Nat.pow 2 k < Nat.pow 2 (53 + k) :=
      hp ▸ Nat.mul_lt_mul_of_pos_right (Nat.lt_of_le_of_ne h hr) (Nat.two_pow_pos k)
    have hpos : r * Nat.pow 2 k ≠ 0 := Nat.mul_ne_zero h0 (Nat.ne_of_gt (Nat.two_pow_pos k))
    have := (Nat.log2_lt hpos).2 hlt
    exact Nat.dvd_trans (Nat.pow_dvd_pow 2 (by omega)) (Nat.dvd_mul_left (Nat.pow 2 k) r)

theorem spacing_dvd_roundUnits (num den : Nat) :
    spacing (roundUnits num den) ∣ roundUnits num den :=
  spacing_dvd_mul (roundDiv_spacing_le num den)

/-- The number nearest to `num / den` units, a tie going to the even one; infinite from half a
step above the largest finite number on. -/
def ofRatio (negative : Bool) (num den : Nat) : Binary64 :=
  if h : roundUnits num den < limit then
    .finite negative (roundUnits num den) ⟨h, spacing_dvd_roundUnits num den⟩
  else .infinite negative

theorem roundUnits_of_fits {u : Nat} (h : spacing u ∣ u) : roundUnits u 1 = u := by
  obtain ⟨q, hq⟩ := h
  have hp := spacing_pos u
  simp only [roundUnits, Nat.div_one, Nat.one_mul]
  rw [Nat.mul_comm] at hq
  generalize spacing u = p at hp hq
  subst hq
  rw [roundDiv_mul_right q hp]

/-- Zero, with its sign. -/
def zero (negative : Bool) : Binary64 :=
  ofRatio negative 0 1

/-- The number nearest to `n`. -/
def ofInt (n : Int) : Binary64 :=
  ofRatio (n < 0) (n.natAbs * one) 1

/-- The number nearest to `± mantissa * base ^ exponent`.  Exponents so large or so small that the
result is infinite or zero whatever the mantissa's digits are decided without forming the power. -/
def ofScaled (negative : Bool) (mantissa base : Nat) (exponent : Int) : Binary64 :=
  if mantissa = 0 then zero negative
  else match exponent with
    | .ofNat e =>
      if 1100 < e then .infinite negative else ofRatio negative (mantissa * base.pow e * one) 1
    | .negSucc e =>
      if mantissa.log2 + 1100 < e then zero negative
      else ofRatio negative (mantissa * one) (base.pow (e + 1))

/-- The signed units of a finite number. -/
def signed (negative : Bool) (units : Nat) : Int :=
  if negative then -(units : Int) else units

/-- The number with its sign changed. -/
def neg : Binary64 → Binary64
  | .nan => .nan
  | .infinite n => .infinite (!n)
  | .finite n u h => .finite (!n) u h

/-- Addition.  Opposite infinities have no sum; an exact zero is positive unless both terms are
negative zeros. -/
def add : Binary64 → Binary64 → Binary64
  | .nan, _ => .nan
  | _, .nan => .nan
  | .infinite n, .infinite m => if n = m then .infinite n else .nan
  | .infinite n, .finite .. => .infinite n
  | .finite .., .infinite m => .infinite m
  | .finite n u _, .finite m v _ =>
    let sum := signed n u + signed m v
    if sum = 0 then zero (n && m) else ofRatio (sum < 0) sum.natAbs 1

/-- Subtraction is addition of the opposite. -/
def sub (x y : Binary64) : Binary64 :=
  x.add y.neg

/-- Multiplication.  Zero times infinity has no value. -/
def mul : Binary64 → Binary64 → Binary64
  | .nan, _ => .nan
  | _, .nan => .nan
  | .infinite n, .infinite m => .infinite (n != m)
  | .infinite n, .finite m v _ => if v = 0 then .nan else .infinite (n != m)
  | .finite n u _, .infinite m => if u = 0 then .nan else .infinite (n != m)
  | .finite n u _, .finite m v _ => ofRatio (n != m) (u * v) one

/-- Division.  Zero by zero and infinity by infinity have no value; another number by zero is
infinite. -/
def div : Binary64 → Binary64 → Binary64
  | .nan, _ => .nan
  | _, .nan => .nan
  | .infinite _, .infinite _ => .nan
  | .infinite n, .finite m _ _ => .infinite (n != m)
  | .finite n _ _, .infinite m => zero (n != m)
  | .finite n u _, .finite m v _ =>
    if v = 0 then if u = 0 then .nan else .infinite (n != m)
    else ofRatio (n != m) (u * one) v

/-- `x` is a zero of either sign. -/
def isZero : Binary64 → Bool
  | .finite _ u _ => u == 0
  | _ => false

/-- `x` is neither infinite nor not-a-number. -/
def isFinite : Binary64 → Bool
  | .finite .. => true
  | _ => false

/-- `x` lies below `y`.  Nothing lies below or above not-a-number. -/
def lt : Binary64 → Binary64 → Bool
  | .nan, _ => false
  | _, .nan => false
  | .infinite n, .infinite m => n && !m
  | .infinite n, .finite .. => n
  | .finite .., .infinite m => !m
  | .finite n u _, .finite m v _ => signed n u < signed m v

/-- Equality of numbers: the two zeros are equal, not-a-number equals nothing. -/
def beq : Binary64 → Binary64 → Bool
  | .nan, _ => false
  | _, .nan => false
  | .infinite n, .infinite m => n == m
  | .finite n u _, .finite m v _ => signed n u == signed m v
  | _, _ => false

/-- Two numbers count as equal in templates when their difference is exactly zero; so an infinity
is not equal to itself. -/
def same (x y : Binary64) : Bool :=
  (x.sub y).isZero

/-- The integer that `x` is, if it is one. -/
def toInt? : Binary64 → Option Int
  | .finite n u _ => if u % one = 0 then some (signed n (u / one)) else none
  | _ => none

/-- The whole part of the magnitude of a finite number. -/
def wholePart : Binary64 → Nat
  | .finite _ u _ => u / one
  | _ => 0

/-- The bit of a word that is set in negative numbers. -/
def signBit : Nat := 0x8000000000000000

/-- The least value of the exponent field of a word. -/
def exponentUnit : Nat := 0x10000000000000

/-- The number a word of the interchange format encodes: sign, eleven bits of exponent, 52 bits of
fraction. -/
def ofBits (word : UInt64) : Binary64 :=
  let bits := word.toNat
  let negative := decide (signBit ≤ bits)
  let exponent := bits % signBit / exponentUnit
  let fraction := bits % exponentUnit
  if exponent = 2047 then if fraction = 0 then .infinite negative else .nan
  else if exponent = 0 then ofRatio negative fraction 1
  else ofRatio negative ((exponentUnit + fraction) * Nat.pow 2 (exponent - 1)) 1

/-- The word of the interchange format that encodes a number; not-a-number is encoded quiet and
positive. -/
def toBits : Binary64 → UInt64
  | .nan => UInt64.ofNat 0x7ff8000000000000
  | .infinite n => UInt64.ofNat ((if n then signBit else 0) + 2047 * exponentUnit)
  | .finite n u _ =>
    let magnitude :=
      if u < exponentUnit then u
      else (u.log2 - 51) * exponentUnit + (u / spacing u - exponentUnit)
    UInt64.ofNat ((if n then signBit else 0) + magnitude)

end Binary64

end Stencil
