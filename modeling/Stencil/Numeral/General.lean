import Stencil.Numeral.Binary64
import Stencil.Numeral.Digits

/-!
# Numeral — General notation

The decimal text of a floating point number with a fixed number of significant digits: the digits
nearest to the number's exact value, without trailing zeros, written positionally while the
decimal exponent is small and in exponent notation otherwise.
-/

namespace Stencil.Numeral

/-- The decisions of a general notation: how many significant digits it keeps, and the least
decimal exponent that is still written positionally.  The greatest is one less than the number of
digits. -/
structure GeneralFormat where
  digits : Nat
  leastPositional : Int

/-- The decimal exponent of a positive quotient: the power of ten at or below it. -/
def decimalExponent (num den : Nat) : Int :=
  if den ≤ num then ((decimal (num / den)).length : Int) - 1
  else -((decimal ((num + den - 1) / num - 1)).length : Int)

/-- The quotient scaled by a power of ten and rounded, ties to even. -/
def roundScaled (num den : Nat) : Int → Nat
  | .ofNat e => roundDiv (num * Nat.pow 10 e) den
  | .negSucc e => roundDiv num (den * Nat.pow 10 (e + 1))

/-- The significant digits of a positive quotient and its decimal exponent.  Rounding up may carry
into a new digit, which raises the exponent. -/
def significant (digits num den : Nat) : List Char × Int :=
  let exponent := decimalExponent num den
  let rounded := decimal (roundScaled num den ((digits : Int) - 1 - exponent))
  if digits < rounded.length then (rounded.take digits, exponent + 1) else (rounded, exponent)

/-- A list of digits without the zeros at its end. -/
def dropTrailingZeros (digits : List Char) : List Char :=
  (digits.reverse.dropWhile (· == '0')).reverse

/-- Digits after a point, or nothing. -/
def pointed (digits : List Char) : List Char :=
  if digits.isEmpty then [] else '.' :: digits

/-- Digits in positional notation, the first of them standing for `10 ^ exponent`. -/
def positional (digits : List Char) : Int → List Char
  | .ofNat e =>
    (digits.take (e + 1) ++ List.replicate (e + 1 - digits.length) '0') ++
      pointed (digits.drop (e + 1))
  | .negSucc e => '0' :: pointed (List.replicate e '0' ++ digits)

/-- Digits in exponent notation; the exponent has a sign and at least two digits. -/
def scientific (digits : List Char) (exponent : Int) : List Char :=
  let places := decimal exponent.natAbs
  digits.take 1 ++ pointed (digits.drop 1) ++
    ['e', if exponent < 0 then '-' else '+'] ++
    (if places.length < 2 then '0' :: places else places)

/-- The text of a positive quotient in a general notation. -/
def GeneralFormat.ratio (format : GeneralFormat) (num den : Nat) : List Char :=
  let (rounded, exponent) := significant format.digits num den
  let digits := dropTrailingZeros rounded
  if format.leastPositional ≤ exponent ∧ exponent < format.digits then positional digits exponent
  else scientific digits exponent

/-- The text of a number in a general notation.  A negative zero keeps its sign. -/
def GeneralFormat.text (format : GeneralFormat) : Binary64 → List Char
  | .nan => "nan".toList
  | .infinite negative => (if negative then ['-'] else []) ++ "inf".toList
  | .finite negative units _ =>
    (if negative then ['-'] else []) ++
      (if units = 0 then ['0'] else format.ratio units Binary64.one)

end Stencil.Numeral

namespace Stencil

/-- Floating point numbers are shown with fifteen significant digits, positionally from `0.0001`
on. -/
def Binary64.format : Numeral.GeneralFormat :=
  ⟨15, -4⟩

/-- The text of a floating point number. -/
def Binary64.text (x : Binary64) : String :=
  String.ofList (Binary64.format.text x)

end Stencil
