import Stencil.Fault
import Stencil.Numeral.Binary64
import Stencil.Numeral.Digits

/-!
# Numeral — Literals

A numeric literal by its parts: base, sign, digits before and after the point, exponent.  A
literal with a point or an exponent stands for a floating point number, any other for an integer.
One form has parts but no value: a sign between a leading point and the digits after it
(`Literal.strayed`).
-/

namespace Stencil

open Text Numeral

/-- The exponent of a literal: the letter that starts it, its sign, its decimal digits. -/
structure Exponent where
  marker : Char
  sign : Option Char
  digits : List Char
deriving DecidableEq, Repr

/-- The value of an exponent. -/
def Exponent.value (e : Exponent) : Int :=
  let magnitude : Int := valueOf 10 e.digits
  if e.sign = some '-' then -magnitude else magnitude

/-- The characters of an exponent. -/
def Exponent.chars (e : Exponent) : List Char :=
  e.marker :: e.sign.toList ++ e.digits

/-- A numeric literal.  `strayed` is a sign that follows a leading point. -/
structure Literal where
  base : Nat
  sign : Option Char
  whole : List Char
  point : Bool
  strayed : Option Char
  fraction : List Char
  exponent : Option Exponent
deriving DecidableEq, Repr

namespace Literal

/-- The literal of which nothing is read. -/
def empty : Literal :=
  ⟨10, none, [], false, none, [], none⟩

/-- The literal has a digit that counts, before or after the point. -/
def hasMantissa (l : Literal) : Bool :=
  !l.whole.isEmpty || !l.fraction.isEmpty

/-- The literal stands for a floating point number. -/
def isFloat (l : Literal) : Bool :=
  l.point || l.exponent.isSome

/-- The literal starts with a minus sign. -/
def negative (l : Literal) : Bool :=
  l.sign == some '-'

/-- The characters of a literal without its sign and the mark of its base. -/
def unsignedChars (l : Literal) : List Char :=
  l.whole ++ (if l.point then ['.'] else []) ++ l.strayed.toList ++ l.fraction ++
    (l.exponent.map Exponent.chars).getD []

/-- The characters of a literal without the mark of its base. -/
def chars (l : Literal) : List Char :=
  l.sign.toList ++ l.unsignedChars

/-- The integer a literal without point and exponent stands for. -/
def toInt (l : Literal) : Int :=
  let magnitude : Int := valueOf l.base l.whole
  if l.negative then -magnitude else magnitude

/-- The floating point number nearest to a literal; infinite when the literal is too large.  A
point moves the exponent by one for each decimal digit behind it, or by four for each hexadecimal
one. -/
def toBinary64 (l : Literal) : Binary64 :=
  let mantissa := valueOf l.base (l.whole ++ l.fraction)
  let exponent := (l.exponent.map Exponent.value).getD 0
  if l.base = 16 then
    Binary64.ofScaled l.negative mantissa 2 (exponent - 4 * l.fraction.length)
  else
    Binary64.ofScaled l.negative mantissa 10 (exponent - l.fraction.length)

end Literal

end Stencil
