import Stencil.Numeral.Literal

/-!
# Numeral — Reading a whole text

The numbers that a string value converts to.  White space may stand in front of the number and
nothing behind it.  An integer is decimal, hexadecimal after `0x`, or octal after a leading zero;
a float is decimal, or hexadecimal after `0x` with a binary exponent.
-/

namespace Stencil.Numeral

open Text

/-- The least integer of 64 bits. -/
def leastInt : Int := -9223372036854775808

/-- The greatest integer of 64 bits. -/
def greatestInt : Int := 9223372036854775807

/-- `n` is an integer of 64 bits. -/
def inRange (n : Int) : Bool :=
  leastInt ≤ n && n ≤ greatestInt

/-- A sign at the front of a text, and the rest. -/
def splitSign : List Char → Option Char × List Char
  | c :: rest => if isSign c then (some c, rest) else (none, c :: rest)
  | [] => (none, [])

/-- The mark of a hexadecimal number at the front of a text is taken off. -/
def afterHexMark? : List Char → Option (List Char)
  | '0' :: x :: rest => if x = 'x' ∨ x = 'X' then some rest else none
  | _ => none

/-- The number that a text consisting of digits of `base` stands for. -/
def allDigits? (base : Nat) (text : List Char) : Except Fault (Option Nat) :=
  if !text.isEmpty && text.all (isDigitOf base) then
    if overlong base text then .error (.tooManyDigits text.length)
    else .ok (some (valueOf base text))
  else .ok none

/-- The magnitude that the digits of an integer stand for. -/
def magnitude? (text : List Char) : Except Fault (Option Nat) :=
  match afterHexMark? text with
  | some digits => allDigits? 16 digits
  | none =>
    match text with
    | '0' :: _ => allDigits? 8 text
    | _ => allDigits? 10 text

theorem magnitude?_cons {c : Char} (hc : c ≠ '0') (ds : List Char) :
    magnitude? (c :: ds) = allDigits? 10 (c :: ds) := by
  have hmark : afterHexMark? (c :: ds) = none := by
    unfold afterHexMark?
    split
    · next h => exact absurd (List.cons.inj h).1 hc
    · rfl
  simp [magnitude?, hmark, hc]

/-- The integer of 64 bits that a text stands for. -/
def readInteger (text : List Char) : Except Fault (Option Int) :=
  let (sign, digits) := splitSign (text.dropWhile isSpace)
  match magnitude? digits with
  | .error fault => .error fault
  | .ok none => .ok none
  | .ok (some n) =>
    let value : Int := if sign = some '-' then -(n : Int) else n
    .ok (if inRange value then some value else none)

/-- The exponent that a text consists of; `some none` if the text is empty. -/
def readExponent? (isMarker : Char → Bool) : List Char → Option (Option Exponent)
  | [] => some none
  | marker :: rest =>
    let (sign, digits) := splitSign rest
    if isMarker marker && !digits.isEmpty && digits.all (isDigitOf 10) then
      some (some ⟨marker, sign, digits⟩)
    else none

/-- The literal of a base that a text without sign consists of. -/
def readLiteral? (base : Nat) (isMarker : Char → Bool) (sign : Option Char) (text : List Char) :
    Option Literal :=
  let whole := text.takeWhile (isDigitOf base)
  let rest := text.dropWhile (isDigitOf base)
  let point := rest.head? == some '.'
  let behind := if point then rest.drop 1 else rest
  let fraction := if point then behind.takeWhile (isDigitOf base) else []
  let tail := if point then behind.dropWhile (isDigitOf base) else behind
  match readExponent? isMarker tail with
  | none => none
  | some exponent =>
    let literal : Literal := ⟨base, sign, whole, point, none, fraction, exponent⟩
    if literal.hasMantissa then some literal else none

/-- The literal of a float that a text without leading space consists of. -/
def floatLiteral? (text : List Char) : Option Literal :=
  let (sign, body) := splitSign text
  match readLiteral? 10 (fun c => c == 'e' || c == 'E') sign body with
  | some literal => some literal
  | none =>
    match afterHexMark? body with
    | some digits => readLiteral? 16 (fun c => c == 'p' || c == 'P') sign digits
    | none => none

/-- The finite float that a text stands for.  Information separators in front of a decimal float
are a fault: they count as white space in front of a number, but the decimal reading refuses
them. -/
def readFloat (text : List Char) : Except Fault (Option Binary64) :=
  match floatLiteral? (text.dropWhile isSpace) with
  | none => .ok none
  | some literal =>
    if literal.base = 10 ∧ (text.takeWhile isSpace).any isSeparator then
      .error (.malformedFloat text)
    else
      let value := literal.toBinary64
      .ok (if value.isFinite then some value else none)

end Stencil.Numeral
