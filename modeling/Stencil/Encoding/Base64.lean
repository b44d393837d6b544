/-!
# Encoding — Base64

Bytes as text over 64 characters: three bytes are four characters, and one or two bytes left over
are two or three characters and padding.  Reading is strict: it takes no character outside the
alphabet, padding only where a group of four is incomplete, and nothing after it.
-/

namespace Stencil.Base64

/-- The character of a value below 64. -/
def symbol (n : Nat) : Char :=
  if n < 26 then Char.ofNat ('A'.toNat + n)
  else if n < 52 then Char.ofNat ('a'.toNat + (n - 26))
  else if n < 62 then Char.ofNat ('0'.toNat + (n - 52))
  else if n = 62 then '+' else '/'

/-- The value of a character of the alphabet. -/
def value? (c : Char) : Option Nat :=
  if 'A' ≤ c ∧ c ≤ 'Z' then some (c.toNat - 'A'.toNat)
  else if 'a' ≤ c ∧ c ≤ 'z' then some (c.toNat - 'a'.toNat + 26)
  else if '0' ≤ c ∧ c ≤ '9' then some (c.toNat - '0'.toNat + 52)
  else if c = '+' then some 62
  else if c = '/' then some 63
  else none

/-- The padding character. -/
def pad : Char := '='

/-- The text of some bytes. -/
def encode : List UInt8 → List Char
  | [] => []
  | [a] =>
    let n := a.toNat * 16
    [symbol (n / 64), symbol (n % 64), pad, pad]
  | [a, b] =>
    let n := (a.toNat * 256 + b.toNat) * 4
    [symbol (n / 4096), symbol (n / 64 % 64), symbol (n % 64), pad]
  | a :: b :: c :: rest =>
    let n := (a.toNat * 256 + b.toNat) * 256 + c.toNat
    symbol (n / 262144) :: symbol (n / 4096 % 64) :: symbol (n / 64 % 64) :: symbol (n % 64)
      :: encode rest

/-- Why a text is not base64. -/
inductive Fault where
  | leadingPadding
  | dataAfterPadding
  | foreignCharacter
  | brokenPadding
  | strayCharacter (count : Nat)
  | missingPadding
deriving DecidableEq, Repr

/-- The message of a fault. -/
def Fault.text : Fault → String
  | .leadingPadding => "Leading padding not allowed"
  | .dataAfterPadding => "Excess data after padding"
  | .foreignCharacter => "Only base64 data is allowed"
  | .brokenPadding => "Discontinuous padding not allowed"
  | .strayCharacter count =>
    "Invalid base64-encoded string: number of data characters (" ++ toString count ++
      ") cannot be 1 more than a multiple of 4"
  | .missingPadding => "Incorrect padding"

/-- A text being read: the bytes so far in reverse, the values of the group of four that is begun,
and the padding seen. -/
structure Progress where
  bytes : List UInt8
  group : List Nat
  padded : Bool
  pads : Nat

/-- The bytes after one more value: the second, third and fourth value of a group complete a byte
each. -/
def Progress.push (p : Progress) (v : Nat) : Progress :=
  match p.group with
  | [a] => { p with bytes := UInt8.ofNat (a * 4 + v / 16) :: p.bytes, group := [a, v] }
  | [a, b] => { p with bytes := UInt8.ofNat (b % 16 * 16 + v / 4) :: p.bytes, group := [a, b, v] }
  | [_, _, c] => { p with bytes := UInt8.ofNat (c % 4 * 64 + v) :: p.bytes, group := [] }
  | _ => { p with group := [v] }

/-- The end of a text: the last group is complete, or no padding completed it. -/
def Progress.finish (p : Progress) : Except Fault (List UInt8) :=
  match p.group.length with
  | 0 => .ok p.bytes.reverse
  | 1 => .error (.strayCharacter (p.bytes.length / 3 * 4 + 1))
  | _ => .error .missingPadding

/-- The bytes of a text whose beginning is read. -/
def decodeFrom (p : Progress) : List Char → Except Fault (List UInt8)
  | [] => p.finish
  | c :: rest =>
    if c = pad then
      let filled := p.group.length
      if 2 ≤ filled ∧ 4 ≤ filled + (p.pads + 1) then
        if rest.isEmpty then .ok p.bytes.reverse else .error .dataAfterPadding
      else
        decodeFrom { p with padded := true, pads := if 2 ≤ filled then p.pads + 1 else p.pads } rest
    else
      match value? c with
      | none => .error .foreignCharacter
      | some v =>
        if p.padded then .error .brokenPadding
        else decodeFrom (p.push v) rest

/-- The bytes that a text stands for, if it is base64. -/
def decode (text : List Char) : Except Fault (List UInt8) :=
  if text.head? = some pad then .error .leadingPadding
  else decodeFrom ⟨[], [], false, 0⟩ text

end Stencil.Base64
