import Stencil.Encoding.Utf8

/-!
# Encoding — Escapes

The two escaped forms of text that filters produce: character entities, for text placed inside
markup, and percent escapes, for text placed inside an address.
-/

namespace Stencil.Escape

/-- The entity that stands for a character with a meaning in markup; another character stands for
itself. -/
def entity (c : Char) : List Char :=
  if c = '&' then "&amp;".toList
  else if c = '<' then "&lt;".toList
  else if c = '>' then "&gt;".toList
  else if c = '"' then "&quot;".toList
  else if c = '\'' then "&#x27;".toList
  else [c]

/-- A text in which the five characters with a meaning in markup are entities. -/
def entities (text : List Char) : List Char :=
  text.flatMap entity

/-- Characters that an address may hold as they are: ASCII letters, digits and `_ . - ~`. -/
def isUnreserved (c : Char) : Bool :=
  c.isAlphanum || c == '_' || c == '.' || c == '-' || c == '~'

/-- The upper case hexadecimal digit of a value below sixteen. -/
def hexDigit (n : Nat) : Char :=
  if n < 10 then Char.ofNat ('0'.toNat + n) else Char.ofNat ('A'.toNat + (n - 10))

/-- The percent escape of a byte. -/
def percentByte (b : UInt8) : List Char :=
  ['%', hexDigit (b.toNat / 16), hexDigit (b.toNat % 16)]

/-- A text in which every character that is not unreserved is written as the percent escapes of
its UTF-8 bytes. -/
def percent (text : List Char) : List Char :=
  text.flatMap (fun c =>
    if isUnreserved c then [c] else (Utf8.encode [c]).flatMap percentByte)

end Stencil.Escape
