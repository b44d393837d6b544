import Stencil.Text.Printable

/-!
# Text — Quoted text

The quoted form that dumps, traces and messages show a text in.  The text stands between single
quotes, or between double quotes when it holds a single quote and no double one.  The quote, the
backslash and every character without a visible form are escaped; all else stands for itself.
-/

namespace Stencil.Text

/-- The lower case hexadecimal digits of `n`, on `width` places. -/
def hexPlaces : Nat → Nat → List Char
  | 0, _ => []
  | width + 1, n => hexPlaces width (n / 16) ++ [Nat.digitChar (n % 16)]

/-- A code point written as an escape of two, four or eight hexadecimal digits. -/
def escapeCode (n : Nat) : List Char :=
  if n < 0x100 then '\\' :: 'x' :: hexPlaces 2 n
  else if n < 0x10000 then '\\' :: 'u' :: hexPlaces 4 n
  else '\\' :: 'U' :: hexPlaces 8 n

/-- The form of a character between quotes of the kind `quote`. -/
def quoteChar (quote c : Char) : List Char :=
  if c = quote ∨ c = '\\' then ['\\', c]
  else if c = '\t' then ['\\', 't']
  else if c = '\n' then ['\\', 'n']
  else if c = '\r' then ['\\', 'r']
  else if isPrintable c then [c]
  else escapeCode c.toNat

/-- The quote to put around a text. -/
def quoteFor (text : List Char) : Char :=
  if '\'' ∈ text ∧ '"' ∉ text then '"' else '\''

/-- The quoted form of a text. -/
def quoted (text : List Char) : List Char :=
  let quote := quoteFor text
  quote :: text.flatMap (quoteChar quote) ++ [quote]

end Stencil.Text
