/-!
# Text — Classes of characters

The alphabets the readers of templates, expressions and descriptions agree on: blanks between
tokens, characters of a symbol, digits of a base.  These are sets of ASCII characters, fixed by
the template language and independent of any locale.  The larger set of white space that may
stand in front of a number inside a string value is `isSpace`; it contains every blank
(`isSpace_of_isBlank`).
-/

namespace Stencil.Text

/-- A blank may stand between any two tokens: space, tab, vertical tab, carriage return, line
feed. -/
def isBlank (c : Char) : Bool :=
  c == ' ' || c == '\t' || c == '\x0b' || c == '\r' || c == '\n'

/-- A symbol is a word over the ASCII letters, the ASCII digits and the underscore. -/
def isSymbol (c : Char) : Bool :=
  c.isAlphanum || c == '_'

/-- White space of the whole character set: the ASCII controls U+0009 to U+000D and U+001C to
U+001F, and the characters whose class is space, line or paragraph separator. -/
def isSpace (c : Char) : Bool :=
  let n := c.toNat
  (0x09 ≤ n && n ≤ 0x0d) || (0x1c ≤ n && n ≤ 0x20) || n == 0x85 || n == 0xa0 || n == 0x1680 ||
    (0x2000 ≤ n && n ≤ 0x200a) || n == 0x2028 || n == 0x2029 || n == 0x202f || n == 0x205f ||
    n == 0x3000

/-- The information separators U+001C to U+001F are white space, but no reading of a decimal
float passes over them. -/
def isSeparator (c : Char) : Bool :=
  0x1c ≤ c.toNat && c.toNat ≤ 0x1f

/-- The digit that `c` stands for in bases up to sixteen, in either case. -/
def digit? (c : Char) : Option Nat :=
  if '0' ≤ c ∧ c ≤ '9' then some (c.toNat - '0'.toNat)
  else if 'a' ≤ c ∧ c ≤ 'f' then some (c.toNat - 'a'.toNat + 10)
  else if 'A' ≤ c ∧ c ≤ 'F' then some (c.toNat - 'A'.toNat + 10)
  else none

/-- `c` is a digit of `base`. -/
def isDigitOf (base : Nat) (c : Char) : Bool :=
  match digit? c with
  | some d => d < base
  | none => false

/-- A plus or minus sign. -/
def isSign (c : Char) : Bool :=
  c == '+' || c == '-'

theorem isSpace_of_isBlank {c : Char} (h : isBlank c = true) : isSpace c = true := by
  simp only [isBlank, Bool.or_eq_true, beq_iff_eq] at h
  rcases h with (((rfl | rfl) | rfl) | rfl) | rfl <;> decide

end Stencil.Text
