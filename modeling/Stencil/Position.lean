import Stencil.Numeral.Digits

/-!
# Position

Places in a named text.  Lines count from one, columns and offsets from zero; only a line feed
ends a line.
-/

namespace Stencil

/-- A place in a named text. -/
structure Position where
  name : String
  line : Nat
  column : Nat
  offset : Nat
deriving DecidableEq, Repr

namespace Position

/-- The beginning of a text. -/
def start (name : String) : Position :=
  ⟨name, 1, 0, 0⟩

/-- The place after one more character. -/
def next (p : Position) (c : Char) : Position :=
  if c = '\n' then { p with line := p.line + 1, column := 0, offset := p.offset + 1 }
  else { p with column := p.column + 1, offset := p.offset + 1 }

/-- The place after some more characters. -/
def after (p : Position) (text : List Char) : Position :=
  text.foldl next p

/-- The text of a position: name, line and column. -/
def text (p : Position) : String :=
  p.name ++ ":" ++ Numeral.integerText p.line ++ ":" ++ Numeral.integerText p.column

@[simp] theorem after_nil (p : Position) : p.after [] = p := rfl

@[simp] theorem after_append (p : Position) (s t : List Char) :
    p.after (s ++ t) = (p.after s).after t := by
  simp [after, List.foldl_append]

@[simp] theorem offset_after (p : Position) (text : List Char) :
    (p.after text).offset = p.offset + text.length := by
  induction text generalizing p with
  | nil => rfl
  | cons c cs ih =>
    have hstep : (p.next c).offset = p.offset + 1 := by unfold next; split <;> rfl
    have hcons : p.after (c :: cs) = (p.next c).after cs := rfl
    rw [hcons, ih, hstep, List.length_cons]
    omega

end Position

end Stencil
