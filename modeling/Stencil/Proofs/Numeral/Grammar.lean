import Mathlib.Data.List.Basic
import Mathlib.Data.List.Infix
import Stencil.Scanner.Literals

/-!
# Numeral — Grammar

The texts that are numbers, each with the parts it has (`IsNumber`): hexadecimal ones behind `0x`,
binary ones behind `0b`, octal ones behind `0o`, decimal ones, and decimal ones that start with a
point, of which the first four may be signed.  Hexadecimal and decimal numbers may have a fraction
and an exponent.  A text may start with a number (`StartsWithNumber`).

A number goes on with whatever its last part may go on with: a digit (`IsNumber.digit`,
`IsNumber.exponentDigit`), a point (`IsNumber.point`), an exponent (`IsNumber.exponent`).
-/

namespace Stencil

open Text

namespace Numeral

/-- One or more digits of a base. -/
def IsDigits (base : Nat) (ds : List Char) : Prop :=
  ds ≠ [] ∧ ∀ c ∈ ds, isDigitOf base c = true

/-- A sign, or none. -/
def IsSign (sign : Option Char) : Prop :=
  ∀ c ∈ sign, c = '+' ∨ c = '-'

theorem isSign_none : IsSign none := fun _ hc => by cases hc

theorem isSign_some {c : Char} (hc : c = '+' ∨ c = '-') : IsSign (some c) :=
  fun _ hs => by cases hs; exact hc

/-- Nothing, or a point and any digits behind it. -/
inductive IsFraction (base : Nat) : List Char → Bool → List Char → Prop where
  | absent : IsFraction base [] false []
  | present {ds : List Char} (hds : ∀ c ∈ ds, isDigitOf base c = true) :
      IsFraction base ('.' :: ds) true ds

/-- Nothing, or one of two letters, a sign or none, and decimal digits. -/
inductive IsExponent (lower upper : Char) : List Char → Option Exponent → Prop where
  | absent : IsExponent lower upper [] none
  | present {c : Char} {sign : Option Char} {ds : List Char} (hc : c = lower ∨ c = upper)
      (hs : IsSign sign) (hds : IsDigits 10 ds) :
      IsExponent lower upper (c :: (sign.toList ++ ds)) (some ⟨c, sign, ds⟩)

/-- The text is a number with these parts. -/
inductive IsNumber : List Char → Literal → Prop where
  | hexadecimal {sign : Option Char} {x : Char} {ds f fraction e : List Char} {point : Bool}
      {exponent : Option Exponent} (hs : IsSign sign) (hx : x = 'x' ∨ x = 'X')
      (hds : IsDigits 16 ds) (hf : IsFraction 16 f point fraction)
      (he : IsExponent 'p' 'P' e exponent) :
      IsNumber (sign.toList ++ '0' :: x :: (ds ++ (f ++ e)))
        ⟨16, sign, ds, point, none, fraction, exponent⟩
  | binary {sign : Option Char} {x : Char} {ds : List Char} (hs : IsSign sign)
      (hx : x = 'b' ∨ x = 'B') (hds : IsDigits 2 ds) :
      IsNumber (sign.toList ++ '0' :: x :: ds) ⟨2, sign, ds, false, none, [], none⟩
  | octal {sign : Option Char} {x : Char} {ds : List Char} (hs : IsSign sign)
      (hx : x = 'o' ∨ x = 'O') (hds : IsDigits 8 ds) :
      IsNumber (sign.toList ++ '0' :: x :: ds) ⟨8, sign, ds, false, none, [], none⟩
  | decimal {sign : Option Char} {ds f fraction e : List Char} {point : Bool}
      {exponent : Option Exponent} (hs : IsSign sign) (hds : IsDigits 10 ds)
      (hf : IsFraction 10 f point fraction) (he : IsExponent 'e' 'E' e exponent) :
      IsNumber (sign.toList ++ (ds ++ (f ++ e))) ⟨10, sign, ds, point, none, fraction, exponent⟩
  | pointed {ds e : List Char} {exponent : Option Exponent} (hds : IsDigits 10 ds)
      (he : IsExponent 'e' 'E' e exponent) :
      IsNumber ('.' :: (ds ++ e)) ⟨10, none, [], true, none, ds, exponent⟩

/-- A decimal integer of more digits than are read. -/
def IsOverlong (w : List Char) : Prop :=
  ∃ sign ds, IsSign sign ∧ IsDigits 10 ds ∧ digitLimit < ds.length ∧ w = sign.toList ++ ds

theorem isDigits_singleton {base : Nat} {c : Char} (hc : isDigitOf base c = true) :
    IsDigits base [c] :=
  ⟨by simp, by simpa using hc⟩

/-- The text starts with a number. -/
def StartsWithNumber (text : List Char) : Prop :=
  ∃ w l, w <+: text ∧ IsNumber w l

/-- A text starts with a number, if there is a digit behind a sign or none. -/
theorem startsWithNumber_digit {sign : Option Char} {d : Char} (hs : IsSign sign)
    (hd : isDigitOf 10 d = true) (r : List Char) :
    StartsWithNumber (sign.toList ++ d :: r) := by
  have h := IsNumber.decimal hs (isDigits_singleton hd) .absent .absent
  exact ⟨_, _, ⟨r, by simp⟩, h⟩

/-- A text starts with a number, if there is a digit behind a point. -/
theorem startsWithNumber_point {d : Char} (hd : isDigitOf 10 d = true) (r : List Char) :
    StartsWithNumber ('.' :: d :: r) := by
  have h := IsNumber.pointed (isDigits_singleton hd) .absent
  exact ⟨_, _, ⟨r, by simp⟩, h⟩

/-! ### Longer numbers -/

section Longer

variable {base : Nat} {c : Char} {w ds f fraction e : List Char} {l : Literal}
  {lower upper : Char}

theorem IsDigits.snoc (h : IsDigits base ds) (hc : isDigitOf base c = true) :
    IsDigits base (ds ++ [c]) :=
  ⟨by simp, List.forall_mem_append.mpr ⟨h.2, by simpa using hc⟩⟩

theorem IsFraction.digit (h : IsFraction base f true fraction) (hc : isDigitOf base c = true) :
    IsFraction base (f ++ [c]) true (fraction ++ [c]) := by
  cases h with
  | present hds => exact .present (List.forall_mem_append.mpr ⟨hds, by simpa using hc⟩)

theorem IsExponent.digit {x : Exponent} (h : IsExponent lower upper e (some x))
    (hc : isDigitOf 10 c = true) :
    IsExponent lower upper (e ++ [c]) (some { x with digits := x.digits ++ [c] }) := by
  cases h with
  | @present b sign ds hb hs hds =>
      have := IsExponent.present hb hs (hds.snoc hc)
      simpa using this

theorem IsExponent.digits_ne_nil {x : Exponent} (h : IsExponent lower upper e (some x)) :
    x.digits ≠ [] := by
  cases h with
  | present _ _ hds => exact hds.1

theorem IsNumber.ne_nil (h : IsNumber w l) : w ≠ [] := by
  cases h with
  | hexadecimal | binary | octal | pointed => simp
  | decimal _ hds => simp [hds.1]

/-- A number has a digit before or behind the point, and no stray sign. -/
theorem IsNumber.hasMantissa (h : IsNumber w l) : l.hasMantissa = true ∧ l.strayed = none := by
  cases h with
  | hexadecimal _ _ hds | binary _ _ hds | octal _ _ hds | decimal _ hds | pointed hds =>
      simp [Literal.hasMantissa, hds.1]

theorem IsNumber.exponent_digits_ne_nil (h : IsNumber w l) {x : Exponent}
    (hx : l.exponent = some x) : x.digits ≠ [] := by
  cases h with
  | hexadecimal _ _ _ _ he | decimal _ _ _ he | pointed _ he =>
      cases hx
      exact he.digits_ne_nil
  | binary | octal => cases hx

/-- Before its exponent, a number goes on with a digit of its base. -/
theorem IsNumber.digit (h : IsNumber w l) (he : l.exponent = none)
    (hc : isDigitOf l.base c = true) : ∃ m, IsNumber (w ++ [c]) m := by
  cases h with
  | hexadecimal hs hx hds hf hexp =>
      cases he
      cases hexp
      cases hf with
      | absent => exact ⟨_, by simpa using IsNumber.hexadecimal hs hx (hds.snoc hc) .absent .absent⟩
      | present hf =>
          exact ⟨_, by simpa using
            IsNumber.hexadecimal hs hx hds ((IsFraction.present hf).digit hc) .absent⟩
  | binary hs hx hds => exact ⟨_, by simpa using IsNumber.binary hs hx (hds.snoc hc)⟩
  | octal hs hx hds => exact ⟨_, by simpa using IsNumber.octal hs hx (hds.snoc hc)⟩
  | decimal hs hds hf hexp =>
      cases he
      cases hexp
      cases hf with
      | absent => exact ⟨_, by simpa using IsNumber.decimal hs (hds.snoc hc) .absent .absent⟩
      | present hf =>
          exact ⟨_, by simpa using
            IsNumber.decimal hs hds ((IsFraction.present hf).digit hc) .absent⟩
  | pointed hds hexp =>
      cases he
      cases hexp
      exact ⟨_, by simpa using IsNumber.pointed (hds.snoc hc) .absent⟩

/-- Before its exponent, a hexadecimal or decimal number goes on with a point, if it has none. -/
theorem IsNumber.point (h : IsNumber w l) (he : l.exponent = none) (hp : l.point = false)
    (h₂ : l.base ≠ 2) (h₈ : l.base ≠ 8) : ∃ m, IsNumber (w ++ ['.']) m := by
  cases h with
  | hexadecimal hs hx hds hf hexp =>
      cases he
      cases hexp
      cases hp
      cases hf
      exact ⟨_, by simpa using IsNumber.hexadecimal hs hx hds (.present (by simp)) .absent⟩
  | binary => exact absurd rfl h₂
  | octal => exact absurd rfl h₈
  | decimal hs hds hf hexp =>
      cases he
      cases hexp
      cases hp
      cases hf
      exact ⟨_, by simpa using IsNumber.decimal hs hds (.present (by simp)) .absent⟩
  | pointed => cases hp

/-- A number without exponent goes on with an exponent of its base. -/
theorem IsNumber.exponent (h : IsNumber w l) (he : l.exponent = none)
    (hc : Literal.isExponentMarker l.base c = true) {sign : Option Char} (hsign : IsSign sign)
    (hds : IsDigits 10 ds) : ∃ m, IsNumber (w ++ c :: (sign.toList ++ ds)) m := by
  cases h with
  | hexadecimal hs hx hwhole hf hexp =>
      cases he
      cases hexp
      have hc : c = 'p' ∨ c = 'P' := by simpa [Literal.isExponentMarker] using hc
      exact ⟨_, by simpa using IsNumber.hexadecimal hs hx hwhole hf (.present hc hsign hds)⟩
  | binary | octal => simp [Literal.isExponentMarker] at hc
  | decimal hs hwhole hf hexp =>
      cases he
      cases hexp
      have hc : c = 'e' ∨ c = 'E' := by simpa [Literal.isExponentMarker] using hc
      exact ⟨_, by simpa using IsNumber.decimal hs hwhole hf (.present hc hsign hds)⟩
  | pointed hfraction hexp =>
      cases he
      cases hexp
      have hc : c = 'e' ∨ c = 'E' := by simpa [Literal.isExponentMarker] using hc
      exact ⟨_, by simpa using IsNumber.pointed hfraction (.present hc hsign hds)⟩

/-- The exponent of a number goes on with a digit. -/
theorem IsNumber.exponentDigit (h : IsNumber w l) {x : Exponent} (hx : l.exponent = some x)
    (hc : isDigitOf 10 c = true) : ∃ m, IsNumber (w ++ [c]) m := by
  cases h with
  | hexadecimal hs hm hds hf he =>
      cases hx
      exact ⟨_, by simpa using IsNumber.hexadecimal hs hm hds hf (he.digit hc)⟩
  | binary | octal => cases hx
  | decimal hs hds hf he =>
      cases hx
      exact ⟨_, by simpa using IsNumber.decimal hs hds hf (he.digit hc)⟩
  | pointed hds he =>
      cases hx
      exact ⟨_, by simpa using IsNumber.pointed hds (he.digit hc)⟩

end Longer

end Numeral

end Stencil
