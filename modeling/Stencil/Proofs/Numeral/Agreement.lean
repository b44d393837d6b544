import Mathlib.Data.List.Induction
import Mathlib.Data.List.TakeWhile
import Stencil.Proofs.Numeral.Grammar
import Stencil.Proofs.Numeral.Nearest

/-!
# Numeral — The two readings of a text

Many texts can be read as an integer and as a float.  What both readings take is the same: digits
behind the mark of a hexadecimal number, or digits alone, behind the same white space and the same
sign.  So the float is the one nearest to the integer, except where the digits alone start with a
zero (`IsOctal`): they are octal for an integer and decimal for a float.  Below eight that makes no
difference.  From eight on the decimal number is greater by more than an eighth
(`valueOf_octal_le`), which is more than rounding can take away, so the two differ
(`beq_ofInt_of_readings`).
-/

namespace Stencil

open Text

namespace Numeral

variable {text body ds : List Char} {base m : Nat} {n : Int} {x : Binary64} {sign : Option Char}
  {isMarker : Char → Bool}

/-! ### Digits in two bases -/

/-- Digits stand for no less in a greater base. -/
theorem valueOf_mono {b : Nat} (h : base ≤ b) (ds : List Char) :
    valueOf base ds ≤ valueOf b ds := by
  induction ds using List.reverseRecOn with
  | nil => exact Nat.le_refl 0
  | append_singleton ds c ih =>
      rw [valueOf_append_singleton, valueOf_append_singleton]
      exact Nat.add_le_add_right (Nat.mul_le_mul h ih) _

theorem isDigitOf_of_le {b : Nat} {c : Char} (h : base ≤ b) (hc : isDigitOf base c = true) :
    isDigitOf b c = true := by
  unfold isDigitOf at hc ⊢
  split at hc
  · exact decide_eq_true (Nat.lt_of_lt_of_le (of_decide_eq_true hc) h)
  · cases hc

/-- Digits that stand for zero in one base do so in another. -/
theorem valueOf_eq_zero (hbase : base ≠ 0) (b : Nat) (h : valueOf base ds = 0) :
    valueOf b ds = 0 := by
  induction ds using List.reverseRecOn with
  | nil => rfl
  | append_singleton ds c ih =>
      rw [valueOf_append_singleton, Nat.add_eq_zero_iff] at h ⊢
      have hfront := (Nat.mul_eq_zero.mp h.1).resolve_left hbase
      exact ⟨by rw [ih hfront, Nat.mul_zero], h.2⟩

theorem digit_lt {c : Char} (h : isDigitOf base c = true) : (digit? c).getD 0 < base := by
  unfold isDigitOf at h
  split at h
  · next hd =>
    rw [hd]
    exact of_decide_eq_true h
  · cases h

/-- Octal digits for a number below eight stand for the same decimal number. -/
theorem valueOf_octal_small (h : valueOf 8 ds < 8) : valueOf 10 ds = valueOf 8 ds := by
  rcases List.eq_nil_or_concat ds with rfl | ⟨front, c, rfl⟩
  · rfl
  · rw [List.concat_eq_append, valueOf_append_singleton] at h ⊢
    have hfront : valueOf 8 front = 0 := by omega
    rw [valueOf_append_singleton, hfront, valueOf_eq_zero (by decide) 10 hfront]

/-- Octal digits for a number from eight on stand for a decimal number that is greater by an
eighth. -/
theorem valueOf_octal_le (hds : ∀ c ∈ ds, isDigitOf 8 c = true) (h : 8 ≤ valueOf 8 ds) :
    9 * valueOf 8 ds ≤ 8 * valueOf 10 ds := by
  rcases List.eq_nil_or_concat ds with rfl | ⟨front, c, rfl⟩
  · cases h
  · rw [List.concat_eq_append] at hds h ⊢
    have hlast := digit_lt (hds c (List.mem_append_right _ List.mem_cons_self))
    have hfront := valueOf_mono (by decide : 8 ≤ 10) front
    rw [valueOf_append_singleton] at h ⊢
    rw [valueOf_append_singleton]
    omega

/-! ### What an integer is read from -/

theorem allDigits?_eq_some (h : allDigits? base text = .ok (some m)) :
    IsDigits base text ∧ valueOf base text = m := by
  unfold allDigits? at h
  split at h
  · next hdigits =>
    simp only [Bool.and_eq_true, Bool.not_eq_true', List.isEmpty_eq_false_iff,
      List.all_eq_true] at hdigits
    split at h
    · cases h
    · cases h
      exact ⟨hdigits, rfl⟩
  · cases h

/-- The digits of an integer are hexadecimal ones behind their mark, octal ones behind a zero, or
decimal ones. -/
inductive HasMagnitude : List Char → Nat → Prop where
  | hexadecimal {x : Char} {ds : List Char} (hx : x = 'x' ∨ x = 'X') (hds : IsDigits 16 ds) :
      HasMagnitude ('0' :: x :: ds) (valueOf 16 ds)
  | octal {ds : List Char} (hds : IsDigits 8 ('0' :: ds)) :
      HasMagnitude ('0' :: ds) (valueOf 8 ('0' :: ds))
  | decimal {c : Char} {ds : List Char} (hc : c ≠ '0') (hds : IsDigits 10 (c :: ds)) :
      HasMagnitude (c :: ds) (valueOf 10 (c :: ds))

theorem hasMagnitude_of_magnitude? (h : magnitude? body = .ok (some m)) : HasMagnitude body m := by
  unfold magnitude? at h
  split at h
  · next ds hmark =>
    obtain ⟨hds, rfl⟩ := allDigits?_eq_some h
    unfold afterHexMark? at hmark
    split at hmark
    · next x rest =>
      obtain ⟨hx, hrest⟩ := Option.ite_none_right_eq_some.mp hmark
      cases hrest
      exact .hexadecimal hx hds
    · cases hmark
  · next hmark =>
    split at h
    · obtain ⟨hds, rfl⟩ := allDigits?_eq_some h
      exact .octal hds
    · next hzero =>
      obtain ⟨hds, rfl⟩ := allDigits?_eq_some h
      cases body with
      | nil => exact absurd rfl hds.1
      | cons c ds => exact .decimal (fun hc => hzero ds (by rw [hc])) hds

/-- The integer that a text is read as is the number of its digits with its sign. -/
theorem hasMagnitude_of_readInteger (h : readInteger text = .ok (some n))
    (hsplit : splitSign (text.dropWhile isSpace) = (sign, body)) :
    ∃ m, HasMagnitude body m ∧ n = Binary64.signed (sign == some '-') m := by
  unfold readInteger at h
  simp only [hsplit] at h
  rcases hm : magnitude? body with fault | _ | m
  · simp [hm] at h
  · simp [hm] at h
  · simp only [hm, Except.ok.injEq, Option.ite_none_right_eq_some] at h
    refine ⟨m, hasMagnitude_of_magnitude? hm, ?_⟩
    rw [← Option.some.inj h.2, Binary64.signed]
    simp only [beq_iff_eq]

/-! ### What a float is read from -/

/-- The literal that has digits and nothing else. -/
def digitsLiteral (base : Nat) (sign : Option Char) (ds : List Char) : Literal :=
  ⟨base, sign, ds, false, none, [], none⟩

theorem readLiteral?_digits (hds : IsDigits base ds) (isMarker : Char → Bool)
    (sign : Option Char) :
    readLiteral? base isMarker sign ds = some (digitsLiteral base sign ds) := by
  have htake : ds.takeWhile (isDigitOf base) = ds := List.takeWhile_eq_self_iff.mpr hds.2
  have hdrop : ds.dropWhile (isDigitOf base) = [] := List.dropWhile_eq_nil_iff.mpr hds.2
  have hmantissa : (digitsLiteral base sign ds).hasMantissa = true := by
    simp [digitsLiteral, Literal.hasMantissa, hds.1]
  simp only [readLiteral?, htake, hdrop]
  exact if_pos hmantissa

/-- Behind a zero, a character that neither is a digit nor goes on with the number ends it too
early. -/
theorem readLiteral?_mark {x : Char} (hdigit : isDigitOf 10 x = false) (hpoint : x ≠ '.')
    (hmarker : isMarker x = false) :
    readLiteral? 10 isMarker sign ('0' :: x :: ds) = none := by
  have hzero : isDigitOf 10 '0' = true := rfl
  have htail : readExponent? isMarker (x :: ds) = none := by
    simp [readExponent?, hmarker]
  simp [readLiteral?, hzero, hdigit, hpoint, htail]

theorem floatLiteral?_digits (hsplit : splitSign text = (sign, body)) (hds : IsDigits 10 body) :
    floatLiteral? text = some (digitsLiteral 10 sign body) := by
  simp only [floatLiteral?, hsplit, readLiteral?_digits hds]

theorem floatLiteral?_hexadecimal {x : Char} (hx : x = 'x' ∨ x = 'X')
    (hsplit : splitSign text = (sign, '0' :: x :: ds)) (hds : IsDigits 16 ds) :
    floatLiteral? text = some (digitsLiteral 16 sign ds) := by
  have hmark : afterHexMark? ('0' :: x :: ds) = some ds := if_pos hx
  have hdecimal : readLiteral? 10 (fun c => c == 'e' || c == 'E') sign ('0' :: x :: ds) = none := by
    rcases hx with rfl | rfl <;> exact readLiteral?_mark (by decide) (by decide) (by decide)
  simp only [floatLiteral?, hsplit, hdecimal, hmark, readLiteral?_digits hds]

theorem toBinary64_digits (base : Nat) (sign : Option Char) (ds : List Char) :
    (digitsLiteral base sign ds).toBinary64 =
      Binary64.ofRatio (sign == some '-') (valueOf base ds * Binary64.one) 1 := by
  have hexponent : (0 : Int) - 4 * (([] : List Char).length : Int) = 0 := by decide
  have hexponent' : (0 : Int) - (([] : List Char).length : Int) = 0 := by decide
  simp only [Literal.toBinary64, digitsLiteral, Literal.negative, List.append_nil, Option.map_none,
    Option.getD_none, hexponent, hexponent', Binary64.ofScaled_zero, ite_self]

/-- A float is read as the value of the literal that its text is, if that is finite. -/
theorem exists_literal_of_readFloat (hx : readFloat text = .ok (some x)) :
    ∃ l, floatLiteral? (text.dropWhile isSpace) = some l ∧ l.toBinary64 = x ∧
      x.isFinite = true := by
  unfold readFloat at hx
  split at hx
  · cases hx
  · next l hl =>
    split at hx
    · cases hx
    · obtain ⟨hfinite, hvalue⟩ := Option.ite_none_right_eq_some.mp (Except.ok.inj hx)
      rw [← Option.some.inj hvalue]
      exact ⟨l, hl, rfl, hfinite⟩

theorem isFinite_of_readFloat (hx : readFloat text = .ok (some x)) : x.isFinite = true := by
  obtain ⟨-, -, -, hfinite⟩ := exists_literal_of_readFloat hx
  exact hfinite

/-- A float is read from digits alone as the number that they stand for. -/
theorem float_of_digits (hx : readFloat text = .ok (some x))
    (hl : floatLiteral? (text.dropWhile isSpace) = some (digitsLiteral base sign ds)) :
    x = Binary64.ofRatio (sign == some '-') (valueOf base ds * Binary64.one) 1 := by
  obtain ⟨l, hl', hvalue, -⟩ := exists_literal_of_readFloat hx
  rw [hl, Option.some.injEq] at hl'
  rw [← hvalue, ← hl', toBinary64_digits]

/-! ### The readings compared -/

/-- Behind white space a text starts with a minus sign. -/
def isNegative (text : List Char) : Bool :=
  (splitSign (text.dropWhile isSpace)).1 == some '-'

/-- Behind white space and a sign, a text starts with a zero and another octal digit.  An integer is
read from it in octal, a float in decimal. -/
def IsOctal (text : List Char) : Prop :=
  ∃ c ds, (splitSign (text.dropWhile isSpace)).2 = '0' :: c :: ds ∧ isDigitOf 8 c = true

/-- A float that is read where an integer is read too has the digits of that integer, and stands
for the same number but for octal digits from eight on. -/
theorem float_of_hasMagnitude (h : HasMagnitude body m)
    (hsplit : splitSign (text.dropWhile isSpace) = (sign, body))
    (hx : readFloat text = .ok (some x)) :
    ∃ k, x = Binary64.ofRatio (sign == some '-') (k * Binary64.one) 1 ∧
      (IsOctal text ∧ 8 ≤ m → 9 * m ≤ 8 * k) ∧ (¬(IsOctal text ∧ 8 ≤ m) → k = m) := by
  have hbody : (splitSign (text.dropWhile isSpace)).2 = body := by rw [hsplit]
  cases h with
  | @hexadecimal mark ds hmark hds =>
      have hvalue := float_of_digits hx (floatLiteral?_hexadecimal hmark hsplit hds)
      refine ⟨valueOf 16 ds, hvalue, ?_, fun _ => rfl⟩
      · -- The mark is no octal digit.
        rintro ⟨⟨c, rest, hzero, hc⟩, -⟩
        rw [hbody] at hzero
        cases hzero
        rcases hmark with rfl | rfl <;> cases hc
  | @octal ds hds =>
      have hdecimal : IsDigits 10 ('0' :: ds) :=
        ⟨hds.1, fun c hc => isDigitOf_of_le (by decide) (hds.2 c hc)⟩
      have hvalue := float_of_digits hx (floatLiteral?_digits hsplit hdecimal)
      refine ⟨valueOf 10 ('0' :: ds), hvalue, fun hm => valueOf_octal_le hds.2 hm.2, fun hm => ?_⟩
      · -- A zero alone is no number from eight on, so behind it there is another octal digit.
        refine valueOf_octal_small (Nat.lt_of_not_le fun hlarge => hm ⟨?_, hlarge⟩)
        cases ds with
        | nil => exact absurd hlarge (by decide)
        | cons c rest =>
            exact ⟨c, rest, hbody, hds.2 c (List.mem_cons_of_mem _ List.mem_cons_self)⟩
  | @decimal c ds hc hds =>
      have hvalue := float_of_digits hx (floatLiteral?_digits hsplit hds)
      refine ⟨valueOf 10 (c :: ds), hvalue, ?_, fun _ => rfl⟩
      · rintro ⟨⟨c', rest, hzero, -⟩, -⟩
        rw [hbody] at hzero
        exact absurd (List.cons.inj hzero).1 hc

/-- The integer and the float that a text is read as have their sign in common, and but for octal
digits from eight on their number. -/
theorem exists_of_readings (hn : readInteger text = .ok (some n))
    (hx : readFloat text = .ok (some x)) :
    n = Binary64.signed (isNegative text) n.natAbs ∧
      ∃ k, x = Binary64.ofRatio (isNegative text) (k * Binary64.one) 1 ∧
        (IsOctal text ∧ 8 ≤ n.natAbs → 9 * n.natAbs ≤ 8 * k) ∧
        (¬(IsOctal text ∧ 8 ≤ n.natAbs) → k = n.natAbs) := by
  cases hsplit : splitSign (text.dropWhile isSpace) with
  | mk sign body =>
      obtain ⟨m, hm, hvalue⟩ := hasMagnitude_of_readInteger hn hsplit
      have hfloat := float_of_hasMagnitude hm hsplit hx
      have habs : n.natAbs = m := by rw [hvalue, Binary64.natAbs_signed]
      have hsign : isNegative text = (sign == some '-') := by rw [isNegative, hsplit]
      rw [habs, hsign]
      exact ⟨hvalue, hfloat⟩

/-- **The float that a text is read as is the one nearest to the integer it is read as**, or zero
with its minus sign, except that octal digits for a number from eight on are read in decimal. -/
theorem float_of_readings (hn : readInteger text = .ok (some n))
    (hx : readFloat text = .ok (some x)) (hoctal : ¬(IsOctal text ∧ 8 ≤ n.natAbs)) :
    x = if n = 0 ∧ isNegative text = true then .zero true else .ofInt n := by
  obtain ⟨hvalue, k, hk, -, hsame⟩ := exists_of_readings hn hx
  rw [hk, hsame hoctal]
  split
  · next hzero =>
    rw [Int.natAbs_eq_zero.mpr hzero.1, hzero.2, Binary64.ofRatio_zero]
  · next hzero =>
    rw [Binary64.ofRatio_natural (by rwa [Int.natAbs_eq_zero]), ← hvalue]

/-- **Octal digits for a number from eight on are read as another float** than the one nearest to
the integer they are read as. -/
theorem beq_ofInt_of_octal (hn : readInteger text = .ok (some n))
    (hx : readFloat text = .ok (some x)) (hoctal : IsOctal text ∧ 8 ≤ n.natAbs) :
    x.beq (Binary64.ofInt n) = false := by
  obtain ⟨-, k, hk, hgreater, -⟩ := exists_of_readings hn hx
  have hfinite := isFinite_of_readFloat hx
  rw [hk] at hfinite ⊢
  exact Binary64.beq_ofRatio_eq_false (by omega) (hgreater hoctal) (inRange_of_readInteger hn)
    hfinite

end Numeral

end Stencil
