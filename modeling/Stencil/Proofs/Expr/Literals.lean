import Stencil.Proofs.Expr.Readings

/-!
# Expr — Literals

The texts of integers, strings and names are read as what they are written for, wherever a rest
follows that cannot be taken for a part of them (`Apart`): the decimal text of an integer of 64 bits
(`reads_integerText`), a string between quotes (`reads_quoted`), a word that does not start with a
digit (`reads_name`).
-/

namespace Stencil.Expr

open Scanner Text Numeral

variable {inner : Scanner Expr} {missing : Cause} {r : List Char}

/-- The rest of a text goes on with no symbol and no point. -/
def Apart (r : List Char) : Prop :=
  ∀ c ∈ r.head?, isSymbol c = false ∧ c ≠ '.'

theorem apart_nil : Apart [] := fun c hc => by cases hc

/-! ### Digits -/

theorem isDigitOf_digitChar {d : Nat} (h : d < 10) : isDigitOf 10 (digitChar d) = true := by
  rw [isDigitOf, digit?_digitChar h]
  simpa using h

theorem isDigitOf_of_mem_decimal (n : Nat) : ∀ c ∈ decimal n, isDigitOf 10 c = true := by
  fun_induction decimal n with
  | case1 n h =>
    intro c hc
    obtain rfl : c = digitChar n := by simpa using hc
    exact isDigitOf_digitChar h
  | case2 n h ih =>
    intro c hc
    rcases List.mem_append.mp hc with hc | hc
    · exact ih c hc
    · obtain rfl : c = digitChar (n % 10) := by simpa using hc
      exact isDigitOf_digitChar (Nat.mod_lt n (by decide))

theorem bounds_of_isDigitOf {c : Char} (h : isDigitOf 10 c = true) : '0' ≤ c ∧ c ≤ '9' := by
  by_contra hne
  rw [isDigitOf, digit?, if_neg hne] at h
  split at h
  · next d hd =>
    split at hd
    · cases hd; exact absurd (of_decide_eq_true h) (by omega)
    · split at hd
      · cases hd; exact absurd (of_decide_eq_true h) (by omega)
      · cases hd
  · cases h

theorem isSymbol_of_isDigitOf {c : Char} (h : isDigitOf 10 c = true) : isSymbol c = true := by
  have hd := bounds_of_isDigitOf h
  have : c.isDigit = true := by
    simp only [Char.isDigit, Bool.and_eq_true, decide_eq_true_eq]
    exact ⟨hd.1, hd.2⟩
  simp [isSymbol, Char.isAlphanum, this]

theorem isSpace_of_isDigitOf {c : Char} (h : isDigitOf 10 c = true) : isSpace c = false := by
  obtain ⟨hlow, hhigh⟩ := bounds_of_isDigitOf h
  have hlow : 48 ≤ c.toNat := UInt32.le_iff_toNat_le.mp hlow
  have hhigh : c.toNat ≤ 57 := UInt32.le_iff_toNat_le.mp hhigh
  simp only [isSpace, Bool.or_eq_false_iff, Bool.and_eq_false_iff, decide_eq_false_iff_not,
    beq_eq_false_iff_ne]
  omega

/-- A digit is none of the characters that have a meaning of their own in numbers. -/
theorem ne_of_isDigitOf {c : Char} (h : isDigitOf 10 c = true) :
    c ≠ '.' ∧ isSign c = false ∧ Literal.isExponentMarker 10 c = false ∧
      Literal.baseOfMark? c = none := by
  refine ⟨?_, ?_, ?_, ?_⟩
  · rintro rfl
    cases h
  · by_contra hs
    rcases eq_of_isSign (by simpa using hs) with rfl | rfl <;> cases h
  · by_contra hm
    rcases eq_of_isExponentMarker (by simpa using hm) with ⟨-, rfl | rfl⟩ | ⟨⟨⟩, -⟩ <;> cases h
  · cases hb : Literal.baseOfMark? c with
    | none => rfl
    | some base => rw [(of_baseOfMark? hb).2] at h; cases h

/-- The state of the machine for numbers behind a sign and the digits of an integer. -/
def integerLiteral (sign : Option Char) (digits : List Char) : Literal :=
  { Literal.empty with sign := sign, whole := digits }

/-- Before what is apart, the machine for numbers stops behind digits. -/
theorem halts_apart (sign : Option Char) {digits : List Char} (hne : digits ≠ []) (hr : Apart r) :
    Halts 2 Literal.move (integerLiteral sign digits) r := by
  intro c cs hcs
  obtain ⟨hsym, hpoint⟩ := hr c (by rw [hcs]; rfl)
  have hd : isDigitOf 10 c = false := by
    by_contra hd
    rw [isSymbol_of_isDigitOf (by simpa using hd)] at hsym
    cases hsym
  have hm : Literal.isExponentMarker 10 c = false := by
    by_contra hm
    rcases eq_of_isExponentMarker (by simpa using hm) with ⟨-, rfl | rfl⟩ | ⟨⟨⟩, -⟩ <;> cases hsym
  simp [Literal.move, integerLiteral, Literal.empty, Literal.moveInMantissa, hpoint,
    Literal.moveAtSign, Literal.hasMantissa, hne, hd, hm]

/-- No base is announced where its mark is missing. -/
theorem baseAhead?_unmarked {c : Char} (hc : Literal.baseOfMark? c = none) (s : List Char)
    (n : Nat) : Literal.baseAhead? ((c :: s).take n) = none := by
  cases h : Literal.baseAhead? ((c :: s).take n) with
  | none => rfl
  | some base =>
      obtain ⟨mark, digit, t, hcs, hmark, -⟩ := baseAhead?_some h
      cases n with
      | zero => cases hcs
      | succ n =>
          obtain ⟨rfl, -⟩ := List.cons.inj hcs
          rw [hc] at hmark
          cases hmark

/-- No base is announced by digits, or by what is apart. -/
theorem baseAhead?_digits {ds : List Char} (hds : ∀ c ∈ ds, isDigitOf 10 c = true) (hr : Apart r)
    (n : Nat) : Literal.baseAhead? ((ds ++ r).take n) = none := by
  cases ds with
  | cons c ds =>
      exact baseAhead?_unmarked (ne_of_isDigitOf (hds c (List.mem_cons_self ..))).2.2.2 _ n
  | nil =>
      cases r with
      | nil => rw [List.append_nil, List.take_nil]; rfl
      | cons c r =>
          refine baseAhead?_unmarked ?_ r n
          cases hb : Literal.baseOfMark? c with
          | none => rfl
          | some base =>
              obtain ⟨hsym, -⟩ := hr c rfl
              rw [(of_baseOfMark? hb).1] at hsym
              cases hsym

theorem reads_digits (sign : Option Char) (digits : List Char) {ds : List Char}
    (hds : ∀ c ∈ ds, isDigitOf 10 c = true) (hne : digits ++ ds ≠ []) (hr : Apart r) :
    (fold 2 Literal.move (integerLiteral sign digits)).Reads ds
      (integerLiteral sign (digits ++ ds)) r := by
  induction ds generalizing digits with
  | nil =>
      rw [List.append_nil] at hne ⊢
      exact reads_fold_halts (halts_apart sign hne hr)
  | cons c ds ih =>
      obtain ⟨hpoint, hs, hm, -⟩ := ne_of_isDigitOf (hds c (List.mem_cons_self ..))
      have hd := hds c (List.mem_cons_self ..)
      have hds' : ∀ d ∈ ds, isDigitOf 10 d = true := fun d h => hds d (List.mem_cons_of_mem _ h)
      have hrest := ih (digits ++ [c]) hds' (by simp)
      rw [List.append_assoc, List.singleton_append] at hrest
      refine reads_fold_step_zero ?_ hrest
      simp [Literal.move, integerLiteral, Literal.empty, Literal.moveInMantissa, hpoint, hs, hm, hd,
        baseAhead?_digits hds' hr, Literal.withDigit]

/-! ### Integers -/

theorem digitAhead_decimal (n : Nat) (r : List Char) (m : Nat) :
    Literal.digitAhead ((decimal n ++ r).take (m + 1)) = true := by
  cases hd : decimal n with
  | nil => exact absurd hd (decimal_ne_nil n)
  | cons c ds => exact isDigitOf_of_mem_decimal n c (by rw [hd]; exact List.mem_cons_self ..)

/-- The sign and the digits of an integer. -/
def integerParts (n : Int) : Literal :=
  integerLiteral (if n < 0 then some '-' else none) (decimal n.natAbs)

theorem reads_integerParts (n : Int) (hr : Apart r) :
    (fold 2 Literal.move .empty).Reads (integerText n).toList (integerParts n) r := by
  have hdigits : ∀ sign, (fold 2 Literal.move (integerLiteral sign [])).Reads (decimal n.natAbs)
      (integerLiteral sign (decimal n.natAbs)) r := by
    intro sign
    refine reads_digits sign [] (isDigitOf_of_mem_decimal _) ?_ hr
    rw [List.nil_append]
    exact decimal_ne_nil _
  rw [integerText, String.toList_ofList, integerParts]
  by_cases hn : n < 0
  · rw [if_pos hn, if_pos hn]
    refine reads_fold_step_zero ?_ (hdigits (some '-'))
    have hd := digitAhead_decimal n.natAbs r 1
    simp [Literal.move, Literal.empty, Literal.moveInMantissa, isSign, Literal.moveAtSign,
      Literal.hasMantissa, hd, integerLiteral]
  · rw [if_neg hn, if_neg hn]
    exact hdigits none

theorem toInt_integerParts (n : Int) : (integerParts n).toInt = n := by
  by_cases h : n < 0
  · simp only [Literal.toInt, integerParts, integerLiteral, Literal.empty, if_pos h,
      valueOf_decimal, Literal.negative]
    rw [Int.ofNat_natAbs_of_nonpos (Int.le_of_lt h)]
    simp
  · simp only [Literal.toInt, integerParts, integerLiteral, Literal.empty, if_neg h,
      valueOf_decimal, Literal.negative]
    rw [Int.natAbs_of_nonneg (Int.not_lt.mp h)]
    simp

theorem chars_integerParts (n : Int) : (integerParts n).chars = (integerText n).toList := by
  rw [integerText, String.toList_ofList]
  by_cases h : n < 0 <;>
    simp [Literal.chars, Literal.unsignedChars, integerParts, integerLiteral, Literal.empty, h]

/-- An integer of 64 bits has few enough digits to be read. -/
theorem overlong_decimal {n : Int} (hn : inRange n = true) :
    overlong 10 (decimal n.natAbs) = false := by
  have hlt : n.natAbs < 10000000000000000000 := by
    rw [inRange, Bool.and_eq_true, decide_eq_true_iff, decide_eq_true_iff, leastInt,
      greatestInt] at hn
    omega
  have hlength : ¬digitLimit < (decimal n.natAbs).length := by
    have := length_decimal_le (k := 18) hlt
    rw [digitLimit]
    omega
  simp [overlong, hlength]

/-- What the text of an integer out of range fails by, where a number is read. -/
def integerFailure (n : Int) (p : Position) : Failure :=
  if overlong 10 (decimal n.natAbs) then .fault (.tooManyDigits (decimal n.natAbs).length)
  else .located (.numberOutOfRange (integerText n).toList) p

/-- The parts of an integer stand for it, if it is in range. -/
theorem evaluate_integerParts (n : Int) (p : Position) :
    (integerParts n).evaluate p =
      if inRange n then .ok (.integer n) else .error (integerFailure n p) := by
  have hne : (decimal n.natAbs).isEmpty = false := by
    simpa using decimal_ne_nil n.natAbs
  have hm : (integerParts n).hasMantissa = true := by
    simp [Literal.hasMantissa, integerParts, integerLiteral, Literal.empty, hne]
  have hf : (integerParts n).isFloat = false := rfl
  rw [Literal.evaluate, if_neg (by simp [hm]), if_pos (by simp [hf]), toInt_integerParts,
    chars_integerParts]
  change (if overlong 10 (decimal n.natAbs) = true then
    Except.error (Failure.fault (.tooManyDigits _)) else _) = _
  cases hn : inRange n with
  | true =>
      rw [if_neg (by simp [overlong_decimal hn])]
      rfl
  | false =>
      rw [integerFailure]
      split <;> rfl

theorem reads_number_integerText {n : Int} (hn : inRange n = true) (hr : Apart r) :
    number.Reads (integerText n).toList (.integer n) r :=
  reads_number (reads_integerParts n hr) fun q => by rw [evaluate_integerParts, if_pos hn]

theorem run_number_integerText {n : Int} (hn : inRange n = false) (hr : Apart r) (p : Position) :
    number.run (.ofTextAt p ((integerText n).toList ++ r)) =
      .error (integerFailure n (p.after (integerText n).toList))
        (.ofTextAt (p.after (integerText n).toList) r) := by
  rw [run_number_of_fold (reads_integerParts n hr p), evaluate_integerParts,
    if_neg (by simp [hn])]
  rfl

/-- The text of an integer starts with a digit, or with a minus sign before its digits. -/
theorem integerText_front (n : Int) :
    ∃ c ds, (integerText n).toList = c :: ds ∧
      (c = '-' ∧ ds = decimal n.natAbs ∨ isDigitOf 10 c = true) := by
  rw [integerText, String.toList_ofList]
  split
  · exact ⟨'-', _, rfl, .inl ⟨rfl, rfl⟩⟩
  · cases hd : decimal n.natAbs with
    | nil => exact absurd hd (decimal_ne_nil _)
    | cons c ds =>
        exact ⟨c, ds, rfl, .inr (isDigitOf_of_mem_decimal n.natAbs c
          (by rw [hd]; exact List.mem_cons_self ..))⟩

/-- The text of an integer is taken for a number where an operand is read. -/
theorem operandAhead_integerText (n : Int) (inner : Scanner Expr) (missing : Cause)
    (r : List Char) :
    operandAhead inner missing (((integerText n).toList ++ r).take 2) = numberOperand ∧
      ∀ c ∈ ((integerText n).toList ++ r).head?, isBlank c = false := by
  obtain ⟨c, ds, htext, hfront⟩ := integerText_front n
  rw [htext]
  have hstart : startsNumber (c :: (ds ++ r).take 1) = true := by
    rcases hfront with ⟨rfl, rfl⟩ | hc
    · have hd := digitAhead_decimal n.natAbs r 0
      simp [startsNumber, hd, isSign]
    · simp [startsNumber, hc]
  have hblank : isBlank c = false := by
    rcases hfront with ⟨rfl, -⟩ | hc
    · rfl
    · exact isBlank_of_isSymbol (isSymbol_of_isDigitOf hc)
  have h₁ : c ≠ '(' := by rintro rfl; rcases hfront with ⟨h, -⟩ | h <;> cases h
  have h₂ : c ≠ '"' := by rintro rfl; rcases hfront with ⟨h, -⟩ | h <;> cases h
  refine ⟨?_, fun b hb => by cases hb; exact hblank⟩
  rw [List.cons_append, List.take_succ_cons, operandAhead, if_neg h₁, if_neg h₂, if_pos hstart]

/-- The decimal text of an integer of 64 bits is an operand. -/
theorem reads_integerText {s : List Char} (hs : ∀ c ∈ s, isBlank c = true) {n : Int}
    (hn : inRange n = true) (hr : Apart r) :
    (bareOperand inner missing).Reads (s ++ (integerText n).toList)
      (.literal (.integer n) []) r := by
  obtain ⟨hahead, hblank⟩ := operandAhead_integerText n inner missing r
  refine reads_bareOperand hs hblank ?_
  rw [hahead]
  exact (reads_number_integerText hn hr).bind_nil (reads_afterNumber fun b hb => (hr b hb).1)

/-- The decimal text of any other integer is out of range as an operand, or not read at all. -/
theorem fails_integerText {n : Int} (hn : inRange n = false) (hr : Apart r) :
    (bareOperand inner missing).FailsBy ((integerText n).toList ++ r) (integerFailure n) := by
  obtain ⟨hahead, hblank⟩ := operandAhead_integerText n inner missing r
  have h : (operandAhead inner missing (((integerText n).toList ++ r).take 2)).FailsBy
      ((integerText n).toList ++ r) (integerFailure n) := by
    rw [hahead]
    exact FailsBy.bind (fun p => ⟨_, _, run_number_integerText hn hr p⟩) _
  exact fails_bareOperand (s := []) (fun c hc => by cases hc) hblank h

/-! ### Strings -/

theorem reads_fold_quoted (cs taken : List Char) (r : List Char) :
    (fold 0 StringState.move ⟨taken, false, false⟩).Reads (quotedChars cs ++ ['"'])
      ⟨cs.reverse ++ taken, false, true⟩ r := by
  induction cs generalizing taken with
  | nil => exact reads_fold_last (w := []) rfl
  | cons c cs ih =>
      have hrest := ih (c :: taken)
      rw [List.reverse_cons, List.append_assoc, List.singleton_append, quotedChars]
      split
      · exact reads_fold_step_zero (b := ⟨taken, true, false⟩) rfl (reads_fold_step_zero rfl hrest)
      · next hc =>
        obtain ⟨h₁, h₂⟩ := not_or.mp hc
        refine reads_fold_step_zero ?_ hrest
        simp [StringState.move, h₁, h₂]

theorem reads_stringLiteral (s : String) (r : List Char) :
    stringLiteral.Reads ('"' :: (quotedChars s.toList ++ ['"'])) s r := by
  refine (reads_accept (c := '"') rfl _).bind ((reads_fold_quoted s.toList [] r).bind_nil ?_)
  rw [if_pos rfl, List.append_nil, List.reverse_reverse, String.ofList_toList]
  exact reads_pure s r

/-- A string between quotes is an operand. -/
theorem reads_quoted {s : List Char} (hs : ∀ c ∈ s, isBlank c = true) (text : String)
    (r : List Char) :
    (bareOperand inner missing).Reads (s ++ '"' :: (quotedChars text.toList ++ ['"']))
      (.literal (.string text) []) r := by
  refine reads_bareOperand hs (fun c hc => by cases hc; rfl) ?_
  rw [List.cons_append, List.take_succ_cons, operandAhead, if_neg (by decide), if_pos rfl]
  exact (reads_stringLiteral text r).map

/-! ### Names -/

/-- A word that does not start with a digit is an operand. -/
theorem reads_name {s : List Char} (hs : ∀ c ∈ s, isBlank c = true) {name : String}
    (hne : name.toList ≠ []) (hsym : ∀ c ∈ name.toList, isSymbol c = true)
    (hd : ∀ c ∈ name.toList.head?, isDigitOf 10 c = false) (hr : Apart r) :
    (bareOperand inner missing).Reads (s ++ name.toList) (.ident name []) r := by
  have hword := reads_word hsym fun c hc => (hr c hc).1
  cases hname : name.toList with
  | nil => exact absurd hname hne
  | cons c w =>
      rw [hname] at hsym hd hword
      have hc := hsym c (List.mem_cons_self ..)
      have h₁ : c ≠ '(' := ne_of_isSymbol hc (by decide)
      have h₂ : c ≠ '"' := ne_of_isSymbol hc (by decide)
      have hp : c ≠ '.' := ne_of_isSymbol hc (by decide)
      have hsign : isSign c = false := by
        by_contra h
        rcases eq_of_isSign (by simpa using h) with rfl | rfl <;> exact absurd hc (by decide)
      have hstart : startsNumber (c :: (w ++ r).take 1) = false := by
        simp [startsNumber, hd c rfl, hp, hsign]
      refine reads_bareOperand hs (fun b hb => by cases hb; exact isBlank_of_isSymbol hc) ?_
      rw [List.cons_append, List.take_succ_cons, operandAhead, if_neg h₁, if_neg h₂,
        if_neg (by simp [hstart]), if_pos hc]
      have hident := hword.map (f := fun cs => Expr.ident (String.ofList cs) [])
      rw [← hname, String.ofList_toList] at hident
      rwa [← hname]

end Stencil.Expr
