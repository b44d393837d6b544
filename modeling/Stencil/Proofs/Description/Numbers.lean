import Stencil.Description.Token
import Stencil.Proofs.Expr.Literals

/-!
# Description — Numbers

How many characters the token of a number has is decided by the characters up to the first that no
number has (`numberLength?_takeWhile`): neither a blank, nor a comment, nor a separator is looked
through.  The token has at least one character and none beyond these (`numberLength?_bounds`,
`isNumeric_of_mem_take`).  The decimal text of an integer is one token
(`numberLength?_integerText`).
-/

namespace Stencil.Description

open Text Numeral

/-- A character that may stand in a number: a symbol, a point or a sign. -/
def isNumeric (c : Char) : Bool :=
  isSymbol c || c == '.' || isSign c

/-- Numeric characters are those of names, signs and points. -/
theorem isNumeric_of_isSymbol {c : Char} (h : isSymbol c = true) : isNumeric c = true := by
  simp [isNumeric, h]

theorem isNumeric_of_isSign {c : Char} (h : isSign c = true) : isNumeric c = true := by
  simp [isNumeric, h]

theorem isNumeric_of_isDigitOf {base : Nat} {c : Char} (h : isDigitOf base c = true) :
    isNumeric c = true := by
  refine isNumeric_of_isSymbol ?_
  have hletter : c.isAlphanum = true := by
    delta Char.isAlphanum Char.isAlpha Char.isUpper Char.isLower Char.isDigit
    simp only [Bool.or_eq_true, Bool.and_eq_true, decide_eq_true_eq]
    unfold isDigitOf digit? at h
    split at h
    · next d hd =>
      split at hd
      · next hc => exact .inr hc
      split at hd
      · next hc => exact .inl (.inr ⟨hc.1, Char.le_trans hc.2 (by decide)⟩)
      split at hd
      · next hc => exact .inl (.inl ⟨hc.1, Char.le_trans hc.2 (by decide)⟩)
      · cases hd
    · cases h
  simp [isSymbol, hletter]

/-! ### Classes of characters in front -/

section Front

variable {p q : Char → Bool}

/-- A narrower run of characters does not see where a wider one is cut off. -/
theorem takeWhile_takeWhile_of_imp (h : ∀ c, q c = true → p c = true) (text : List Char) :
    (text.takeWhile p).takeWhile q = text.takeWhile q := by
  rw [List.takeWhile_takeWhile]
  congr 1
  funext c
  by_cases hq : q c = true
  · simp [hq, h c hq]
  · simp [hq]

/-- Nor does it matter whether the wider run is cut off before the narrower one is dropped. -/
theorem drop_takeWhile_of_imp (h : ∀ c, q c = true → p c = true) (text : List Char) :
    (text.takeWhile p).drop (text.takeWhile q).length =
      (text.drop (text.takeWhile q).length).takeWhile p := by
  induction text with
  | nil => rfl
  | cons c text ih =>
      by_cases hq : q c = true
      · simpa [List.takeWhile_cons, hq, h c hq] using ih
      · simp [List.takeWhile_cons, hq]

end Front

/-- A sign that is split off leaves one character less. -/
theorem splitSign_length (text : List Char) :
    (splitSign text).1.toList.length + (splitSign text).2.length = text.length := by
  cases text with
  | nil => rfl
  | cons c rest => rw [splitSign]; split <;> simp [Nat.add_comm]

/-- A sign is numeric, so it is not cut off. -/
theorem splitSign_takeWhile (text : List Char) :
    splitSign (text.takeWhile isNumeric) =
      ((splitSign text).1, (splitSign text).2.takeWhile isNumeric) := by
  cases text with
  | nil => rfl
  | cons c rest =>
      by_cases hs : isSign c = true
      · simp [splitSign, hs, isNumeric_of_isSign hs]
      · by_cases hc : isNumeric c = true <;> simp [splitSign, hs, hc]

/-- Whether an exponent follows is told by numeric characters alone. -/
theorem exponentAhead_takeWhile (text : List Char) :
    Literal.exponentAhead (text.takeWhile isNumeric) = Literal.exponentAhead text := by
  have digits : ∀ text : List Char,
      Literal.digitAhead (text.takeWhile isNumeric) = Literal.digitAhead text := by
    intro text
    cases text with
    | nil => rfl
    | cons c rest =>
        by_cases hc : isNumeric c = true
        · simp [hc, Literal.digitAhead]
        · have hd : isDigitOf 10 c = false := by simpa using mt isNumeric_of_isDigitOf hc
          simp [hc, Literal.digitAhead, hd]
  cases text with
  | nil => rfl
  | cons c rest =>
      by_cases hc : isNumeric c = true
      · simp [hc, Literal.exponentAhead, digits]
      · have hd : isDigitOf 10 c = false := by simpa using mt isNumeric_of_isDigitOf hc
        have hs : isSign c = false := by simpa using mt isNumeric_of_isSign hc
        simp [hc, Literal.exponentAhead, hd, hs]

/-! ### The length of a number -/

variable {isFigure isMarker : Char → Bool}

theorem exponentLength_takeWhile (hm : ∀ c, isMarker c = true → isNumeric c = true)
    (text : List Char) :
    exponentLength isMarker (text.takeWhile isNumeric) = exponentLength isMarker text := by
  cases text with
  | nil => rfl
  | cons c rest =>
      by_cases hc : isNumeric c = true
      · rw [List.takeWhile_cons_of_pos hc, exponentLength, exponentLength, exponentAhead_takeWhile,
          splitSign_takeWhile]
        dsimp only
        rw [takeWhile_takeWhile_of_imp fun c => isNumeric_of_isDigitOf]
      · have hmark : isMarker c = false := by simpa using mt (hm c) hc
        rw [List.takeWhile_cons_of_neg hc, exponentLength, exponentLength, hmark]
        rfl

/-- An exponent is a part of the text. -/
theorem exponentLength_le (text : List Char) : exponentLength isMarker text ≤ text.length := by
  cases text with
  | nil => exact Nat.le_refl _
  | cons c rest =>
      have hsplit := splitSign_length rest
      have hdigits := (List.takeWhile_sublist (l := (splitSign rest).2) (isDigitOf 10)).length_le
      rw [exponentLength, List.length_cons]
      split
      · dsimp only; omega
      · exact Nat.zero_le _

/-- Figures and the exponent behind them are numeric. -/
theorem figuresLength?_takeWhile (hf : ∀ c, isFigure c = true → isNumeric c = true)
    (hm : ∀ c, isMarker c = true → isNumeric c = true) (text : List Char) :
    figuresLength? isFigure isMarker (text.takeWhile isNumeric) =
      figuresLength? isFigure isMarker text := by
  simp only [figuresLength?, takeWhile_takeWhile_of_imp hf, drop_takeWhile_of_imp hf,
    exponentLength_takeWhile hm]

/-- There is at least one figure, and no more than there are characters. -/
theorem figuresLength?_bounds {text : List Char} {n : Nat}
    (h : figuresLength? isFigure isMarker text = some n) : 0 < n ∧ n ≤ text.length := by
  simp only [figuresLength?] at h
  split at h
  · cases h
  · next hne =>
    cases h
    have hpos : 0 < (text.takeWhile isFigure).length := by
      rw [List.length_pos_iff]
      simpa using hne
    have hlen := (List.takeWhile_sublist (l := text) isFigure).length_le
    have hexp : exponentLength isMarker (text.drop (text.takeWhile isFigure).length) ≤ _ :=
      exponentLength_le _
    rw [List.length_drop] at hexp
    omega

theorem isNumeric_figure {base : Nat} (c : Char)
    (h : (isDigitOf base c || c == '.') = true) : isNumeric c = true := by
  rcases Bool.or_eq_true_iff.mp h with h | h
  · exact isNumeric_of_isDigitOf h
  · simp [isNumeric, h]

/-- A number with the mark of a base is measured by its numeric characters. -/
theorem markedLength?_takeWhile (base : Nat) (text : List Char) :
    markedLength? base (text.takeWhile isNumeric) = markedLength? base text := by
  unfold markedLength?
  split
  · refine figuresLength?_takeWhile isNumeric_figure (fun c h => ?_) text
    simp only [Bool.or_eq_true, beq_iff_eq] at h
    rcases h with rfl | rfl <;> decide
  · exact figuresLength?_takeWhile (fun c => isNumeric_of_isDigitOf) (fun c h => by cases h) text

/-- So is a decimal one. -/
theorem decimalLength?_takeWhile (text : List Char) :
    decimalLength? (text.takeWhile isNumeric) = decimalLength? text := by
  refine figuresLength?_takeWhile isNumeric_figure (fun c h => ?_) text
  simp only [Bool.or_eq_true, beq_iff_eq] at h
  rcases h with rfl | rfl <;> decide

theorem markedLength?_bounds {base n : Nat} {text : List Char}
    (h : markedLength? base text = some n) : 0 < n ∧ n ≤ text.length := by
  unfold markedLength? at h
  split at h <;> exact figuresLength?_bounds h

/-- The number in front has the mark of a base, or it is decimal. -/
theorem unsignedLength?_eq (text : List Char) :
    (∃ mark base rest n, text = '0' :: mark :: rest ∧ Literal.baseOfMark? mark = some base ∧
      markedLength? base rest = some n ∧ unsignedLength? text = some (n + 2)) ∨
    (∀ mark base rest, text = '0' :: mark :: rest → Literal.baseOfMark? mark = some base →
      markedLength? base rest = none) ∧ unsignedLength? text = decimalLength? text := by
  unfold unsignedLength?
  split
  · next mark rest =>
    cases hb : Literal.baseOfMark? mark with
    | none =>
        refine .inr ⟨?_, rfl⟩
        rintro _ base _ ⟨⟩ hb'
        rw [hb] at hb'
        cases hb'
    | some base =>
        cases hn : markedLength? base rest with
        | none =>
            refine .inr ⟨?_, by simp [hn]⟩
            rintro _ base' _ ⟨⟩ hb'
            rw [hb] at hb'
            cases hb'
            exact hn
        | some n => exact .inl ⟨mark, base, rest, n, rfl, hb, hn, by simp [hn]⟩
  · next hne => exact .inr ⟨fun mark _ rest h => absurd h (hne mark rest), rfl⟩

/-- Marks of bases are tried first, and then the decimal form. -/
theorem unsignedLength?_takeWhile (text : List Char) :
    unsignedLength? (text.takeWhile isNumeric) = unsignedLength? text := by
  -- The mark of a base is a symbol, so that it stands in both texts or in neither.
  have marked : ∀ {mark base rest}, Literal.baseOfMark? mark = some base →
      (text.takeWhile isNumeric = '0' :: mark :: rest ↔
        ∃ rest', text = '0' :: mark :: rest' ∧ rest = rest'.takeWhile isNumeric) := by
    intro mark base rest hb
    have hmark : isNumeric mark = true := isNumeric_of_isSymbol (Expr.of_baseOfMark? hb).1
    have hzero : isNumeric '0' = true := by decide
    constructor
    · intro h
      have htext := List.takeWhile_append_dropWhile (p := isNumeric) (l := text)
      rw [h] at htext
      refine ⟨rest ++ text.dropWhile isNumeric, htext.symm, ?_⟩
      have h' := h
      rw [← htext] at h'
      simpa [List.takeWhile_cons, hmark, hzero] using h'.symm
    · rintro ⟨rest', rfl, rfl⟩
      simp [hmark, hzero]
  rcases unsignedLength?_eq text with ⟨mark, base, rest, n, rfl, hb, hn, h⟩ | ⟨hnone, h⟩
  · have htake := (marked hb).mpr ⟨rest, rfl, rfl⟩
    rw [h, htake, unsignedLength?]
    simp [hb, markedLength?_takeWhile, hn]
  · rw [h]
    rcases unsignedLength?_eq (text.takeWhile isNumeric) with
      ⟨mark, base, rest, n, htake, hb, hn, -⟩ | ⟨-, h'⟩
    · obtain ⟨rest', htext, rfl⟩ := (marked hb).mp htake
      rw [markedLength?_takeWhile, hnone mark base rest' htext hb] at hn
      cases hn
    · rw [h', decimalLength?_takeWhile]

theorem unsignedLength?_bounds {text : List Char} {n : Nat} (h : unsignedLength? text = some n) :
    0 < n ∧ n ≤ text.length := by
  rcases unsignedLength?_eq text with ⟨mark, base, rest, m, rfl, -, hm, h'⟩ | ⟨-, h'⟩
  · rw [h'] at h
    cases h
    have := markedLength?_bounds hm
    simp only [List.length_cons]
    omega
  · rw [h'] at h
    exact figuresLength?_bounds h

/-- **The token of a number** is decided by the characters that numbers have. -/
theorem numberLength?_takeWhile (text : List Char) :
    numberLength? (text.takeWhile isNumeric) = numberLength? text := by
  simp only [numberLength?, splitSign_takeWhile, unsignedLength?_takeWhile]

/-- A number is not empty, and a part of the text. -/
theorem numberLength?_bounds {text : List Char} {n : Nat} (h : numberLength? text = some n) :
    0 < n ∧ n ≤ text.length := by
  simp only [numberLength?, Option.map_eq_some_iff] at h
  obtain ⟨m, hm, rfl⟩ := h
  have hbounds := unsignedLength?_bounds hm
  have hsplit := splitSign_length text
  omega

/-- All characters of a number are numeric. -/
theorem isNumeric_of_mem_take {text : List Char} {n : Nat} (h : numberLength? text = some n) :
    ∀ c ∈ text.take n, isNumeric c = true := by
  rw [← numberLength?_takeWhile] at h
  have hle := (numberLength?_bounds h).2
  intro c hc
  rw [← List.takeWhile_append_dropWhile (p := isNumeric) (l := text),
    List.take_append_of_le_length hle] at hc
  exact List.mem_takeWhile_imp (List.mem_of_mem_take hc)

/-! ### Integers -/

/-- The rest of a text does not go on with a number. -/
def Numberless (r : List Char) : Prop :=
  ∀ c ∈ r.head?, isNumeric c = false

/-- Numeric characters end where a text begins that has none in front. -/
theorem takeWhile_append_numberless {w r : List Char} (hw : ∀ c ∈ w, isNumeric c = true)
    (hr : Numberless r) : (w ++ r).takeWhile isNumeric = w := by
  rw [List.takeWhile_append_of_pos hw]
  cases r with
  | nil => simp
  | cons c r => simp [hr c rfl]

/-- The digits of a natural number are measured as a whole. -/
theorem unsignedLength?_decimal (n : Nat) :
    unsignedLength? (decimal n) = some (decimal n).length := by
  have hdigits := Expr.isDigitOf_of_mem_decimal n
  have hdecimal : decimalLength? (decimal n) = some (decimal n).length := by
    have hall : (decimal n).takeWhile (fun c => isDigitOf 10 c || c == '.') = decimal n := by
      rw [List.takeWhile_eq_self_iff]
      intro c hc
      simp [hdigits c hc]
    rw [decimalLength?, figuresLength?, hall, if_neg (by simpa using decimal_ne_nil n),
      List.drop_length]
    rfl
  rcases unsignedLength?_eq (decimal n) with ⟨mark, base, rest, m, htext, hb, -, -⟩ | ⟨-, h⟩
  · -- The mark of a base is no digit.
    have hmark := hdigits mark (by rw [htext]; simp)
    rw [(Expr.of_baseOfMark? hb).2] at hmark
    cases hmark
  · rw [h, hdecimal]

/-- Digits have no sign in front. -/
theorem splitSign_digits {w : List Char} (hw : ∀ c ∈ w, isDigitOf 10 c = true) :
    splitSign w = (none, w) := by
  cases w with
  | nil => rfl
  | cons c w =>
      have hs := (Expr.ne_of_isDigitOf (hw c List.mem_cons_self)).2.1
      simp [splitSign, hs]

theorem isNumeric_of_mem_integerText (n : Int) :
    ∀ c ∈ (integerText n).toList, isNumeric c = true := by
  intro c hc
  have digit : c ∈ decimal n.natAbs → isNumeric c = true := fun h =>
    isNumeric_of_isDigitOf (Expr.isDigitOf_of_mem_decimal _ c h)
  rw [integerText, String.toList_ofList] at hc
  split at hc
  · rcases List.mem_cons.mp hc with rfl | hc
    · decide
    · exact digit hc
  · exact digit hc

/-- The decimal text of an integer is one token, in front of what does not go on with a number. -/
theorem numberLength?_integerText (n : Int) {r : List Char} (hr : Numberless r) :
    numberLength? ((integerText n).toList ++ r) = some (integerText n).toList.length := by
  rw [← numberLength?_takeWhile, takeWhile_append_numberless (isNumeric_of_mem_integerText n) hr,
    integerText, String.toList_ofList]
  split
  · have hminus : splitSign ('-' :: decimal n.natAbs) = (some '-', decimal n.natAbs) := rfl
    simp [numberLength?, hminus, unsignedLength?_decimal]
  · simp [numberLength?, splitSign_digits (Expr.isDigitOf_of_mem_decimal _),
      unsignedLength?_decimal]

end Stencil.Description
