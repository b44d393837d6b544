import Stencil.Proofs.Description.Assignments

/-!
# Description — Printing

What can be described is read back (`loadText_printed`).  A value is *describable* when it is a
string, an integer of 64 bits, or an array of describable values; an assignment of such a value to a
symbol is written as a row of tokens (`printed`), between which any blanks and comments may stand
(`Laid`).

The same text is gone over twice.  Whoever cuts out the statement finds its semicolon, as strings
and comments hide theirs (`quiet_laid`); and the reader of tokens finds the tokens that were written
(`kinds_laid`), from which the value is built up again (`datum_value`).
-/

namespace Stencil

namespace Description

open Scanner Text Numeral

/-! ### Texts -/

/-- A value that can be described, with arrays that nest by `depth` at most. -/
def Describable : Nat → Value → Prop
  | _, .integer n => inRange n = true
  | _, .string _ => True
  | depth + 1, .array items => ∀ v ∈ items, Describable depth v
  | _, _ => False

/-- The tokens of a value that can be described. -/
def valueTokens : Value → List Token
  | .integer n => [.number (integerText n).toList]
  | .string s => [.string s]
  | .array [] => [.openBracket, .closeBracket]
  | .array (v :: vs) => .openBracket :: (valueTokens v ++ itemTokens vs)
  | _ => []
where
  /-- The tokens of the further items of an array, and of its end. -/
  itemTokens : List Value → List Token
    | [] => [.closeBracket]
    | v :: vs => .comma :: (valueTokens v ++ itemTokens vs)

/-- The characters of a token. -/
def Token.chars : Token → List Char
  | .equals => ['=']
  | .semicolon => [';']
  | .comma => [',']
  | .openBracket => ['[']
  | .closeBracket => [']']
  | .string s => '"' :: (Expr.quotedChars s.toList ++ ['"'])
  | .number chars => chars
  | .stray c => [c]

/-- The words of a statement: symbol, sign of equality, the tokens of the value, semicolon. -/
def printed (pair : String × Value) : List (List Char) :=
  pair.1.toList :: ((.equals :: (valueTokens pair.2 ++ [.semicolon])).map Token.chars)

/-- Blanks and comments.  A comment has no end of a line in it, and a line feed behind it. -/
inductive Ignorable : List Char → Prop where
  | nil : Ignorable []
  | blank {c : Char} {g : List Char} (hc : isBlank c = true) (h : Ignorable g) : Ignorable (c :: g)
  | comment {w g : List Char} (hw : ∀ c ∈ w, endsLine c = false) (h : Ignorable g) :
      Ignorable ('#' :: (w ++ '\n' :: g))

/-- The text consists of these words, with any blanks and comments before each of them. -/
inductive Laid : List (List Char) → List Char → Prop where
  | nil : Laid [] []
  | cons {g : List Char} (hg : Ignorable g) (w : List Char) {ws : List (List Char)} {r : List Char}
      (h : Laid ws r) : Laid (w :: ws) (g ++ (w ++ r))

namespace Laid

/-- A word with nothing before it. -/
theorem word (w : List Char) {ws : List (List Char)} {r : List Char} (h : Laid ws r) :
    Laid (w :: ws) (w ++ r) :=
  .cons .nil w h

theorem uncons {w : List Char} {ws : List (List Char)} {text : List Char}
    (h : Laid (w :: ws) text) :
    ∃ g r, text = g ++ (w ++ r) ∧ Ignorable g ∧ Laid ws r := by
  cases h with
  | cons hg _ h => exact ⟨_, _, rfl, hg, h⟩

theorem split {ws us : List (List Char)} {text : List Char} (h : Laid (ws ++ us) text) :
    ∃ v w, text = v ++ w ∧ Laid ws v ∧ Laid us w := by
  induction ws generalizing text with
  | nil => exact ⟨[], text, rfl, .nil, h⟩
  | cons x ws ih =>
      obtain ⟨g, r, rfl, hg, hr⟩ := h.uncons
      obtain ⟨v, w, rfl, hv, hw⟩ := ih hr
      exact ⟨g ++ (x ++ v), w, by simp only [List.append_assoc], .cons hg x hv, hw⟩

end Laid

/-! ### Blanks and comments -/

theorem Ignorable.divide {g : List Char} (h : Ignorable g) (r : List Char) :
    divideIgnored false (g ++ r) = (g ++ (divideIgnored false r).1, (divideIgnored false r).2) := by
  -- A comment is gone over to its line feed.
  have comment : ∀ (w r : List Char), (∀ c ∈ w, endsLine c = false) →
      divideIgnored true (w ++ '\n' :: r) =
        (w ++ '\n' :: (divideIgnored false r).1, (divideIgnored false r).2) := by
    intro w r hw
    induction w with
    | nil => rfl
    | cons c w ih =>
        have hc : (c != '\n') = true := by
          rw [bne_iff_ne]
          rintro rfl
          cases hw _ List.mem_cons_self
        rw [List.cons_append, divideIgnored, if_pos rfl, hc,
          ih fun d hd => hw d (List.mem_cons_of_mem _ hd)]
        rfl
  induction h with
  | nil => rfl
  | blank hc h ih => rw [List.cons_append, divideIgnored, if_neg (by decide), if_pos hc, ih]; rfl
  | @comment w g hw h ih =>
      rw [List.cons_append, List.append_assoc, divideIgnored, if_neg (by decide),
        if_neg (by decide), if_pos rfl, List.cons_append, comment w (g ++ r) hw, ih]
      simp only [List.cons_append, List.append_assoc]

theorem Ignorable.kinds {g : List Char} (h : Ignorable g) (r : List Char) :
    kinds (g ++ r) = kinds r := by
  induction h with
  | nil => rfl
  | @blank c g hc h ih =>
      rw [List.cons_append, ← List.singleton_append, kinds_lexeme (.blank hc _), ih]
      rfl
  | @comment w g hw h ih =>
      have hcomment : Lexeme ('#' :: w) none (['\n'] ++ (g ++ r)) :=
        .comment hw (by rintro c ⟨⟩; rfl)
      have htext : '#' :: (w ++ '\n' :: g) ++ r = ('#' :: w) ++ (['\n'] ++ (g ++ r)) := by simp
      rw [htext, kinds_lexeme hcomment, kinds_lexeme (.blank rfl _), ih]
      rfl

/-- Nothing in the text ends the statement, and nothing is left open. -/
def Quiet (w : List Char) : Prop :=
  Region.plain.passes w = true ∧ Region.plain.after w = .plain

theorem Quiet.append {v w : List Char} (hv : Quiet v) (hw : Quiet w) : Quiet (v ++ w) :=
  ⟨Region.passes_append.mpr ⟨hv.1, by rw [hv.2]; exact hw.1⟩,
    by rw [Region.after_append, hv.2, hw.2]⟩

theorem quiet_of_plain {w : List Char} (hw : ∀ c ∈ w, c ≠ ';' ∧ c ≠ '"' ∧ c ≠ '#') : Quiet w := by
  induction w with
  | nil => exact ⟨rfl, rfl⟩
  | cons c w ih =>
      obtain ⟨hend, hother⟩ := hw c List.mem_cons_self
      obtain ⟨hpasses, hafter⟩ := ih fun d hd => hw d (List.mem_cons_of_mem _ hd)
      have hnext : Region.plain.next c = .plain := by simp [Region.next, hother]
      exact ⟨Region.passes_cons.mpr ⟨fun h => hend h.2, by rw [hnext]; exact hpasses⟩,
        by rw [Region.after_cons, hnext, hafter]⟩

theorem quiet_numeric {w : List Char} (hw : ∀ c ∈ w, isNumeric c = true) : Quiet w :=
  quiet_of_plain fun c hc => ⟨isNumeric_ne (hw c hc) (by decide),
    isNumeric_ne (hw c hc) (by decide), isNumeric_ne (hw c hc) (by decide)⟩

theorem Closing.quiet {w : List Char} (h : Closing w) : Quiet ('"' :: w) :=
  ⟨Region.passes_cons.mpr ⟨by simp, h.passes⟩, h.after⟩

theorem Ignorable.quiet {g : List Char} (h : Ignorable g) : Quiet g := by
  have comment : ∀ w : List Char, (∀ c ∈ w, endsLine c = false) →
      Region.comment.passes w = true := by
    intro w hw
    induction w with
    | nil => rfl
    | cons c w ih =>
        have hnext : Region.comment.next c = .comment :=
          after_comment (w := [c]) fun d hd => hw d (by simp_all)
        rw [Region.passes_cons, hnext]
        exact ⟨by simp, ih fun d hd => hw d (List.mem_cons_of_mem _ hd)⟩
  induction h with
  | nil => exact ⟨rfl, rfl⟩
  | @blank c g hc h ih =>
      refine Quiet.append (v := [c]) (quiet_of_plain fun d hd => ?_) ih
      obtain rfl := List.mem_singleton.mp hd
      refine ⟨?_, ?_, ?_⟩ <;> rintro rfl <;> cases hc
  | @comment w g hw h ih =>
      have hline : Quiet ('#' :: (w ++ ['\n'])) := by
        refine ⟨Region.passes_cons.mpr ⟨by simp, Region.passes_append.mpr ⟨comment w hw, ?_⟩⟩, ?_⟩
        · change ((Region.comment).after w).passes ['\n'] = true
          rw [after_comment hw]
          rfl
        · change Region.comment.after (w ++ ['\n']) = .plain
          rw [Region.after_append, after_comment hw]
          rfl
      have htext : '#' :: (w ++ '\n' :: g) = '#' :: (w ++ ['\n']) ++ g := by simp
      rw [htext]
      exact hline.append ih

/-- Blanks and comments do not go on with a number or a symbol. -/
theorem Ignorable.numberless {g r : List Char} (h : Ignorable g) (hr : Numberless r) :
    Numberless (g ++ r) := by
  cases h with
  | nil => exact hr
  | blank hc h =>
      rintro d ⟨⟩
      by_contra hd
      rw [(of_isNumeric (by simpa using hd)).1] at hc
      cases hc
  | comment hw h => rintro d ⟨⟩; rfl

/-! ### Tokens -/

/-- A number does not come next. -/
def NumberFree (ts : List Token) : Prop :=
  ∀ chars, ts.head? ≠ some (.number chars)

/-- The tokens can be told apart when they are written one after another. -/
inductive Legible : List Token → Prop where
  | nil : Legible []
  | mark {c : Char} {t : Token} {ts : List Token} (hc : Token.ofMark? c = some t)
      (h : Legible ts) : Legible (t :: ts)
  | string (s : String) {ts : List Token} (h : Legible ts) : Legible (.string s :: ts)
  | number (n : Int) {ts : List Token} (hts : NumberFree ts) (h : Legible ts) :
      Legible (.number (integerText n).toList :: ts)

theorem chars_of_ofMark? {c : Char} {t : Token} (h : Token.ofMark? c = some t) : t.chars = [c] := by
  rcases eq_of_ofMark? h with rfl | rfl | rfl | rfl | rfl <;> cases h <;> rfl

theorem closing_quoted (cs : List Char) : Closing (Expr.quotedChars cs ++ ['"']) := by
  induction cs with
  | nil => exact .quote
  | cons c cs ih =>
      rw [Expr.quotedChars]
      split
      · exact .escaped c ih
      · next hc =>
        obtain ⟨hb, hq⟩ := not_or.mp hc
        exact .char (by assumption) (by assumption) ih

/-- What comes behind a number is told apart from it. -/
theorem numberless_laid {ts : List Token} (hlegible : Legible ts) (hts : NumberFree ts)
    {text : List Char} (h : Laid (ts.map Token.chars) text) {r : List Char} (hr : Numberless r) :
    Numberless (text ++ r) := by
  cases hlegible with
  | nil => cases h; exact hr
  | @mark c t ts hc _ =>
      obtain ⟨g, x, rfl, hg, -⟩ := h.uncons
      rw [chars_of_ofMark? hc, List.append_assoc]
      refine hg.numberless ?_
      rintro d ⟨⟩
      rcases eq_of_ofMark? hc with rfl | rfl | rfl | rfl | rfl <;> rfl
  | string s _ =>
      obtain ⟨g, x, rfl, hg, -⟩ := h.uncons
      rw [List.append_assoc]
      refine hg.numberless ?_
      rintro d ⟨⟩
      rfl
  | number n => exact absurd rfl (hts _)

/-- **The tokens that are written are read**, whatever blanks and comments stand between them. -/
theorem kinds_laid {ts : List Token} (hlegible : Legible ts) {text : List Char}
    (h : Laid (ts.map Token.chars) text) {r : List Char} (hr : Numberless r) :
    kinds (text ++ r) = ts ++ kinds r := by
  induction hlegible generalizing text with
  | nil => cases h; rfl
  | @mark c t ts hc _ ih =>
      obtain ⟨g, x, rfl, hg, hx⟩ := h.uncons
      rw [List.append_assoc, hg.kinds, List.append_assoc, chars_of_ofMark? hc,
        kinds_lexeme (.mark hc _), ih hx]
      rfl
  | string s _ ih =>
      obtain ⟨g, x, rfl, hg, hx⟩ := h.uncons
      have hstring : Lexeme (Token.string s).chars (some (.string s)) (x ++ r) :=
        .string (closing_quoted _) (fun r => Expr.reads_stringLiteral s r) _
      rw [List.append_assoc, hg.kinds, List.append_assoc, kinds_lexeme hstring, ih hx]
      rfl
  | @number n ts hts hlegible ih =>
      obtain ⟨g, x, rfl, hg, hx⟩ := h.uncons
      have hrest := numberless_laid hlegible hts hx hr
      have hnumber : Lexeme (integerText n).toList (some (.number (integerText n).toList))
          (x ++ r) := by
        refine .number ?_ (numberLength?_integerText n hrest)
        obtain ⟨c, ds, htext, -⟩ := Expr.integerText_front n
        rw [htext]
        exact List.cons_ne_nil c ds
      rw [List.append_assoc, hg.kinds, List.append_assoc, Token.chars, kinds_lexeme hnumber, ih hx]
      rfl

/-- Tokens that are no semicolons do not end the statement. -/
theorem quiet_laid {ts : List Token} (hlegible : Legible ts) (hend : Token.semicolon ∉ ts)
    {text : List Char} (h : Laid (ts.map Token.chars) text) : Quiet text := by
  induction hlegible generalizing text with
  | nil => cases h; exact ⟨rfl, rfl⟩
  | @mark c t ts hc _ ih =>
      obtain ⟨g, x, rfl, hg, hx⟩ := h.uncons
      obtain ⟨ht, hts⟩ := not_or.mp (mt List.mem_cons.mpr hend)
      rw [chars_of_ofMark? hc]
      refine hg.quiet.append (Quiet.append (quiet_of_plain fun d hd => ?_) (ih hts hx))
      obtain rfl := List.mem_singleton.mp hd
      rcases eq_of_ofMark? hc with rfl | rfl | rfl | rfl | rfl <;> first | decide | cases hc
      exact absurd rfl ht
  | string s _ ih =>
      obtain ⟨g, x, rfl, hg, hx⟩ := h.uncons
      have hts := fun hmem => hend (List.mem_cons_of_mem _ hmem)
      exact hg.quiet.append (Quiet.append (closing_quoted _).quiet (ih hts hx))
  | number n _ _ ih =>
      obtain ⟨g, x, rfl, hg, hx⟩ := h.uncons
      have hts := fun hmem => hend (List.mem_cons_of_mem _ hmem)
      exact hg.quiet.append ((quiet_numeric (isNumeric_of_mem_integerText n)).append (ih hts hx))

/-- The tokens of a value can be told apart from those behind them, if no number comes next. -/
theorem legible_value {depth : Nat} {v : Value} (hv : Describable depth v) {ts : List Token}
    (hts : NumberFree ts) (h : Legible ts) : Legible (valueTokens v ++ ts) := by
  induction depth generalizing v ts with
  | zero =>
      cases v with
      | integer n => exact .number n hts h
      | string s => exact .string s h
      | _ => cases hv
  | succ depth ih =>
      -- An item is followed by a comma or a bracket, which no number takes in.
      have items : ∀ {vs : List Value}, (∀ v ∈ vs, Describable depth v) →
          Legible (valueTokens.itemTokens vs ++ ts) ∧
            NumberFree (valueTokens.itemTokens vs ++ ts) := by
        intro vs hvs
        induction vs with
        | nil => exact ⟨.mark (c := ']') rfl h, by rintro chars ⟨⟩⟩
        | cons v vs ihs =>
            obtain ⟨hrest, hfree⟩ := ihs fun w hw => hvs w (List.mem_cons_of_mem _ hw)
            rw [valueTokens.itemTokens, List.cons_append, List.append_assoc]
            exact ⟨.mark (c := ',') rfl (ih (hvs v List.mem_cons_self) hfree hrest),
              by rintro chars ⟨⟩⟩
      cases v with
      | integer n => exact .number n hts h
      | string s => exact .string s h
      | array vs =>
          cases vs with
          | nil => exact .mark (c := '[') rfl (.mark (c := ']') rfl h)
          | cons v vs =>
              obtain ⟨hrest, hfree⟩ := items fun w hw => hv w (List.mem_cons_of_mem _ hw)
              rw [valueTokens, List.cons_append, List.append_assoc]
              exact .mark (c := '[') rfl (ih (hv v List.mem_cons_self) hfree hrest)
      | _ => cases hv

theorem semicolon_not_mem_valueTokens {depth : Nat} {v : Value} (hv : Describable depth v) :
    Token.semicolon ∉ valueTokens v := by
  induction depth generalizing v with
  | zero =>
      cases v with
      | integer n => simp [valueTokens]
      | string s => simp [valueTokens]
      | _ => cases hv
  | succ depth ih =>
      have items : ∀ {vs : List Value}, (∀ v ∈ vs, Describable depth v) →
          Token.semicolon ∉ valueTokens.itemTokens vs := by
        intro vs hvs
        induction vs with
        | nil => simp [valueTokens.itemTokens]
        | cons v vs ihs =>
            have hv := ih (hvs v List.mem_cons_self)
            have hrest := ihs fun w hw => hvs w (List.mem_cons_of_mem _ hw)
            simp [valueTokens.itemTokens, hv, hrest]
      cases v with
      | array vs =>
          cases vs with
          | nil => simp [valueTokens]
          | cons v vs =>
              have hhead := ih (hv v List.mem_cons_self)
              have hrest := items fun w hw => hv w (List.mem_cons_of_mem _ hw)
              simp [valueTokens, hhead, hrest]
      | integer n => simp [valueTokens]
      | string s => simp [valueTokens]
      | _ => cases hv

/-! ### Values -/

theorem Describable.mono {depth depth' : Nat} (h : depth ≤ depth') {v : Value}
    (hv : Describable depth v) : Describable depth' v := by
  induction depth generalizing depth' v with
  | zero =>
      cases v with
      | integer n => cases depth' <;> exact hv
      | string s => cases depth' <;> exact hv
      | _ => cases hv
  | succ depth ih =>
      obtain ⟨depth', rfl⟩ := Nat.exists_eq_add_of_le h
      rw [Nat.add_right_comm]
      cases v with
      | integer n => exact hv
      | string s => exact hv
      | array vs => exact fun w hw => ih (Nat.le_add_right _ _) (hv w hw)
      | _ => cases hv

/-- The datum that a value is read as, if all its tokens stand at one place. -/
def dataOf (p : Position) : Value → Datum
  | .integer n => .number p (integerText n).toList
  | .string s => .string s
  | .array vs => .array (allDataOf vs)
  | _ => .array []
where
  /-- The data of some values. -/
  allDataOf : List Value → List Datum
    | [] => []
    | v :: vs => dataOf p v :: allDataOf vs

/-- Tokens that all stand at one place. -/
def tokensAt (p : Position) (ts : List Token) : List (Position × Token) :=
  ts.map (Prod.mk p)

theorem tokensAt_append (p : Position) (ts us : List Token) :
    tokensAt p (ts ++ us) = tokensAt p ts ++ tokensAt p us :=
  List.map_append

/-- The tokens of a value are read as its datum, where a value is called for. -/
theorem datum_value (p : Position) {depth : Nat} {v : Value} (hv : Describable depth v)
    {x : Expected} (hx : x = .value ∨ x = .valueOrEnd) (arrays : OpenArrays)
    (rest : List (Position × Token)) :
    datum x arrays p (tokensAt p (valueTokens v) ++ rest) =
      datum (.behind (dataOf p v)) arrays p rest := by
  induction depth generalizing v x arrays rest with
  | zero =>
      cases v with
      | integer n => rcases hx with rfl | rfl <;> exact datum_cons ..
      | string s => rcases hx with rfl | rfl <;> exact datum_cons ..
      | _ => cases hv
  | succ depth ih =>
      -- The first item has been read.
      have items : ∀ {vs : List Value}, (∀ v ∈ vs, Describable depth v) →
          ∀ (d : Datum) (ds : List Datum),
          datum (.behind d) (ds :: arrays) p (tokensAt p (valueTokens.itemTokens vs) ++ rest) =
            datum (.behind (.array ((d :: ds).reverse ++ dataOf.allDataOf p vs))) arrays p rest := by
        intro vs hvs
        induction vs with
        | nil =>
            intro d ds
            rw [dataOf.allDataOf, List.append_nil]
            exact datum_cons ..
        | cons v vs ihs =>
            intro d ds
            have hcomma : datum (.behind d) (ds :: arrays) p
                (tokensAt p (valueTokens.itemTokens (v :: vs)) ++ rest) =
                datum .value ((d :: ds) :: arrays) p (tokensAt p (valueTokens v) ++
                  (tokensAt p (valueTokens.itemTokens vs) ++ rest)) := by
              rw [valueTokens.itemTokens, ← List.append_assoc, ← tokensAt_append]
              exact datum_cons ..
            rw [hcomma, ih (hvs v List.mem_cons_self) (.inl rfl),
              ihs (fun w hw => hvs w (List.mem_cons_of_mem _ hw)), dataOf.allDataOf]
            simp
      cases v with
      | integer n => rcases hx with rfl | rfl <;> exact datum_cons ..
      | string s => rcases hx with rfl | rfl <;> exact datum_cons ..
      | array vs =>
          cases vs with
          | nil =>
              rcases hx with rfl | rfl <;>
                exact (datum_cons ..).trans
                  (datum_cons .valueOrEnd ([] :: arrays) p p .closeBracket rest)
          | cons v vs =>
              have hopen : datum x arrays p (tokensAt p (valueTokens (.array (v :: vs))) ++ rest) =
                  datum .valueOrEnd ([] :: arrays) p (tokensAt p (valueTokens v) ++
                    (tokensAt p (valueTokens.itemTokens vs) ++ rest)) := by
                rw [valueTokens, ← List.append_assoc, ← tokensAt_append]
                rcases hx with rfl | rfl <;> exact datum_cons ..
              rw [hopen, ih (hv v List.mem_cons_self) (.inr rfl),
                items fun w hw => hv w (List.mem_cons_of_mem _ hw)]
              rfl
      | _ => cases hv

theorem numberOf_integerText (p : Position) {n : Int} (hn : inRange n = true) :
    numberOf p (integerText n).toList = .ok (.integer n) := by
  have hrun := Expr.reads_number_integerText hn Expr.apart_nil (.start Stream.defaultName)
  rw [List.append_nil] at hrun
  change number.run (.ofText Stream.defaultName _) = _ at hrun
  rw [numberOf, hrun]
  rfl

/-- The datum of a value stands for it. -/
theorem toValue_dataOf (start p : Position) {depth : Nat} {v : Value} (hv : Describable depth v) :
    (dataOf p v).toValue start depth = .ok v := by
  induction depth generalizing v with
  | zero =>
      cases v with
      | integer n => exact numberOf_integerText p hv
      | string s => rfl
      | _ => cases hv
  | succ depth ih =>
      have items : ∀ {vs : List Value}, (∀ v ∈ vs, Describable depth v) →
          Datum.toValue.toValues start depth (dataOf.allDataOf p vs) = .ok vs := by
        intro vs hvs
        induction vs with
        | nil => rfl
        | cons v vs ihs =>
            rw [dataOf.allDataOf, Datum.toValue.toValues, ih (hvs v List.mem_cons_self),
              ihs fun w hw => hvs w (List.mem_cons_of_mem _ hw)]
            rfl
      cases v with
      | integer n => exact numberOf_integerText p hv
      | string s => rfl
      | array vs => rw [dataOf, Datum.toValue, items hv]; rfl
      | _ => cases hv

/-! ### Statements -/

/-- A symbol and a value that can be assigned to it: the symbol is a word, and the value can be
described. -/
structure Assignable (depth : Nat) (pair : String × Value) : Prop where
  nonempty : pair.1.toList ≠ []
  symbols : ∀ c ∈ pair.1.toList, isSymbol c = true
  value : Describable depth pair.2

variable {depth : Nat} {pair : String × Value}

theorem Assignable.mono {depth' : Nat} (h : Assignable depth pair) (hdepth : depth ≤ depth') :
    Assignable depth' pair :=
  ⟨h.nonempty, h.symbols, h.value.mono hdepth⟩

/-- The tokens of a statement behind its symbol. -/
def behindSymbol (v : Value) : List Token :=
  .equals :: (valueTokens v ++ [.semicolon])

theorem legible_behindSymbol (h : Assignable depth pair) : Legible (behindSymbol pair.2) :=
  .mark (c := '=') rfl (legible_value h.value (by rintro chars ⟨⟩) (.mark (c := ';') rfl .nil))

/-- A statement that is written assigns its value. -/
theorem assignment_printed (h : Assignable arrayLimit pair) {body : List Char}
    (hbody : Laid ((behindSymbol pair.2).map Token.chars) body) (p : Position) :
    assignment p (pair.1.toList ++ body) = .ok pair := by
  have hend : Numberless ([] : List Char) := fun c hc => by cases hc
  have hlegible := legible_behindSymbol h
  have hkinds := kinds_laid hlegible hbody hend
  have hfree := numberless_laid hlegible (by rintro chars ⟨⟩) hbody hend
  rw [List.append_nil] at hkinds hfree
  rw [kinds_nil, List.append_nil] at hkinds
  -- The symbol ends where its word does.
  have hstop : ∀ c ∈ body.head?, isSymbol c = false := fun c hc => by
    have hc' := hfree c hc
    rw [isNumeric, Bool.or_eq_false_iff, Bool.or_eq_false_iff] at hc'
    exact hc'.1.1
  have htake : (pair.1.toList ++ body).takeWhile isSymbol = pair.1.toList := by
    rw [takeWhile_append_of_stop _ hstop, List.takeWhile_eq_self_iff.mpr h.symbols]
  have hdrop : (pair.1.toList ++ body).dropWhile isSymbol = body := by
    have happend := List.takeWhile_append_dropWhile (p := isSymbol) (l := pair.1.toList ++ body)
    rw [htake] at happend
    exact List.append_cancel_left happend
  -- Wherever its tokens stand, the statement is read as if they stood at one place.
  have htokens : (tokens (p.after pair.1.toList) body).map Prod.snd =
      (tokensAt p (behindSymbol pair.2)).map Prod.snd := by
    rw [map_snd_tokens, hkinds, tokensAt, List.map_map]
    exact (List.map_id _).symm
  have hassigned : assigned p (tokensAt p (behindSymbol pair.2)) = .ok (dataOf p pair.2) := by
    change datum .value [] p (tokensAt p (valueTokens pair.2 ++ [.semicolon])) = _
    rw [tokensAt_append, datum_value p h.value (.inl rfl)]
    exact datum_cons ..
  have hagree := agree_assigned (R := fun _ _ => True) (p := p) (q := p) trivial
    (sameTokens_of_map_snd htokens)
  rw [hassigned] at hagree
  rw [assignment, htake, hdrop]
  dsimp only
  rw [if_neg (by simpa using h.nonempty)]
  cases hd : assigned p (tokens (p.after pair.1.toList) body) with
  | error e => rw [hd] at hagree; cases hagree
  | ok d =>
      rw [hd] at hagree
      cases hagree with
      | ok hd =>
          have hvalue :=
            agree_toValue (R := fun _ _ => True) (p := p) (q := p) trivial arrayLimit hd
          rw [toValue_dataOf p p h.value] at hvalue
          change (d.toValue p arrayLimit >>= fun v => .ok (String.ofList pair.1.toList, v)) = _
          cases hv : d.toValue p arrayLimit <;> rw [hv] at hvalue <;> cases hvalue
          next hv => rw [hv, String.ofList_toList]; rfl

/-- The characters of a statement that is written, up to its semicolon, do not end it. -/
theorem divide_printed (h : Assignable depth pair) {v : List Char}
    (hv : Laid (printed pair) v) :
    ∃ g w body, v = g ++ (pair.1.toList ++ body) ∧ Ignorable g ∧
      Laid ((behindSymbol pair.2).map Token.chars) body ∧ body = w ++ [';'] ∧
      Quiet (pair.1.toList ++ w) := by
  obtain ⟨g, body, rfl, hg, hbody⟩ := hv.uncons
  have hsplit : Laid ((.equals :: valueTokens pair.2).map Token.chars ++ [[';']]) body := by
    simpa [Token.chars] using hbody
  obtain ⟨x, y, rfl, hx, hy⟩ := hsplit.split
  obtain ⟨g', r, rfl, hg', hr⟩ := hy.uncons
  cases hr
  refine ⟨g, x ++ g', _, rfl, hg, hbody, by simp, ?_⟩
  have hname : Quiet pair.1.toList :=
    quiet_numeric fun c hc => isNumeric_of_isSymbol (h.symbols c hc)
  have hlegible : Legible (.equals :: valueTokens pair.2) := by
    have hvalue : Legible (valueTokens pair.2 ++ []) :=
      legible_value h.value (by rintro chars ⟨⟩) .nil
    rw [List.append_nil] at hvalue
    exact .mark (c := '=') rfl hvalue
  have hend : Token.semicolon ∉ .equals :: valueTokens pair.2 := by
    simp [semicolon_not_mem_valueTokens h.value]
  exact hname.append ((quiet_laid hlegible hend hx).append hg'.quiet)

/-- What the statements of a text say, of which the first ends with the first semicolon that nothing
hides. -/
theorem results_statement {g v : List Char} (hg : Ignorable g)
    (hv : ∃ c cs, v = c :: cs ∧ isNumeric c = true) (hquiet : Quiet v) (r : List Char)
    (p : Position) :
    results p (g ++ (v ++ ';' :: r)) =
      assignment (p.after g) (v ++ [';']) :: results ((p.after g).after (v ++ [';'])) r := by
  obtain ⟨c, cs, rfl, hc⟩ := hv
  obtain ⟨hblank, hcomment, -, -⟩ := of_isNumeric hc
  have hskip : divideIgnored false (g ++ (c :: cs ++ ';' :: r)) = (g, c :: (cs ++ ';' :: r)) := by
    rw [hg.divide, List.cons_append, divideIgnored, if_neg (by decide), if_neg (by simp [hblank]),
      if_neg hcomment, List.append_nil]
  have hcut : Region.plain.divide (c :: (cs ++ ';' :: r)) = (c :: cs ++ [';'], r) := by
    have hpasses := Region.divide_append_of_passes hquiet.1 (';' :: r)
    rw [hquiet.2] at hpasses
    exact hpasses
  have hclosed : Region.plain.after (c :: cs ++ [';']) = .plain := by
    rw [Region.after_append, hquiet.2]
    rfl
  rw [results_of_cons (congrArg Prod.snd hskip), hskip, hcut, Statement.result, hclosed,
    if_neg (by decide)]

/-- **What the statements of a written text say**: the assignments that were written. -/
theorem results_printed {pairs : List (String × Value)}
    (h : ∀ pair ∈ pairs, Assignable arrayLimit pair) {text g : List Char}
    (htext : Laid (pairs.flatMap printed) text) (hg : Ignorable g) (p : Position) :
    results p (text ++ g) = pairs.map .ok := by
  induction pairs generalizing text p with
  | nil =>
      cases htext
      have hdivide := hg.divide []
      rw [List.append_nil] at hdivide
      exact results_of_nil (by rw [List.nil_append, hdivide]; rfl)
  | cons pair pairs ih =>
      have hpair := h pair List.mem_cons_self
      rw [List.flatMap_cons] at htext
      obtain ⟨v, text, rfl, hv, htext⟩ := htext.split
      have hothers := ih (fun other hother => h other (List.mem_cons_of_mem _ hother)) htext
      obtain ⟨g', w, body, rfl, hg', hbody, rfl, hquiet⟩ := divide_printed hpair hv
      obtain ⟨c, cs, hname⟩ := List.exists_cons_of_ne_nil hpair.nonempty
      have hc := isNumeric_of_isSymbol (hpair.symbols c (by rw [hname]; exact List.mem_cons_self))
      have hwhole : g' ++ (pair.1.toList ++ (w ++ [';'])) ++ text ++ g =
          g' ++ (pair.1.toList ++ w ++ ';' :: (text ++ g)) := by simp
      rw [hwhole, results_statement hg' ⟨c, cs ++ w, by rw [hname]; rfl, hc⟩ hquiet, hothers,
        List.append_assoc, assignment_printed hpair hbody]
      rfl

theorem untilError_map_ok {ε α : Type} (as : List α) :
    untilError (as.map .ok : List (Except ε α)) = (as, none) := by
  induction as with
  | nil => rfl
  | cons a as ih => rw [List.map_cons, untilError, ih]

end Description

namespace Environment

open Description

/-- **Descriptions are read back.**  Write down assignments of describable values to symbols, with
arrays that nest no deeper than 60, and put any blanks and comments before, between and behind the
words.  To load the text succeeds, and pushes the values in order. -/
theorem loadText_printed (env : Environment) {pairs : List (String × Value)}
    (h : ∀ pair ∈ pairs, Assignable 60 pair) {text g : List Char}
    (htext : Laid (pairs.flatMap printed) text) (hg : Ignorable g) :
    env.loadText (text ++ g) = (env.pushAll pairs, none) := by
  have hresults := results_printed
    (fun pair hpair => (h pair hpair).mono (by decide : 60 ≤ arrayLimit)) htext hg
    (.start streamName)
  rw [loadText_eq, hresults, untilError_map_ok]

/-- The least integer, and an array of an empty one and of a string that holds a semicolon, a number
sign, a quote and a backslash, with a comment that holds a quote and a semicolon. -/
theorem loadText_printed_of_hidden_semicolons :
    let pairs := [("1", .integer (-9223372036854775808)),
      ("_", .array [.array [], .string ";#\"\\"])]
    let text := "1=-9223372036854775808\t;#\";\n_=[[],\";#\\\"\\\\\"];".toList
    let g := "\r\n".toList
    (∀ pair ∈ pairs, Assignable 60 pair) ∧ Laid (pairs.flatMap printed) text ∧ Ignorable g ∧
      Environment.empty.loadText (text ++ g) = (Environment.empty.pushAll pairs, none) := by
  intro pairs text g
  have h : ∀ pair ∈ pairs, Assignable 60 pair := by
    intro pair hpair
    rcases List.mem_cons.mp hpair with rfl | hpair
    · exact ⟨by decide, List.all_eq_true.mp rfl, rfl⟩
    · obtain rfl := List.mem_singleton.mp hpair
      refine ⟨by decide, List.all_eq_true.mp rfl, fun v hv => ?_⟩
      rcases List.mem_cons.mp hv with rfl | hv
      · exact fun v hv => by cases hv
      · obtain rfl := List.mem_singleton.mp hv
        trivial
  have hwords : pairs.flatMap printed = [['1'], ['='], "-9223372036854775808".toList, [';'], ['_'],
      ['='], ['['], ['['], [']'], [','], "\";#\\\"\\\\\"".toList, [']'], [';']] := by
    with_unfolding_all rfl
  have htext : Laid (pairs.flatMap printed) text := by
    have hgap : Ignorable ['\t'] := .blank rfl .nil
    have hcomment : Ignorable "#\";\n".toList :=
      .comment (w := ['"', ';']) (by simp [endsLine]) .nil
    have hlaid := Laid.word ['1'] (.word ['='] (.word "-9223372036854775808".toList
      (.cons hgap [';'] (.cons hcomment ['_'] (.word ['='] (.word ['['] (.word ['['] (.word [']']
        (.word [','] (.word "\";#\\\"\\\\\"".toList (.word [']'] (.word [';'] .nil))))))))))))
    rw [hwords]
    exact hlaid
  have hg : Ignorable g := .blank rfl (.blank rfl .nil)
  exact ⟨h, htext, hg, loadText_printed _ h htext hg⟩

end Environment

end Stencil
