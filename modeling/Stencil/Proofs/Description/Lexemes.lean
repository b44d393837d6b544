import Stencil.Proofs.Description.Numbers
import Stencil.Proofs.Description.Statements

/-!
# Description — Lexemes

What may stand at the front of a statement's text, as a relation (`Lexeme`): some characters, the
token they make up, if any, and what comes behind them.  Every text is a row of lexemes
(`lexeme_induction`), and its tokens are theirs (`tokens_lexeme`).  Which tokens a text has does not
depend on its place (`kinds`); and each token stands in the text at its place (`mem_tokens`).
-/

namespace Stencil.Description

open Scanner Text

/-! ### Strings -/

/-- The characters of a string behind its opening quote, up to the closing one. -/
inductive Closing : List Char → Prop where
  | quote : Closing ['"']
  | escaped (c : Char) {w : List Char} (h : Closing w) : Closing ('\\' :: c :: w)
  | char {c : Char} {w : List Char} (hb : c ≠ '\\') (hq : c ≠ '"') (h : Closing w) :
      Closing (c :: w)

/-- The characters behind a quote that is not closed. -/
inductive Unclosed : List Char → Prop where
  | nil : Unclosed []
  | backslash : Unclosed ['\\']
  | escaped (c : Char) {w : List Char} (h : Unclosed w) : Unclosed ('\\' :: c :: w)
  | char {c : Char} {w : List Char} (hb : c ≠ '\\') (hq : c ≠ '"') (h : Unclosed w) :
      Unclosed (c :: w)

/-- The body of a string closes somewhere in the text, or nowhere. -/
theorem closing_or_unclosed :
    ∀ text : List Char, (∃ w r, text = w ++ r ∧ Closing w) ∨ Unclosed text
  | [] => .inr .nil
  | ['\\'] => .inr .backslash
  | '\\' :: c :: text => by
      rcases closing_or_unclosed text with ⟨w, r, rfl, h⟩ | h
      · exact .inl ⟨_, r, rfl, .escaped c h⟩
      · exact .inr (.escaped c h)
  | c :: text => by
      by_cases hq : c = '"'
      · subst hq
        exact .inl ⟨['"'], text, rfl, .quote⟩
      by_cases hb : c = '\\'
      · subst hb
        cases text with
        | nil => exact .inr .backslash
        | cons d text =>
            rcases closing_or_unclosed text with ⟨w, r, rfl, h⟩ | h
            · exact .inl ⟨_, r, rfl, .escaped d h⟩
            · exact .inr (.escaped d h)
      · rcases closing_or_unclosed text with ⟨w, r, rfl, h⟩ | h
        · exact .inl ⟨_, r, rfl, .char hb hq h⟩
        · exact .inr (.char hb hq h)

theorem Closing.passes {w : List Char} (h : Closing w) : Region.string.passes w = true := by
  induction h with
  | quote => rfl
  | escaped c h ih => simpa [Region.passes, Region.next] using ih
  | char hb hq h ih => simpa [Region.passes, Region.next, hb, hq] using ih

theorem Closing.after {w : List Char} (h : Closing w) : Region.string.after w = .plain := by
  induction h with
  | quote => rfl
  | escaped c h ih => simpa [Region.next] using ih
  | char hb hq h ih => simpa [Region.next, hb, hq] using ih

theorem Unclosed.inString {w : List Char} (h : Unclosed w) :
    (Region.string.after w).inString = true := by
  induction h with
  | nil => rfl
  | backslash => rfl
  | escaped c h ih => simpa [Region.next] using ih
  | char hb hq h ih => simpa [Region.next, hb, hq] using ih

/-- The machine for strings comes to the closing quote, whatever comes behind it. -/
theorem Closing.reads_fold {w : List Char} (h : Closing w) (taken : List Char) :
    ∃ state, state.closed = true ∧
      ∀ r, (fold 0 StringState.move ⟨taken, false, false⟩).Reads w state r := by
  induction h generalizing taken with
  | quote => exact ⟨_, rfl, fun r => reads_fold_last (w := []) rfl⟩
  | escaped c h ih =>
      obtain ⟨state, hclosed, hreads⟩ := ih (c :: taken)
      exact ⟨state, hclosed, fun r =>
        reads_fold_step_zero (b := ⟨taken, true, false⟩) rfl (reads_fold_step_zero rfl (hreads r))⟩
  | @char c w hb hq h ih =>
      obtain ⟨state, hclosed, hreads⟩ := ih (c :: taken)
      refine ⟨state, hclosed, fun r => reads_fold_step_zero ?_ (hreads r)⟩
      simp [StringState.move, hb, hq]

/-- The machine for strings comes to no closing quote. -/
theorem Unclosed.reads_fold {w : List Char} (h : Unclosed w) (taken : List Char) :
    ∃ state, state.closed = false ∧
      (fold 0 StringState.move ⟨taken, false, false⟩).Reads w state [] := by
  induction h generalizing taken with
  | nil => exact ⟨_, rfl, reads_fold_nil⟩
  | backslash =>
      exact ⟨_, rfl, reads_fold_step_zero (b := ⟨taken, true, false⟩) rfl reads_fold_nil⟩
  | escaped c h ih =>
      obtain ⟨state, hclosed, hreads⟩ := ih (c :: taken)
      exact ⟨state, hclosed,
        reads_fold_step_zero (b := ⟨taken, true, false⟩) rfl (reads_fold_step_zero rfl hreads)⟩
  | @char c w hb hq h ih =>
      obtain ⟨state, hclosed, hreads⟩ := ih (c :: taken)
      refine ⟨state, hclosed, reads_fold_step_zero ?_ hreads⟩
      simp [StringState.move, hb, hq]

/-- A body that closes is read as a string, whatever comes behind it. -/
theorem Closing.reads {w : List Char} (h : Closing w) :
    ∃ s, ∀ r, stringLiteral.Reads ('"' :: w) s r := by
  obtain ⟨state, hclosed, hreads⟩ := h.reads_fold []
  refine ⟨String.ofList state.taken.reverse, fun r =>
    (reads_accept (c := '"') rfl _).bind ((hreads r).bind_nil ?_)⟩
  rw [if_pos hclosed]
  exact reads_pure _ r

theorem stringAt?_of_reads {w r : List Char} {s : String} (h : stringLiteral.Reads w s r) :
    stringAt? (w ++ r) = some (s, w.length) := by
  have hrun := h (.start "")
  change stringLiteral.run (.ofText "" (w ++ r)) = _ at hrun
  rw [stringAt?, hrun]
  change some (s, ((Position.start "").after w).offset) = _
  rw [Position.offset_after, Position.start, Nat.zero_add]

/-- A body that does not close is no string. -/
theorem Unclosed.stringAt? {w : List Char} (h : Unclosed w) : stringAt? ('"' :: w) = none := by
  obtain ⟨state, hclosed, hreads⟩ := h.reads_fold []
  have hquote : (accept (· == '"')).Reads ['"'] (some '"') (w ++ []) := reads_accept rfl _
  have hfails : stringLiteral.Fails ('"' :: (w ++ [])) .endInString := by
    refine hquote.fails (hreads.fails ?_)
    rw [if_neg (by simp [hclosed])]
    exact fails_fail .endInString []
  obtain ⟨q, t, hrun⟩ := hfails (.start "")
  rw [List.append_nil] at hrun
  change stringLiteral.run (.ofText "" ('"' :: w)) = _ at hrun
  rw [Description.stringAt?, hrun]

/-! ### Lexemes -/

theorem endsLine_iff {c : Char} : endsLine c = true ↔ c = '\r' ∨ c = '\n' := by
  simp [endsLine]

/-- The token that a single character is. -/
def Token.ofMark? (c : Char) : Option Token :=
  if c = '=' then some .equals
  else if c = ';' then some .semicolon
  else if c = ',' then some .comma
  else if c = '[' then some .openBracket
  else if c = ']' then some .closeBracket
  else none

/-- What stands at the front of a text: the characters, the token they are, if any, and what comes
behind them. -/
inductive Lexeme : List Char → Option Token → List Char → Prop where
  | blank {c : Char} (h : isBlank c = true) (r : List Char) : Lexeme [c] none r
  | comment {w r : List Char} (hw : ∀ c ∈ w, endsLine c = false)
      (hr : ∀ c ∈ r.head?, endsLine c = true) : Lexeme ('#' :: w) none r
  | mark {c : Char} {t : Token} (h : Token.ofMark? c = some t) (r : List Char) :
      Lexeme [c] (some t) r
  | string {w : List Char} {s : String} (h : Closing w)
      (hs : ∀ r, stringLiteral.Reads ('"' :: w) s r) (r : List Char) :
      Lexeme ('"' :: w) (some (.string s)) r
  | quote {r : List Char} (h : Unclosed r) : Lexeme ['"'] (some (.stray '"')) r
  | number {w r : List Char} (hne : w ≠ []) (h : numberLength? (w ++ r) = some w.length) :
      Lexeme w (some (.number w)) r
  | stray {c : Char} {r : List Char} (hb : isBlank c = false) (hc : c ≠ '#')
      (hm : Token.ofMark? c = none) (hq : c ≠ '"') (h : numberLength? (c :: r) = none) :
      Lexeme [c] (some (.stray c)) r

/-- The token at a character, case by case. -/
theorem Token.start_eq (c : Char) (rest : List Char) :
    Token.start c rest =
      if isBlank c then (none, 0)
      else if c = '#' then (none, (rest.takeWhile fun d => !endsLine d).length)
      else match Token.ofMark? c with
        | some t => (some t, 0)
        | none =>
          if c = '"' then
            match stringAt? (c :: rest) with
            | some (s, n) => (some (.string s), n - 1)
            | none => (some (.stray c), 0)
          else (some (numberOrStray c rest).1, (numberOrStray c rest).2) := by
  unfold Token.start Token.ofMark?
  split_ifs <;> rfl

theorem eq_of_ofMark? {c : Char} {t : Token} (h : Token.ofMark? c = some t) :
    c = '=' ∨ c = ';' ∨ c = ',' ∨ c = '[' ∨ c = ']' := by
  unfold Token.ofMark? at h
  split_ifs at h with h₁ h₂ h₃ h₄ h₅
  · exact .inl h₁
  · exact .inr (.inl h₂)
  · exact .inr (.inr (.inl h₃))
  · exact .inr (.inr (.inr (.inl h₄)))
  · exact .inr (.inr (.inr (.inr h₅)))

/-- A character of a number is none of those that stand for themselves. -/
theorem isNumeric_ne {c d : Char} (hc : isNumeric c = true) (hd : isNumeric d = false) : c ≠ d := by
  rintro rfl
  rw [hc] at hd
  cases hd

theorem of_isNumeric {c : Char} (h : isNumeric c = true) :
    isBlank c = false ∧ c ≠ '#' ∧ Token.ofMark? c = none ∧ c ≠ '"' := by
  refine ⟨?_, isNumeric_ne h (by decide), ?_, isNumeric_ne h (by decide)⟩
  · by_contra hb
    simp only [isBlank, Bool.not_eq_false, Bool.or_eq_true, beq_iff_eq] at hb
    rcases hb with (((rfl | rfl) | rfl) | rfl) | rfl <;> exact absurd h (by decide)
  · cases hm : Token.ofMark? c with
    | none => rfl
    | some t =>
        rcases eq_of_ofMark? hm with rfl | rfl | rfl | rfl | rfl <;> exact absurd h (by decide)

/-- Numbers consist of numeric characters. -/
theorem isNumeric_of_number {w r : List Char} (h : numberLength? (w ++ r) = some w.length) :
    ∀ c ∈ w, isNumeric c = true := by
  have htake := isNumeric_of_mem_take h
  rwa [List.take_left] at htake

theorem Lexeme.ne_nil {w r : List Char} {t : Option Token} (h : Lexeme w t r) : w ≠ [] := by
  cases h with
  | number hne h => exact hne
  | _ => exact List.cons_ne_nil _ _

/-- A lexeme is what the reader of tokens finds. -/
theorem Lexeme.start {c : Char} {w r : List Char} {t : Option Token} (h : Lexeme (c :: w) t r) :
    Token.start c (w ++ r) = (t, w.length) := by
  rw [Token.start_eq]
  -- A lexeme starts with a character that none of the cases before its own takes.
  cases h with
  | blank hb r => rw [if_pos hb]; rfl
  | comment hw hr =>
      rw [if_neg (by decide), if_pos rfl]
      have htake : ((w ++ r).takeWhile fun d => !endsLine d) = w := by
        rw [List.takeWhile_append_of_pos fun d hd => by simp [hw d hd]]
        cases r with
        | nil => simp
        | cons d r => simp [hr d rfl]
      rw [htake]
  | mark hm r =>
      have hb : isBlank c = false := by
        rcases eq_of_ofMark? hm with rfl | rfl | rfl | rfl | rfl <;> decide
      have hc : c ≠ '#' := by
        rcases eq_of_ofMark? hm with rfl | rfl | rfl | rfl | rfl <;> decide
      rw [if_neg (by simp [hb]), if_neg hc, hm]
      rfl
  | string hw hs r =>
      rw [if_neg (by decide), if_neg (by decide)]
      have hat := stringAt?_of_reads (hs r)
      rw [List.cons_append, List.length_cons] at hat
      simp only [Token.ofMark?, hat]
      rfl
  | quote hu =>
      rw [if_neg (by decide), if_neg (by decide)]
      simp only [Token.ofMark?, List.nil_append, hu.stringAt?]
      rfl
  | number hne hn =>
      obtain ⟨hb, hc, hm, hq⟩ := of_isNumeric (isNumeric_of_number hn c List.mem_cons_self)
      rw [if_neg (by simp [hb]), if_neg hc, hm]
      dsimp only
      rw [if_neg hq, numberOrStray, ← List.cons_append, hn]
      dsimp only
      rw [List.take_left]
      rfl
  | stray hb hc hm hq hn =>
      rw [if_neg (by simp [hb]), if_neg hc, hm]
      dsimp only
      rw [if_neg hq, numberOrStray, List.nil_append, hn]
      rfl

/-- The tokens of a text are that of its first lexeme and those of the rest. -/
theorem tokens_cons {c : Char} {w r : List Char} {t : Option Token}
    (h : Token.start c (w ++ r) = (t, w.length)) (p : Position) :
    tokens p (c :: (w ++ r)) = t.toList.map (Prod.mk p) ++ tokens (p.after (c :: w)) r := by
  rw [tokens, h]
  dsimp only
  rw [List.take_left, List.drop_left]
  cases t <;> rfl

/-- The tokens of a text are those of its first lexeme and those behind. -/
theorem tokens_lexeme {w r : List Char} {t : Option Token} (h : Lexeme w t r) (p : Position) :
    tokens p (w ++ r) = t.toList.map (Prod.mk p) ++ tokens (p.after w) r := by
  cases w with
  | nil => exact absurd rfl h.ne_nil
  | cons c w => exact tokens_cons h.start p

theorem tokens_nil (p : Position) : tokens p [] = [] := by
  rw [tokens]

/-- At the front of a text stands a lexeme. -/
theorem exists_lexeme (c : Char) (cs : List Char) :
    ∃ w t r, c :: cs = w ++ r ∧ Lexeme w t r := by
  by_cases hb : isBlank c = true
  · exact ⟨[c], none, cs, rfl, .blank hb cs⟩
  by_cases hc : c = '#'
  · subst hc
    obtain ⟨w, r, rfl, hw, hr⟩ := exists_front (fun d => !endsLine d) cs
    exact ⟨'#' :: w, none, r, rfl,
      .comment (fun d hd => by simpa using hw d hd) (fun d hd => by simpa using hr d hd)⟩
  cases hm : Token.ofMark? c with
  | some t => exact ⟨[c], some t, cs, rfl, .mark hm cs⟩
  | none =>
      by_cases hq : c = '"'
      · subst hq
        rcases closing_or_unclosed cs with ⟨w, r, rfl, h⟩ | h
        · obtain ⟨s, hs⟩ := h.reads
          exact ⟨'"' :: w, _, r, rfl, .string h hs r⟩
        · exact ⟨['"'], _, cs, rfl, .quote h⟩
      cases hn : numberLength? (c :: cs) with
      | none => exact ⟨[c], _, cs, rfl, .stray (by simpa using hb) hc hm hq hn⟩
      | some n =>
          obtain ⟨hpos, hle⟩ := numberLength?_bounds hn
          have hw : ((c :: cs).take n).length = n := List.length_take_of_le hle
          refine ⟨(c :: cs).take n, _, (c :: cs).drop n, (List.take_append_drop n _).symm,
            .number (List.ne_nil_of_length_pos (by omega)) ?_⟩
          rw [List.take_append_drop, hw, hn]

/-- To go through the lexemes of a text: the text is empty, or it has a first lexeme. -/
@[elab_as_elim]
theorem lexeme_induction {P : List Char → Prop} (nil : P [])
    (cons : ∀ w t r, Lexeme w t r → P r → P (w ++ r)) (text : List Char) : P text := by
  induction hn : text.length using Nat.strong_induction_on generalizing text with
  | _ n ih =>
    cases text with
    | nil => exact nil
    | cons c cs =>
        obtain ⟨w, t, r, htext, h⟩ := exists_lexeme c cs
        rw [htext]
        refine cons w t r h (ih r.length ?_ r rfl)
        have hpos := List.length_pos_iff.mpr h.ne_nil
        rw [← hn, htext, List.length_append]
        omega

/-! ### Regions -/

/-- Characters that neither open a string nor start a comment stay in the plain region. -/
theorem after_plain {w : List Char} (hw : ∀ c ∈ w, c ≠ '"' ∧ c ≠ '#') :
    Region.plain.after w = .plain := by
  induction w with
  | nil => rfl
  | cons c w ih =>
      obtain ⟨hq, hc⟩ := hw c List.mem_cons_self
      rw [Region.after_cons, Region.next, if_neg hq, if_neg hc]
      exact ih fun d hd => hw d (List.mem_cons_of_mem _ hd)

theorem after_numeric {w : List Char} (hw : ∀ c ∈ w, isNumeric c = true) :
    Region.plain.after w = .plain :=
  after_plain fun c hc => ⟨isNumeric_ne (hw c hc) (by decide), isNumeric_ne (hw c hc) (by decide)⟩

theorem after_blank {c : Char} (h : isBlank c = true) : Region.plain.after [c] = .plain := by
  refine after_plain fun d hd => ?_
  obtain rfl := List.mem_singleton.mp hd
  constructor <;> rintro rfl <;> cases h

/-- A comment goes on up to a line feed. -/
theorem after_comment {w : List Char} (hw : ∀ c ∈ w, endsLine c = false) :
    Region.comment.after w = .comment := by
  induction w with
  | nil => rfl
  | cons c w ih =>
      have hc : c ≠ '\n' := by
        rintro rfl
        cases hw _ List.mem_cons_self
      rw [Region.after_cons, Region.next, if_neg hc]
      exact ih fun d hd => hw d (List.mem_cons_of_mem _ hd)

/-- Behind a lexeme that is no quote nothing is open but a comment. -/
theorem Lexeme.after {w r : List Char} {t : Option Token} (h : Lexeme w t r)
    (hquote : t ≠ some (.stray '"')) :
    Region.plain.after w = .plain ∨
      Region.plain.after w = .comment ∧ ∀ c ∈ r.head?, endsLine c = true := by
  cases h with
  | blank hb r => exact .inl (after_blank hb)
  | comment hw hr => exact .inr ⟨after_comment hw, hr⟩
  | mark hm r =>
      refine .inl (after_plain fun d hd => ?_)
      obtain rfl := List.mem_singleton.mp hd
      rcases eq_of_ofMark? hm with rfl | rfl | rfl | rfl | rfl <;> decide
  | string hw hs r => exact .inl hw.after
  | quote hu => exact absurd rfl hquote
  | number hne hn => exact .inl (after_numeric (isNumeric_of_number hn))
  | stray hb hc hm hq hn =>
      refine .inl (after_plain fun d hd => ?_)
      obtain rfl := List.mem_singleton.mp hd
      exact ⟨hq, hc⟩

/-! ### The tokens of a text -/

/-- The tokens of a text without their places. -/
def kinds (text : List Char) : List Token :=
  (tokens (.start "") text).map Prod.snd

theorem map_snd_tokens (p : Position) (text : List Char) :
    (tokens p text).map Prod.snd = kinds text := by
  -- Both places go forward.
  have run : ∀ p q, (tokens p text).map Prod.snd = (tokens q text).map Prod.snd := by
    induction text using lexeme_induction with
    | nil => intro p q; rw [tokens_nil, tokens_nil]
    | cons w t r h ih =>
        intro p q
        rw [tokens_lexeme h, tokens_lexeme h, List.map_append, List.map_append,
          ih (p.after w) (q.after w)]
        cases t <;> rfl
  exact run p _

@[simp] theorem kinds_nil : kinds [] = [] := by
  rw [kinds, tokens_nil, List.map_nil]

/-- The kinds of tokens, lexeme by lexeme. -/
theorem kinds_lexeme {w r : List Char} {t : Option Token} (h : Lexeme w t r) :
    kinds (w ++ r) = t.toList ++ kinds r := by
  rw [kinds, tokens_lexeme h, List.map_append, map_snd_tokens]
  cases t <;> rfl

/-- A token stands in the text at its place. -/
theorem mem_tokens {p q : Position} {text : List Char} {t : Token}
    (h : (q, t) ∈ tokens p text) : ∃ u v, text = u ++ v ∧ q = p.after u := by
  induction text using lexeme_induction generalizing p with
  | nil => rw [tokens_nil] at h; cases h
  | cons w t' r hw ih =>
      rw [tokens_lexeme hw] at h
      rcases List.mem_append.mp h with h | h
      · cases t' with
        | none => cases h
        | some t' =>
            obtain ⟨rfl, rfl⟩ : q = p ∧ t = t' := by simpa using h
            exact ⟨[], w ++ r, rfl, rfl⟩
      · obtain ⟨u, v, rfl, rfl⟩ := ih h
        exact ⟨w ++ u, v, (List.append_assoc ..).symm, (Position.after_append ..).symm⟩

end Stencil.Description
