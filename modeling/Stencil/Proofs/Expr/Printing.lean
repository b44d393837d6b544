import Stencil.Proofs.Expr.Tokens
import Mathlib.Order.MinMax

/-!
# Expr — Printing

The reader of expressions is a left inverse of showing them (`ofText_text`).  It reads the tokens of
a writable expression back as that expression, whatever blanks stand between them, as long as the
parentheses and brackets nest no deeper than the limit; if they nest deeper, the reading fails and
says so.

Each of the three facts this takes is an induction on the expression: how deep a text of its tokens
nests (`balanced_of_spaced`), that it is read where that many levels are left (`reads_spaced`), and
that the reading fails where there are fewer (`fails_spaced`).
-/

namespace Stencil.Expr

open Scanner Text Numeral

variable {r w text : List Char} {is : List Expr}

/-! ### What stands next to an operand -/

/-- What may come behind an operand and the blanks that follow it. -/
def Beyond (r : List Char) : Prop :=
  ∀ c ∈ r.head?, isBlank c = false ∧ c ≠ '[' ∧ isSymbol c = false ∧ c ≠ '.'

theorem beyond_nil : Beyond [] := fun _ h => by cases h

theorem beyond_closer {c : Char} (h : IsCloser c) (r : List Char) : Beyond (c :: r) := by
  intro d hd
  cases hd
  refine ⟨isBlank_closer h, ?_, isSymbol_closer h, ?_⟩ <;> rcases h with rfl | rfl | rfl <;> decide

theorem beyond_operator (op : Operator) (r : List Char) : Beyond (op.symbol.toList ++ r) := by
  intro c hc
  cases op <;> cases hc <;> decide

theorem isSymbol_of_isBlank {c : Char} (h : isBlank c = true) : isSymbol c = false := by
  by_contra hs
  rw [isBlank_of_isSymbol (by simpa using hs)] at h
  cases h

/-- Indices, or the rest behind them, do not go on with the operand they follow. -/
theorem apart_of_spaced (h : Spaced (indexTokens is) w) (hr : Beyond r) : Apart (w ++ r) := by
  have front : ∀ {b v : List Char}, (∀ c ∈ b, isBlank c = true) → Apart v → Apart (b ++ v) := by
    intro b v hb hv
    cases b with
    | nil => exact hv
    | cons c b =>
        intro d hd
        cases hd
        have hc := hb c (List.mem_cons_self ..)
        exact ⟨isSymbol_of_isBlank hc, by rintro rfl; cases hc⟩
  cases is with
  | nil =>
      cases h with
      | nil hb => exact front hb fun c hc => (hr c hc).2.2
  | cons i is =>
      obtain ⟨b, v, rfl, hb, -⟩ := h.uncons
      rw [List.append_assoc]
      exact front hb fun c hc => by cases hc; decide

/-- An operand starts with a character that makes no operator longer. -/
theorem front_of_spaced {e : Expr} (he : Writable e) (h : Spaced (tokens e) text)
    (r : List Char) : ∀ c ∈ (text ++ r).head?, c ≠ '=' ∧ c ≠ '|' ∧ c ≠ '&' := by
  -- The text starts with a blank or with its first token.
  have front : ∀ {t : List Char} {ts : List (List Char)} {d : Char} {ds : List Char},
      Spaced (t :: ts) text → t = d :: ds → (d ≠ '=' ∧ d ≠ '|' ∧ d ≠ '&') →
      ∀ c ∈ (text ++ r).head?, c ≠ '=' ∧ c ≠ '|' ∧ c ≠ '&' := by
    rintro t ts d ds h rfl hd c hc
    obtain ⟨b, v, rfl, hb, -⟩ := h.uncons
    cases b with
    | nil => cases hc; exact hd
    | cons b bs =>
        cases hc
        have hblank := hb c (List.mem_cons_self ..)
        refine ⟨?_, ?_, ?_⟩ <;> rintro rfl <;> cases hblank
  have symbol : ∀ {d : Char}, isSymbol d = true → d ≠ '=' ∧ d ≠ '|' ∧ d ≠ '&' := fun hd =>
    ⟨ne_of_isSymbol hd (by decide), ne_of_isSymbol hd (by decide), ne_of_isSymbol hd (by decide)⟩
  cases e with
  | literal v is =>
      cases v with
      | integer n =>
          obtain ⟨d, ds, htext, ⟨rfl, -⟩ | hd⟩ := integerText_front n
          · exact front h htext (by decide)
          · exact front h htext (symbol (isSymbol_of_isDigitOf hd))
      | string s =>
          exact front (d := '"') h (by rw [literalText, String.toList_ofList]; rfl) (by decide)
      | float | array | filter => exact absurd he.1 id
  | ident name is =>
      cases hname : name.toList with
      | nil => exact absurd hname he.1.nonempty
      | cons d ds =>
          exact front h hname (symbol (he.1.symbols d (by rw [hname]; exact List.mem_cons_self ..)))
  | binary symbol left right is => exact front h rfl (by decide)

/-! ### Nesting -/

theorem foldl_quotedChars (cs : List Char) (n m : Nat) :
    (quotedChars cs ++ ['"']).foldl Opened.next ⟨true, false, n, m⟩ = ⟨false, false, n, m⟩ := by
  induction cs with
  | nil => rfl
  | cons c cs ih =>
      rw [quotedChars]
      split
      · next hc =>
        -- The backslash and what it escapes are gone over together.
        rcases hc with rfl | rfl <;> exact ih
      · next hc =>
        obtain ⟨h₁, h₂⟩ := not_or.mp hc
        have hnext : Opened.next ⟨true, false, n, m⟩ c = ⟨true, false, n, m⟩ := by
          simp [Opened.next, h₁, h₂]
        rw [List.cons_append, List.foldl_cons, hnext, ih]

theorem balanced_literalText {v : Value} (hv : WritableValue v) :
    Balanced (literalText v).toList 0 := by
  cases v with
  | integer n =>
      refine .of_plain fun c hc => ?_
      change c ∈ (integerText n).toList at hc
      rw [integerText, String.toList_ofList] at hc
      have digit : ∀ c ∈ decimal n.natAbs, Balanced.Plain c := fun c hc =>
        plain_of_isDigitOf (isDigitOf_of_mem_decimal n.natAbs c hc)
      split at hc
      · rcases List.mem_cons.mp hc with rfl | hc
        · simp [Balanced.Plain]
        · exact digit c hc
      · exact digit c hc
  | string s =>
      rw [literalText, String.toList_ofList]
      exact .of_quoted fun n m => foldl_quotedChars s.toList n m
  | float | array | filter => exact absurd hv id

theorem balanced_token {b t v : List Char} {k : Nat} (hb : ∀ c ∈ b, isBlank c = true)
    (ht : Balanced t 0) (hv : Balanced v k) : Balanced (b ++ (t ++ v)) k := by
  have := (balanced_of_blanks hb).append (ht.append hv)
  rwa [Nat.max_eq_right (Nat.zero_le _), Nat.max_eq_right (Nat.zero_le _)] at this

/-- The text of an expression nests as deep as the expression does, whatever blanks it has. -/
theorem balanced_of_spaced (e : Expr) :
    Writable e → ∀ {text}, Spaced (tokens e) text → Balanced text (depth e) := by
  -- By induction on the expression; what stands in brackets is one deeper.
  refine expr_induction (Q := fun is => AllWritable is → ∀ {text},
    Spaced (indexTokens is) text → Balanced text (indexDepth is))
    ?nil ?cons ?literal ?ident ?binary e
  case nil =>
    intro _ text h
    cases h with
    | nil hb => exact balanced_of_blanks hb
  case cons =>
    intro i is hi his hw text h
    obtain ⟨b, r, rfl, hb, h⟩ := h.uncons
    obtain ⟨v, w, rfl, hv, hr⟩ := h.split
    have hinner := (hi hw.1 hv).enclosed (o := '[') (c := ']') (.inr rfl) (.inr rfl)
    have := (balanced_of_blanks hb).append (hinner.append (his hw.2 hr))
    rw [Nat.max_eq_right (Nat.zero_le _)] at this
    simpa [indexDepth] using this
  case literal =>
    intro v is his hw text h
    obtain ⟨b, r, rfl, hb, h⟩ := h.uncons
    exact balanced_token hb (balanced_literalText hw.1) (his hw.2 h)
  case ident =>
    intro name is his hw text h
    obtain ⟨b, r, rfl, hb, h⟩ := h.uncons
    exact balanced_token hb (.of_plain fun c hc => plain_of_isSymbol (hw.1.symbols c hc))
      (his hw.2 h)
  case binary =>
    intro symbol left right is hl hr his hw text h
    obtain ⟨⟨op, rfl⟩, hleft, hright, hindices⟩ := hw
    obtain ⟨b, r, rfl, hb, h⟩ := h.uncons
    obtain ⟨v, w, rfl, hv, h⟩ := h.split
    obtain ⟨z, u, rfl, hz, hu⟩ := h.split
    have hop := (hl hleft hv).append
      ((Balanced.of_plain (plain_of_mem_symbol op)).append (hr hright hz))
    have hinner := hop.enclosed (o := '(') (c := ')') (.inl rfl) (.inl rfl)
    have := (balanced_of_blanks hb).append (hinner.append (his hindices hu))
    rw [Nat.max_eq_right (Nat.zero_le _), Nat.max_eq_right (Nat.zero_le (depth right))] at this
    simpa [depth] using this

/-! ### Reading -/

/-- The reader of what stands between parentheses and brackets where `d` levels are left. -/
def inside : Nat → Scanner Expr
  | 0 => fail (.expressionTooDeep nestingLimit)
  | d + 1 => nested d

theorem nested_eq_chain (d : Nat) : nested d = chain (inside d) := by
  cases d <;> rfl

theorem reads_literalText {inner : Scanner Expr} {missing : Cause} {b : List Char}
    (hb : ∀ c ∈ b, isBlank c = true) {v : Value} (hv : WritableValue v) (hr : Apart r) :
    (bareOperand inner missing).Reads (b ++ (literalText v).toList) (.literal v []) r := by
  cases v with
  | integer n => exact reads_integerText hb hv hr
  | string s =>
      rw [literalText, String.toList_ofList]
      exact reads_quoted hb s r
  | float | array | filter => exact absurd hv id

/-- Before a closing parenthesis, two operands with an operator between them are read as its
application. -/
theorem reads_application {d : Nat} {left right : Expr} {v z : List Char} (op : Operator)
    (hl : ∀ {missing r}, Beyond r → (operand (inside d) missing).Reads v left r)
    (hr : ∀ {missing r}, Beyond r → (operand (inside d) missing).Reads z right r)
    (hright : Writable right) (hz : Spaced (tokens right) z) (rest : List Char) :
    (nested d).Reads (v ++ (op.symbol.toList ++ z)) (op.application left right) (')' :: rest) := by
  have hcloser : IsCloser ')' := .inl rfl
  rw [nested_eq_chain]
  exact reads_chain_two (hl (beyond_operator op _))
    (reads_infixOperator op (front_of_spaced hright hz _)) (hr (beyond_closer hcloser rest))
    (closes_cons hcloser rest)

/-- Before a closing bracket, an operand is read as an index. -/
theorem reads_index {d : Nat} {i : Expr} {v : List Char}
    (hi : ∀ {missing r}, Beyond r → (operand (inside d) missing).Reads v i r) (rest : List Char) :
    (nested d).Reads v i (']' :: rest) := by
  have hcloser : IsCloser ']' := .inr (.inl rfl)
  rw [nested_eq_chain]
  exact reads_chain_one (hi (beyond_closer hcloser rest)) (closes_cons hcloser rest)

/-- Where enough levels are left, the tokens of an expression are read as an operand, with the
blanks behind them. -/
theorem reads_spaced (e : Expr) : Writable e → ∀ {text}, Spaced (tokens e) text →
    ∀ {d missing r}, depth e ≤ d → Beyond r → (operand (inside d) missing).Reads text e r := by
  refine expr_induction (Q := fun is => AllWritable is → ∀ {text},
    Spaced (indexTokens is) text → ∀ {d r}, indexDepth is ≤ d → Beyond r →
      (indexList (inside d)).Reads text is r) ?nil ?cons ?literal ?ident ?binary e
  case nil =>
    intro _ text h d r _ hr
    cases h with
    | nil hb =>
        exact reads_indexList_nil hb (fun c hc => (hr c hc).1) fun c hc => by
          simpa using (hr c hc).2.1
  case cons =>
    intro i is hi his hw text h d r hd hr
    obtain ⟨b, u, rfl, hb, h⟩ := h.uncons
    obtain ⟨v, w, rfl, hv, hu⟩ := h.split
    obtain ⟨hdi, hdis⟩ := Nat.max_le.mp hd
    cases d with
    | zero => exact absurd hdi (Nat.not_succ_le_zero _)
    | succ d =>
        have hindex := reads_index (hi hw.1 hv (Nat.le_of_succ_le_succ hdi)) (w ++ r)
        exact reads_indexList_cons (w := []) hb hindex (fun c hc => by cases hc)
          (his hw.2 hu hdis hr)
  case literal =>
    intro v is his hw text h d missing r hd hr
    obtain ⟨b, w, rfl, hb, hindices⟩ := h.uncons
    rw [← List.append_assoc]
    exact reads_operand (reads_literalText hb hw.1 (apart_of_spaced hindices hr))
      (his hw.2 hindices hd hr)
  case ident =>
    intro name is his hw text h d missing r hd hr
    obtain ⟨b, w, rfl, hb, hindices⟩ := h.uncons
    rw [← List.append_assoc]
    exact reads_operand (reads_name hb hw.1.nonempty hw.1.symbols hw.1.noDigit
      (apart_of_spaced hindices hr)) (his hw.2 hindices hd hr)
  case binary =>
    intro symbol left right is hl hr his hw text h d missing r hd hrest
    obtain ⟨⟨op, rfl⟩, hleft, hright, hindices⟩ := hw
    obtain ⟨b, w, rfl, hb, h⟩ := h.uncons
    obtain ⟨v, w, rfl, hv, h⟩ := h.split
    obtain ⟨z, u, rfl, hz, hu⟩ := h.split
    obtain ⟨hdop, hdis⟩ := Nat.max_le.mp hd
    cases d with
    | zero => exact absurd hdop (Nat.not_succ_le_zero _)
    | succ d =>
        -- Both operands stand one level further in; the indices do not.
        obtain ⟨hdl, hdr⟩ := Nat.max_le.mp (Nat.le_of_succ_le_succ hdop)
        have happ := reads_application op (hl hleft hv hdl) (hr hright hz hdr) hright hz (u ++ r)
        have hread :
            (operand (inside (d + 1)) missing).Reads _ (.binary op.symbol left right is) r :=
          reads_operand (reads_enclosed (w := []) hb happ fun c hc => by cases hc)
            (his hindices hu hdis hrest)
        simpa using hread

/-! ### Too deep -/

/-- The reading fails because too few levels are left. -/
abbrev FailsTooDeep {α : Type} (x : Scanner α) (cs : List Char) : Prop :=
  x.Fails cs (.expressionTooDeep nestingLimit)

theorem fails_index {d : Nat} {v : List Char}
    (hi : ∀ {missing r}, Beyond r → FailsTooDeep (operand (inside d) missing) (v ++ r))
    (rest : List Char) : FailsTooDeep (nested d) (v ++ ']' :: rest) := by
  rw [nested_eq_chain]
  exact (hi (beyond_closer (.inr (.inl rfl)) rest)).bind _

/-- The left operand nests too deep, or it is read and the right one does. -/
theorem fails_application {d : Nat} {left right : Expr} {v z : List Char} (op : Operator)
    (hl : d < depth left → ∀ {missing r}, Beyond r →
      FailsTooDeep (operand (inside d) missing) (v ++ r))
    (hr : d < depth right → ∀ {missing r}, Beyond r →
      FailsTooDeep (operand (inside d) missing) (z ++ r))
    (hreads : depth left ≤ d → ∀ {missing r}, Beyond r →
      (operand (inside d) missing).Reads v left r)
    (hright : Writable right) (hz : Spaced (tokens right) z)
    (hd : d < max (depth left) (depth right)) (rest : List Char) :
    FailsTooDeep (nested d) (v ++ (op.symbol.toList ++ (z ++ ')' :: rest))) := by
  rw [nested_eq_chain]
  by_cases hdl : d < depth left
  · exact (hl hdl (beyond_operator op _)).bind _
  · have hdr : d < depth right := (lt_max_iff.mp hd).resolve_left hdl
    exact fails_chain_two (hreads (Nat.le_of_not_lt hdl) (beyond_operator op _))
      (reads_infixOperator op (front_of_spaced hright hz _))
      (hr hdr (beyond_closer (.inl rfl) rest))

/-- Where too few levels are left, the reading of an operand fails. -/
theorem fails_spaced (e : Expr) : Writable e → ∀ {text}, Spaced (tokens e) text →
    ∀ {d}, d < depth e → ∀ {missing r}, Beyond r →
      FailsTooDeep (operand (inside d) missing) (text ++ r) := by
  refine expr_induction (Q := fun is => AllWritable is → ∀ {text},
    Spaced (indexTokens is) text → ∀ {d r}, d < indexDepth is → Beyond r →
      FailsTooDeep (indexList (inside d)) (text ++ r)) ?nil ?cons ?literal ?ident ?binary e
  case nil => exact fun _ _ _ d _ hd => absurd hd (Nat.not_lt_zero d)
  case cons =>
    intro i is hi his hw text h d r hd hr
    obtain ⟨b, u, rfl, hb, h⟩ := h.uncons
    obtain ⟨v, w, rfl, hv, hu⟩ := h.split
    have hrest : b ++ (['['] ++ (v ++ ([']'] ++ w))) ++ r = b ++ '[' :: (v ++ ']' :: (w ++ r)) := by
      simp
    rw [hrest]
    by_cases hdi : d < depth i + 1
    · refine fails_indexList hb ?_
      cases d with
      | zero => exact fails_fail _ _
      | succ d => exact fails_index (hi hw.1 hv (Nat.lt_of_succ_lt_succ hdi)) _
    · -- The index is not what nests too deep, so that one of those behind it is.
      have hdis : d < indexDepth is := (lt_max_iff.mp hd).resolve_left hdi
      cases d with
      | zero => exact absurd (Nat.succ_pos _) hdi
      | succ d =>
          have hdepth : depth i ≤ d := Nat.le_of_succ_le_succ (Nat.le_of_not_lt hdi)
          exact fails_indexList_cons (w := []) hb (reads_index (reads_spaced i hw.1 hv hdepth) _)
            (fun c hc => by cases hc) (his hw.2 hu hdis hr)
  case literal =>
    intro v is his hw text h d hd missing r hr
    obtain ⟨b, w, rfl, hb, hindices⟩ := h.uncons
    rw [← List.append_assoc, List.append_assoc]
    exact (reads_literalText hb hw.1 (apart_of_spaced hindices hr)).fails
      ((his hw.2 hindices hd hr).bind _)
  case ident =>
    intro name is his hw text h d hd missing r hr
    obtain ⟨b, w, rfl, hb, hindices⟩ := h.uncons
    rw [← List.append_assoc, List.append_assoc]
    exact (reads_name hb hw.1.nonempty hw.1.symbols hw.1.noDigit
      (apart_of_spaced hindices hr)).fails
      ((his hw.2 hindices hd hr).bind _)
  case binary =>
    intro symbol left right is hl hr his hw text h d hd missing r hrest
    obtain ⟨⟨op, rfl⟩, hleft, hright, hindices⟩ := hw
    obtain ⟨b, w, rfl, hb, h⟩ := h.uncons
    obtain ⟨v, w, rfl, hv, h⟩ := h.split
    obtain ⟨z, u, rfl, hz, hu⟩ := h.split
    by_cases hdop : d < max (depth left) (depth right) + 1
    · have hopen : FailsTooDeep (bareOperand (inside d) missing)
          (b ++ '(' :: (v ++ (op.symbol.toList ++ (z ++ ')' :: (u ++ r))))) := by
        refine fails_enclosed hb ?_
        cases d with
        | zero => exact fails_fail _ _
        | succ d =>
            exact fails_application op (hl hleft hv) (hr hright hz)
              (fun hdl => reads_spaced left hleft hv hdl) hright hz (Nat.lt_of_succ_lt_succ hdop) _
      have hfail : FailsTooDeep (operand (inside d) missing) _ := hopen.bind _
      simpa using hfail
    · -- The application is read, and one of its indices nests too deep.
      have hdis : d < indexDepth is := (lt_max_iff.mp hd).resolve_left hdop
      cases d with
      | zero => exact absurd (Nat.succ_pos _) hdop
      | succ d =>
          obtain ⟨hdl, hdr⟩ := Nat.max_le.mp (Nat.le_of_succ_le_succ (Nat.le_of_not_lt hdop))
          have happ := reads_application op (reads_spaced left hleft hv hdl)
            (reads_spaced right hright hz hdr) hright hz (u ++ r)
          have hfail : FailsTooDeep (operand (inside (d + 1)) missing) _ :=
            (reads_enclosed (w := []) hb happ fun c hc => by cases hc).fails
              ((his hindices hu hdis hrest).bind _)
          simpa using hfail

/-! ### Whole texts -/

/-- The nesting of a text of an expression is that of the expression. -/
theorem nesting_of_spaced {e : Expr} (he : Writable e) (h : Spaced (tokens e) text) :
    nesting text = depth e :=
  nesting_of_balanced (balanced_of_spaced e he h)

/-- **The reader of expressions reads back what is shown.**  The text of a writable expression is a
row of its tokens, and every row of them, whatever blanks stand before, between and behind, is read
as the expression if its text nests no deeper than the limit; if it nests deeper, the reading fails
and says so. -/
theorem ofText_text (e : Expr) (he : Writable e) :
    Spaced (tokens e) e.text.toList ∧
    ∀ text, Spaced (tokens e) text →
      (nesting e.text.toList ≤ 64 → ofText text = .ok e) ∧
      (64 < nesting e.text.toList →
        ∃ p, ofText text = .error (.located (.expressionTooDeep 64) p)) := by
  refine ⟨spaced_text e, fun text h => ?_⟩
  rw [nesting_of_spaced he (spaced_text e)]
  refine ⟨fun hd => ?_, fun hd => ?_⟩
  · have hscan : scanner.Reads text e [] := by
      rw [scanner, nested_eq_chain]
      exact reads_chain_one (reads_spaced e he h hd beyond_nil) closes_nil
    have := ofText_of_reads hscan fun c hc => by cases hc
    rwa [List.append_nil] at this
  · have hscan : FailsTooDeep wholeScanner text := by
      refine FailsBy.bind ?_ _
      rw [scanner, nested_eq_chain, ← List.append_nil text]
      exact (fails_spaced e he h hd beyond_nil).bind _
    obtain ⟨p, t, hrun⟩ := hscan (.start streamName)
    exact ⟨p, read_eq_error.mpr ⟨t, hrun⟩⟩

/-- A difference with a negative operand, a parenthesis in a string, and indices. -/
def sample : Expr :=
  .binary "-" (.literal (.integer (-5)) [.ident "a" []]) (.literal (.string "\"(") [])
    [.literal (.integer 0) []]

theorem ofText_text_sample :
    Writable sample ∧ sample.text = "(-5[a] - \"\\\"(\")[0]" ∧
    nesting sample.text.toList ≤ 64 ∧ ofText sample.text.toList = .ok sample := by
  have name : IsName "a" := ⟨by decide, List.all_eq_true.mp rfl, by rintro c ⟨⟩; rfl⟩
  have small : inRange (-5) = true ∧ inRange 0 = true := by decide
  have writable : Writable sample :=
    ⟨⟨.minus, rfl⟩, ⟨small.1, ⟨name, trivial⟩, trivial⟩, ⟨trivial, trivial⟩, ⟨small.2, trivial⟩,
      trivial⟩
  have text_eq : sample.text = "(-5[a] - \"\\\"(\")[0]" := by with_unfolding_all rfl
  have shallow : nesting sample.text.toList ≤ 64 := by rw [text_eq]; decide
  obtain ⟨hspaced, hread⟩ := ofText_text sample writable
  exact ⟨writable, text_eq, shallow, (hread _ hspaced).1 shallow⟩

end Stencil.Expr
