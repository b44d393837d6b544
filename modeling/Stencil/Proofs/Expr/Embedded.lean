import Stencil.Proofs.Expr.Locality
import Stencil.Proofs.Numeral.LongestMatch

/-!
# Expr — Embedded expressions

An expression inside of a template is read up to the first character that does not go on with it.
What is read is decided on characters that come behind: a number and an operator look a few
characters ahead, and an operand ends in view of the next one.  Still the part that is taken up is
the same expression on its own, and behind it is nothing an expression goes on with
(`scanner_embedded`).

The reason is that to cut the rest shorter changes no reading (`Survives`).  What is looked for
ahead and not found is not found in less; and what is found there is itself taken up, so that no cut
reaches it: the digit behind a sign, the mark of a base, all of a number (`LongestNumber.cut`), and
the second character of an operator.
-/

namespace Stencil

namespace Scanner

variable {α β : Type} {r r' : List Char}

/-- The second rest is the first one, cut short. -/
def Cut (r r' : List Char) : Prop :=
  r' <+: r

/-- Whatever the scanner reads, it reads the same if the rest is cut. -/
abbrev Survives (x : Scanner α) : Prop :=
  Follows Cut .flat 0 0 x x

theorem Cut.prefixClosed : PrefixClosed Cut :=
  fun h w => (List.prefix_append_right_inj w).mpr h

/-- What is true of the first character of a rest, if there is one, is true if the rest is cut. -/
theorem Cut.head {P : Char → Prop} (h : Cut r r') (hr : ∀ c ∈ r.head?, P c) :
    ∀ c ∈ r'.head?, P c := by
  cases r' with
  | nil => exact fun _ hc => by cases hc
  | cons c cs =>
      obtain ⟨s, rfl⟩ := h
      exact hr

theorem survives_skipBlank : Survives skipBlank := by
  intro p cs n t h
  obtain ⟨w, r, rfl, ht, hw, hr⟩ := Expr.run_skipBlank_ok h
  rw [reads_skipBlank hw hr p] at h
  cases h
  exact .flat rfl fun r' h => reads_skipBlank hw (h.head hr)

variable {opening : Scanner (Option β)} {consumes : Consumes opening} {body : β → Scanner α}

theorem survives_collect (ho : Survives opening) (hb : ∀ b, Survives (body b)) :
    Survives (collect opening @consumes body) :=
  follows_collect Cut.prefixClosed (ho _ _ _ _) (openSpan_of_follows Cut.prefixClosed ho hb)

/-- A repetition ends where there is no opening.  What holds in the beginning and behind each turn
holds there. -/
theorem exists_last {P : Stencil.Stream → Prop} {s t : Stencil.Stream} {as : List α}
    (hturn : ∀ {s b u a t}, P s → opening.run s = .ok (some b) u → (body b).run u = .ok a t → P t)
    (hs : P s) (h : (collect opening @consumes body).run s = .ok as t) :
    ∃ u, P u ∧ opening.run u = .ok none t := by
  obtain ⟨found, u, hg, hu⟩ := run_bind_ok h
  cases hu
  clear h
  change gatherFrom opening @consumes _ () s = _ at hg
  fun_induction gatherFrom opening @consumes
    (fun b => do return (Sum.inl (← body b) : α ⊕ Unit)) () s generalizing found with
  | case1 | case3 | case5 => cases hg
  | case2 s _ hopen =>
    cases hg
    exact ⟨s, hs, hopen⟩
  | case4 s b u hopen x v hbody =>
    obtain ⟨a, w, -, hw⟩ := run_bind_ok hbody
    cases hw
  | case6 s b u hopen a v hbody as x t hrest ih =>
    cases hg
    obtain ⟨a', w, ha, hw⟩ := run_bind_ok hbody
    cases hw
    exact ih (hturn hs hopen ha) _ hrest

end Scanner

open Scanner

namespace Numeral

variable {text w r r' : List Char} {l : Literal}

/-- The longest number that a text starts with is the longest one if the rest is cut. -/
theorem LongestNumber.cut (h : LongestNumber text w l r) (hr : Cut r r') :
    LongestNumber (w ++ r') w l r' where
  text_eq := rfl
  isNumber := h.isNumber
  length_le v m hv hm := h.length_le v m (hv.trans (h.text_eq ▸ Cut.prefixClosed hr w)) hm

/-- What is read as a number is the longest one, and is read the same if the rest is cut. -/
theorem longestNumber_of_run {p : Position} {v : Value} {t : Stencil.Stream}
    (h : number.run (.ofTextAt p text) = .ok v t) :
    ∃ w l r, LongestNumber text w l r ∧ t = .ofTextAt (p.after w) r ∧
      ∀ r', Cut r r' → number.Reads w v r' := by
  obtain ⟨l, hl, hv⟩ := Expr.run_number_ok h
  have hmantissa := hv p
  cases Expr.taken_of_fold hl with
  | nothing _ hm | point _ _ hm =>
      rw [Literal.evaluate, hm] at hmantissa
      cases hmantissa
  | stray _ _ hkept =>
      have hfloat : l.isFloat = true := by simp [Literal.isFloat, hkept.pointed]
      have hf := Expr.evaluate_fault_iff (q := p).mpr
        ⟨hkept.mantissa, .inl ⟨hfloat, by rw [hkept.strayed]; rfl, rfl⟩⟩
      rw [hmantissa] at hf
      cases hf
  | mantissa _ hstart =>
      obtain ⟨u, m, hu, hm⟩ := hstart
      obtain ⟨w, l', r, hlongest⟩ := exists_longestNumber hu hm
      have hrun := hlongest.reads p
      rw [← hlongest.text_eq, hl] at hrun
      cases hrun
      exact ⟨w, l, r, hlongest, rfl, fun r' hr => Expr.reads_number (hlongest.cut hr).reads hv⟩

/-- A number starts in the way by which numbers are told from other operands. -/
theorem IsNumber.startsNumber (h : IsNumber w l) (r : List Char) :
    Expr.startsNumber ((w ++ r).take 2) = true := by
  have hsigned : ∀ {sign : Option Char} {d : Char} (v : List Char), IsSign sign →
      Text.isDigitOf 10 d = true →
      Expr.startsNumber ((sign.toList ++ d :: v ++ r).take 2) = true := by
    intro sign d v hs hd
    cases sign with
    | none => simp [Expr.startsNumber, hd]
    | some c =>
        have hc : Text.isSign c = true := by rcases hs c rfl with rfl | rfl <;> rfl
        simp [Expr.startsNumber, hc, Literal.digitAhead, hd]
  cases h with
  | hexadecimal hs | binary hs | octal hs => exact hsigned _ hs rfl
  | decimal hs hds =>
      obtain ⟨d, ds, rfl⟩ := List.exists_cons_of_ne_nil hds.1
      exact hsigned _ hs (hds.2 d List.mem_cons_self)
  | pointed => rfl

end Numeral

namespace Operator

variable {text text' : List Char} {op : Operator}

/-- Operators have two characters at most. -/
theorem at?_take (text : List Char) : at? (text.take 2) = at? text := by
  have htake : ∀ op : Operator, op.symbol.toList.isPrefixOf (text.take 2) =
      op.symbol.toList.isPrefixOf text := by
    intro op
    rcases text with _ | ⟨c, _ | ⟨d, text⟩⟩
    · rfl
    · rfl
    · cases op <;> simp [symbol, List.isPrefixOf]
  simp only [at?, htake]

theorem at?_eq_none_iff : at? text = none ↔ ∀ op : Operator, ¬op.symbol.toList <+: text := by
  simp only [at?, List.find?_eq_none, List.isPrefixOf_iff_prefix]
  exact ⟨fun h op => h op (mem_all op), fun h op _ => h op⟩

/-- The operator at the front of a text stays if the text is cut behind it. -/
theorem at?_of_prefix (h : at? text = some op) (hcut : text' <+: text)
    (hop : op.symbol.toList <+: text') : at? text' = some op := by
  rw [at?, List.find?_eq_some_iff_append] at h ⊢
  obtain ⟨-, before, after, hall, hbefore⟩ := h
  refine ⟨List.isPrefixOf_iff_prefix.mpr hop, before, after, hall, fun op' hop' => ?_⟩
  have hnot := hbefore op' hop'
  rw [Bool.not_eq_true', ← Bool.not_eq_true, List.isPrefixOf_iff_prefix] at hnot ⊢
  exact fun h => hnot (h.trans hcut)

theorem at?_eq_none_of_prefix (h : at? text = none) (hcut : text' <+: text) :
    at? text' = none :=
  at?_eq_none_iff.mpr fun op hop => at?_eq_none_iff.mp h op (hop.trans hcut)

end Operator

namespace Expr

open Text

variable {r r' : List Char}

/-! ### Operators -/

theorem chosen_eq_none {c : Char} {cs : List Char} :
    chosen c (cs.take 1) = none ↔ Operator.at? (c :: cs) = none := by
  have htake := Operator.at?_take (c :: cs)
  rw [List.take_succ_cons] at htake
  rw [chosen, Option.map_eq_none_iff, htake]

theorem declines_chosen : Declines 1 chosen r ↔ Operator.at? r = none := by
  cases r with
  | nil => exact ⟨fun _ => rfl, fun _ c cs h => by cases h⟩
  | cons c cs =>
      refine ⟨fun h => chosen_eq_none.mp (h c cs rfl), fun h c' cs' heq => ?_⟩
      cases heq
      exact chosen_eq_none.mpr h

/-- An operator that is chosen in view of what comes behind its first character is chosen if the
text is cut behind it. -/
theorem chosen_of_cut {c : Char} {cs : List Char} {extra : Nat} {op : Operator}
    (h : chosen c (cs.take 1) = some (extra, op)) (hr : Cut (cs.drop extra) r') :
    chosen c ((cs.take extra ++ r').take 1) = some (extra, op) := by
  obtain ⟨hlen, hsymbol⟩ := chosen_some h
  have hat : ∀ ds : List Char, Operator.at? (c :: ds.take 1) = Operator.at? (c :: ds) :=
    fun ds => Operator.at?_take (c :: ds)
  rw [chosen, hat, Option.map_eq_some_iff] at h ⊢
  obtain ⟨op', hop, hchoice⟩ := h
  cases hchoice
  refine ⟨op, Operator.at?_of_prefix hop ?_ ?_, rfl⟩
  · have hcut := Cut.prefixClosed hr (c :: cs.take (op.symbol.length - 1))
    rwa [List.cons_append, List.cons_append, List.take_append_drop] at hcut
  · exact ⟨r', by rw [← hsymbol, List.cons_append]⟩

theorem survives_infixOperator : Survives infixOperator := by
  rw [infixOperator_eq]
  refine survives_skipBlank.bind Cut.prefixClosed fun _ p cs o t h => ?_
  by_cases hnone : Declines 1 chosen cs
  · have hread := reads_next_none hnone p
    rw [List.nil_append, h] at hread
    cases hread
    refine .nil fun r' (hr : Cut cs r') => reads_next_none ?_
    exact declines_chosen.mpr (Operator.at?_eq_none_of_prefix (declines_chosen.mp hnone) hr)
  · cases cs with
    | nil => exact absurd (fun c cs h => by cases h) hnone
    | cons c cs =>
        cases hc : chosen c (cs.take 1) with
        | none => exact absurd (declines_chosen.mpr (chosen_eq_none.mp hc)) hnone
        | some choice =>
            obtain ⟨extra, op⟩ := choice
            rw [run_next_of_some hc] at h
            cases h
            have hlen := List.length_take_of_le (chosen_some hc).1
            have hsplit : c :: cs = (c :: cs.take extra) ++ cs.drop extra := by simp
            rw [hsplit]
            refine .flat rfl fun r' hr => reads_next_some ?_
            rw [hlen]
            exact chosen_of_cut hc hr

/-- Where no operator is read, there are blanks and then none is at the front. -/
theorem run_infixOperator_none {p : Position} {cs : List Char} {t : Stencil.Stream}
    (h : infixOperator.run (.ofTextAt p cs) = .ok none t) :
    ∃ w r, cs = w ++ r ∧ t = .ofTextAt (p.after w) r ∧ (∀ c ∈ w, isBlank c = true) ∧
      (∀ c ∈ r.head?, isBlank c = false) ∧ ∀ op : Operator, ¬op.symbol.toList <+: r := by
  rw [infixOperator_eq] at h
  obtain ⟨n, u, hn, h⟩ := run_bind_ok h
  obtain ⟨w, r, rfl, rfl, hw, hr⟩ := run_skipBlank_ok hn
  have hdeclines : Declines 1 chosen r := by
    rintro c cs rfl
    cases hc : chosen c (cs.take 1) with
    | none => rfl
    | some choice =>
        rw [run_next_of_some hc] at h
        cases h
  have hread := reads_next_none hdeclines (p.after w)
  rw [List.nil_append, h] at hread
  cases hread
  exact ⟨w, r, rfl, rfl, hw, hr, Operator.at?_eq_none_iff.mp (declines_chosen.mp hdeclines)⟩

/-! ### Operands -/

theorem survives_closed {inner : Scanner Expr} (h : Survives inner) {c : Char}
    (hc : isBlank c = false) (cause : Cause) : Survives (closed inner c cause) := by
  refine h.bind Cut.prefixClosed fun e => Follows.bind Cut.prefixClosed ?_ fun _ => follows_pure e
  intro p cs u t h
  obtain ⟨w, r, rfl, rfl, hw⟩ := run_closing_ok h
  exact .flat rfl fun r' _ => reads_closing hc hw cause r'

theorem survives_openIndex : Survives openIndex := by
  intro p cs o t h
  obtain ⟨w, r, hw, ⟨rfl, rfl, rfl⟩ | ⟨rfl, rfl, rfl, hr, hb⟩⟩ := run_openIndex h
  · exact .flat rfl fun r' _ => reads_openIndex hw r'
  · exact .flat rfl fun r' h => reads_openIndex_none hw (h.head hr) (h.head hb)

theorem survives_indexList {inner : Scanner Expr} (h : Survives inner) :
    Survives (indexList inner) :=
  survives_collect survives_openIndex fun _ => survives_closed h rfl _

/-- What is read as the number of an operand starts like a number, and is read the same if the rest
is cut. -/
theorem run_numberOperand_ok {p : Position} {cs : List Char} {e : Expr} {t : Stencil.Stream}
    (h : numberOperand.run (.ofTextAt p cs) = .ok e t) :
    ∃ w r, cs = w ++ r ∧ t = .ofTextAt (p.after w) r ∧ ∀ r', Cut r r' →
      startsNumber ((w ++ r').take 2) = true ∧ numberOperand.Reads w e r' := by
  change (number >>= afterNumber).run _ = _ at h
  obtain ⟨v, u, hv, h⟩ := run_bind_ok h
  obtain ⟨w, l, r, hlongest, rfl, hreads⟩ := Numeral.longestNumber_of_run hv
  obtain ⟨rfl, rfl, hr⟩ := run_afterNumber_ok h
  refine ⟨w, r, hlongest.text_eq, rfl, fun r' hcut => ⟨hlongest.isNumber.startsNumber r', ?_⟩⟩
  exact (hreads r' hcut).bind_nil (reads_afterNumber (hcut.head hr))

/-- What does not start like a number does not if it is cut. -/
theorem startsNumber_of_cut {c : Char} (h : startsNumber (c :: r.take 1) = false) (hr : Cut r r') :
    startsNumber (c :: r'.take 1) = false := by
  have hdigit : Literal.digitAhead (r.take 1) = false → Literal.digitAhead (r'.take 1) = false := by
    cases r' with
    | nil => exact fun _ => rfl
    | cons d ds =>
        obtain ⟨s, rfl⟩ := hr
        exact id
  simp only [startsNumber, Bool.or_eq_false_iff, Bool.and_eq_false_iff] at h ⊢
  exact h.imp_right fun h => h.imp_right hdigit

/-- What is read as a name starts with the symbol at the front, and is read the same if the rest is
cut. -/
theorem run_name_ok {c : Char} (hc : isSymbol c = true) {p : Position} {cs : List Char} {e : Expr}
    {t : Stencil.Stream}
    (h : (do return Expr.ident (String.ofList (← word isSymbol none)) [] : Scanner Expr).run
      (.ofTextAt p (c :: cs)) = .ok e t) :
    ∃ w r, cs = w ++ r ∧ t = .ofTextAt (p.after (c :: w)) r ∧ ∀ r', Cut r r' →
      (do return Expr.ident (String.ofList (← word isSymbol none)) [] : Scanner Expr).Reads
        (c :: w) e r' := by
  obtain ⟨w, r, rfl, hw, hr⟩ := exists_front isSymbol cs
  have hname : ∀ r', (∀ d ∈ r'.head?, isSymbol d = false) →
      (do return Expr.ident (String.ofList (← word isSymbol none)) [] : Scanner Expr).Reads
        (c :: w) (.ident (String.ofList (c :: w)) []) r' := fun r' hr' =>
    (reads_word (List.forall_mem_cons.mpr ⟨hc, hw⟩) hr').map
  have hrun := hname r hr p
  rw [List.cons_append, h] at hrun
  cases hrun
  exact ⟨w, r, rfl, rfl, fun r' hcut => hname r' (hcut.head hr)⟩

/-- What is read as an operand in view of the characters ahead is read the same if the rest is cut,
in view of what is left of them. -/
theorem run_operandAhead_ok {inner : Scanner Expr} (hinner : Survives inner) {missing : Cause}
    {p : Position} {cs : List Char} {e : Expr} {t : Stencil.Stream}
    (h : (operandAhead inner missing (cs.take 2)).run (.ofTextAt p cs) = .ok e t) :
    ∃ w r, cs = w ++ r ∧ t = .ofTextAt (p.after w) r ∧ ∀ r', Cut r r' →
      (operandAhead inner missing ((w ++ r').take 2)).Reads w e r' := by
  cases cs with
  | nil => cases h
  | cons c cs =>
      rw [List.take_succ_cons, operandAhead] at h
      by_cases hparen : c = '('
      · subst hparen
        rw [if_pos rfl] at h
        obtain ⟨o, u, ho, h⟩ := run_bind_ok h
        have hany := reads_anyChar '(' cs p
        rw [List.singleton_append, ho] at hany
        cases hany
        obtain ⟨w, r, rfl, rfl, hread⟩ := (survives_closed hinner rfl _ _ _ _ _ h).reads le_rfl
        refine ⟨'(' :: w, r, rfl, by rw [← Position.after_append]; rfl, fun r' hr => ?_⟩
        rw [List.cons_append, List.take_succ_cons, operandAhead, if_pos rfl]
        exact (reads_anyChar '(' _).bind (hread r' hr)
      rw [if_neg hparen] at h
      by_cases hquote : c = '"'
      · subst hquote
        rw [if_pos rfl] at h
        obtain ⟨s, u, hs, h⟩ := run_bind_ok h
        cases h
        obtain ⟨w, r, hcs, rfl, -, hread⟩ := run_stringLiteral_ok hs
        refine ⟨'"' :: w, r, hcs, rfl, fun r' _ => ?_⟩
        rw [List.cons_append, List.take_succ_cons, operandAhead, if_neg hparen, if_pos rfl]
        exact (hread r').map
      rw [if_neg hquote] at h
      by_cases hnumber : startsNumber (c :: cs.take 1) = true
      · rw [if_pos hnumber] at h
        obtain ⟨w, r, hcs, rfl, hread⟩ := run_numberOperand_ok h
        cases w with
        | nil =>
            -- Nothing does not start like a number.
            obtain ⟨hstarts, -⟩ := hread [] List.nil_prefix
            cases hstarts
        | cons d w =>
            obtain ⟨rfl, -⟩ := List.cons.inj hcs
            refine ⟨c :: w, r, hcs, rfl, fun r' hr => ?_⟩
            obtain ⟨hstarts, hread⟩ := hread r' hr
            rw [List.cons_append, List.take_succ_cons] at hstarts ⊢
            rwa [operandAhead, if_neg hparen, if_neg hquote, if_pos hstarts]
      rw [if_neg hnumber] at h
      by_cases hsymbol : isSymbol c = true
      · rw [if_pos hsymbol] at h
        obtain ⟨w, r, rfl, rfl, hread⟩ := run_name_ok hsymbol h
        refine ⟨c :: w, r, rfl, rfl, fun r' hr => ?_⟩
        have hstarts : ¬startsNumber (c :: (w ++ r').take 1) = true := by
          rw [Bool.not_eq_true] at hnumber ⊢
          exact startsNumber_of_cut hnumber (Cut.prefixClosed hr w)
        rw [List.cons_append, List.take_succ_cons, operandAhead, if_neg hparen, if_neg hquote,
          if_neg hstarts, if_pos hsymbol]
        exact hread r' hr
      · rw [if_neg hsymbol] at h
        cases h

theorem survives_bareOperand {inner : Scanner Expr} (h : Survives inner) (missing : Cause) :
    Survives (bareOperand inner missing) := by
  rw [bareOperand_eq]
  refine survives_skipBlank.bind Cut.prefixClosed fun _ p cs e t hrun => ?_
  obtain ⟨w, r, rfl, rfl, hread⟩ := run_operandAhead_ok h hrun
  exact .flat rfl fun r' hr => (reads_peek 2 _).nil_bind (hread r' hr)

theorem survives_operand {inner : Scanner Expr} (h : Survives inner) (missing : Cause) :
    Survives (operand inner missing) :=
  (survives_bareOperand h missing).bind Cut.prefixClosed fun e =>
    (survives_indexList h).map Cut.prefixClosed e.withIndices

/-! ### Expressions -/

theorem survives_chain {inner : Scanner Expr} (h : Survives inner) : Survives (chain inner) := by
  refine (survives_operand h _).bind Cut.prefixClosed fun first => ?_
  refine Follows.map Cut.prefixClosed ?_ fun rest => (Chain.mk first rest).tree
  exact survives_collect survives_infixOperator fun op =>
    (survives_operand h _).map Cut.prefixClosed (Prod.mk op)

/-- What is read as an expression is read the same if the rest is cut. -/
theorem survives_nested : ∀ levels : Nat, Survives (nested levels)
  | 0 => survives_chain (follows_fail _ _)
  | levels + 1 => survives_chain (survives_nested levels)

/-! ### What comes behind an expression -/

/-- What a scanner leaves of a text at hand is a text at hand. -/
theorem Survives.atHand {α : Type} {x : Scanner α} (h : Survives x) {p : Position} {cs : List Char}
    {a : α} {t : Stencil.Stream} (hrun : x.run (.ofTextAt p cs) = .ok a t) :
    ∃ q r, t = .ofTextAt q r := by
  obtain ⟨w, r, -, ht, -⟩ := (h _ _ _ _ hrun).reads le_rfl
  exact ⟨_, r, ht⟩

/-- No blank follows, and no index. -/
structure Indexed (r : List Char) : Prop where
  blank : ∀ c ∈ r.head?, isBlank c = false
  bracket : ∀ c ∈ r.head?, (c == '[') = false

/-- An operand is read with all its indices. -/
theorem indexed_operand {inner : Scanner Expr} (hinner : Survives inner) {missing : Cause}
    {p : Position} {cs : List Char} {e : Expr} {t : Stencil.Stream}
    (h : (operand inner missing).run (.ofTextAt p cs) = .ok e t) :
    ∃ q r, t = .ofTextAt q r ∧ Indexed r := by
  obtain ⟨bare, u, hbare, h⟩ := run_bind_ok h
  obtain ⟨indices, v, hindices, h⟩ := run_bind_ok h
  cases h
  obtain ⟨u, ⟨q, r, rfl⟩, hlast⟩ := exists_last
    (P := fun s => ∃ q r, s = .ofTextAt q r) (fun hs ho hb => by
      obtain ⟨q, r, rfl⟩ := hs
      obtain ⟨q, r, rfl⟩ := Survives.atHand survives_openIndex ho
      exact Survives.atHand (survives_closed hinner rfl _) hb)
    (Survives.atHand (survives_bareOperand hinner missing) hbare) hindices
  obtain ⟨w, r, -, ⟨⟨⟩, -⟩ | ⟨-, -, rfl, hblank, hbracket⟩⟩ := run_openIndex hlast
  exact ⟨_, r, rfl, hblank, hbracket⟩

/-- Nothing follows that an expression goes on with: no blank, no index, and no operator. -/
structure Ended (r : List Char) : Prop extends Indexed r where
  operator : ∀ op : Operator, ¬op.symbol.toList <+: r

theorem ended_nil : Ended [] where
  blank _ hc := by cases hc
  bracket _ hc := by cases hc
  operator op hop := by cases op <;> exact absurd (List.prefix_nil.mp hop) (by decide)

/-- A chain is read with all its operators. -/
theorem ended_chain {inner : Scanner Expr} (hinner : Survives inner) {p : Position}
    {cs : List Char} {e : Expr} {t : Stencil.Stream}
    (h : (chain inner).run (.ofTextAt p cs) = .ok e t) : ∃ q r, t = .ofTextAt q r ∧ Ended r := by
  obtain ⟨first, u, hfirst, h⟩ := run_bind_ok h
  obtain ⟨rest, v, hrest, h⟩ := run_bind_ok h
  cases h
  obtain ⟨u, ⟨q, r, rfl, hr⟩, hlast⟩ := exists_last
    (P := fun s => ∃ q r, s = .ofTextAt q r ∧ Indexed r) (fun hs ho hb => by
      obtain ⟨q, r, rfl, -⟩ := hs
      obtain ⟨q, r, rfl⟩ := Survives.atHand survives_infixOperator ho
      obtain ⟨e, v, he, hb⟩ := run_bind_ok hb
      cases hb
      exact indexed_operand hinner he)
    (indexed_operand hinner hfirst) hrest
  obtain ⟨w, s, rfl, rfl, hw, -, hs⟩ := run_infixOperator_none hlast
  -- There is no blank before the place where an operator was looked for.
  cases w with
  | nil => exact ⟨_, s, rfl, hr, hs⟩
  | cons c w =>
      have hblank := hr.blank c rfl
      rw [hw c List.mem_cons_self] at hblank
      cases hblank

theorem ended_scanner {p : Position} {cs : List Char} {e : Expr} {t : Stencil.Stream}
    (h : scanner.run (.ofTextAt p cs) = .ok e t) : ∃ q r, t = .ofTextAt q r ∧ Ended r :=
  ended_chain (survives_nested 63) h

/-! ### Whole texts -/

/-- An expression that ends before nothing an expression goes on with is a whole text if that is the
end, or else has a character behind it that is one too many. -/
theorem run_wholeScanner {w r : List Char} {e : Expr} (h : scanner.Reads w e r) (hr : Ended r)
    (p : Position) :
    wholeScanner.run (.ofTextAt p (w ++ r)) =
      match r.head? with
      | some c => .error (.located (.trailingGarbage c) (p.after w)) (.ofTextAt (p.after w) r)
      | none => .ok e (.ofTextAt (p.after w) r) := by
  have hskip := reads_skipBlank (w := []) (fun c hc => by cases hc) hr.blank (p.after w)
  rw [List.nil_append] at hskip
  rw [wholeScanner, run_bind_of_ok (h p), run_bind_of_ok hskip, run_peekChar_bind]
  cases r with
  | nil => rfl
  | cons c r => rfl

/-- **Embedded expressions are read as whole texts are.**

Where an expression is read from the front of a text, the part that is taken up is the same
expression as a whole text, wherever it stands.  The rest is empty, or it starts with a character
that is neither a blank nor an opening bracket, and with no operator.  And the text as a whole is
that expression just when the rest is empty: otherwise the first character of the rest is reported
as one too many, at its place. -/
theorem scanner_embedded {p : Position} {text : List Char} {e : Expr} {t : Stencil.Stream}
    (h : scanner.run (.ofTextAt p text) = .ok e t) :
    ∃ w r, text = w ++ r ∧ t = .ofTextAt (p.after w) r ∧
      (∀ q, wholeScanner.run (.ofTextAt q w) = .ok e (.ofTextAt (q.after w) [])) ∧
      (r = [] ∨ ∃ c s, r = c :: s ∧ isBlank c = false ∧ c ≠ '[' ∧
        ∀ op : Operator, ¬op.symbol.toList <+: r) ∧
      (r = [] → wholeScanner.run (.ofTextAt p text) = .ok e (.ofTextAt (p.after w) [])) ∧
      ∀ c s, r = c :: s → wholeScanner.run (.ofTextAt p text) =
        .error (.located (.trailingGarbage c) (p.after w)) (.ofTextAt (p.after w) r) := by
  obtain ⟨w, r, rfl, rfl, hread⟩ := (survives_nested nestingLimit _ _ _ _ h).reads le_rfl
  obtain ⟨q, r', hrest, hended⟩ := ended_scanner h
  obtain ⟨-, rfl⟩ := Stream.ofTextAt_inj.mp hrest
  have hwhole := run_wholeScanner (hread r (List.prefix_refl r)) hended p
  refine ⟨w, r, rfl, rfl, fun q => ?_, ?_, ?_, ?_⟩
  · have halone := run_wholeScanner (hread [] List.nil_prefix) ended_nil q
    rwa [List.append_nil] at halone
  · cases r with
    | nil => exact .inl rfl
    | cons c s =>
        exact .inr ⟨c, s, rfl, hended.blank c rfl, by simpa using hended.bracket c rfl,
          hended.operator⟩
  · rintro rfl
    exact hwhole
  · rintro c s rfl
    exact hwhole

/-- Of `a &c` the name is read and the blank behind it, as a single `&` is no operator. -/
theorem scanner_embedded_before_ampersand :
    let w := ['a', ' ']
    let r := ['&', 'c']
    let e : Expr := .ident "a" []
    let p : Position := .start "<stream>"
    scanner.run (.ofTextAt p (w ++ r)) = .ok e (.ofTextAt (p.after w) r) ∧
      wholeScanner.run (.ofTextAt p w) = .ok e (.ofTextAt (p.after w) []) ∧
      wholeScanner.run (.ofTextAt p (w ++ r)) =
        .error (.located (.trailingGarbage '&') (p.after w)) (.ofTextAt (p.after w) r) := by
  intro w r e p
  -- A single ampersand is no operator, so the expression ends in front of it.
  have hread : scanner.Reads w e r := by
    have hname : (bareOperand (nested 63) .missingFirstOperand).Reads ([] ++ "a".toList)
        (.ident "a" []) [' ', '&', 'c'] :=
      reads_name (by simp) (by simp) (by simp; decide) (by simp; decide) (by simp [Apart]; decide)
    have hindices : (indexList (nested 63)).Reads [' '] [] ['&', 'c'] :=
      reads_indexList_nil (by simp; decide) (by simp; decide) (by simp)
    have hnone : infixOperator.Reads [] none ['&', 'c'] := by
      rw [infixOperator_eq]
      exact (reads_skipBlank (w := []) (by simp) (by simp; decide)).nil_bind
        (reads_next_none (declines_chosen.mpr (by decide)))
    change (chain (nested 63)).Reads _ _ _
    refine (reads_operand hname hindices).bind_nil ?_
    exact Reads.map (f := fun rest => (Chain.mk (.ident "a" []) rest).tree)
      (reads_collect_nil hnone)
  have hrun := hread p
  obtain ⟨w', r', htext, hrest, halone, -, -, hgarbage⟩ := scanner_embedded hrun
  obtain ⟨-, hr⟩ := Stream.ofTextAt_inj.mp hrest
  rw [← hr] at htext hgarbage
  obtain rfl := List.append_cancel_right htext
  exact ⟨hrun, halone p, hgarbage '&' ['c'] rfl⟩

end Expr

end Stencil
