import Stencil.Environment.Basic
import Stencil.Proofs.Expr.WellFormed
import Stencil.Proofs.Template.Rows

/-!
# Template — Well-formed templates

A sibling is *well formed* when its data are not empty, the variables of its loops are words, its
expressions are well formed, and nowhere inside of it do data stand next to data.  A text that is
read as a template is read as well-formed siblings, inside of which blocks nest no deeper than the
limit (`ofText_wellFormed`); the only exception is the empty text, which stands for empty data.
-/

namespace Stencil

open Scanner Text

namespace Node

/-- The sibling is data. -/
def isData : Node → Bool
  | .data _ => true
  | .insert _ | .choose .. | .loop .. => false

/-- A variable of a loop: a word, which may start with a digit. -/
structure IsVariable (name : String) : Prop where
  nonempty : name.toList ≠ []
  symbols : ∀ c ∈ name.toList, isSymbol c = true

mutual

/-- The data, variables and expressions of a sibling are those of the language, and nowhere inside
of it do data stand next to data. -/
def WellFormed : Node → Prop
  | .data text => text ≠ ""
  | .insert e => e.WellFormed
  | .choose condition holds fails =>
    condition.WellFormed ∧ AllWellFormed holds ∧ AllWellFormed fails
  | .loop name items body => IsVariable name ∧ items.WellFormed ∧ AllWellFormed body

/-- Those of some siblings are, and data do not stand next to data among them. -/
def AllWellFormed : List Node → Prop
  | [] => True
  | n :: ns =>
    WellFormed n ∧ (n.isData = true → ∀ m ∈ ns.head?, m.isData = false) ∧ AllWellFormed ns

end

/-- How deep blocks nest in a sibling. -/
def depth : Node → Nat
  | .data _ => 0
  | .insert _ => 0
  | .choose _ holds fails => max (depths holds) (depths fails) + 1
  | .loop _ _ body => depths body + 1
where
  /-- How deep blocks nest in some siblings. -/
  depths : List Node → Nat
    | [] => 0
    | n :: ns => max n.depth (depths ns)

/-- The expressions of a sibling that are evaluated, at every depth. -/
def expressions : Node → List Expr
  | .data _ => []
  | .insert e => [e]
  | .choose condition holds fails => condition :: (allExpressions holds ++ allExpressions fails)
  | .loop _ items body => items :: allExpressions body
where
  /-- The expressions of some siblings. -/
  allExpressions : List Node → List Expr
    | [] => []
    | n :: ns => n.expressions ++ allExpressions ns

mutual

/-- The expressions of a well-formed sibling are well formed. -/
theorem WellFormed.expressions : ∀ {n : Node}, n.WellFormed → ∀ e ∈ n.expressions, e.WellFormed
  | .data _, _, _, he => by cases he
  | .insert e, h, _, he => by
      obtain rfl := List.mem_singleton.mp he
      exact h
  | .choose condition holds fails, ⟨hc, hh, hf⟩, e, he => by
      rcases List.mem_cons.mp he with rfl | he
      · exact hc
      rcases List.mem_append.mp he with he | he
      · exact AllWellFormed.expressions hh e he
      · exact AllWellFormed.expressions hf e he
  | .loop name items body, ⟨_, hi, hb⟩, e, he => by
      rcases List.mem_cons.mp he with rfl | he
      · exact hi
      · exact AllWellFormed.expressions hb e he

theorem AllWellFormed.expressions :
    ∀ {ns : List Node}, AllWellFormed ns → ∀ e ∈ expressions.allExpressions ns, e.WellFormed
  | [], _, _, he => by cases he
  | n :: ns, ⟨hn, _, hns⟩, e, he => by
      rcases List.mem_append.mp he with he | he
      · exact hn.expressions e he
      · exact hns.expressions e he

end

end Node

namespace Template

/-- The expressions of a template that are evaluated, at every depth. -/
def expressions (t : Template) : List Expr :=
  Node.expressions.allExpressions t.body

/-- The sibling is well formed, no data, and blocks nest no deeper in it. -/
structure Fits (levels : Nat) (n : Node) : Prop where
  wellFormed : n.WellFormed
  noData : n.isData = false
  depth_le : n.depth ≤ levels

/-- The siblings are well formed, and blocks nest no deeper in them. -/
def AllFit (levels : Nat) (ns : List Node) : Prop :=
  Node.AllWellFormed ns ∧ Node.depth.depths ns ≤ levels

/-! ### Statements -/

theorem Shuts.yields {α : Type} {x : Scanner α} (h : Shuts x) : Yields (fun _ => True) x := by
  intro p cs a t hrun
  obtain ⟨v, r, -, ht, -⟩ := h p cs a t hrun
  exact ⟨trivial, _, r, ht⟩

theorem yields_slotReader (keyword : Option Keyword) :
    Yields Expr.WellFormed (slotReader keyword) :=
  Expr.yields_scanner.bind fun _ he =>
    (shuts_endOfStatement keyword).yields.map fun _ _ => he

/-- A word is read as long as it goes on. -/
theorem yields_word : Yields (fun w => ∀ c ∈ w, isSymbol c = true) (word isSymbol none) := by
  intro p cs w t hrun
  obtain ⟨v, r, rfl, hv, hr⟩ := exists_front isSymbol cs
  rw [reads_word hv hr p] at hrun
  cases hrun
  exact ⟨hv, _, r, rfl⟩

theorem yields_loopHead :
    Yields (fun head => Node.IsVariable (String.ofList head.1) ∧ head.2.WellFormed) loopHead := by
  refine local_skipBlank.yields.bind fun _ _ => yields_word.bind fun name hname => ?_
  by_cases hempty : name.isEmpty = true
  · rw [if_pos hempty]
    exact yields_fail _
  rw [if_neg hempty]
  have hvar : Node.IsVariable (String.ofList name) :=
    ⟨by simpa using hempty, by simpa using hname⟩
  refine local_skipBlank.yields.bind fun _ _ => yields_word.bind fun _ _ => yields_ite ?_ ?_
  · exact (yields_slotReader _).map fun items hitems => ⟨hvar, hitems⟩
  · exact yields_fail _

variable {levels : Nat} {inner : Inner} {context : Context} {ns : List Node} {closing : Closing}

/-- The readers one level further in read well-formed siblings, with one level less. -/
def FitsInside (levels : Nat) (inner : Inner) : Prop :=
  ∀ readers, inner = some readers → ∃ l, levels = l + 1 ∧
    ∀ context, Yields (fun found => AllFit l found.1) (readers context)

theorem yields_enter (h : FitsInside levels inner) :
    Yields (fun readers => ∃ l, levels = l + 1 ∧
      ∀ context, Yields (fun found => AllFit l found.1) (readers context)) (enter inner) := by
  cases inner with
  | none => exact yields_fail _
  | some readers => exact yields_pure (h readers rfl)

theorem yields_branches (h : FitsInside levels inner) {condition : Expr}
    (hc : condition.WellFormed) : Yields (Fits levels) (branches inner condition) := by
  refine (yields_enter h).bind ?_
  rintro readers ⟨l, rfl, hinside⟩
  refine (hinside _).bind ?_
  rintro ⟨holds, closing⟩ ⟨hholds, hdeep⟩
  cases closing with
  | endOfText => exact yields_fail _
  | endStatement =>
      exact yields_pure ⟨⟨hc, hholds, trivial⟩, rfl,
        Nat.succ_le_succ (Nat.max_le.mpr ⟨hdeep, Nat.zero_le l⟩)⟩
  | elseStatement =>
      refine (hinside _).bind ?_
      rintro ⟨fails, closing⟩ ⟨hfails, hdeep'⟩
      exact yields_ite (yields_pure ⟨⟨hc, hholds, hfails⟩, rfl,
        Nat.succ_le_succ (Nat.max_le.mpr ⟨hdeep, hdeep'⟩)⟩) (yields_fail _)

theorem yields_loopRest (h : FitsInside levels inner) {name : List Char} {items : Expr}
    (hname : Node.IsVariable (String.ofList name)) (hi : items.WellFormed) :
    Yields (Fits levels) (loopRest inner name items) := by
  refine (yields_enter h).bind ?_
  rintro readers ⟨l, rfl, hinside⟩
  refine (hinside _).bind ?_
  rintro ⟨body, closing⟩ ⟨hbody, hdeep⟩
  exact yields_ite (yields_pure ⟨⟨hname, hi, hbody⟩, rfl, Nat.succ_le_succ hdeep⟩) (yields_fail _)

/-- What a statement is read as is well formed, if it is a sibling. -/
def FitsLeft (levels : Nat) (x : Node ⊕ Closing) : Prop :=
  ∀ n, x = .inl n → Fits levels n

theorem yields_behindWord (h : FitsInside levels inner) (k : Option Keyword) :
    Yields (FitsLeft levels) (behindWord inner context k) := by
  have htake : ∀ n, Yields (fun _ => True) (take n) := by
    intro n p cs w t hrun
    cases hrun
    exact ⟨trivial, _, _, rfl⟩
  have hleft : ∀ {x : Scanner Node}, Yields (Fits levels) x →
      Yields (FitsLeft levels) (do return .inl (← x)) :=
    fun hx => hx.map fun n hn m hm => by cases hm; exact hn
  have hright : ∀ c : Closing, FitsLeft levels (.inr c) := fun c n hn => by cases hn
  -- A statement gives a node; the words `else` and `end` give a closing, which holds none.
  cases k with
  | none =>
      rw [insert_eq]
      exact (yields_slotReader none).map fun e he n hn => by
        cases hn
        exact ⟨he, rfl, Nat.zero_le levels⟩
  | some k =>
      cases k with
      | ifWord =>
          refine (htake _).bind fun _ _ => hleft ?_
          rw [ifBlock_eq]
          exact (yields_slotReader _).bind fun condition hc => yields_branches h hc
      | forWord =>
          refine (htake _).bind fun _ _ => hleft ?_
          rw [forBlock_eq]
          exact yields_loopHead.bind fun head hhead => yields_loopRest h hhead.1 hhead.2
      | elseWord =>
          exact (htake _).bind fun _ _ => (shuts_endOfStatement _).yields.bind fun _ _ =>
            yields_ite (yields_pure (hright _)) (yields_fail _)
      | endWord =>
          exact (htake _).bind fun _ _ => (shuts_endOfStatement _).yields.bind fun _ _ =>
            yields_ite (yields_fail _) (yields_pure (hright _))

theorem yields_statement (h : FitsInside levels inner) :
    Yields (FitsLeft levels) (statement inner context) := by
  rw [statement_eq]
  refine local_skipBlank.yields.bind fun _ _ => ?_
  intro p cs x t hrun
  obtain ⟨word, u, hpeek, hrun⟩ := run_bind_ok hrun
  rw [run_peekWord] at hpeek
  cases hpeek
  exact yields_behindWord h _ p cs x t hrun

/-! ### Rows -/

/-- A character of data is taken, or it is a backslash. -/
theorem DataState.chars_ne_nil_of_move {s s' : DataState} {c : Char} {ahead : List Char}
    {extra : Nat} (h : s.move c ahead = .step extra s') : s'.chars ≠ [] := by
  unfold DataState.move at h
  repeat' split at h
  all_goals cases h
  all_goals simp_all [DataState.chars]

/-- Data of which a character is read are not empty. -/
theorem DataState.chars_ne_nil {s s' : DataState} {c : Char} {v : List Char}
    (h : s.after? (c :: v) = some s') : s'.chars ≠ [] := by
  induction v generalizing s c with
  | nil =>
      rw [DataState.after?] at h
      split at h
      · next hm => cases h; exact chars_ne_nil_of_move hm
      · cases h
      · cases h
  | cons d v ih =>
      rw [DataState.after?] at h
      split at h
      · exact ih h
      · cases h
      · cases h

/-- Where data end, no data start. -/
theorem Row.head_of_endsAt {s : DataState} {w : List Char} (hs : s.EndsAt w)
    (h : Row inner context w ns closing) (hfit : FitsInside levels inner) :
    ∀ m ∈ ns.head?, m.isData = false := by
  intro m hm
  cases h with
  | ended => cases hm
  | closed => cases hm
  | statement hn =>
      cases hm
      obtain ⟨hleft, -⟩ := yields_statement hfit _ _ _ _ (hn [] (.start ""))
      exact (hleft _ rfl).noData
  | data hdata =>
      rcases hs with hnil | ⟨-, r, hr⟩
      · cases hnil
      · obtain ⟨rfl, -⟩ := List.cons.inj hr
        cases hdata

/-- What a row stands for is well formed. -/
theorem Row.fits (h : FitsInside levels inner) {w : List Char}
    (hrow : Row inner context w ns closing) : AllFit levels ns := by
  induction hrow with
  | ended => exact ⟨trivial, Nat.zero_le levels⟩
  | closed => exact ⟨trivial, Nat.zero_le levels⟩
  | @statement v z n ns closing hn _ ih =>
      obtain ⟨hleft, -⟩ := yields_statement h _ _ _ _ (hn [] (.start ""))
      obtain ⟨hwf, hdata, hdeep⟩ := hleft n rfl
      refine ⟨⟨hwf, fun hd => ?_, ih.1⟩, Nat.max_le.mpr ⟨hdeep, ih.2⟩⟩
      rw [hdata] at hd
      cases hd
  | @data c v z s ns closing hs hends hrest ih =>
      refine ⟨⟨fun hempty => ?_, fun _ => hrest.head_of_endsAt hends h, ih.1⟩,
        Nat.max_le.mpr ⟨Nat.zero_le levels, ih.2⟩⟩
      exact DataState.chars_ne_nil hs (by simpa using congrArg String.toList hempty)

/-- The readers of siblings read well-formed ones, in which blocks nest no deeper than levels are
left. -/
theorem fitsInside_innerAt (levels : Nat) : FitsInside levels (innerAt levels) := by
  induction levels with
  | zero => exact nofun
  | succ levels ih =>
      rintro readers ⟨⟩
      refine ⟨levels, rfl, fun context p cs found t hrun => ?_⟩
      rw [nested_eq] at hrun
      obtain ⟨w, r, -, rfl, hrow, -⟩ :=
        exists_row (shuts_statement (shutsInside_innerAt levels) context) hrun
      exact ⟨hrow.fits ih, _, r, rfl⟩

/-! ### Texts -/

theorem Row.nil_iff {w : List Char} (h : Row inner .outermost w ns closing) :
    w = [] ↔ ns = [] := by
  have hclosing := h.closing_of_outermost
  cases h with
  | ended => exact iff_of_true rfl rfl
  | closed h => exact absurd hclosing (ne_endOfText_of_statement (h [] (.start "")))
  | statement => exact iff_of_false nofun nofun
  | data => exact iff_of_false nofun nofun

end Template

theorem Cause.eq_of_code_unknownOperator {cause : Cause} (h : cause.code = "unknown-operator") :
    ∃ symbol, cause = .unknownOperator symbol := by
  cases cause with
  | unknownOperator symbol => exact ⟨symbol, rfl⟩
  | _ => simp [Cause.code] at h

namespace Template

/-- **Templates that are read are well formed.**

The whole text is read.  Blocks nest no deeper than the limit.  Unless the text is empty, and stands
for empty data, the siblings are well formed: nowhere are data empty or next to data, the variables
of loops are words, and in expressions, at every depth and in indices too, names are words that do
not start with a digit, operators are those of the language, and literals are integers of 64 bits,
finite numbers or strings.  So the evaluation of the expressions in an environment never fails by an
unknown operator. -/
theorem ofText_wellFormed {name : String} {text : List Char} {t : Template}
    (h : ofText name text = .ok t) :
    (∃ q, scanner.run (.ofText name text) = .ok t (.ofTextAt q [])) ∧
      Node.depth.depths t.body ≤ blockLimit ∧
      (text = [] ∧ t.body = [.data ""] ∨ text ≠ [] ∧ Node.AllWellFormed t.body) ∧
      ∀ e ∈ t.expressions, e.WellFormed ∧ ∀ (level : Nat) (env : Environment) (error : Error),
        (e.evaluate level env.lookup).result = .error (.error error) →
          error.cause.code ≠ "unknown-operator" := by
  obtain ⟨ns, hrow, rfl⟩ := ofText_iff_row.mp h
  obtain ⟨hwf, hdeep⟩ := hrow.fits (fitsInside_innerAt blockLimit)
  have hread := hrow.reads (r := []) (fun _ => rfl) (.start name)
  rw [List.append_nil, ← nested_eq] at hread
  have hknown : ∀ e : Expr, e.WellFormed → ∀ (level : Nat) (env : Environment) (error : Error),
      (e.evaluate level env.lookup).result = .error (.error error) →
        error.cause.code ≠ "unknown-operator" := by
    rintro e he level env ⟨cause, position⟩ hresult hcode
    obtain ⟨symbol, rfl⟩ := Cause.eq_of_code_unknownOperator hcode
    exact Expr.knows_evaluateTo he symbol position hresult
  refine ⟨⟨_, run_bind_of_ok hread⟩, ?_⟩
  by_cases hns : ns = []
  · subst hns
    exact ⟨Nat.zero_le _, .inl ⟨hrow.nil_iff.mpr rfl, rfl⟩, nofun⟩
  · rw [if_neg (by simpa using hns)]
    exact ⟨hdeep, .inr ⟨fun hnil => hns (hrow.nil_iff.mp hnil), hwf⟩,
      fun e he => ⟨hwf.expressions e he, hknown e (hwf.expressions e he)⟩⟩

/-- A loop over what an index selects, of which the variable starts with a digit and the body holds
an escaped brace. -/
theorem ofText_wellFormed_of_loop :
    let t : Template := ⟨[.loop "1" (.ident "x" [.literal (.integer 0) []]) [.data "\x7b"]]⟩
    ofText "" "\x7bfor 1 in x[0]\x7d\\\x7b\x7bend\x7d".toList = .ok t ∧
      Node.depth.depths t.body ≤ blockLimit ∧ Node.AllWellFormed t.body := by
  intro t
  have h : ofText "" "\x7bfor 1 in x[0]\x7d\\\x7b\x7bend\x7d".toList = .ok t := by
    with_unfolding_all rfl
  obtain ⟨-, hdeep, ⟨hnil, -⟩ | ⟨-, hwf⟩, -⟩ := ofText_wellFormed h
  · cases hnil
  · exact ⟨h, hdeep, hwf⟩

end Template

end Stencil
