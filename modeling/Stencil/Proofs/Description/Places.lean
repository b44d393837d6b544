import Stencil.Proofs.Description.Assignments
import Stencil.Proofs.Scanner.Places
import Stencil.Proofs.Template.Contracts

/-!
# Description — Places

Where the errors of a text lie, for each of the three readers of texts.

To be located is a contract (`located`), so the errors of templates and of expressions lie at places
of the text.  Of a description, the statements and their tokens stand at places of the text
(`isPlaceOf_of_statements`), but an error inside a statement is reported one column behind the place
it lies at, and this is no place of the text (`not_isPlaceOf_shifted`).  Two errors are reported
where they lie: a string that does not end, and an array that nests too deep
(`reportedIn_of_statements`).
-/

namespace Stencil

namespace Scanner

/-- A numeric literal that stands for nothing fails where it ends. -/
theorem located_number : Located number := by
  refine (located_fold Expr.extra_le_of_move _).bind fun literal s => ?_
  rw [run_bind]
  change EndsHere s (Scanner.run _ s)
  cases hl : literal.evaluate s.position with
  | ok v => exact located_pure v s
  | error f =>
      rcases Literal.evaluate_error hl with ⟨cause, rfl, -⟩ | ⟨fault, rfl⟩
      · exact located_fail cause s
      · exact .fault

/-- Scanners made up of located ones are located. -/
theorem located : Contract Located where
  pure := located_pure
  bind := Located.bind
  fail := located_fail
  peek := located_peek
  take := located_take
  next := located_next
  fold := located_fold
  peekWord := located_peekWord
  gather := located_gather
  number := located_number

end Scanner

namespace Description

open Scanner Text

variable {name : String} {text v : List Char} {p q : Position}

/-- One column behind a place there is none with the same offset. -/
theorem not_isPlaceOf_shifted (h : p.IsPlaceOf name text) : ¬(shifted p).IsPlaceOf name text := by
  intro hs
  exact absurd (hs.column.trans h.column.symm) (Nat.succ_ne_self _)

/-- The places in a statement are places in its text. -/
theorem isPlaceOf_of_statements (h : (q, v) ∈ statements (.start name) text) {u w : List Char}
    (hv : v = u ++ w) : (q.after u).IsPlaceOf name text := by
  obtain ⟨u', r, rfl, rfl⟩ := mem_statements h
  subst hv
  rw [← Position.after_append, List.append_assoc, ← List.append_assoc u']
  exact Position.isPlaceOf_after name (u' ++ u) (w ++ r)

/-- How an error in a description is reported: at a place of the text if a string in it does not
end or an array nests too deep, and one column behind a place otherwise. -/
inductive ReportedIn (name : String) (text : List Char) : Failure → Prop where
  | atPlace {cause : Cause} {p : Position} (hc : cause = .endInString ∨ cause = .arrayTooDeep)
      (hp : p.IsPlaceOf name text) : ReportedIn name text (.located cause p)
  | behind {cause : Cause} {p : Position} (hc : ¬(cause = .endInString ∨ cause = .arrayTooDeep))
      (hp : p.IsPlaceOf name text) : ReportedIn name text (.located cause (shifted p))
  | fault (f : Fault) : ReportedIn name text (.fault f)

theorem SameFailure.reportedIn {f g : Failure}
    (h : SameFailure (fun p _ => p.IsPlaceOf name text) f g) : ReportedIn name text f := by
  cases h with
  | inside hs ha hp => exact .behind (not_or.mpr ⟨hs, ha⟩) hp
  | tooDeep hp => exact .atPlace (.inr rfl) hp
  | fault f => exact .fault f

/-- The errors of a statement are those of its symbol and its tokens, which stand in the text. -/
theorem reportedIn_of_statements (h : (q, v) ∈ statements (.start name) text) {f : Failure}
    (hf : Statement.result q v = .error f) : ReportedIn name text f := by
  have hplace : ∀ {u w : List Char}, v = u ++ w → (q.after u).IsPlaceOf name text :=
    isPlaceOf_of_statements h
  rw [Statement.result] at hf
  split at hf
  · cases hf
    exact .atPlace (.inl rfl) (hplace (List.append_nil v).symm)
  · have hv : v = v.takeWhile isSymbol ++ v.dropWhile isSymbol :=
      List.takeWhile_append_dropWhile.symm
    have htokens : List.Forall₂ (SameToken fun p _ => p.IsPlaceOf name text)
        (tokens (q.after (v.takeWhile isSymbol)) (v.dropWhile isSymbol))
        (tokens (q.after (v.takeWhile isSymbol)) (v.dropWhile isSymbol)) := by
      refine List.forall₂_same.mpr fun token ht => ⟨?_, rfl⟩
      obtain ⟨p, t⟩ := token
      obtain ⟨u, w, huw, rfl⟩ := mem_tokens ht
      rw [← Position.after_append]
      exact hplace (by rw [List.append_assoc, ← huw, ← hv])
    have hresult := agree_assignment (hplace (List.nil_append v).symm) rfl rfl htokens
    rw [hf] at hresult
    cases hresult with
    | error h => exact h.reportedIn

theorem mem_of_untilError {ε α : Type} {l : List (Except ε α)} {e : ε}
    (h : (untilError l).2 = some e) : .error e ∈ l := by
  induction l with
  | nil => cases h
  | cons r l ih =>
      cases r with
      | error e' => cases h; exact List.mem_cons_self
      | ok a => exact List.mem_cons_of_mem _ (ih h)

end Description

open Description in
/-- **Errors lie in the text**: an error in a template or in an expression is reported at a place of
the text.  An error in a description is reported at a place of it, or one column behind one: at a
place just when a string does not end or an array nests too deep. -/
theorem errors_placed (name : String) (env : Environment) (text : List Char) :
    (∀ e, Template.ofText name text = .error (.error e) →
      ∃ p, e.position = some p ∧ p.IsPlaceOf name text) ∧
    (∀ e, Expr.ofText text = .error (.error e) →
      ∃ p, e.position = some p ∧ p.IsPlaceOf Expr.streamName text) ∧
    ∀ e, (env.loadText text).2 = some (.error e) →
      ∃ p, e.position = some p ∧
        (p.IsPlaceOf Environment.streamName text ∨
          ∃ q, q.IsPlaceOf Environment.streamName text ∧ p = shifted q) ∧
        (p.IsPlaceOf Environment.streamName text ↔
          e.cause = .endInString ∨ e.cause = .arrayTooDeep) := by
  refine ⟨fun e h => ?template, fun e h => ?expr, fun e h => ?description⟩
  case template => exact (Template.holds_scanner Scanner.located).place h
  case expr => exact (Expr.holds_wholeScanner Scanner.located).place h
  case description =>
    rw [Environment.loadText_eq] at h
    obtain ⟨⟨q, v⟩, hs, hf⟩ := List.mem_map.mp (mem_of_untilError h)
    have hreported : ReportedIn Environment.streamName text (.error e) :=
      reportedIn_of_statements hs hf
    cases hreported with
    | atPlace hc hp => exact ⟨_, rfl, .inl hp, iff_of_true hp hc⟩
    | behind hc hp =>
        exact ⟨_, rfl, .inr ⟨_, hp, rfl⟩, iff_of_false (not_isPlaceOf_shifted hp) hc⟩

/-- A stray brace on the second line of a template, a parenthesis that is not closed, and a string
in a description that does not end. -/
theorem errors_placed_of_samples :
    let brace : Position := ⟨"t", 2, 1, 3⟩
    let parenthesis : Position := ⟨Expr.streamName, 1, 2, 2⟩
    let quote : Position := ⟨Environment.streamName, 2, 3, 4⟩
    (Template.ofText "t" "x\n\x7d".toList = .error (.located .strayBrace brace) ∧
        brace.IsPlaceOf "t" "x\n\x7d".toList) ∧
      (Expr.ofText "(a".toList = .error (.located .missingParenthesis parenthesis) ∧
        parenthesis.IsPlaceOf Expr.streamName "(a".toList) ∧
      (Environment.empty.loadText "\na=\"".toList).2 = some (.located .endInString quote) ∧
        quote.IsPlaceOf Environment.streamName "\na=\"".toList := by
  intro brace parenthesis quote
  have hbrace : Template.ofText "t" "x\n\x7d".toList = .error (.located .strayBrace brace) := by
    with_unfolding_all rfl
  have hparenthesis : Expr.ofText "(a".toList =
      .error (.located .missingParenthesis parenthesis) := by with_unfolding_all rfl
  have hquote : (Environment.empty.loadText "\na=\"".toList).2 =
      some (.located .endInString quote) := by with_unfolding_all rfl
  obtain ⟨_, ⟨⟩, hp⟩ := (errors_placed "t" .empty _).1 _ hbrace
  obtain ⟨_, ⟨⟩, hq⟩ := (errors_placed "t" .empty _).2.1 _ hparenthesis
  obtain ⟨_, ⟨⟩, -, hr⟩ := (errors_placed "t" .empty _).2.2 _ hquote
  exact ⟨⟨hbrace, hp⟩, ⟨hparenthesis, hq⟩, hquote, hr.mpr (.inl rfl)⟩

/-- For want of a sign of equality, two characters into its line, a description is reported to be
wrong at the third. -/
theorem missingEquals_not_placed :
    let p : Position := ⟨Environment.streamName, 1, 3, 2⟩
    (Environment.empty.loadText "a 1;".toList).2 = some (.located .missingEquals p) ∧
      ¬p.IsPlaceOf Environment.streamName "a 1;".toList ∧
      (("a 1;".toList.take p.offset).reverse.takeWhile (· != '\n')).length = 2 := by
  intro p
  exact ⟨by with_unfolding_all rfl, by decide, by decide⟩

end Stencil
