import Stencil.Proofs.Expr.StraySigns
import Stencil.Template.Reading

/-!
# Template — Stray signs

Reading a template is a fault just where a number in it starts with a point, a sign and a digit, or
has too many digits (`strays_scanner`).  In a text as a whole this says: it is a fault to read it
when it has a point before a sign and a digit, and, cut off behind that point, ends where a mantissa
is wanted (`ofText_fault_of_strayed`); and but for texts with too many digits in a row only then
(`of_ofText_fault`).
-/

namespace Stencil.Template

open Scanner Text

theorem strays_opening : Strays opening := by
  refine .of_regular (upToPoints_next fun h => ?_) (regular_next _ _)
  split at h <;> cases h <;> rfl

theorem strays_dataRest (started : DataState) : Strays (dataRest started) := by
  have hfold : Strays (fold 0 DataState.move started) := by
    refine .of_regular (upToPoints_fold (fun h => ?_) started) (regular_fold _ _ _)
    unfold DataState.move at h
    repeat' split at h
    all_goals rcases h with h | h <;> cases h <;> rfl
  have hlast : ∀ s : DataState, Strays (if s.stray then fail .strayBrace
      else pure (Node.data (String.ofList s.chars))) :=
    fun s => strays_ite (strays_fail (by simp)) (strays_pure _)
  exact strays_ite ((strays_pure started).bind hlast) (hfold.bind hlast)

theorem strays_endOfStatement (statement : Option Keyword) : Strays (endOfStatement statement) := by
  exact Expr.strays_skipBlank.bind fun _ => strays_anyChar.bind fun c =>
    strays_ite (strays_pure ()) (strays_fail (by simp))

/-- The readers one level further in have no other faults. -/
def StraysInside (inner : Inner) : Prop :=
  ∀ readers, inner = some readers → ∀ context, Strays (readers context)

variable {inner : Inner}

/-- What goes on with the readers one level further in. -/
theorem strays_enter {α : Type} (h : StraysInside inner)
    {f : (Context → Scanner (List Node × Closing)) → Scanner α}
    (hf : ∀ readers, (∀ context, Strays (readers context)) → Strays (f readers)) :
    Strays (enter inner >>= f) := by
  cases inner with
  | none => exact (strays_fail (by simp) : Strays (fail (.blocksTooDeep blockLimit)))
  | some readers => exact hf readers (h readers rfl)

theorem strays_ifBlock (h : StraysInside inner) : Strays (ifBlock inner) := by
  refine Expr.strays_scanner.bind fun condition => (strays_endOfStatement _).bind fun _ =>
    strays_enter h fun readers hreaders => (hreaders _).bind fun first => ?_
  obtain ⟨holds, closing⟩ := first
  cases closing with
  | endStatement => exact strays_pure _
  | endOfText => exact strays_fail (by simp)
  | elseStatement =>
      refine (hreaders _).bind fun second => ?_
      obtain ⟨fails, closing⟩ := second
      exact strays_ite (strays_pure _) (strays_fail (by simp))

theorem strays_forBlock (h : StraysInside inner) : Strays (forBlock inner) := by
  refine Expr.strays_skipBlank.bind fun _ => Expr.strays_word.bind fun name => ?_
  split
  · exact strays_fail (by simp)
  refine Expr.strays_skipBlank.bind fun _ => Expr.strays_word.bind fun keyword => ?_
  split
  · refine Expr.strays_scanner.bind fun items => (strays_endOfStatement _).bind fun _ =>
      strays_enter h fun readers hreaders => (hreaders _).bind fun body => ?_
    obtain ⟨body, closing⟩ := body
    exact strays_ite (strays_pure _) (strays_fail (by simp))
  · exact strays_fail (by simp)

/-- The stray signs of a statement are those of its expressions and of what is inside of it. -/
theorem strays_statement (h : StraysInside inner) (context : Context) :
    Strays (statement inner context) := by
  refine Expr.strays_skipBlank.bind fun _ =>
    (strays_peekWord (by decide) keywordWindow).bind fun word => ?_
  split
  · exact (strays_take _).bind fun _ => (strays_ifBlock h).map Sum.inl
  · exact (strays_take _).bind fun _ => (strays_forBlock h).map Sum.inl
  · exact (strays_take _).bind fun _ => (strays_endOfStatement _).bind fun _ =>
      strays_ite (strays_pure _) (strays_fail (by simp))
  · exact (strays_take _).bind fun _ => (strays_endOfStatement _).bind fun _ =>
      strays_ite (strays_fail (by simp)) (strays_pure _)
  · exact Expr.strays_scanner.bind fun e => (strays_endOfStatement _).bind fun _ => strays_pure _

/-- The stray signs of siblings are those of the statements among them. -/
theorem strays_siblings (h : StraysInside inner) (context : Context) :
    Strays (siblings inner context) := by
  refine strays_gather strays_opening fun started => ?_
  cases started with
  | none => exact strays_statement h context
  | some s => exact (strays_dataRest s).map Sum.inl

/-- The stray signs of a text are those of the numbers in it, however deep its blocks are. -/
theorem strays_nested (levels : Nat) (context : Context) : Strays (nested levels context) := by
  induction levels generalizing context with
  | zero => exact strays_siblings (fun _ h => by cases h) context
  | succ levels ih =>
      refine strays_siblings ?_ context
      rintro readers ⟨⟩
      exact ih

/-- **Reading a template is a fault** just at the stray signs behind points where it wants for a
mantissa, or at digits in too long a row. -/
theorem strays_scanner : Strays Template.scanner :=
  (strays_nested blockLimit .outermost).map _

/-- The text has a point before a sign and a digit at a place where a mantissa is wanted: cut off
behind the point, it ends for want of one. -/
def Strayed (name : String) (text : List Char) : Prop :=
  ∃ u v, text = u ++ '.' :: v ∧ StraySign v ∧ Template.ofText name (u ++ ['.']) =
    .error (.located .missingMantissa ((Position.start name).after (u ++ ['.'])))

variable {name : String} {text : List Char}

/-- Lexing a template with a stray sign is a fault. -/
theorem ofText_fault_of_strayed (h : Strayed name text) :
    ∃ f, Template.ofText name text = .error (.fault f) := by
  obtain ⟨u, v, rfl, hv, hw⟩ := h
  obtain ⟨u', hu, hgrown⟩ := (strays_scanner.straysAt (.start name) _).grown (read_eq_error.mp hw)
  obtain ⟨rfl, -⟩ := List.append_inj' hu rfl
  obtain ⟨f, hf⟩ := hgrown v hv
  exact ⟨f, read_eq_error.mpr hf⟩

/-- **Lexing a template is a fault** only by a stray sign, or by digits in too long a row. -/
theorem of_ofText_fault {f : Fault} (h : Template.ofText name text = .error (.fault f)) :
    Strayed name text ∨ (∃ n, f = .tooManyDigits n) ∧ LongRun text := by
  obtain ⟨t, hrun⟩ := read_eq_error.mp h
  refine ((strays_scanner.straysAt (.start name) text).cut hrun).imp_left ?_
  rintro ⟨u, v, htext, hv, hw⟩
  exact ⟨u, v, htext, hv, read_eq_error.mpr hw⟩

end Stencil.Template
