import Stencil.Proofs.Description.Assignments
import Stencil.Proofs.Environment.Stacks

/-!
# Description — Composition

To load a text behind another is to load one and then the other, if the first loads without error
and ends with a line feed (`loadText_composes`): none of its statements, strings and comments
reaches into the second.  A string does not, because a text that ends inside one does not load; a
comment does not, because of the line feed; and a statement does not, because one without its
semicolon assigns no value (`not_assigned_of_passes`).

Loading keeps what the stacks hold, and puts on them the values of the statements before the first
that fails, in order (`stack_pushAll`).
-/

namespace Stencil

namespace Description

open Text

/-! ### A statement without its semicolon -/

/-- In a text without carriage returns in which nothing ends the statement, no semicolon is a token,
unless there is a stray character.  The text may begin in a comment at the end of a line. -/
theorem semicolon_not_mem_kinds {region : Region} {text : List Char}
    (hregion : region = .plain ∨ region = .comment ∧ ∀ c ∈ text.head?, c = '\n')
    (hcr : '\r' ∉ text) (hpasses : region.passes text = true)
    (hstray : ∀ c, Token.stray c ∉ kinds text) : Token.semicolon ∉ kinds text := by
  induction text using lexeme_induction generalizing region with
  | nil => simp
  | cons w t r h ih =>
      rw [kinds_lexeme h] at hstray ⊢
      obtain ⟨hw, hr⟩ := Region.passes_append.mp hpasses
      have hquote : t ≠ some (.stray '"') := by
        rintro rfl
        exact hstray '"' (by simp)
      have hcr' : '\r' ∉ r := fun hmem => hcr (List.mem_append_right _ hmem)
      have hrest : ∀ c, Token.stray c ∉ kinds r := fun c hmem =>
        hstray c (List.mem_append_right _ hmem)
      rcases hregion with rfl | ⟨rfl, hhead⟩
      · -- What a lexeme leaves open is a comment at the end of its line.
        have hnext : Region.plain.after w = .plain ∨
            Region.plain.after w = .comment ∧ ∀ c ∈ r.head?, c = '\n' := by
          refine (h.after hquote).imp_right (And.imp_right fun hends c hc => ?_)
          rcases endsLine_iff.mp (hends c hc) with rfl | rfl
          · exact absurd (List.mem_of_mem_head? hc) hcr'
          · rfl
        have hr := ih hnext hcr' hr hrest
        cases t with
        | none => exact hr
        | some t =>
            refine fun hmem => (List.mem_cons.mp hmem).elim ?_ hr
            rintro rfl
            cases h with
            | @mark c t hm r =>
                have hc : c = ';' := by
                  rcases eq_of_ofMark? hm with rfl | rfl | rfl | rfl | rfl <;>
                    first | rfl | cases hm
                exact (Region.passes_cons.mp hw).1 ⟨rfl, hc⟩
      · -- The comment ends here.
        cases w with
        | nil => exact absurd rfl h.ne_nil
        | cons c w =>
            obtain rfl := hhead c rfl
            have hblank : w = [] ∧ t = none := by
              have hstart := h.start
              rw [Token.start_eq, if_pos (by decide)] at hstart
              simp only [Prod.mk.injEq] at hstart
              exact ⟨List.eq_nil_of_length_eq_zero hstart.2.symm, hstart.1.symm⟩
            obtain ⟨rfl, rfl⟩ := hblank
            exact ih (.inl rfl) hcr' hr hrest

theorem after_symbol {w : List Char} (hw : ∀ c ∈ w, isSymbol c = true) :
    Region.plain.after w = .plain :=
  after_numeric fun c hc => isNumeric_of_isSymbol (hw c hc)

/-- A statement without its semicolon assigns no value. -/
theorem not_assigned_of_passes {p : Position} {v : List Char} (hcr : '\r' ∉ v)
    (hpasses : Region.plain.passes v = true) (pair : String × Value) :
    assignment p v ≠ .ok pair := by
  intro h
  obtain ⟨hend, hstray⟩ := of_assignment h
  have hv := List.takeWhile_append_dropWhile (p := isSymbol) (l := v)
  rw [← hv] at hpasses hcr
  have hsymbol := after_symbol fun c hc => List.mem_takeWhile_imp (p := isSymbol) (l := v) hc
  obtain ⟨-, hbehind⟩ := Region.passes_append.mp hpasses
  rw [hsymbol] at hbehind
  exact semicolon_not_mem_kinds (.inl rfl) (fun hmem => hcr (List.mem_append_right _ hmem))
    hbehind hstray hend

/-! ### A text behind another -/

/-- The text is empty, or it ends with a line feed. -/
def Lined (text : List Char) : Prop :=
  ∀ c ∈ text.getLast?, c = '\n'

theorem Lined.right {v w : List Char} (h : Lined (v ++ w)) : Lined w := by
  intro c hc
  refine h c ?_
  rw [Option.mem_def] at hc ⊢
  rw [List.getLast?_append, hc]
  rfl

/-- Blanks and comments that end with a line feed are skipped before any text. -/
theorem divideIgnored_behind {inComment : Bool} {v : List Char}
    (h : (divideIgnored inComment v).2 = []) (hend : Lined v)
    (hopen : v = [] → inComment = false) (w : List Char) :
    divideIgnored inComment (v ++ w) =
      (v ++ (divideIgnored false w).1, (divideIgnored false w).2) := by
  fun_induction divideIgnored inComment v with
  | case1 inComment => rw [hopen rfl]; rfl
  | case2 c cs ih =>
    have hlast : cs = [] → (c != '\n') = false := by
      rintro rfl
      simp [hend c rfl]
    rw [List.cons_append, divideIgnored, if_pos rfl, ih h (Lined.right (v := [c]) hend) hlast]
    rfl
  | case3 inComment c cs hopen' hblank ih =>
    rw [List.cons_append, divideIgnored, if_neg hopen', if_pos hblank,
      ih h (Lined.right (v := [c]) hend) fun _ => rfl]
    rfl
  | case4 inComment cs hopen' hblank ih =>
    have hne : cs = [] → true = false := by
      rintro rfl
      cases hend '#' rfl
    rw [List.cons_append, divideIgnored, if_neg hopen', if_neg hblank, if_pos rfl,
      ih h (Lined.right (v := ['#']) hend) hne]
    rfl
  | case5 inComment c cs => cases h

/-- What comes behind blanks and comments does not show in them. -/
theorem divideIgnored_append_right {inComment : Bool} {v : List Char}
    (h : (divideIgnored inComment v).2 ≠ []) (w : List Char) :
    divideIgnored inComment (v ++ w) =
      ((divideIgnored inComment v).1, (divideIgnored inComment v).2 ++ w) := by
  fun_induction divideIgnored inComment v with
  | case1 inComment => exact absurd rfl h
  | case2 c cs ih => rw [List.cons_append, divideIgnored, if_pos rfl, ih h]
  | case3 inComment c cs hopen hblank ih =>
    rw [List.cons_append, divideIgnored, if_neg hopen, if_pos hblank, ih h]
  | case4 inComment cs hopen hblank ih =>
    rw [List.cons_append, divideIgnored, if_neg hopen, if_neg hblank, if_pos rfl, ih h]
  | case5 inComment c cs hopen hblank hc =>
    rw [List.cons_append, divideIgnored, if_neg hopen, if_neg hblank, if_neg hc]

/-- Blanks and comments in front of a text do not show in what its statements say. -/
theorem results_behind {v w : List Char}
    (h : divideIgnored false (v ++ w) =
      (v ++ (divideIgnored false w).1, (divideIgnored false w).2)) (p : Position) :
    results p (v ++ w) = results (p.after v) w := by
  cases hw : (divideIgnored false w).2 with
  | nil => rw [results_of_nil hw, results_of_nil (by rw [h, hw])]
  | cons c cs =>
      have hvw : (divideIgnored false (v ++ w)).2 = c :: cs := by rw [h, hw]
      rw [results_of_cons hw, results_of_cons hvw, h, Position.after_append]

theorem untilError_cons_eq_none {ε α : Type} {x : Except ε α} {xs : List (Except ε α)} :
    (untilError (x :: xs)).2 = none ↔ (∃ a, x = .ok a) ∧ (untilError xs).2 = none := by
  cases x <;> simp [untilError]

theorem untilError_append {ε α : Type} {xs : List (Except ε α)} (h : (untilError xs).2 = none)
    (ys : List (Except ε α)) :
    untilError (xs ++ ys) = ((untilError xs).1 ++ (untilError ys).1, (untilError ys).2) := by
  induction xs with
  | nil => rfl
  | cons x xs ih =>
      obtain ⟨⟨a, rfl⟩, hxs⟩ := untilError_cons_eq_none.mp h
      rw [List.cons_append, untilError, ih hxs]
      rfl

/-- **The statements of a text behind another**, which says no error and ends with a line feed. -/
theorem results_append {p : Position} {v : List Char} (hcr : '\r' ∉ v) (hend : Lined v)
    (hv : (untilError (results p v)).2 = none) (w : List Char) :
    results p (v ++ w) = results p v ++ results (p.after v) w := by
  induction p, v using statements_induction with
  | nil p v hnil =>
      rw [results_of_nil hnil, List.nil_append]
      exact results_behind (divideIgnored_behind hnil hend (fun _ => rfl) w) p
  | cons p v c cs hcons ih =>
      have htext := divideIgnored_append false v
      rw [hcons] at htext
      rw [results_of_cons hcons] at hv ⊢
      obtain ⟨⟨pair, hpair⟩, hothers⟩ := untilError_cons_eq_none.mp hv
      rcases Region.divide_cases .plain (c :: cs) with
        ⟨hpasses, hcut⟩ | ⟨u, r, hu, hpasses, hafter, hcut⟩
      · -- The first statement has its semicolon.
        rw [hcut, Statement.result] at hpair
        split at hpair
        · cases hpair
        · refine absurd hpair (not_assigned_of_passes (fun hmem => hcr ?_) hpasses pair)
          rw [← htext]
          exact List.mem_append_right _ hmem
      · have hvw : divideIgnored false (v ++ w) = ((divideIgnored false v).1, c :: (cs ++ w)) := by
          rw [divideIgnored_append_right (by rw [hcons]; exact List.cons_ne_nil c cs), hcons]
          rfl
        have hcut' : Region.plain.divide (c :: (cs ++ w)) = (u ++ [';'], r ++ w) := by
          rw [← List.cons_append, hu, List.append_assoc, Region.divide_append_of_passes hpasses,
            hafter]
          rfl
        have hr : v = ((divideIgnored false v).1 ++ (u ++ [';'])) ++ r := by
          conv_lhs => rw [← htext, hu]
          simp
        rw [results_of_cons (congrArg Prod.snd hvw), hvw, hcut', hcut]
        rw [hcut] at ih hothers
        have hcr' : '\r' ∉ r := fun hmem => hcr (hr ▸ List.mem_append_right _ hmem)
        rw [ih hcr' (Lined.right (hr ▸ hend)) hothers, List.cons_append,
          ← Position.after_append, ← Position.after_append, ← hr]

/-! ### What a text says does not depend on its place -/

theorem untilError_mapError {ε ε' α : Type} (f : ε → ε') (xs : List (Except ε α)) :
    untilError (xs.map (Except.mapError f)) = ((untilError xs).1, (untilError xs).2.map f) := by
  induction xs with
  | nil => rfl
  | cons x xs ih =>
      cases x with
      | error e => rfl
      | ok a =>
          rw [List.map_cons]
          change untilError (.ok a :: xs.map (Except.mapError f)) = _
          rw [untilError, ih]
          rfl

/-- Two rows of results are the same up to places. -/
def SameUpToPlaces (xs ys : List (Except Failure (String × Value))) : Prop :=
  xs.map (Except.mapError Failure.unplaced) = ys.map (Except.mapError Failure.unplaced)

theorem SameUpToPlaces.untilError {xs ys : List (Except Failure (String × Value))}
    (h : SameUpToPlaces xs ys) :
    (untilError xs).1 = (untilError ys).1 ∧
      (untilError xs).2.map Failure.unplaced = (untilError ys).2.map Failure.unplaced := by
  have huntil := congrArg Description.untilError h
  rw [untilError_mapError, untilError_mapError] at huntil
  exact Prod.mk.inj huntil

theorem sameUpToPlaces_results (p q : Position) (text : List Char) :
    SameUpToPlaces (results p text) (results q text) := by
  induction p, text using statements_induction generalizing q with
  | nil p text hnil => rw [results_of_nil hnil, results_of_nil hnil]; rfl
  | cons p text c cs hcons ih =>
      rw [results_of_cons hcons, results_of_cons hcons]
      exact congrArg₂ List.cons (unplaced_result _ _ rfl rfl fun _ => rfl) (ih _)

end Description

namespace Environment

open Description

theorem pushAll_append (env : Environment) (v w : List (String × Value)) :
    env.pushAll (v ++ w) = (env.pushAll v).pushAll w :=
  List.foldl_append

/-- The values of a symbol among some pairs. -/
def valuesOf (name : String) (pairs : List (String × Value)) : List Value :=
  (pairs.filter fun pair => pair.1 == name).map Prod.snd

/-- Pushing puts the values of each symbol on its stack, in order, and changes nothing below. -/
theorem stack_pushAll (env : Environment) (pairs : List (String × Value)) (name : String) :
    ((env.pushAll pairs).stack name).reverse = (env.stack name).reverse ++ valuesOf name pairs := by
  induction pairs generalizing env with
  | nil => simp [pushAll, valuesOf]
  | cons pair pairs ih =>
      change ((pushAll (env.push pair.1 pair.2) pairs).stack name).reverse = _
      rw [ih, stack_push]
      by_cases h : pair.1 = name
      · simp [valuesOf, h]
      · simp [valuesOf, h]

/-- **Loading is compositional**, and keeps what comes before an error.

A text that loads without error and ends with a line feed can be loaded before any other: the
environment is the same, and so is the cause of an error.  And whether loading a text succeeds or
not, the values that come to be on the stack of a symbol, behind those that were there, are the
values that the statements before the first error assign to it, in order. -/
theorem loadText_composes (env : Environment) :
    (∀ v w : List Char, '\r' ∉ v → Lined v → (env.loadText v).2 = none →
      (env.loadText (v ++ w)).1 = ((env.loadText v).1.loadText w).1 ∧
        (env.loadText (v ++ w)).2.map Failure.unplaced =
          ((env.loadText v).1.loadText w).2.map Failure.unplaced) ∧
    ∀ text : List Char,
      (env.loadText text).2 = (untilError (results (.start streamName) text)).2 ∧
      ∀ name : String, ((env.loadText text).1.stack name).reverse =
        (env.stack name).reverse ++
          valuesOf name (untilError (results (.start streamName) text)).1 := by
  constructor
  · intro v w hcr hend hv
    rw [loadText_eq] at hv
    have hsame := sameUpToPlaces_results ((Position.start streamName).after v) (.start streamName) w
    rw [loadText_eq env (v ++ w), loadText_eq env v, loadText_eq _ w, results_append hcr hend hv w,
      untilError_append hv, pushAll_append, hsame.untilError.1, hsame.untilError.2]
    exact ⟨rfl, rfl⟩
  · intro text
    rw [loadText_eq]
    exact ⟨rfl, fun name => stack_pushAll env _ name⟩

/-- The first text has a semicolon in a string and a quote in a comment; the second fails at its
second statement, behind a value that is put on the first. -/
theorem loadText_composes_of_failure :
    let v := "a=\";#\";#\";\n".toList
    let w := "a=\"y\";b=;".toList
    let env := Environment.empty.push "a" (.string "z")
    '\r' ∉ v ∧ Lined v ∧ (env.loadText v).2 = none ∧
      ((env.loadText v).1.loadText w).2.map Failure.unplaced = some (.of .missingValue) ∧
      (env.loadText (v ++ w)).1 = ((env.loadText v).1.loadText w).1 ∧
      (env.loadText (v ++ w)).2.map Failure.unplaced =
        ((env.loadText v).1.loadText w).2.map Failure.unplaced := by
  intro v w env
  have hcr : '\r' ∉ v := by decide
  have hend : Lined v := by rintro c ⟨⟩; rfl
  have hv : (env.loadText v).2 = none := by with_unfolding_all rfl
  exact ⟨hcr, hend, hv, by with_unfolding_all rfl, (loadText_composes env).1 v w hcr hend hv⟩

end Environment

end Stencil
