import Stencil.Proofs.Template.Statements

/-!
# Template — Rows

What the reader of siblings has read, seen from its result.  A statement ends with its closing brace
and is read before every rest (`shuts_statement`); data run up to the next statement or the end of
the text.  So whatever the reader takes up is a row of data and statements (`Row`), up to the
statement that ends the siblings or the end of the text (`exists_row`), and every such row is read
as the same siblings wherever it stands (`Row.reads`).
-/

namespace Stencil.Template

open Scanner Text

variable {α β : Type}

/-! ### Readings up to a closing brace -/

/-- The reading of `a` from the beginning of `cs`, which ends in the stream `t`, ends with a closing
brace, and is one of `x` before every rest. -/
def Shut (x : Scanner α) (p : Position) (cs : List Char) (a : α) (t : Stencil.Stream) : Prop :=
  ∃ v r, cs = (v ++ ['}']) ++ r ∧ t = .ofTextAt (p.after (v ++ ['}'])) r ∧
    ∀ r', x.Reads (v ++ ['}']) a r'

/-- Whatever `x` reads, it reads up to a closing brace. -/
def Shuts (x : Scanner α) : Prop :=
  ∀ p cs a t, x.run (.ofTextAt p cs) = .ok a t → Shut x p cs a t

/-- What `x` reads does not depend on what comes behind the next closing brace. -/
abbrev Local (x : Scanner α) : Prop :=
  Follows Expr.Alike .flat 0 0 x x

theorem local_skipBlank : Local skipBlank :=
  Expr.follows_skipBlank.mono id (Nat.le_refl 0)

theorem local_word : Local (word isSymbol none) :=
  Expr.follows_word.mono id (Nat.le_refl 0)

theorem local_expr : Local Expr.scanner :=
  (Expr.follows_nested _ _).mono id (Nat.le_refl _)

theorem shuts_fail (cause : Cause) : Shuts (fail cause : Scanner α) := by
  intro p cs a t h
  cases h

/-- Something is read in view of what comes next, and then something up to a closing brace. -/
theorem Shuts.behind {x : Scanner α} {f : α → Scanner β} (hx : Local x) (hf : ∀ a, Shuts (f a)) :
    Shuts (x >>= f) := by
  intro p cs b t h
  obtain ⟨a, s, ha, hb⟩ := run_bind_ok h
  obtain ⟨w, r₁, rfl, rfl, hw⟩ := (hx _ _ _ _ ha).reads (Nat.le_refl 0)
  obtain ⟨v, r, rfl, rfl, hv⟩ := hf a _ _ _ _ hb
  refine ⟨w ++ v, r, by simp only [List.append_assoc], ?_, fun r' => ?_⟩
  · rw [← Position.after_append, List.append_assoc]
  · rw [List.append_assoc]
    refine (hw _ ?_).bind (hv r')
    -- What lies behind the closing brace does not matter to the first reader.
    rw [List.append_assoc, List.append_assoc]
    exact Expr.Alike.prefixClosed
      (.close (Expr.closes_cons (.inr (.inr rfl)) r) (Expr.closes_cons (.inr (.inr rfl)) r')) v

/-- Something is read up to a closing brace, and then something up to another. -/
theorem Shuts.bind {x : Scanner α} {f : α → Scanner β} (hx : Shuts x) (hf : ∀ a, Shuts (f a)) :
    Shuts (x >>= f) := by
  intro p cs b t h
  obtain ⟨a, s, ha, hb⟩ := run_bind_ok h
  obtain ⟨w, r₁, rfl, rfl, hw⟩ := hx _ _ _ _ ha
  obtain ⟨v, r, rfl, rfl, hv⟩ := hf a _ _ _ _ hb
  refine ⟨w ++ ['}'] ++ v, r, by simp only [List.append_assoc], ?_, fun r' => ?_⟩
  · rw [← Position.after_append, List.append_assoc (w ++ ['}'])]
  · rw [List.append_assoc (w ++ ['}'])]
    exact (hw _).bind (hv r')

/-- Something is read up to a closing brace, and nothing behind it. -/
theorem Shuts.still {x : Scanner α} {f : α → Scanner β} (hx : Shuts x)
    (hf : ∀ a, (∃ b, f a = pure b) ∨ ∃ cause, f a = fail cause) : Shuts (x >>= f) := by
  intro p cs b t h
  obtain ⟨a, s, ha, hb⟩ := run_bind_ok h
  rcases hf a with ⟨b', hfa⟩ | ⟨cause, hfa⟩
  · rw [hfa] at hb
    cases hb
    obtain ⟨v, r, hcs, ht, hv⟩ := hx _ _ _ _ ha
    exact ⟨v, r, hcs, ht, fun r' => (hv r').bind_nil (by rw [hfa]; exact reads_pure _ _)⟩
  · rw [hfa] at hb
    cases hb

theorem Shuts.map {x : Scanner α} (hx : Shuts x) (f : α → β) : Shuts (do return f (← x)) :=
  hx.still fun a => .inl ⟨f a, rfl⟩

theorem shuts_ite {c : Prop} [Decidable c] {x y : Scanner α} (hx : Shuts x) (hy : Shuts y) :
    Shuts (if c then x else y) := by
  split
  · exact hx
  · exact hy

theorem shuts_endOfStatement (keyword : Option Keyword) : Shuts (endOfStatement keyword) := by
  refine .behind local_skipBlank fun _ => ?_
  intro p cs u t h
  obtain ⟨o, s, ho, h⟩ := run_bind_ok h
  split at h
  · next hbrace =>
    subst hbrace
    cases cs with
    | nil => cases ho
    | cons c cs =>
        have hread := reads_anyChar c cs p
        rw [List.singleton_append, ho] at hread
        cases hread
        cases h
        exact ⟨[], cs, rfl, rfl, fun r' =>
          (reads_anyChar '}' r').bind_nil (by rw [if_pos rfl]; exact reads_pure () r')⟩
  · cases h

theorem shuts_slotReader (keyword : Option Keyword) : Shuts (slotReader keyword) :=
  .behind local_expr fun e => (shuts_endOfStatement keyword).map fun _ => e

/-! ### Statements -/

section Statements

variable {inner : Inner} {context : Context}

/-- The readers one level further in read their siblings up to a closing brace, unless the text ends
before. -/
def ShutsInside (inner : Inner) : Prop :=
  ∀ readers, inner = some readers → ∀ context p cs ns closing t,
    (readers context).run (.ofTextAt p cs) = .ok (ns, closing) t → closing ≠ .endOfText →
      Shut (readers context) p cs (ns, closing) t

theorem shuts_branches (h : ShutsInside inner) (condition : Expr) :
    Shuts (branches inner condition) := by
  cases inner with
  | none => exact shuts_fail _
  | some readers =>
      intro p cs n t hrun
      obtain ⟨_, _, henter, hrun⟩ := run_bind_ok hrun
      cases henter
      obtain ⟨⟨holds, closing⟩, s, hholds, hrun⟩ := run_bind_ok hrun
      -- The first branch ends with the block, or with an `else` that starts the second one.
      cases closing with
      | endOfText => cases hrun
      | endStatement =>
          cases hrun
          obtain ⟨v, r, hcs, ht, hv⟩ := h readers rfl _ _ _ _ _ _ hholds (by decide)
          exact ⟨v, r, hcs, ht, fun r' => reads_branches (hv r')⟩
      | elseStatement =>
          obtain ⟨⟨fails, closing⟩, u, hfails, hrun⟩ := run_bind_ok hrun
          dsimp only at hrun
          split at hrun
          · next hclosing =>
            subst hclosing
            cases hrun
            obtain ⟨v, r₁, rfl, rfl, hv⟩ := h readers rfl _ _ _ _ _ _ hholds (by decide)
            obtain ⟨w, r, rfl, rfl, hw⟩ := h readers rfl _ _ _ _ _ _ hfails (by decide)
            refine ⟨v ++ ['}'] ++ w, r, by simp only [List.append_assoc], ?_, fun r' => ?_⟩
            · rw [← Position.after_append, List.append_assoc (v ++ ['}'])]
            · rw [List.append_assoc (v ++ ['}'])]
              exact reads_branches_else (hv _) (hw r')
          · cases hrun

theorem shuts_ifBlock (h : ShutsInside inner) : Shuts (ifBlock inner) := by
  rw [ifBlock_eq]
  exact (shuts_slotReader _).bind fun condition => shuts_branches h condition

theorem shuts_loopHead : Shuts loopHead := by
  refine .behind local_skipBlank fun _ => .behind local_word fun name => shuts_ite (shuts_fail _) ?_
  exact .behind local_skipBlank fun _ => .behind local_word fun _ =>
    shuts_ite ((shuts_slotReader _).map _) (shuts_fail _)

theorem shuts_loopRest (h : ShutsInside inner) (name : List Char) (items : Expr) :
    Shuts (loopRest inner name items) := by
  cases inner with
  | none => exact shuts_fail _
  | some readers =>
      intro p cs n t hrun
      obtain ⟨_, _, henter, hrun⟩ := run_bind_ok hrun
      cases henter
      obtain ⟨⟨body, closing⟩, s, hbody, hrun⟩ := run_bind_ok hrun
      dsimp only at hrun
      split at hrun
      · next hclosing =>
        subst hclosing
        cases hrun
        obtain ⟨v, r, hcs, ht, hv⟩ := h readers rfl _ _ _ _ _ _ hbody (by decide)
        refine ⟨v, r, hcs, ht, fun r' => (reads_enter readers _).nil_bind ((hv r').bind_nil ?_)⟩
        dsimp only
        rw [if_pos rfl]
        exact reads_pure _ _
      · cases hrun

theorem shuts_forBlock (h : ShutsInside inner) : Shuts (forBlock inner) := by
  rw [forBlock_eq]
  exact shuts_loopHead.bind fun head => shuts_loopRest h head.1 head.2

/-- A word that is a keyword is the word of that keyword. -/
theorem eq_of_keyword? {w : List Char} {k : Keyword} (h : keyword? w = some k) :
    w = k.text.toList :=
  (eq_of_beq (List.find?_some (p := fun k : Keyword => k.text.toList == w) h)).symm

/-- A keyword, and what is read behind it up to a closing brace. -/
theorem shut_take {k : Keyword} {x : Scanner α} (hx : Shuts x) {p : Position} {cs : List Char}
    {a : α} {t : Stencil.Stream}
    (h : (take k.text.length >>= fun _ => x).run (.ofTextAt p (k.text.toList ++ cs)) = .ok a t) :
    Shut (take k.text.length >>= fun _ => x) p (k.text.toList ++ cs) a t := by
  have htake : ∀ r, (take k.text.length).Reads k.text.toList k.text.toList r := by
    rw [← String.length_toList]
    exact reads_take k.text.toList
  rw [run_bind_of_ok (htake cs p)] at h
  obtain ⟨v, r, rfl, rfl, hv⟩ := hx _ _ _ _ h
  refine ⟨k.text.toList ++ v, r, by simp only [List.append_assoc], ?_, fun r' => ?_⟩
  · rw [← Position.after_append, List.append_assoc]
  · rw [List.append_assoc]
    exact (htake _).bind (hv r')

theorem shut_behindWord (h : ShutsInside inner) {p : Position} {cs : List Char}
    {x : Node ⊕ Closing} {t : Stencil.Stream}
    (hrun : (behindWord inner context (keyword? (cs.takeWhile isSymbol))).run (.ofTextAt p cs) =
      .ok x t) :
    Shut (behindWord inner context (keyword? (cs.takeWhile isSymbol))) p cs x t := by
  cases hk : keyword? (cs.takeWhile isSymbol) with
  | none =>
      rw [hk, insert_eq] at hrun
      rw [insert_eq]
      exact ((shuts_slotReader none).map _) _ _ _ _ hrun
  | some k =>
      obtain ⟨r, hr⟩ := List.takeWhile_prefix (p := isSymbol) (l := cs)
      rw [hk] at hrun
      rw [eq_of_keyword? hk] at hr
      subst hr
      cases k with
      | ifWord => exact shut_take ((shuts_ifBlock h).map _) hrun
      | forWord => exact shut_take ((shuts_forBlock h).map _) hrun
      | elseWord =>
          refine shut_take (k := .elseWord) ((shuts_endOfStatement _).still fun _ => ?_) hrun
          split
          · exact .inl ⟨_, rfl⟩
          · exact .inr ⟨_, rfl⟩
      | endWord =>
          refine shut_take (k := .endWord) ((shuts_endOfStatement _).still fun _ => ?_) hrun
          split
          · exact .inr ⟨_, rfl⟩
          · exact .inl ⟨_, rfl⟩

/-- **A statement is read up to its closing brace**, before every rest. -/
theorem shuts_statement (h : ShutsInside inner) (context : Context) :
    Shuts (statement inner context) := by
  intro p cs x t hrun
  rw [statement_eq] at hrun
  obtain ⟨n, s, hblank, hrun⟩ := run_bind_ok hrun
  obtain ⟨b, rest, rfl, rfl, hb, hrest⟩ := Expr.run_skipBlank_ok hblank
  have hpeek : (peekWord isSymbol (some keywordWindow)).run (.ofTextAt (p.after b) rest) =
      .ok ((rest.takeWhile isSymbol).take keywordWindow) (.ofTextAt (p.after b) rest) :=
    reads_peekWord isSymbol keywordWindow rest (p.after b)
  rw [run_bind_of_ok hpeek, keyword?_take] at hrun
  obtain ⟨v, r, rfl, rfl, hv⟩ := shut_behindWord h hrun
  refine ⟨b ++ v, r, by simp only [List.append_assoc], ?_, fun r' => ?_⟩
  · rw [← Position.after_append, List.append_assoc]
  · have hword : ∀ r, ((v ++ ['}']) ++ r).takeWhile isSymbol = v.takeWhile isSymbol := by
      intro r
      rw [List.append_assoc]
      exact takeWhile_append_of_stop v fun c hc => by cases hc; rfl
    rw [List.append_assoc]
    refine reads_statement hb ?_ ?_
    · cases v with
      | nil => exact hrest
      | cons c v => exact hrest
    · rw [hword r']
      rw [hword r] at hv
      exact hv r'

end Statements

/-! ### Data -/

/-- Data after some characters, none of which ends them. -/
def DataState.after? (s : DataState) : List Char → Option DataState
  | [] => some s
  | c :: cs =>
    match s.move c [] with
    | .step _ s' => s'.after? cs
    | .stop | .last .. => none

theorem DataState.after?_append {s s' : DataState} {v : List Char} (h : s.after? v = some s')
    (w : List Char) : s.after? (v ++ w) = s'.after? w := by
  fun_induction DataState.after? s v with
  | case1 => cases h; rfl
  | case2 s c cs extra s₁ hm ih => rw [List.cons_append, after?, hm]; exact ih h
  | case3 | case4 => cases h

/-- The machine for data takes one character at a time. -/
theorem DataState.move_step {s s' : DataState} {c : Char} {ahead : List Char} {extra : Nat}
    (h : s.move c ahead = .step extra s') : extra = 0 ∧ (s.stray = false → s'.stray = false) := by
  unfold DataState.move at h
  repeat' split at h
  all_goals cases h
  all_goals exact ⟨rfl, id⟩

/-- The machine for data stops only before an opening brace without a backslash. -/
theorem DataState.move_stop {s : DataState} {c : Char} {ahead : List Char}
    (h : s.move c ahead = .stop) : c = '{' ∧ s.escaped = false := by
  unfold DataState.move at h
  split at h
  · cases h
  · next he =>
    split at h
    · next hc => exact ⟨hc, by simpa using he⟩
    repeat' split at h
    all_goals cases h

theorem DataState.stray_of_move {s s' : DataState} {c : Char} {ahead : List Char} {extra : Nat}
    (h : s.move c ahead = .last extra s') : s'.stray = true := by
  unfold DataState.move at h
  repeat' split at h
  all_goals cases h
  all_goals rfl

theorem DataState.stray_after? {s s' : DataState} {w : List Char} (h : s.after? w = some s')
    (hs : s.stray = false) : s'.stray = false := by
  fun_induction DataState.after? s w with
  | case1 => cases h; exact hs
  | case2 s c cs extra s₁ hm ih => exact ih h ((DataState.move_step hm).2 hs)
  | case3 | case4 => cases h

/-- Data end here: at the end of the text, or at an opening brace without a backslash. -/
def DataState.EndsAt (s : DataState) (r : List Char) : Prop :=
  r = [] ∨ s.escaped = false ∧ ∃ r', r = '{' :: r'

/-- Data are taken up to where they end, unless something strays in them. -/
theorem run_fold_data {s s' : DataState} (hs : s'.stray = false) {p : Position} {cs : List Char}
    {t : Stencil.Stream} (h : (fold 0 DataState.move s).run (.ofTextAt p cs) = .ok s' t) :
    ∃ w r, cs = w ++ r ∧ t = .ofTextAt (p.after w) r ∧ s.after? w = some s' ∧ s'.EndsAt r := by
  change foldFrom 0 DataState.move s _ = _ at h
  induction cs generalizing s p with
  | nil =>
      rw [foldFrom_nil] at h
      cases h
      exact ⟨[], [], rfl, rfl, rfl, .inl rfl⟩
  | cons c cs ih =>
      cases hm : s.move c [] with
      | stop =>
          rw [foldFrom_stop hm] at h
          cases h
          obtain ⟨rfl, he⟩ := DataState.move_stop hm
          exact ⟨[], '{' :: cs, rfl, rfl, rfl, .inr ⟨he, cs, rfl⟩⟩
      | last extra s₁ =>
          rw [foldFrom_last hm] at h
          cases h
          rw [DataState.stray_of_move hm] at hs
          cases hs
      | step extra s₁ =>
          obtain ⟨rfl, -⟩ := DataState.move_step hm
          rw [foldFrom_step hm] at h
          obtain ⟨w, r, hcs, rfl, hw, hr⟩ := ih h
          obtain rfl : cs = w ++ r := hcs
          exact ⟨c :: w, r, rfl, rfl, by rw [DataState.after?, hm]; exact hw, hr⟩

theorem reads_fold_data {s s' : DataState} {w r : List Char} (h : s.after? w = some s')
    (hr : s'.EndsAt r) : (fold 0 DataState.move s).Reads w s' r := by
  fun_induction DataState.after? s w with
  | case1 s =>
    cases h
    rcases hr with rfl | ⟨he, r', rfl⟩
    · exact reads_fold_nil
    · exact reads_fold_stop (by simp [DataState.move, he])
  | case2 s c cs extra s₁ hm ih =>
    obtain ⟨rfl, -⟩ := DataState.move_step hm
    exact reads_fold_step_zero hm (ih h)
  | case3 | case4 => cases h

/-- What the first character of data starts. -/
theorem started_eq {c : Char} {s : DataState} (h : DataState.empty.move c [] = .step 0 s) :
    started c = some s := by
  rw [started, DataState.first, h]

/-- The rest of data, of which the first character is read. -/
theorem run_dataRest {c : Char} {s : DataState} (hc : started c = some s) {p : Position}
    {cs : List Char} {n : Node} {t : Stencil.Stream}
    (h : (dataRest s).run (.ofTextAt p cs) = .ok n t) :
    ∃ w r s', cs = w ++ r ∧ t = .ofTextAt (p.after w) r ∧
      DataState.empty.after? (c :: w) = some s' ∧ s'.EndsAt r ∧
      n = .data (String.ofList s'.chars) := by
  unfold dataRest at h
  unfold started DataState.first at hc
  split at hc
  · cases hc
  · next hm =>
    -- A closing brace at the front strays.
    cases hc
    have hstray := DataState.stray_of_move hm
    rw [if_pos hstray] at h
    obtain ⟨s', u, hs', h⟩ := run_bind_ok h
    cases hs'
    dsimp only at h
    rw [if_pos hstray] at h
    cases h
  · next hm =>
    cases hc
    obtain ⟨rfl, hkeep⟩ := DataState.move_step hm
    rw [if_neg (by simp [hkeep rfl])] at h
    obtain ⟨s', u, hfold, h⟩ := run_bind_ok h
    dsimp only at h
    split at h
    · cases h
    · next hstray =>
      cases h
      obtain ⟨w, r, rfl, rfl, hw, hr⟩ := run_fold_data (by simpa using hstray) hfold
      exact ⟨w, r, s', rfl, rfl, by rw [DataState.after?, hm]; exact hw, hr, rfl⟩

/-! ### Rows -/

section Rows

variable {inner : Inner} {context : Context} {w : List Char} {ns : List Node} {closing : Closing}

/-- The text is a row of data and statements, which stand for some siblings, up to what ends
them. -/
inductive Row (inner : Inner) (context : Context) : List Char → List Node → Closing → Prop where
  | ended : Row inner context [] [] .endOfText
  | closed {v : List Char} {closing : Closing}
      (h : ∀ r, (statement inner context).Reads (v ++ ['}']) (.inr closing) r) :
      Row inner context ('{' :: (v ++ ['}'])) [] closing
  | statement {v z : List Char} {n : Node} {ns : List Node} {closing : Closing}
      (h : ∀ r, (statement inner context).Reads (v ++ ['}']) (.inl n) r)
      (rest : Row inner context z ns closing) :
      Row inner context ('{' :: (v ++ ['}'] ++ z)) (n :: ns) closing
  | data {c : Char} {v z : List Char} {s : DataState} {ns : List Node} {closing : Closing}
      (h : DataState.empty.after? (c :: v) = some s) (ends : s.EndsAt z)
      (rest : Row inner context z ns closing) :
      Row inner context (c :: v ++ z) (.data (String.ofList s.chars) :: ns) closing

/-- Which statements end the siblings they stand among. -/
theorem closing_of_statement {p : Position} {cs : List Char} {t : Stencil.Stream}
    (h : (Template.statement inner context).run (.ofTextAt p cs) = .ok (.inr closing) t) :
    context = .firstBranch ∧ closing = .elseStatement ∨
      context ≠ .outermost ∧ closing = .endStatement := by
  rw [statement_eq] at h
  obtain ⟨_, _, _, h⟩ := run_bind_ok h
  obtain ⟨word, _, _, h⟩ := run_bind_ok h
  cases hk : keyword? word with
  | none =>
      rw [hk, insert_eq] at h
      obtain ⟨_, _, _, h⟩ := run_bind_ok h
      cases h
  | some k =>
      rw [hk] at h
      cases k with
      | ifWord | forWord =>
          obtain ⟨_, _, _, h⟩ := run_bind_ok h
          obtain ⟨_, _, _, h⟩ := run_bind_ok h
          cases h
      | elseWord =>
          obtain ⟨_, _, _, h⟩ := run_bind_ok h
          obtain ⟨_, _, _, h⟩ := run_bind_ok h
          split at h
          · next hc => cases h; exact .inl ⟨hc, rfl⟩
          · cases h
      | endWord =>
          obtain ⟨_, _, _, h⟩ := run_bind_ok h
          obtain ⟨_, _, _, h⟩ := run_bind_ok h
          split at h
          · cases h
          · next hc => cases h; exact .inr ⟨hc, rfl⟩

theorem ne_endOfText_of_statement {p : Position} {cs : List Char} {t : Stencil.Stream}
    (h : (Template.statement inner context).run (.ofTextAt p cs) = .ok (.inr closing) t) :
    closing ≠ .endOfText := by
  rcases closing_of_statement h with ⟨-, rfl⟩ | ⟨-, rfl⟩ <;> decide

theorem run_opening {p : Position} {cs : List Char} {o : Option (Option DataState)}
    {t : Stencil.Stream} (h : opening.run (.ofTextAt p cs) = .ok o t) :
    (cs = [] ∧ o = none ∧ t = .ofTextAt p []) ∨
      ∃ c r, cs = c :: r ∧ o = some (started c) ∧ t = .ofTextAt (p.after [c]) r := by
  cases cs with
  | nil => cases h; exact .inl ⟨rfl, rfl, rfl⟩
  | cons c cs =>
      have hread := reads_opening c cs p
      rw [List.singleton_append, h] at hread
      cases hread
      exact .inr ⟨c, cs, rfl, rfl, rfl⟩

/-- Only an opening brace starts no data. -/
theorem eq_of_started_eq_none {c : Char} (h : started c = none) : c = '{' := by
  unfold started DataState.first at h
  split at h
  · next hm => exact (DataState.move_stop hm).1
  · cases h
  · cases h

/-- What is read as siblings is a row, and at the end of the text nothing is left. -/
theorem exists_row (hs : Shuts (Template.statement inner context)) {p : Position} {cs : List Char}
    {t : Stencil.Stream}
    (h : (siblings inner context).run (.ofTextAt p cs) = .ok (ns, closing) t) :
    ∃ w r, cs = w ++ r ∧ t = .ofTextAt (p.after w) r ∧ Row inner context w ns closing ∧
      (closing = .endOfText → r = []) := by
  change gatherFrom opening @consumes_opening _ _ _ = _ at h
  generalize hst : Stream.ofTextAt p cs = s at h
  -- By the recursion of the reader: each turn adds a statement or a run of data to the row.
  fun_induction gatherFrom opening @consumes_opening _ Closing.endOfText s
    generalizing p cs ns with subst hst
  | case1 | case3 | case5 => cases h
  | case2 _ _ hopen =>
    cases h
    obtain ⟨rfl, -, rfl⟩ | ⟨c, r, -, ho, -⟩ := run_opening hopen
    · exact ⟨[], [], rfl, rfl, .ended, fun _ => rfl⟩
    · cases ho
  | case4 _ b u hopen x _ hbody =>
    cases h
    obtain ⟨-, ho, -⟩ | ⟨c, r, rfl, ho, rfl⟩ := run_opening hopen
    · cases ho
    cases ho
    cases hc : started c with
    | some s =>
        rw [hc] at hbody
        obtain ⟨_, _, _, hbody⟩ := run_bind_ok hbody
        cases hbody
    | none =>
        rw [hc] at hbody
        obtain rfl := eq_of_started_eq_none hc
        obtain ⟨v, r', rfl, rfl, hv⟩ := hs _ _ _ _ hbody
        refine ⟨'{' :: (v ++ ['}']), r', rfl, ?_, .closed hv, fun h => ?_⟩
        · rw [← Position.after_append]; rfl
        · exact absurd h (ne_endOfText_of_statement hbody)
  | case6 _ b u hopen n v hbody as x t hrest ih =>
    cases h
    obtain ⟨-, ho, -⟩ | ⟨c, r, rfl, ho, rfl⟩ := run_opening hopen
    · cases ho
    cases ho
    cases hc : started c with
    | none =>
        rw [hc] at hbody
        obtain rfl := eq_of_started_eq_none hc
        obtain ⟨w, r₁, rfl, rfl, hw⟩ := hs _ _ _ _ hbody
        obtain ⟨z, r', rfl, rfl, hrow, hend⟩ := ih rfl hrest
        refine ⟨'{' :: (w ++ ['}'] ++ z), r', by simp, ?_, .statement hw hrow, hend⟩
        rw [← Position.after_append, ← Position.after_append]
        rfl
    | some s =>
        rw [hc] at hbody
        obtain ⟨n', u', hdata, hbody⟩ := run_bind_ok hbody
        cases hbody
        obtain ⟨w, r₁, s', rfl, rfl, hw, hends, rfl⟩ := run_dataRest hc hdata
        obtain ⟨z, r', rfl, rfl, hrow, hend⟩ := ih rfl hrest
        refine ⟨c :: w ++ z, r', by simp, ?_, .data hw ?_ hrow, hend⟩
        · rw [← Position.after_append, ← Position.after_append]
          rfl
        · cases z with
          | nil => exact .inl rfl
          | cons d z =>
              rcases hends with hnil | ⟨he, z', hz⟩
              · cases hnil
              · cases hz
                exact .inr ⟨he, z, rfl⟩

theorem Row.closing_of_nil (h : Row inner context [] ns closing) : closing = .endOfText := by
  cases h
  rfl

/-- **A row is read as its siblings**, before every rest if a statement ends it. -/
theorem Row.reads (h : Row inner context w ns closing) {r : List Char}
    (hr : closing = .endOfText → r = []) :
    (siblings inner context).Reads w (ns, closing) r := by
  -- By induction on the row, each part of which is read in front of the others.
  induction h with
  | ended =>
      rw [hr rfl]
      exact reads_gather_nil fun p => rfl
  | closed h => exact reads_gather_last (reads_opening '{' _) (h r)
  | statement h _ ih => exact reads_siblings_statement (h _) (ih hr)
  | @data c v z s ns closing h ends rest ih =>
      have hends : s.EndsAt (z ++ r) := by
        rcases ends with rfl | ⟨he, z', rfl⟩
        · exact .inl (hr rest.closing_of_nil)
        · exact .inr ⟨he, z' ++ r, rfl⟩
      rw [DataState.after?] at h
      split at h
      · next s₁ hm =>
        obtain ⟨rfl, hkeep⟩ := DataState.move_step hm
        have hopen := reads_opening c (v ++ (z ++ r))
        rw [started_eq hm] at hopen
        refine reads_gather_cons hopen (Reads.map ?_) (ih hr)
        unfold dataRest
        rw [if_neg (by simp [hkeep rfl])]
        refine (reads_fold_data h hends).bind_nil ?_
        dsimp only
        rw [if_neg (by simp [DataState.stray_after? h (hkeep rfl)])]
        exact reads_pure _ _
      · cases h
      · cases h

/-- Outside all blocks, siblings end with the text. -/
theorem Row.closing_of_outermost (h : Row inner .outermost w ns closing) :
    closing = .endOfText := by
  induction h with
  | ended => rfl
  | closed h =>
      obtain ⟨hc, -⟩ | ⟨hc, -⟩ := closing_of_statement (h [] (.start ""))
      · cases hc
      · exact absurd rfl hc
  | statement _ _ ih => exact ih
  | data _ _ _ ih => exact ih

/-- A row that a statement ends stands before a closing brace. -/
theorem Row.exists_brace (h : Row inner context w ns closing) (hc : closing ≠ .endOfText) :
    ∃ v, w = v ++ ['}'] := by
  induction h with
  | ended => exact absurd rfl hc
  | @closed v closing h => exact ⟨'{' :: v, rfl⟩
  | @statement v z n ns closing h _ ih =>
      obtain ⟨u, rfl⟩ := ih hc
      exact ⟨'{' :: (v ++ ['}'] ++ u), by simp⟩
  | @data c v z s ns closing h ends _ ih =>
      obtain ⟨u, rfl⟩ := ih hc
      exact ⟨c :: v ++ u, by simp⟩

end Rows

/-- Siblings are read up to a closing brace, unless the text ends before. -/
theorem shutsInside_innerAt (d : Nat) : ShutsInside (innerAt d) := by
  induction d with
  | zero => exact nofun
  | succ d ih =>
      rintro readers ⟨⟩ context p cs ns closing t hrun hclosing
      rw [nested_eq] at hrun
      obtain ⟨w, r, rfl, rfl, hrow, -⟩ := exists_row (shuts_statement ih context) hrun
      obtain ⟨v, rfl⟩ := hrow.exists_brace hclosing
      refine ⟨v, r, rfl, rfl, fun r' => ?_⟩
      rw [nested_eq]
      exact hrow.reads fun h => absurd h hclosing

/-- **What is read as a template is a row** of all of the text, and every such row is read so. -/
theorem ofText_iff_row {name : String} {text : List Char} {t : Template} :
    ofText name text = .ok t ↔
      ∃ ns, Row (innerAt blockLimit) .outermost text ns .endOfText ∧
        t = ⟨if ns.isEmpty then [.data ""] else ns⟩ := by
  constructor
  · intro h
    obtain ⟨s, h⟩ := read_eq_ok.mp h
    obtain ⟨⟨ns, closing⟩, u, hrun, h⟩ := run_bind_ok h
    cases h
    rw [nested_eq] at hrun
    obtain ⟨w, r, htext, -, hrow, hend⟩ :=
      exists_row (shuts_statement (shutsInside_innerAt _) _) hrun
    obtain rfl := hrow.closing_of_outermost
    obtain rfl : text = w := by rw [htext, hend rfl, List.append_nil]
    exact ⟨ns, hrow, rfl⟩
  · rintro ⟨ns, hrow, rfl⟩
    have hread := hrow.reads (r := []) (fun _ => rfl) (.start name)
    rw [List.append_nil, ← nested_eq] at hread
    exact read_eq_ok.mpr ⟨_, run_bind_of_ok hread⟩

end Stencil.Template
