import Stencil.Environment.Loading
import Stencil.Proofs.Scanner.Readings

/-!
# Description — Statements of a text

A description that is at hand as a whole is a row of statements with blanks and comments between
them (`statements`).  Where a statement ends is told by the region its characters lie in
(`Region.next`): it runs up to the first semicolon in the plain region (`Region.divide`).  The
scanners that cut a statement out of a stream do just this (`run_statement`).

To load a description is then to take its statements one after another, push what each of them says
(`Statement.result`), and stop at the first that says nothing (`load_ofTextAt`).
-/

namespace Stencil

namespace Description

open Scanner Text

namespace Region

/-- The region behind a character that does not end the statement. -/
def next : Region → Char → Region
  | .plain, c => if c = '"' then .string else if c = '#' then .comment else .plain
  | .string, c => if c = '\\' then .escape else if c = '"' then .plain else .string
  | .escape, _ => .string
  | .comment, c => if c = '\n' then .plain else .comment

/-- The region behind some characters. -/
def after (region : Region) (text : List Char) : Region :=
  text.foldl next region

/-- The region lies inside a string. -/
def inString : Region → Bool
  | .string | .escape => true
  | .plain | .comment => false

/-- A text cut in two behind the semicolon that ends a statement, if there is one.  Its beginning
lies in the region given. -/
def divide (region : Region) : List Char → List Char × List Char
  | [] => ([], [])
  | c :: cs =>
    if region = .plain ∧ c = ';' then ([c], cs)
    else (c :: ((region.next c).divide cs).1, ((region.next c).divide cs).2)

@[simp] theorem after_nil (region : Region) : region.after [] = region := rfl

@[simp] theorem after_cons (region : Region) (c : Char) (cs : List Char) :
    region.after (c :: cs) = (region.next c).after cs := rfl

@[simp] theorem after_append (region : Region) (v w : List Char) :
    region.after (v ++ w) = (region.after v).after w :=
  List.foldl_append

theorem divide_append (region : Region) (text : List Char) :
    (region.divide text).1 ++ (region.divide text).2 = text := by
  fun_induction divide region text with
  | case1 => rfl
  | case2 => rfl
  | case3 region c cs h ih => rw [List.cons_append, ih]

theorem divide_cons_ne_nil (region : Region) (c : Char) (cs : List Char) :
    (region.divide (c :: cs)).1 ≠ [] := by
  rw [divide]
  split <;> simp

/-- None of the characters ends the statement. -/
def passes (region : Region) : List Char → Bool
  | [] => true
  | c :: cs => !(region = .plain ∧ c = ';') && (region.next c).passes cs

theorem passes_cons {region : Region} {c : Char} {cs : List Char} :
    region.passes (c :: cs) = true ↔
      ¬(region = .plain ∧ c = ';') ∧ (region.next c).passes cs = true := by
  simp only [passes, Bool.and_eq_true, Bool.not_eq_true', decide_eq_false_iff_not]

theorem passes_append {region : Region} {v w : List Char} :
    region.passes (v ++ w) = true ↔ region.passes v = true ∧ (region.after v).passes w = true := by
  induction v generalizing region with
  | nil => simp [passes]
  | cons c v ih => rw [List.cons_append, passes_cons, passes_cons, ih, after_cons, and_assoc]

/-- Characters that do not end the statement belong to it. -/
theorem divide_append_of_passes {region : Region} {w : List Char} (hw : region.passes w = true)
    (r : List Char) :
    region.divide (w ++ r) =
      (w ++ ((region.after w).divide r).1, ((region.after w).divide r).2) := by
  induction w generalizing region with
  | nil => rfl
  | cons c w ih =>
      obtain ⟨hc, hw⟩ := passes_cons.mp hw
      rw [List.cons_append, divide, if_neg hc, ih hw, after_cons]
      rfl

/-- A statement ends with the semicolon behind what does not end it, or it has no end. -/
theorem divide_cases (region : Region) (text : List Char) :
    (region.passes text = true ∧ region.divide text = (text, [])) ∨
      ∃ w r, text = w ++ ';' :: r ∧ region.passes w = true ∧ region.after w = .plain ∧
        region.divide text = (w ++ [';'], r) := by
  fun_induction divide region text with
  | case1 => exact .inl ⟨rfl, rfl⟩
  | case2 region c cs h =>
    obtain ⟨rfl, rfl⟩ := h
    exact .inr ⟨[], cs, rfl, rfl, rfl, rfl⟩
  | case3 region c cs h ih =>
    rcases ih with ⟨hpasses, hdivide⟩ | ⟨w, r, rfl, hpasses, hafter, hdivide⟩
    · exact .inl ⟨passes_cons.mpr ⟨h, hpasses⟩, by rw [hdivide]⟩
    · exact .inr ⟨c :: w, r, rfl, passes_cons.mpr ⟨h, hpasses⟩, hafter, by rw [hdivide]; rfl⟩

end Region

/-- A text cut in two behind the blanks and comments in front of it.  Its beginning lies in a
comment or not. -/
def divideIgnored (inComment : Bool) : List Char → List Char × List Char
  | [] => ([], [])
  | c :: cs =>
    if inComment then
      (c :: (divideIgnored (c != '\n') cs).1, (divideIgnored (c != '\n') cs).2)
    else if isBlank c then (c :: (divideIgnored false cs).1, (divideIgnored false cs).2)
    else if c = '#' then (c :: (divideIgnored true cs).1, (divideIgnored true cs).2)
    else ([], c :: cs)

theorem divideIgnored_append (inComment : Bool) (text : List Char) :
    (divideIgnored inComment text).1 ++ (divideIgnored inComment text).2 = text := by
  fun_induction divideIgnored inComment text with
  | case1 => rfl
  | case2 c cs ih => rw [List.cons_append, ih]
  | case3 inComment c cs h hb ih => rw [List.cons_append, ih]
  | case4 inComment cs h hb ih => rw [List.cons_append, ih]
  | case5 => rfl

/-- What comes behind blanks and comments is neither. -/
theorem head_divideIgnored (inComment : Bool) (text : List Char) :
    ∀ c ∈ (divideIgnored inComment text).2.head?, isBlank c = false ∧ c ≠ '#' := by
  fun_induction divideIgnored inComment text with
  | case1 => simp
  | case2 c cs ih => exact ih
  | case3 inComment c cs h hb ih => exact ih
  | case4 inComment cs h hb ih => exact ih
  | case5 inComment c cs h hb hc =>
    rintro d ⟨⟩
    exact ⟨by simpa using hb, hc⟩

/-! ### The scanners -/

theorem reads_skipIgnored (text : List Char) :
    ∃ b, skipIgnored.Reads (divideIgnored false text).1 b (divideIgnored false text).2 := by
  -- The induction needs the run from inside a comment too.
  have run : ∀ inComment, ∃ b, (fold 0 (fun inComment c _ =>
      if inComment then .step 0 (c != '\n')
      else if isBlank c then .step 0 false
      else if c = '#' then .step 0 true
      else .stop) inComment).Reads (divideIgnored inComment text).1 b
        (divideIgnored inComment text).2 := by
    intro inComment
    fun_induction divideIgnored inComment text with
    | case1 inComment => exact ⟨inComment, reads_fold_nil⟩
    | case2 c cs ih =>
      obtain ⟨b, hb⟩ := ih
      exact ⟨b, reads_fold_step_zero (if_pos rfl) hb⟩
    | case3 inComment c cs h hblank ih =>
      obtain ⟨b, hb⟩ := ih
      exact ⟨b, reads_fold_step_zero (by rw [if_neg h, if_pos hblank]) hb⟩
    | case4 inComment cs h hblank ih =>
      obtain ⟨b, hb⟩ := ih
      exact ⟨b, reads_fold_step_zero (by rw [if_neg h, if_neg hblank, if_pos rfl]) hb⟩
    | case5 inComment c cs h hblank hc =>
      exact ⟨inComment, reads_fold_stop (by rw [if_neg h, if_neg hblank, if_neg hc])⟩
  exact run false

theorem move_last (taken : List Char) (ahead : List Char) :
    Cut.move ⟨taken, .plain⟩ ';' ahead = .last 0 ⟨';' :: taken, .plain⟩ := rfl

theorem move_step {region : Region} {c : Char} (h : ¬(region = .plain ∧ c = ';'))
    (taken ahead : List Char) :
    Cut.move ⟨taken, region⟩ c ahead = .step 0 ⟨c :: taken, region.next c⟩ := by
  cases region with
  | plain =>
      have hc : c ≠ ';' := fun hc => h ⟨rfl, hc⟩
      simp [Cut.move, Region.next, hc]
  | string => rfl
  | escape => rfl
  | comment => rfl

theorem reads_cut (region : Region) (taken text : List Char) :
    (fold 0 Cut.move ⟨taken, region⟩).Reads (region.divide text).1
      ⟨(region.divide text).1.reverse ++ taken, region.after (region.divide text).1⟩
      (region.divide text).2 := by
  fun_induction Region.divide region text generalizing taken with
  | case1 region => exact reads_fold_nil
  | case2 region c cs h =>
    obtain ⟨rfl, rfl⟩ := h
    exact reads_fold_last (w := []) (move_last taken _)
  | case3 region c cs h ih =>
    refine reads_fold_step_zero (move_step h taken _) ?_
    simpa using ih (c :: taken)

/-- From its first character on, a statement is cut out like from its beginning. -/
theorem run_statementFrom (c : Char) (p : Position) (cs : List Char) :
    (statementFrom c).run (.ofTextAt (p.after [c]) cs) =
      (fold 0 Cut.move .empty).run (.ofTextAt p (c :: cs)) := by
  change _ = foldFrom 0 Cut.move ⟨[], .plain⟩ (.ofTextAt p (c :: cs))
  by_cases hc : c = ';'
  · subst hc
    rw [foldFrom_last (move_last [] _) p]
    rfl
  · have hmove := move_step (fun h : Region.plain = .plain ∧ c = ';' => hc h.2) []
    rw [foldFrom_step (hmove _) p, statementFrom, Cut.empty, hmove]
    rfl

/-- What is cut out of a text: nothing, if it has blanks and comments only; else the statement in
front of it, with its place, unless the text ends inside a string. -/
theorem run_statement (p : Position) (text : List Char) :
    statement.run (.ofTextAt p text) =
      match (divideIgnored false text).2 with
      | [] => .ok none (.ofTextAt (p.after (divideIgnored false text).1) [])
      | c :: cs =>
        let start := p.after (divideIgnored false text).1
        let cut := Region.plain.divide (c :: cs)
        let rest := Stream.ofTextAt (start.after cut.1) cut.2
        if (Region.plain.after cut.1).inString then
          .error (.located .endInString (start.after cut.1)) rest
        else .ok (some (start, cut.1)) rest := by
  -- What is ignored is skipped; the statement is then cut off as `divide` does it.
  obtain ⟨b, hskip⟩ := reads_skipIgnored text
  have hrun := hskip p
  rw [divideIgnored_append] at hrun
  rw [statement, run_bind_of_ok hrun, run_bind_of_ok (x := position) rfl]
  cases hrest : (divideIgnored false text).2 with
  | nil => exact run_bind_of_ok (reads_accept_none (fun c hc => by cases hc) _)
  | cons c cs =>
      have hchar : anyChar.run (.ofTextAt (p.after (divideIgnored false text).1) (c :: cs)) = _ :=
        reads_anyChar c cs _
      rw [run_bind_of_ok hchar]
      have hcut := reads_cut .plain [] (c :: cs) (p.after (divideIgnored false text).1)
      rw [Region.divide_append, List.append_nil] at hcut
      change Scanner.run (statementFrom c >>= _) _ = _
      rw [run_bind_of_ok ((run_statementFrom c _ cs).trans hcut)]
      have hregion : Cut.inString ⟨(Region.plain.divide (c :: cs)).1.reverse,
          Region.plain.after (Region.plain.divide (c :: cs)).1⟩ =
          (Region.plain.after (Region.plain.divide (c :: cs)).1).inString := by
        rw [Cut.inString]
        cases Region.plain.after (Region.plain.divide (c :: cs)).1 <;> rfl
      dsimp only
      rw [hregion, List.reverse_reverse]
      split <;> rfl

/-! ### The statements of a text -/

theorem length_divide_lt {text : List Char} {c : Char} {cs : List Char}
    (h : (divideIgnored false text).2 = c :: cs) :
    (Region.plain.divide (c :: cs)).2.length < text.length := by
  have htext := congrArg List.length (divideIgnored_append false text)
  have hcut := congrArg List.length (Region.divide_append .plain (c :: cs))
  have hne := List.length_pos_iff.mpr (Region.divide_cons_ne_nil .plain c cs)
  rw [h] at htext
  rw [List.length_append] at htext hcut
  omega

/-- The statements of a text that stands at a place, each with its own place.  The last of them may
have no end. -/
def statements (p : Position) (text : List Char) : List (Position × List Char) :=
  match _h : (divideIgnored false text).2 with
  | [] => []
  | c :: cs =>
    let start := p.after (divideIgnored false text).1
    let cut := Region.plain.divide (c :: cs)
    (start, cut.1) :: statements (start.after cut.1) cut.2
termination_by text.length
decreasing_by exact length_divide_lt _h

theorem statements_of_nil {p : Position} {text : List Char}
    (h : (divideIgnored false text).2 = []) : statements p text = [] := by
  rw [statements]
  split
  · rfl
  · next h' => rw [h] at h'; cases h'

theorem statements_of_cons {p : Position} {text : List Char} {c : Char} {cs : List Char}
    (h : (divideIgnored false text).2 = c :: cs) :
    statements p text =
      (p.after (divideIgnored false text).1, (Region.plain.divide (c :: cs)).1) ::
        statements ((p.after (divideIgnored false text).1).after
          (Region.plain.divide (c :: cs)).1) (Region.plain.divide (c :: cs)).2 := by
  rw [statements]
  split
  · next h' => rw [h] at h'; cases h'
  · next h' => rw [h] at h'; cases h'; rfl

/-- To go through the statements of a text: the text has none, or it is a first statement with what
stands around it. -/
@[elab_as_elim]
theorem statements_induction {P : Position → List Char → Prop}
    (nil : ∀ p text, (divideIgnored false text).2 = [] → P p text)
    (cons : ∀ p text c cs, (divideIgnored false text).2 = c :: cs →
      P ((p.after (divideIgnored false text).1).after (Region.plain.divide (c :: cs)).1)
        (Region.plain.divide (c :: cs)).2 → P p text)
    (p : Position) (text : List Char) : P p text := by
  induction hn : text.length using Nat.strong_induction_on generalizing p text with
  | _ n ih =>
    cases h : (divideIgnored false text).2 with
    | nil => exact nil p text h
    | cons c cs => exact cons p text c cs h (ih _ (hn ▸ length_divide_lt h) _ _ rfl)

/-- A statement stands in the text at its place. -/
theorem mem_statements {p q : Position} {text v : List Char} (h : (q, v) ∈ statements p text) :
    ∃ u r, text = u ++ (v ++ r) ∧ q = p.after u := by
  induction p, text using statements_induction with
  | nil p text hnil => rw [statements_of_nil hnil] at h; cases h
  | cons p text c cs hcons ih =>
      have htext := divideIgnored_append false text
      have hcut := Region.divide_append .plain (c :: cs)
      rw [hcons, ← hcut] at htext
      rw [statements_of_cons hcons] at h
      rcases List.mem_cons.mp h with h | h
      · cases h
        exact ⟨_, _, htext.symm, rfl⟩
      · obtain ⟨u, r, hu, rfl⟩ := ih h
        rw [hu] at htext
        exact ⟨(divideIgnored false text).1 ++ ((Region.plain.divide (c :: cs)).1 ++ u), r,
          htext.symm.trans (by simp only [List.append_assoc]),
          by simp only [Position.after_append]⟩

/-- What a statement at a place says: the value of a symbol.  It says nothing if it ends inside a
string, or assigns no value. -/
def Statement.result (start : Position) (text : List Char) : Except Failure (String × Value) :=
  if (Region.plain.after text).inString then
    .error (.located .endInString (start.after text))
  else assignment start text

/-- What the statements of a text say. -/
def results (p : Position) (text : List Char) : List (Except Failure (String × Value)) :=
  (statements p text).map fun s => Statement.result s.1 s.2

theorem results_of_nil {p : Position} {text : List Char} (h : (divideIgnored false text).2 = []) :
    results p text = [] := by
  rw [results, statements_of_nil h, List.map_nil]

theorem results_of_cons {p : Position} {text : List Char} {c : Char} {cs : List Char}
    (h : (divideIgnored false text).2 = c :: cs) :
    results p text =
      Statement.result (p.after (divideIgnored false text).1) (Region.plain.divide (c :: cs)).1 ::
        results ((p.after (divideIgnored false text).1).after (Region.plain.divide (c :: cs)).1)
          (Region.plain.divide (c :: cs)).2 := by
  rw [results, statements_of_cons h, List.map_cons, results]

/-- The values before the first error, and that error. -/
def untilError {ε α : Type} : List (Except ε α) → List α × Option ε
  | [] => ([], none)
  | .error e :: _ => ([], some e)
  | .ok a :: rest => (a :: (untilError rest).1, (untilError rest).2)

end Description

namespace Environment

open Description Scanner

/-- The environment after some values are pushed on the stacks of symbols, one after another. -/
def pushAll (env : Environment) (pairs : List (String × Value)) : Environment :=
  pairs.foldl (fun env pair => env.push pair.1 pair.2) env

variable {env : Environment} {s rest : Stream}

theorem load_error {f : Failure} (h : statement.run s = .error f rest) :
    env.load s = (env, some f) := by
  rw [load]
  split
  · next h' => rw [h] at h'; cases h'; rfl
  · next h' => rw [h] at h'; cases h'
  · next h' => rw [h] at h'; cases h'

theorem load_none (h : statement.run s = .ok none rest) : env.load s = (env, none) := by
  rw [load]
  split
  · next h' => rw [h] at h'; cases h'
  · rfl
  · next h' => rw [h] at h'; cases h'

theorem load_some {start : Position} {text : List Char}
    (h : statement.run s = .ok (some (start, text)) rest) :
    env.load s = match assignment start text with
      | .error f => (env, some f)
      | .ok (name, v) => (env.push name v).load rest := by
  rw [load]
  split
  · next h' => rw [h] at h'; cases h'
  · next h' => rw [h] at h'; cases h'
  · next h' => rw [h] at h'; cases h'; rfl

/-- **To load a text** is to push what its statements say, up to the first that says nothing. -/
theorem load_ofTextAt (env : Environment) (p : Position) (text : List Char) :
    env.load (.ofTextAt p text) =
      (env.pushAll (untilError (results p text)).1, (untilError (results p text)).2) := by
  induction p, text using statements_induction generalizing env with
  | nil p text hnil =>
      have hrun := run_statement p text
      rw [hnil] at hrun
      rw [load_none hrun, results_of_nil hnil]
      rfl
  | cons p text c cs hcons ih =>
      have hrun := run_statement p text
      rw [hcons] at hrun
      rw [results_of_cons hcons, Statement.result]
      dsimp only at hrun ⊢
      split at hrun
      · next hin =>
        rw [load_error hrun, if_pos hin]
        rfl
      · next hin =>
        rw [load_some hrun, if_neg hin]
        cases assignment (p.after (divideIgnored false text).1)
            (Region.plain.divide (c :: cs)).1 with
        | error f => rfl
        | ok pair => exact ih (env.push pair.1 pair.2)

theorem loadText_eq (env : Environment) (text : List Char) :
    env.loadText text =
      (env.pushAll (untilError (results (.start streamName) text)).1,
        (untilError (results (.start streamName) text)).2) :=
  load_ofTextAt env (.start streamName) text

end Environment

end Stencil
