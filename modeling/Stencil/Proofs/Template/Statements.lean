import Stencil.Proofs.Expr.Locality
import Stencil.Proofs.Template.Pieces

/-!
# Template — Statements

What the reader of templates makes of the parts of a source: data (`reads_data`), an expression
between braces (`reads_insert`), and the blocks of `if` and `for`, which are read as what their
branches and bodies are read as (`reads_if`, `reads_for`).  Expressions are read from their slots
because the reader of expressions does not look behind a closing brace (`reads_slot`).
-/

namespace Stencil.Template

open Scanner Text

/-! ### Siblings -/

/-- What ends data: the next statement, or the end of the text. -/
def Opens (r : List Char) : Prop :=
  ∀ c ∈ r.head?, c = '{'

/-- The readers of siblings that a block may hold where `d` levels are left. -/
def innerAt : Nat → Inner
  | 0 => none
  | d + 1 => some (nested d)

/-- Each level of blocks reads siblings, with the next level inside. -/
theorem nested_eq (d : Nat) (context : Context) :
    nested d context = siblings (innerAt d) context := by
  cases d <;> rfl

section Siblings

variable {inner : Inner} {context : Context} {v w z r cs : List Char} {node : Node}
  {ns : List Node} {closing : Closing} {cause : Cause}

/-- The data that a first character starts. -/
def started (c : Char) : Option DataState :=
  match DataState.first c with
  | .stop => none
  | .last _ s => some s
  | .step _ s => some s

theorem reads_opening (c : Char) (r : List Char) : opening.Reads [c] (some (started c)) r := by
  refine reads_next_some (w := []) ?_
  unfold started
  cases DataState.first c <;> rfl

/-- A statement is read in front of its further siblings. -/
theorem reads_siblings_statement (hv : (statement inner context).Reads v (.inl node) (z ++ r))
    (hz : (siblings inner context).Reads z (ns, closing) r) :
    (siblings inner context).Reads ('{' :: (v ++ z)) (node :: ns, closing) r :=
  reads_gather_cons (reads_opening '{' _) hv hz

/-- Siblings fail as the statement that they start with does. -/
theorem fails_siblings_statement {failure : Position → Failure}
    (h : (statement inner context).FailsBy cs failure) :
    (siblings inner context).FailsBy ('{' :: cs) failure :=
  fails_gather (reads_opening '{' _) h

/-- Behind a statement, siblings fail as the further ones do. -/
theorem fails_siblings_behind_statement
    (hv : (statement inner context).Reads v (.inl node) cs)
    (hz : (siblings inner context).Fails cs cause) :
    (siblings inner context).Fails ('{' :: (v ++ cs)) cause :=
  fails_gather_cons (reads_opening '{' _) hv hz

/-! ### Data -/

/-- A character that is written without a backslash stands for itself. -/
theorem move_plain {c : Char} (hc : ¬DataState.isSpecial c = true) (taken ds : List Char) :
    DataState.move ⟨taken, false, false⟩ c ds = .step 0 ⟨c :: taken, false, false⟩ := by
  have h₁ : c ≠ '{' := by rintro rfl; exact hc rfl
  have h₂ : c ≠ '}' := by rintro rfl; exact hc rfl
  have h₃ : c ≠ '\\' := by rintro rfl; exact hc rfl
  simp [DataState.move, h₁, h₂, h₃]

/-- Data are read as they are written, up to the next statement. -/
theorem reads_fold_escaped (cs : List Char) (hr : Opens r) (taken : List Char) :
    (fold 0 DataState.move ⟨taken, false, false⟩).Reads (escaped cs)
      ⟨cs.reverse ++ taken, false, false⟩ r := by
  induction cs generalizing taken with
  | nil =>
      refine reads_fold_halts fun c s hcs => ?_
      obtain rfl : c = '{' := hr c (by rw [hcs]; rfl)
      rfl
  | cons c cs ih =>
      rw [List.reverse_cons, List.append_assoc, List.singleton_append, escaped]
      have next := ih (c :: taken)
      split
      · next hc =>
        -- The backslash is one step, the character it stands before another.
        refine reads_fold_step_zero (b := ⟨taken, true, false⟩) rfl ?_
        refine reads_fold_step_zero ?_ next
        rw [DataState.move, if_pos rfl, if_pos hc]
      · next hc =>
        exact reads_fold_step_zero (move_plain hc taken _) next

/-- The first character of written data, and the rest of them. -/
theorem reads_data {text : String} (hne : text.toList ≠ []) (hr : Opens r) :
    ∃ c s v, escaped text.toList = c :: v ∧ opening.Reads [c] (some (some s)) (v ++ r) ∧
      (dataRest s).Reads v (.data text) r := by
  have closed : ∀ {s : DataState} {v : List Char}, s.stray = false →
      (fold 0 DataState.move s).Reads v ⟨text.toList.reverse, false, false⟩ r →
      (dataRest s).Reads v (.data text) r := by
    intro s v hs hv
    unfold dataRest
    rw [if_neg (by simp [hs])]
    have hchars : String.ofList (DataState.mk text.toList.reverse false false).chars = text := by
      simp [DataState.chars]
    refine hv.bind_nil ?_
    dsimp only
    rw [if_neg (by simp), hchars]
    exact reads_pure _ _
  cases htext : text.toList with
  | nil => exact absurd htext hne
  | cons c cs =>
      rw [htext, List.reverse_cons] at closed
      rw [escaped]
      -- The first character is read apart, so the machine goes on from a state that holds it.
      have rest := reads_fold_escaped cs hr [c]
      split
      · next hc =>
        refine ⟨'\\', ⟨[], true, false⟩, c :: escaped cs, rfl, reads_opening _ _, closed rfl ?_⟩
        refine reads_fold_step_zero ?_ rest
        rw [DataState.move, if_pos rfl, if_pos hc]
      · next hc =>
        have hstarted : started c = some ⟨[c], false, false⟩ := by
          rw [started, DataState.first, DataState.empty, move_plain hc]
        exact ⟨c, _, escaped cs, rfl, hstarted ▸ reads_opening c _, closed rfl rest⟩

/-- Data is read up to what opens something else, in front of its further siblings. -/
theorem reads_siblings_data {text : String} (hne : text.toList ≠ []) (hz : Opens (z ++ r))
    (h : (siblings inner context).Reads z (ns, closing) r) :
    (siblings inner context).Reads (escaped text.toList ++ z) (.data text :: ns, closing) r := by
  obtain ⟨c, s, v, hcs, ho, hv⟩ := reads_data hne hz
  rw [hcs, List.cons_append, ← List.singleton_append]
  exact reads_gather_cons ho hv.map h

theorem fails_siblings_behind_data {text : String} (hne : text.toList ≠ []) (hcs : Opens cs)
    (h : (siblings inner context).Fails cs cause) :
    (siblings inner context).Fails (escaped text.toList ++ cs) cause := by
  obtain ⟨c, s, v, hv, ho, hread⟩ := reads_data hne hcs
  rw [hv, List.cons_append, ← List.singleton_append]
  exact fails_gather_cons ho hread.map h

/-! ### Statements -/

/-- What is read behind a word. -/
def behindWord (inner : Inner) (context : Context) : Option Keyword → Scanner (Node ⊕ Closing)
  | some .ifWord => do
    let _ ← take Keyword.ifWord.text.length
    return .inl (← ifBlock inner)
  | some .forWord => do
    let _ ← take Keyword.forWord.text.length
    return .inl (← forBlock inner)
  | some .elseWord => do
    let _ ← take Keyword.elseWord.text.length
    endOfStatement (some .elseWord)
    if context = .firstBranch then return .inr .elseStatement else fail .unmatchedElse
  | some .endWord => do
    let _ ← take Keyword.endWord.text.length
    endOfStatement (some .endWord)
    if context = .outermost then fail .unmatchedEnd else return .inr .endStatement
  | none => do
    let e ← Expr.scanner
    endOfStatement none
    return .inl (.insert e)

/-- A statement is what its keyword says; with any other word it is an insertion. -/
theorem statement_eq (inner : Inner) (context : Context) :
    statement inner context = (do
      let _ ← skipBlank
      let word ← peekWord isSymbol (some keywordWindow)
      behindWord inner context (keyword? word)) := by
  unfold statement
  congr 1

theorem keyword?_eq_none {w : List Char} (h : 4 < w.length) : keyword? w = none := by
  refine List.find?_eq_none.mpr fun k _ hk => ?_
  rw [← eq_of_beq hk] at h
  cases k <;> exact absurd h (by decide)

/-- The window shows enough of a word to tell whether it is a keyword. -/
theorem keyword?_take (w : List Char) : keyword? (w.take keywordWindow) = keyword? w := by
  by_cases h : w.length ≤ keywordWindow
  · rw [List.take_of_length_le h]
  · have hw : 4 < w.length := Nat.lt_trans (Nat.lt_succ_self 4) (Nat.lt_of_not_le h)
    rw [keyword?_eq_none hw, keyword?_eq_none]
    rw [List.length_take_of_le (Nat.le_of_not_le h)]
    exact Nat.lt_succ_self 4

/-- Behind blanks, the word in front decides how a statement is read. -/
theorem reads_statement {b : List Char} (hb : ∀ c ∈ b, isBlank c = true)
    (hw : ∀ c ∈ (w ++ r).head?, isBlank c = false) {x : Node ⊕ Closing}
    (h : (behindWord inner context (keyword? ((w ++ r).takeWhile isSymbol))).Reads w x r) :
    (statement inner context).Reads (b ++ w) x r := by
  rw [statement_eq]
  refine (reads_skipBlank hb hw).bind ((reads_peekWord isSymbol keywordWindow (w ++ r)).nil_bind ?_)
  rwa [keyword?_take]

/-- A statement fails as what comes behind its first word does. -/
theorem fails_statement {failure : Position → Failure} (hcs : ∀ c ∈ cs.head?, isBlank c = false)
    (h : (behindWord inner context (keyword? (cs.takeWhile isSymbol))).FailsBy cs failure) :
    (statement inner context).FailsBy cs failure := by
  rw [statement_eq]
  refine (reads_skipBlank (w := []) (fun c hc => by cases hc) hcs).fails
    ((reads_peekWord isSymbol keywordWindow cs).fails (w := []) ?_)
  rwa [keyword?_take]

/-- Blanks and a closing brace end a statement. -/
theorem reads_endOfStatement {b : List Char} (hb : ∀ c ∈ b, isBlank c = true)
    (keyword : Option Keyword) (r : List Char) :
    (endOfStatement keyword).Reads (b ++ ['}']) () r := by
  refine (reads_skipBlank hb fun c hc => by cases hc; rfl).bind ((reads_anyChar '}' r).bind_nil ?_)
  rw [if_pos rfl]
  exact reads_pure () r

/-- The word of a keyword in front of what is no symbol. -/
theorem takeWhile_keyword (k : Keyword) {r : List Char} (hr : ∀ c ∈ r.head?, isSymbol c = false) :
    (k.text.toList ++ r).takeWhile isSymbol = k.text.toList := by
  rw [takeWhile_append_of_stop _ hr]
  cases k <;> decide

theorem keyword?_text (k : Keyword) : keyword? k.text.toList = some k := by
  cases k <;> decide

/-! ### Blocks -/

/-- Reads the expression of a statement, and the closing brace. -/
def slotReader (keyword : Option Keyword) : Scanner Expr := do
  let e ← Expr.scanner
  endOfStatement keyword
  return e

/-- The expression of a statement is read from its text, also behind blanks. -/
theorem reads_slot (slot : Slot) {b : List Char} (hb : ∀ c ∈ b, isBlank c = true)
    (keyword : Option Keyword) (r : List Char) :
    (slotReader keyword).Reads (b ++ (slot.text ++ ['}'])) slot.expr r := by
  -- The blanks at the end of the expression's text are left to the end of the statement.
  obtain ⟨w, z, htext, hz, hw⟩ := Expr.reads_of_ofText_of_closer slot.reads
    (Expr.nesting_le_of_ofText slot.reads) (c := '}') (.inr (.inr rfl)) r
  have hend := (reads_endOfStatement hz keyword r).bind_nil (f := fun _ => pure slot.expr)
    (reads_pure slot.expr r)
  have h : (slotReader keyword).Reads ((b ++ w) ++ (z ++ ['}'])) slot.expr r :=
    Reads.bind (Expr.reads_nested_blanks hb (by simpa using hw)) hend
  rw [htext]
  simpa only [List.append_assoc] using h

theorem insert_eq : behindWord inner context none =
    (do return .inl (.insert (← slotReader none))) := by
  simp only [behindWord, slotReader, bind_assoc, pure_bind]

/-- What an `if` statement goes on with behind its closing brace. -/
def branches (inner : Inner) (condition : Expr) : Scanner Node := do
  let reader ← enter inner
  let (holds, closing) ← reader .firstBranch
  match closing with
  | .endStatement => return .choose condition holds []
  | .endOfText => fail .unclosedIf
  | .elseStatement =>
    let (fails, closing) ← reader .secondBranch
    if closing = .endStatement then return .choose condition holds fails else fail .unclosedIf

/-- An `if` is read as its condition and then its branches. -/
theorem ifBlock_eq (inner : Inner) :
    ifBlock inner = (do branches inner (← slotReader (some .ifWord))) := by
  simp only [slotReader, bind_assoc, pure_bind]
  rfl

/-- What a `for` statement goes on with behind its closing brace. -/
def loopRest (inner : Inner) (name : List Char) (items : Expr) : Scanner Node := do
  let reader ← enter inner
  let (body, closing) ← reader .loopBody
  if closing = .endStatement then return .loop (String.ofList name) items body
  else fail .unclosedFor

/-- Reads the name and the expression of a `for` statement, and the closing brace. -/
def loopHead : Scanner (List Char × Expr) := do
  let _ ← skipBlank
  let name ← word isSymbol none
  if name.isEmpty then fail .missingIterator
  else
    let _ ← skipBlank
    if (← word isSymbol none) = "in".toList then return (name, ← slotReader (some .forWord))
    else fail .missingIn

/-- A `for` is read as its head and then its body. -/
theorem forBlock_eq (inner : Inner) : forBlock inner = (do
    let head ← loopHead
    loopRest inner head.1 head.2) := by
  unfold forBlock loopHead slotReader loopRest
  simp only [bind_assoc]
  congr 1
  funext _
  congr 1
  funext name
  by_cases hname : name.isEmpty = true
  · rw [if_pos hname, if_pos hname]
    rfl
  · rw [if_neg hname, if_neg hname, bind_assoc]
    congr 1
    funext _
    rw [bind_assoc]
    congr 1
    funext preposition
    by_cases hin : preposition = "in".toList
    · rw [if_pos hin, if_pos hin]
      simp only [bind_assoc, pure_bind]
    · rw [if_neg hin, if_neg hin]
      rfl

theorem reads_enter (readers : Context → Scanner (List Node × Closing)) (r : List Char) :
    (enter (some readers)).Reads [] readers r :=
  reads_pure readers r

/-- An `if` block without an `else`. -/
theorem reads_branches {readers : Context → Scanner (List Node × Closing)} {condition : Expr}
    {holds : List Node} (h : (readers .firstBranch).Reads v (holds, .endStatement) r) :
    (branches (some readers) condition).Reads v (.choose condition holds []) r :=
  (reads_enter readers _).nil_bind (h.bind_nil (reads_pure _ r))

/-- An `if` block with an `else`, whose branches are read one behind the other. -/
theorem reads_branches_else {readers : Context → Scanner (List Node × Closing)} {condition : Expr}
    {holds fails : List Node}
    (hv : (readers .firstBranch).Reads v (holds, .elseStatement) (w ++ r))
    (hw : (readers .secondBranch).Reads w (fails, .endStatement) r) :
    (branches (some readers) condition).Reads (v ++ w) (.choose condition holds fails) r :=
  (reads_enter readers _).nil_bind (hv.bind (hw.bind_nil (reads_pure _ r)))

/-- An `if` block fails where its first branch is too deep, or no level is left for one. -/
theorem fails_branches {condition : Expr}
    (h : ∀ readers, inner = some readers →
      (readers .firstBranch).Fails cs (.blocksTooDeep blockLimit)) :
    (branches inner condition).Fails cs (.blocksTooDeep blockLimit) := by
  cases inner with
  | none => exact (fails_fail _ cs).bind _
  | some readers => exact (reads_enter readers cs).fails ((h readers rfl).bind _)

theorem fails_branches_else {readers : Context → Scanner (List Node × Closing)} {condition : Expr}
    {holds : List Node} (hv : (readers .firstBranch).Reads v (holds, .elseStatement) cs)
    (h : (readers .secondBranch).Fails cs cause) :
    (branches (some readers) condition).Fails (v ++ cs) cause :=
  (reads_enter readers _).fails (w := []) (hv.fails (h.bind _))

/-- The body of a loop is read up to its `end`. -/
theorem reads_loopRest {readers : Context → Scanner (List Node × Closing)} {name : LoopName}
    {items : Expr} {body : List Node}
    (h : (readers .loopBody).Reads v (body, .endStatement) r) :
    (loopRest (some readers) name.text.toList items).Reads v (.loop name.text items body) r := by
  refine (reads_enter readers _).nil_bind (h.bind_nil ?_)
  dsimp only
  rw [if_pos rfl, String.ofList_toList]
  exact reads_pure _ r

/-- A loop fails where its body is too deep, or no level is left for it. -/
theorem fails_loopRest {name : List Char} {items : Expr}
    (h : ∀ readers, inner = some readers →
      (readers .loopBody).Fails cs (.blocksTooDeep blockLimit)) :
    (loopRest inner name items).Fails cs (.blocksTooDeep blockLimit) := by
  cases inner with
  | none => exact (fails_fail _ cs).bind _
  | some readers => exact (reads_enter readers cs).fails ((h readers rfl).bind _)

/-- A keyword in front of what is no symbol decides how a statement is read. -/
theorem reads_keyword (k : Keyword) (hv : ∀ c ∈ (v ++ r).head?, isSymbol c = false)
    {x : Node ⊕ Closing}
    (h : (behindWord inner context (some k)).Reads (k.text.toList ++ v) x r) :
    (statement inner context).Reads (k.text.toList ++ v) x r := by
  rw [← List.nil_append (k.text.toList ++ v)]
  refine reads_statement (fun c hc => by cases hc) ?_ ?_
  · intro c hc
    cases k <;> cases hc <;> rfl
  · rwa [List.append_assoc, takeWhile_keyword k hv, keyword?_text]

theorem fails_keyword (k : Keyword) (hcs : ∀ c ∈ cs.head?, isSymbol c = false)
    (h : (behindWord inner context (some k)).Fails (k.text.toList ++ cs) cause) :
    (statement inner context).Fails (k.text.toList ++ cs) cause := by
  refine fails_statement ?_ ?_
  · intro c hc
    cases k <;> cases hc <;> rfl
  · rwa [takeWhile_keyword k hcs, keyword?_text]

theorem blank_of_mem_space : ∀ c ∈ [' '], isBlank c = true :=
  List.all_eq_true.mp rfl

/-- An `if` statement is read as what its branches are read as. -/
theorem reads_if (slot : Slot) (h : (branches inner slot.expr).Reads v node r) :
    (statement inner context).Reads (ifHead slot ++ v) (.inl node) r := by
  have hblock : (ifBlock inner).Reads (([' '] ++ (slot.text ++ ['}'])) ++ v) node r := by
    rw [ifBlock_eq]
    exact (reads_slot slot blank_of_mem_space _ _).bind h
  rw [ifHead, List.append_assoc]
  exact reads_keyword .ifWord (fun c hc => by cases hc; rfl)
    ((reads_take "if".toList _).bind hblock.map)

theorem fails_if (slot : Slot) (h : (branches inner slot.expr).Fails cs cause) :
    (statement inner context).Fails (ifHead slot ++ cs) cause := by
  have hblock : (ifBlock inner).Fails (([' '] ++ (slot.text ++ ['}'])) ++ cs) cause := by
    rw [ifBlock_eq]
    exact (reads_slot slot blank_of_mem_space _ _).fails h
  rw [ifHead, List.append_assoc]
  exact fails_keyword .ifWord (fun c hc => by cases hc; rfl)
    ((reads_take "if".toList _).fails (hblock.bind _))

theorem LoopName.not_blank (name : LoopName) (z : List Char) :
    ∀ c ∈ (name.text.toList ++ z).head?, isBlank c = false := by
  cases hn : name.text.toList with
  | nil => exact absurd hn name.nonempty
  | cons d ds =>
      intro c hc
      cases hc
      exact Expr.isBlank_of_isSymbol (name.symbols d (by rw [hn]; exact List.mem_cons_self ..))

theorem reads_loopHead (name : LoopName) (slot : Slot) (r : List Char) :
    loopHead.Reads (forTail name slot) (name.text.toList, slot.expr) r := by
  have hname : (word isSymbol none).Reads name.text.toList name.text.toList
      ([' '] ++ ("in".toList ++ ([' '] ++ (slot.text ++ ['}']))) ++ r) :=
    reads_word name.symbols fun c hc => by cases hc; rfl
  have hin : (word isSymbol none).Reads "in".toList "in".toList
      ([' '] ++ (slot.text ++ ['}']) ++ r) :=
    reads_word (List.all_eq_true.mp rfl) fun c hc => by cases hc; rfl
  refine (reads_skipBlank blank_of_mem_space ?_).bind (hname.bind ?_)
  · rw [List.append_assoc]
    exact name.not_blank _
  rw [if_neg (by simp [name.nonempty])]
  refine (reads_skipBlank blank_of_mem_space ?_).bind (hin.bind ?_)
  · intro c hc
    cases hc
    rfl
  rw [if_pos rfl]
  exact (reads_slot slot blank_of_mem_space _ r).map

/-- A `for` statement is read as what its body is read as. -/
theorem reads_for (name : LoopName) (slot : Slot)
    (h : (loopRest inner name.text.toList slot.expr).Reads v node r) :
    (statement inner context).Reads (forHead name slot ++ v) (.inl node) r := by
  have hblock : (forBlock inner).Reads (forTail name slot ++ v) node r := by
    rw [forBlock_eq]
    exact (reads_loopHead name slot _).bind h
  rw [forHead, List.append_assoc]
  exact reads_keyword .forWord (fun c hc => by cases hc; rfl)
    ((reads_take "for".toList _).bind hblock.map)

theorem fails_for (name : LoopName) (slot : Slot)
    (h : (loopRest inner name.text.toList slot.expr).Fails cs cause) :
    (statement inner context).Fails (forHead name slot ++ cs) cause := by
  have hblock : (forBlock inner).Fails (forTail name slot ++ cs) cause := by
    rw [forBlock_eq]
    exact (reads_loopHead name slot _).fails h
  rw [forHead, List.append_assoc]
  exact fails_keyword .forWord (fun c hc => by cases hc; rfl)
    ((reads_take "for".toList _).fails (hblock.bind _))

/-- An expression is read as a statement, unless it starts with a keyword. -/
theorem reads_insert (slot : Slot) (plain : keyword? (frontWord slot.text) = none) (r : List Char) :
    (statement inner context).Reads (slot.text ++ ['}']) (.inl (.insert slot.expr)) r := by
  -- The blanks in front are skipped with the statement, and the expression is read from the rest.
  obtain ⟨b, s, htext, hb, hs⟩ := exists_front isBlank slot.text
  have hreads := slot.reads
  rw [htext] at hreads
  have hslot := reads_slot ⟨s, slot.expr, Expr.ofText_of_blanks hb hreads⟩ (b := [])
    (fun c hc => by cases hc) none r
  have hfront : frontWord slot.text = (s ++ '}' :: r).takeWhile isSymbol := by
    rw [takeWhile_append_of_stop s fun c hc => by cases hc; rfl, frontWord, htext,
      List.dropWhile_append_of_pos hb]
    cases s with
    | nil => rfl
    | cons d ds => rw [List.dropWhile_cons_of_neg (by simp [hs d rfl])]
  rw [htext, List.append_assoc]
  refine reads_statement hb ?_ ?_
  · cases s with
    | nil => intro c hc; cases hc; rfl
    | cons d ds => exact hs
  · rw [List.append_assoc, List.singleton_append, ← hfront, plain, insert_eq]
    exact hslot.map

end Siblings

end Stencil.Template
