import Stencil.Proofs.Template.Statements
import Mathlib.Order.MinMax

/-!
# Template — Source

The reader of templates is a left inverse of writing (`ofText_source`).  Siblings are read with the
levels that are left for blocks: where they suffice, as the nodes they were written for
(`readsSource_of_depth_le`), and where they do not, the reading fails at the first block too many
(`tooDeep_of_lt_depth`).  Both are proved by induction on the pieces, for all contexts and all that
may come behind; how a list of siblings may end in a context is `Ends`.
-/

namespace Stencil.Template

open Scanner Text

/-! ### Templates -/

/-- What may end the siblings in a context, the text that says so, and what may come behind it. -/
inductive Ends : Context → Closing → List Char → List Char → Prop where
  | endOfText : Ends .outermost .endOfText [] []
  | elseStatement (r : List Char) : Ends .firstBranch .elseStatement "{else}".toList r
  | endStatement {context : Context} (h : context ≠ .outermost) (r : List Char) :
    Ends context .endStatement "{end}".toList r

section Ends

variable {inner : Inner} {context : Context} {closing : Closing} {w r : List Char}

theorem Ends.opens (h : Ends context closing w r) : Opens (w ++ r) := by
  cases h with
  | endOfText => exact fun c hc => by cases hc
  | elseStatement r => exact fun c hc => by cases hc; rfl
  | endStatement _ r => exact fun c hc => by cases hc; rfl

/-- The siblings end where they may. -/
theorem Ends.reads (h : Ends context closing w r) :
    (siblings inner context).Reads w ([], closing) r := by
  cases h with
  | endOfText => exact reads_gather_nil fun p => rfl
  | elseStatement r =>
      have hclose : (statement inner .firstBranch).Reads ("else".toList ++ ['}'])
          (.inr .elseStatement) r := by
        refine reads_keyword .elseWord (fun c hc => by cases hc; rfl) ?_
        refine (reads_take "else".toList _).bind
          ((reads_endOfStatement (b := []) (fun c hc => by cases hc) _ r).bind_nil ?_)
        rw [if_pos rfl]
        exact reads_pure _ r
      exact reads_gather_last (reads_opening '{' _) hclose
  | endStatement hne r =>
      have hclose : (statement inner context).Reads ("end".toList ++ ['}'])
          (.inr .endStatement) r := by
        refine reads_keyword .endWord (fun c hc => by cases hc; rfl) ?_
        refine (reads_take "end".toList _).bind
          ((reads_endOfStatement (b := []) (fun c hc => by cases hc) _ r).bind_nil ?_)
        rw [if_neg hne]
        exact reads_pure _ r
      exact reads_gather_last (reads_opening '{' _) hclose

end Ends

theorem Piece.source_eq_cons {p : Piece} (h : p.isData = false) : ∃ v, p.source = '{' :: v := by
  cases p with
  | data => cases h
  | insert | choose | loop => exact ⟨_, rfl⟩

theorem opens_source {ps : List Piece} (h : ∀ q ∈ ps.head?, q.isData = false) {r : List Char}
    (hr : Opens r) : Opens (source ps ++ r) := by
  cases ps with
  | nil => exact hr
  | cons p ps =>
      obtain ⟨v, hv⟩ := p.source_eq_cons (h p rfl)
      rw [source, hv]
      intro c hc
      cases hc
      rfl

section Siblings

variable {inner : Inner} {context : Context} {closing : Closing} {p : Piece} {ps : List Piece}
  {w r cs : List Char} {cause : Cause}

/-- A sibling that is no data is read as a statement. -/
def ReadsPiece (inner : Inner) (context : Context) (p : Piece) : Prop :=
  p.isData = false →
    ∃ v, p.source = '{' :: v ∧ ∀ r, (statement inner context).Reads v (.inl p.node) r

/-- A piece is read in front of the others. -/
theorem reads_cons (hp : ReadsPiece inner context p)
    (hnext : p.isData = true → Opens (source ps ++ w ++ r))
    (hps : (siblings inner context).Reads (source ps ++ w) (nodes ps, closing) r) :
    (siblings inner context).Reads (source (p :: ps) ++ w) (nodes (p :: ps), closing) r := by
  rw [source, List.append_assoc, nodes]
  cases hdata : p.isData with
  | false =>
      obtain ⟨v, hv, hread⟩ := hp hdata
      rw [hv]
      exact reads_siblings_statement (hread _) hps
  | true =>
      cases p with
      | data text hne => exact reads_siblings_data hne (hnext hdata) hps
      | insert | choose | loop => cases hdata

theorem fails_cons (hp : ReadsPiece inner context p) (hnext : p.isData = true → Opens cs)
    (hcs : (siblings inner context).Fails cs cause) :
    (siblings inner context).Fails (p.source ++ cs) cause := by
  cases hdata : p.isData with
  | false =>
      obtain ⟨v, hv, hread⟩ := hp hdata
      rw [hv]
      exact fails_siblings_behind_statement (hread _) hcs
  | true =>
      cases p with
      | data text hne => exact fails_siblings_behind_data hne (hnext hdata) hcs
      | insert | choose | loop => cases hdata

end Siblings

/-- With `d` levels left, some siblings are read as what they were written for. -/
def ReadsSource (d : Nat) (ps : List Piece) : Prop :=
  ∀ {context closing w r}, Ends context closing w r →
    (nested d context).Reads (source ps ++ w) (nodes ps, closing) r

/-- With `d` levels left, blocks are found too deep in some siblings. -/
def TooDeep (d : Nat) (ps : List Piece) : Prop :=
  ∀ context {r}, Opens r → (nested d context).Fails (source ps ++ r) (.blocksTooDeep blockLimit)

/-- An `if` block is read one level further in, branch by branch. -/
theorem readsPiece_choose {d : Nat} {slot : Slot} {holds fails : List Piece} {withElse : Bool}
    (hholds : ReadsSource d holds) (hfails : ReadsSource d fails) (context : Context) :
    ReadsPiece (innerAt (d + 1)) context (.choose slot holds fails withElse) := by
  intro _
  refine ⟨_, rfl, fun r => reads_if slot ?_⟩
  cases helse : withElse || !fails.isEmpty with
  | true =>
      rw [if_pos rfl, List.append_assoc, ← List.append_assoc]
      exact reads_branches_else (hholds (.elseStatement _)) (hfails (.endStatement (by nofun) r))
  | false =>
      obtain ⟨-, hnil⟩ := Bool.or_eq_false_iff.mp helse
      obtain rfl : fails = [] := by simpa using hnil
      rw [if_neg nofun, List.nil_append]
      exact reads_branches (hholds (.endStatement (by nofun) r))

/-- A loop is read one level further in. -/
theorem readsPiece_loop {d : Nat} {name : LoopName} {slot : Slot} {body : List Piece}
    (hbody : ReadsSource d body) (context : Context) :
    ReadsPiece (innerAt (d + 1)) context (.loop name slot body) := by
  intro _
  exact ⟨_, rfl, fun r => reads_for name slot (reads_loopRest (hbody (.endStatement (by nofun) r)))⟩

theorem readsPiece_insert {inner : Inner} {slot : Slot}
    {plain : keyword? (frontWord slot.text) = none} (context : Context) :
    ReadsPiece inner context (.insert slot plain) := by
  intro _
  exact ⟨_, rfl, reads_insert slot plain⟩

theorem readsPiece_data {inner : Inner} {text : String} {hne : text.toList ≠ []}
    (context : Context) : ReadsPiece inner context (.data text hne) := by
  intro h
  cases h

theorem readsSource_cons {p : Piece} {ps : List Piece} {d : Nat} (spread : Spread (p :: ps))
    (hp : ∀ context, ReadsPiece (innerAt d) context p) (hps : ReadsSource d ps) :
    ReadsSource d (p :: ps) := by
  intro context closing w r hend
  have h := hps hend
  rw [nested_eq] at h ⊢
  refine reads_cons (hp context) (fun hdata => ?_) h
  rw [List.append_assoc]
  exact opens_source (spread.2.1 hdata) hend.opens

/-- Where enough levels are left, siblings are read as what they were written for. -/
theorem readsSource_of_depth_le (ps : List Piece) :
    Spread ps → ∀ {d}, depth ps ≤ d → ReadsSource d ps := by
  -- By induction on the pieces; what is inside of a block has one level less.
  induction ps using pieces_induction with
  | nil =>
      intro _ d _ context closing w r hend
      rw [nested_eq]
      exact hend.reads
  | data text hne ps ih =>
      intro hspread d hd
      exact readsSource_cons hspread readsPiece_data (ih hspread.2.2 (Nat.max_le.mp hd).2)
  | insert slot plain ps ih =>
      intro hspread d hd
      exact readsSource_cons hspread readsPiece_insert (ih hspread.2.2 (Nat.max_le.mp hd).2)
  | choose slot holds fails withElse ps ihHolds ihFails ih =>
      intro hspread d hd
      obtain ⟨hblock, hps⟩ := Nat.max_le.mp hd
      cases d with
      | zero => exact absurd hblock (Nat.not_succ_le_zero _)
      | succ d =>
          obtain ⟨hholds, hfails⟩ := Nat.max_le.mp (Nat.le_of_succ_le_succ hblock)
          exact readsSource_cons hspread
            (readsPiece_choose (ihHolds hspread.1.1 hholds) (ihFails hspread.1.2 hfails))
            (ih hspread.2.2 hps)
  | loop name slot body ps ihBody ih =>
      intro hspread d hd
      obtain ⟨hblock, hps⟩ := Nat.max_le.mp hd
      cases d with
      | zero => exact absurd hblock (Nat.not_succ_le_zero _)
      | succ d =>
          exact readsSource_cons hspread
            (readsPiece_loop (ihBody hspread.1 (Nat.le_of_succ_le_succ hblock)))
            (ih hspread.2.2 hps)

/-- An `if` block fails if one of its branches nests too deep. -/
theorem fails_choose {d : Nat} {slot : Slot} {holds fails : List Piece} {withElse : Bool}
    (spread : Spread holds) (hdeep : d < max (depth holds) (depth fails) + 1)
    (hholds : ∀ {d}, d < depth holds → TooDeep d holds)
    (hfails : ∀ {d}, d < depth fails → TooDeep d fails) (context : Context) {r : List Char} :
    ∃ v, (Piece.choose slot holds fails withElse).source = '{' :: v ∧
      (statement (innerAt d) context).Fails (v ++ r) (.blocksTooDeep blockLimit) := by
  refine ⟨_, rfl, ?_⟩
  rw [List.append_assoc]
  refine fails_if slot ?_
  cases d with
  | zero => exact fails_branches nofun
  | succ d =>
      by_cases hd : d < depth holds
      · refine fails_branches fun readers hreaders => ?_
        cases hreaders
        rw [List.append_assoc]
        refine hholds hd _ ?_
        cases withElse || !fails.isEmpty <;> exact fun c hc => by cases hc; rfl
      · -- The first branch is read, and the second one nests too deep, so that it is written.
        have hd' : d < depth fails :=
          (lt_max_iff.mp (Nat.lt_of_succ_lt_succ hdeep)).resolve_left hd
        have helse : (withElse || !fails.isEmpty) = true := by
          cases fails with
          | nil => exact absurd hd' (Nat.not_lt_zero d)
          | cons p ps => exact Bool.or_true withElse
        have hread : ReadsSource d holds :=
          readsSource_of_depth_le holds spread (Nat.le_of_not_lt hd)
        rw [if_pos helse]
        have hfail : (branches (innerAt (d + 1)) slot.expr).Fails _ (.blocksTooDeep blockLimit) :=
          fails_branches_else (hread (.elseStatement _))
            (hfails hd' .secondBranch (r := "{end}".toList ++ r) fun c hc => by cases hc; rfl)
        simpa using hfail

/-- A loop fails if its body nests too deep. -/
theorem fails_loop {d : Nat} {name : LoopName} {slot : Slot} {body : List Piece}
    (hdeep : d < depth body + 1) (hbody : ∀ {d}, d < depth body → TooDeep d body)
    (context : Context) {r : List Char} :
    ∃ v, (Piece.loop name slot body).source = '{' :: v ∧
      (statement (innerAt d) context).Fails (v ++ r) (.blocksTooDeep blockLimit) := by
  refine ⟨_, rfl, ?_⟩
  rw [List.append_assoc]
  refine fails_for name slot ?_
  cases d with
  | zero => exact fails_loopRest nofun
  | succ d =>
      refine fails_loopRest fun readers hreaders => ?_
      cases hreaders
      rw [List.append_assoc]
      exact hbody (Nat.lt_of_succ_lt_succ hdeep) _ fun c hc => by cases hc; rfl

/-- Either the first of some siblings nests too deep, or it is read and the others do. -/
theorem tooDeep_cons {p : Piece} {ps : List Piece} {d : Nat} (spread : Spread (p :: ps))
    (hd : d < depth (p :: ps))
    (hfail : d < p.depth → ∀ context r, ∃ v, p.source = '{' :: v ∧
      (statement (innerAt d) context).Fails (v ++ r) (.blocksTooDeep blockLimit))
    (hread : p.depth ≤ d → ∀ context, ReadsPiece (innerAt d) context p)
    (hps : d < depth ps → TooDeep d ps) : TooDeep d (p :: ps) := by
  intro context r hr
  rw [nested_eq, source, List.append_assoc]
  by_cases hp : d < p.depth
  · obtain ⟨v, hv, hf⟩ := hfail hp context (source ps ++ r)
    rw [hv]
    exact fails_siblings_statement hf
  · have h := hps ((lt_max_iff.mp hd).resolve_left hp) context hr
    rw [nested_eq] at h
    exact fails_cons (hread (Nat.le_of_not_lt hp) context)
      (fun hdata => opens_source (spread.2.1 hdata) hr) h

/-- Where too few levels are left, the reading of siblings ends where the first block too many
starts. -/
theorem tooDeep_of_lt_depth (ps : List Piece) :
    Spread ps → ∀ {d}, d < depth ps → TooDeep d ps := by
  -- What nests too deep is the first piece, or else one of those behind it.
  induction ps using pieces_induction with
  | nil => exact fun _ d hd => absurd hd (Nat.not_lt_zero d)
  | data text hne ps ih =>
      intro hspread d hd
      exact tooDeep_cons hspread hd (fun h => absurd h (Nat.not_lt_zero d))
        (fun _ => readsPiece_data) (ih hspread.2.2)
  | insert slot plain ps ih =>
      intro hspread d hd
      exact tooDeep_cons hspread hd (fun h => absurd h (Nat.not_lt_zero d))
        (fun _ => readsPiece_insert) (ih hspread.2.2)
  | choose slot holds fails withElse ps ihHolds ihFails ih =>
      intro hspread d hd
      obtain ⟨hholds, hfails⟩ := hspread.1
      refine tooDeep_cons hspread hd (fun h context r => fails_choose hholds h (ihHolds hholds)
        (ihFails hfails) context) (fun h => ?_) (ih hspread.2.2)
      cases d with
      | zero => exact absurd h (Nat.not_succ_le_zero _)
      | succ d =>
          obtain ⟨h₁, h₂⟩ := Nat.max_le.mp (Nat.le_of_succ_le_succ h)
          exact readsPiece_choose (readsSource_of_depth_le holds hholds h₁)
            (readsSource_of_depth_le fails hfails h₂)
  | loop name slot body ps ihBody ih =>
      intro hspread d hd
      refine tooDeep_cons hspread hd (fun h context r => fails_loop h (ihBody hspread.1) context)
        (fun h => ?_) (ih hspread.2.2)
      cases d with
      | zero => exact absurd h (Nat.not_succ_le_zero _)
      | succ d =>
          exact readsPiece_loop
            (readsSource_of_depth_le body hspread.1 (Nat.le_of_succ_le_succ h))

/-- **The reader of templates reads what was written.**  For a template that is not empty and in
which no data stand next to data, the text written for it is read as its nodes, if blocks nest no
deeper than the limit; if they nest deeper, the reading fails and says so. -/
theorem ofText_source (name : String) (ps : List Piece) (nonempty : ps ≠ []) (spread : Spread ps) :
    (depth ps ≤ 64 → ofText name (source ps) = .ok ⟨nodes ps⟩) ∧
    (64 < depth ps → ∃ p, ofText name (source ps) = .error (.located (.blocksTooDeep 64) p)) := by
  refine ⟨fun hd => ?_, fun hd => ?_⟩
  · have h := readsSource_of_depth_le ps spread hd .endOfText
    rw [List.append_nil] at h
    have hscan : scanner.Reads (source ps) ⟨nodes ps⟩ [] := by
      refine Reads.bind_nil h ?_
      have hne : (nodes ps).isEmpty = false := by
        cases ps with
        | nil => exact absurd rfl nonempty
        | cons p ps => rfl
      dsimp only
      rw [if_neg (by simp [hne])]
      exact reads_pure _ _
    have hrun := hscan (.start name)
    rw [List.append_nil] at hrun
    exact read_eq_ok.mpr ⟨_, hrun⟩
  · have h := tooDeep_of_lt_depth ps spread hd .outermost (r := []) fun c hc => by cases hc
    rw [List.append_nil] at h
    have hscan : scanner.Fails (source ps) (.blocksTooDeep blockLimit) := h.bind _
    obtain ⟨p, t, hrun⟩ := hscan (.start name)
    exact ⟨p, read_eq_error.mpr ⟨t, hrun⟩⟩

/-- A template with every sort of sibling, a second branch that is empty but written, and a brace
among its data. -/
def everySort : List Piece :=
  let name (text : String) (h : Expr.ofText text.toList = .ok (.ident text [])) : Slot :=
    ⟨text.toList, .ident text [], h⟩
  [.data "<\x7b>" (by decide),
    .choose (name "a" (by with_unfolding_all rfl)) [.data "x" (by decide)] [] true,
    .loop ⟨"v", by decide, List.all_eq_true.mp rfl⟩ (name "a" (by with_unfolding_all rfl))
      [.insert (name "v" (by with_unfolding_all rfl)) (by decide)]]

theorem ofText_source_everySort :
    everySort ≠ [] ∧ Spread everySort ∧ depth everySort ≤ 64 ∧
    source everySort =
      "<\\\x7b>\x7bif a\x7dx\x7belse\x7d\x7bend\x7d\x7bfor v in a\x7d\x7bv\x7d\x7bend\x7d".toList ∧
    ofText "text" (source everySort) = .ok ⟨[.data "<\x7b>", .choose (.ident "a" []) [.data "x"] [],
      .loop "v" (.ident "a" []) [.insert (.ident "v" [])]]⟩ := by
  have hne : everySort ≠ [] := nofun
  have hspread : Spread everySort := by simp [everySort, Spread, Piece.Spread, Piece.isData]
  have hread := (ofText_source "text" everySort hne hspread).1 (by decide)
  exact ⟨hne, hspread, by decide, by decide, hread⟩

end Stencil.Template
