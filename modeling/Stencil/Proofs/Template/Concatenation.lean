import Mathlib.Data.List.Induction
import Mathlib.Order.MinMax
import Stencil.Proofs.Expr.Sums
import Stencil.Proofs.Template.Resumption
import Stencil.Proofs.Template.WellFormed

/-!
# Template — Concatenation

Two texts in a row stand for the siblings of both, if no backslash at the end of the first one
reaches over to the second (`Row.append`).  Where data meet data they become one (`Node.joined`),
which makes no difference to what is written (`Node.writtenBy_joined`).  So the template of the two
texts in a row writes what their templates write in a row (`ofText_append`).
-/

namespace Stencil

open Scanner Text

namespace Node

/-- Siblings in a row, where data that meet data become one. -/
def joined : List Node → List Node → List Node
  | [], ms => ms
  | [.data v], .data w :: ms => .data (v ++ w) :: ms
  | n :: ns, ms => n :: joined ns ms

theorem joined_of_noData {n : Node} (h : n.isData = false) (ns ms : List Node) :
    joined (n :: ns) ms = n :: joined ns ms := by
  cases n with
  | data text => cases h
  | insert | choose | loop => rw [joined]; nofun

theorem joined_of_ne_nil {ns : List Node} (h : ns ≠ []) (n : Node) (ms : List Node) :
    joined (n :: ns) ms = n :: joined ns ms := by
  rw [joined]
  intro v w ms' _ _ hns
  exact h hns

/-- To become one makes no difference to what data write. -/
theorem writtenBy_joined (level : Nat) (env : Environment) (ns ms : List Node) :
    writtenBy level env (joined ns ms) =
      (writtenBy level env ns).andThen (writtenBy level env ms) := by
  fun_induction joined ns ms with
  | case1 ms => exact (Written.nothing_andThen _).symm
  | case2 v w ms =>
    have hone : ∀ text, writtenBy level env (.data text :: ms) =
        Written.andThen ⟨text, none⟩ (writtenBy level env ms) := by
      intro text
      rw [← writtenBy_data level env text]
      exact writtenBy_append level env [.data text] ms
    rw [hone, hone, writtenBy_data, ← Written.andThen_assoc]
    rfl
  | case3 n ns ms _ ih =>
    have hcons : ∀ ks, writtenBy level env (n :: ks) =
        (writtenBy level env [n]).andThen (writtenBy level env ks) :=
      fun ks => writtenBy_append level env [n] ks
    rw [hcons, hcons ns, ih, Written.andThen_assoc]

theorem depths_joined (ns ms : List Node) :
    outlineDepth.depths (joined ns ms) = max (outlineDepth.depths ns) (outlineDepth.depths ms) := by
  fun_induction joined ns ms with
  | case1 ms => simp [outlineDepth.depths]
  | case2 v w ms => simp [outlineDepth.depths, outlineDepth]
  | case3 n ns ms _ ih => simp [outlineDepth.depths, ih, Nat.max_assoc]

end Node

namespace Template

/-! ### Backslashes at the end -/

/-- How many backslashes a text ends with. -/
def backslashes (text : List Char) : Nat :=
  (text.reverse.takeWhile (· == '\\')).length

theorem backslashes_snoc (text : List Char) (c : Char) :
    backslashes (text ++ [c]) = if c = '\\' then backslashes text + 1 else 0 := by
  by_cases hc : c = '\\' <;> simp [backslashes, hc]

/-- Only what comes behind another character counts. -/
theorem backslashes_behind {c : Char} (hc : c ≠ '\\') (v w : List Char) :
    backslashes (v ++ c :: w) = backslashes (c :: w) := by
  have hstop : ∀ u, (w.reverse ++ c :: u).takeWhile (· == '\\') =
      w.reverse.takeWhile (· == '\\') := fun u =>
    takeWhile_append_of_stop _ fun d hd => by cases hd; simpa using hc
  simp only [backslashes, List.reverse_append, List.reverse_cons, List.append_assoc,
    List.singleton_append, hstop]

theorem backslashes_cons {c : Char} (hc : c ≠ '\\') (w : List Char) :
    backslashes (c :: w) = backslashes w := by
  have hstop : (w.reverse ++ [c]).takeWhile (· == '\\') = w.reverse.takeWhile (· == '\\') :=
    takeWhile_append_of_stop _ fun d hd => by cases hd; simpa using hc
  simp only [backslashes, List.reverse_cons, hstop]

namespace DataState

variable {s s' : DataState} {w : List Char}

theorem exists_of_after?_snoc {c : Char} (h : s.after? (w ++ [c]) = some s') :
    ∃ s₁, s.after? w = some s₁ ∧ s₁.move c [] = .step 0 s' := by
  induction w generalizing s with
  | nil =>
      rw [List.nil_append, after?] at h
      split at h
      · next hm =>
        cases h
        obtain ⟨rfl, -⟩ := move_step hm
        exact ⟨s, rfl, hm⟩
      · cases h
      · cases h
  | cons d w ih =>
      rw [List.cons_append, after?] at h
      split at h
      · next hm =>
        obtain ⟨s₁, hs₁, hmove⟩ := ih h
        exact ⟨s₁, by rw [after?, hm]; exact hs₁, hmove⟩
      · cases h
      · cases h

/-- A backslash is open if no open one stands before it. -/
theorem escaped_of_move {c : Char} {ahead : List Char} (h : s.move c ahead = .step 0 s') :
    s'.escaped = (!s.escaped && c == '\\') := by
  unfold DataState.move at h
  repeat' split at h
  all_goals cases h
  all_goals simp_all

/-- The last of the backslashes at the end is open if their number is odd. -/
theorem escaped_after? (hs : s.escaped = false) (h : s.after? w = some s') :
    s'.escaped = true ↔ backslashes w % 2 = 1 := by
  induction w using List.reverseRecOn generalizing s' with
  | nil =>
      cases h
      simp [hs, backslashes]
  | append_singleton w c ih =>
      obtain ⟨s₁, hs₁, hm⟩ := exists_of_after?_snoc h
      have hopen := ih hs₁
      rw [backslashes_snoc, escaped_of_move hm]
      by_cases hc : c = '\\'
      · rw [if_pos hc]
        cases he : s₁.escaped <;> simp only [he, hc] at hopen ⊢ <;> simp at hopen ⊢ <;> omega
      · simp [hc]

/-- What data were taken before makes no difference to the machine for data. -/
theorem after?_behind (h : s.after? w = some s') (taken : List Char) :
    DataState.after? { s with taken := s.taken ++ taken } w =
      some { s' with taken := s'.taken ++ taken } := by
  have hmove : ∀ {s s' : DataState} {c : Char} {extra : Nat}, s.move c [] = .step extra s' →
      DataState.move { s with taken := s.taken ++ taken } c [] =
        .step extra { s' with taken := s'.taken ++ taken } := by
    intro s s' c extra hm
    unfold DataState.move at hm ⊢
    dsimp only
    repeat' split at hm
    all_goals cases hm
    all_goals simp_all
  fun_induction DataState.after? s w with
  | case1 s => cases h; rfl
  | case2 s c cs extra s₁ hm ih =>
    rw [DataState.after?, hmove hm]
    exact ih h
  | case3 | case4 => cases h

/-- Data behind data that no open backslash ends go on with them. -/
theorem after?_append_empty (hs : DataState.empty.after? w = some s) (he : s.escaped = false)
    {w' : List Char} (h : DataState.empty.after? w' = some s') :
    ∃ t, DataState.empty.after? (w ++ w') = some t ∧ t.chars = s.chars ++ s'.chars ∧
      t.escaped = s'.escaped := by
  have hstray := DataState.stray_after? hs rfl
  obtain ⟨taken, escaped, stray⟩ := s
  obtain rfl : escaped = false := he
  obtain rfl : stray = false := hstray
  have hrest : DataState.after? ⟨taken, false, false⟩ w' =
      some { s' with taken := s'.taken ++ taken } := after?_behind h taken
  refine ⟨_, (DataState.after?_append hs w').trans hrest, ?_, rfl⟩
  cases he' : s'.escaped <;> simp [DataState.chars, he']

end DataState

/-! ### Rows -/

variable {levels : Nat} {inner : Inner} {context : Context} {ns ms : List Node}
  {closing : Closing} {v w : List Char}

/-- A statement in front of a row. -/
theorem isData_of_statement (hfit : FitsInside levels inner) {n : Node} {r : List Char}
    (h : (statement inner context).Reads v (.inl n) r) : n.isData = false :=
  ((yields_statement hfit _ _ _ _ (h (.start ""))).1 n rfl).noData

/-- A row behind data that no open backslash ends. -/
theorem Row.append_data (hfit : FitsInside levels inner) {c : Char} {s : DataState}
    (hs : DataState.empty.after? (c :: v) = some s) (he : s.escaped = false)
    (h : Row inner context w ms closing) :
    Row inner context (c :: v ++ w) (Node.joined [.data (String.ofList s.chars)] ms) closing := by
  cases h with
  | ended => exact .data hs (.inl rfl) .ended
  | closed h => exact .data hs (.inr ⟨he, _, rfl⟩) (.closed h)
  | @statement u z n ns closing hn rest =>
      have hjoined : Node.joined [.data (String.ofList s.chars)] (n :: ns) =
          .data (String.ofList s.chars) :: n :: ns := by
        have hdata := isData_of_statement hfit (hn [])
        cases n with
        | data text => cases hdata
        | insert | choose | loop => rfl
      rw [hjoined]
      exact .data hs (.inr ⟨he, _, rfl⟩) (.statement hn rest)
  | @data d u z s' ns closing hs' ends rest =>
      obtain ⟨t, ht, hchars, hescaped⟩ := DataState.after?_append_empty hs he hs'
      have hends : t.EndsAt z := by
        rcases ends with rfl | ⟨he', hz⟩
        · exact .inl rfl
        · exact .inr ⟨hescaped.trans he', hz⟩
      rw [← List.append_assoc, Node.joined, ← String.ofList_append, ← hchars]
      exact .data ht hends rest

/-- **Rows in a row** are a row, if no open backslash ends the first. -/
theorem Row.append (hfit : FitsInside levels inner) (hv : Row inner context v ns .endOfText)
    (hw : Row inner context w ms .endOfText) (hopen : backslashes v % 2 = 0) :
    Row inner context (v ++ w) (Node.joined ns ms) .endOfText := by
  generalize hclosing : Closing.endOfText = closing at hv
  -- By induction on the first row.  There is something to join only where it ends in data.
  induction hv with
  | ended => exact hw
  | closed h => exact absurd hclosing.symm (ne_endOfText_of_statement (h [] (.start "")))
  | @statement u z n ns closing hn rest ih =>
      rw [Node.joined_of_noData (isData_of_statement hfit (hn []))]
      have hz : backslashes z % 2 = 0 := by
        rw [← hopen, ← backslashes_cons (c := '}') (by decide) z, List.append_assoc,
          List.singleton_append, ← List.cons_append, backslashes_behind (by decide)]
      have hrow := Row.statement hn (ih hz hclosing)
      simpa only [List.cons_append, List.append_assoc] using hrow
  | @data c u z s ns closing hs ends rest ih =>
      rcases ends with rfl | ⟨he, z', rfl⟩
      · subst hclosing
        obtain rfl : ns = [] := by cases rest; rfl
        rw [List.append_nil] at hopen ⊢
        refine Row.append_data hfit hs ?_ hw
        have hescaped := DataState.escaped_after? rfl hs
        cases he : s.escaped with
        | false => rfl
        | true => have := hescaped.mp he; omega
      · have hne : ns ≠ [] := by
          subst hclosing
          cases rest with
          | closed h => exact absurd rfl (ne_endOfText_of_statement (h [] (.start "")))
          | statement => nofun
          | data => nofun
        rw [Node.joined_of_ne_nil hne, List.append_assoc]
        rw [backslashes_behind (by decide)] at hopen
        exact .data hs (.inr ⟨he, _, rfl⟩) (ih hopen hclosing)

/-! ### Templates -/

/-- The body of a template made of some siblings, of which there may be none. -/
def bodyOf (ns : List Node) : List Node :=
  if ns.isEmpty then [.data ""] else ns

theorem writtenBy_bodyOf (level : Nat) (env : Environment) (ns : List Node) :
    Node.writtenBy level env (bodyOf ns) = Node.writtenBy level env ns := by
  cases ns with
  | nil => exact Node.writtenBy_data level env ""
  | cons n ns => rfl

theorem depths_bodyOf (ns : List Node) :
    Node.outlineDepth.depths (bodyOf ns) = Node.outlineDepth.depths ns := by
  cases ns with
  | nil => rfl
  | cons n ns => rfl

variable {n₁ n₂ : String} {t u : List Char} {a b : Template}

/-- The template of two texts in a row has an outline as deep as the deeper of theirs, and its
siblings write what theirs write in a row. -/
theorem exists_ofText_append (ha : ofText n₁ t = .ok a) (hb : ofText n₂ u = .ok b)
    (hopen : backslashes t % 2 = 0) (n₃ : String) :
    ∃ c, ofText n₃ (t ++ u) = .ok c ∧ c.outlineDepth = max a.outlineDepth b.outlineDepth ∧
      ∀ level env, Node.writtenBy level env c.body =
        (Node.writtenBy level env a.body).andThen (Node.writtenBy level env b.body) := by
  obtain ⟨ns, hns, rfl⟩ := ofText_iff_row.mp ha
  obtain ⟨ms, hms, rfl⟩ := ofText_iff_row.mp hb
  have hrow := hns.append (fitsInside_innerAt blockLimit) hms hopen
  refine ⟨⟨bodyOf (Node.joined ns ms)⟩, ofText_iff_row.mpr ⟨_, hrow, rfl⟩, ?_, fun level env => ?_⟩
  · change Node.outlineDepth.depths (bodyOf _) =
      max (Node.outlineDepth.depths (bodyOf ns)) (Node.outlineDepth.depths (bodyOf ms))
    rw [depths_bodyOf, depths_bodyOf, depths_bodyOf, Node.depths_joined]
  · change Node.writtenBy level env (bodyOf _) = Written.andThen
      (Node.writtenBy level env (bodyOf ns)) (Node.writtenBy level env (bodyOf ms))
    rw [writtenBy_bodyOf, writtenBy_bodyOf, writtenBy_bodyOf, Node.writtenBy_joined]

/-- **Templates concatenate.**  If two texts are templates and no open backslash ends the first one,
the two in a row are a template, which writes what the first one writes and, unless that fails, what
the second one writes.  Only where outlines are asked for, a second one with too deep an outline
ends all at once. -/
theorem ofText_append (n₁ n₂ n₃ : String) (t u : List Char) (a b : Template)
    (ha : ofText n₁ t = .ok a) (hb : ofText n₂ u = .ok b) (hopen : backslashes t % 2 = 0) :
    ∃ c, ofText n₃ (t ++ u) = .ok c ∧ ∀ level env,
      (¬(outlineLevel ≤ level ∧ Line.depthLimit < b.outlineDepth) →
        c.writes level env = (a.writes level env).andThen (b.writes level env)) ∧
      (outlineLevel ≤ level ∧ Line.depthLimit < b.outlineDepth →
        c.writes level env = ⟨"", some (.of .lineTooDeep)⟩) := by
  obtain ⟨c, hc, hdepth, hwritten⟩ := exists_ofText_append ha hb hopen n₃
  refine ⟨c, hc, fun level env => ⟨fun hlow => ?_, fun hdeep => ?_⟩⟩
  · by_cases hdeep : outlineLevel ≤ level ∧ Line.depthLimit < a.outlineDepth
    · have hdeep' : outlineLevel ≤ level ∧ Line.depthLimit < c.outlineDepth :=
        ⟨hdeep.1, hdepth ▸ lt_max_of_lt_left hdeep.2⟩
      rw [writes_of_deep env hdeep', writes_of_deep env hdeep, Written.andThen]
    · have hlow' : ¬(outlineLevel ≤ level ∧ Line.depthLimit < c.outlineDepth) := by
        rw [hdepth, lt_max_iff]
        tauto
      rw [writes_eq_writtenBy env hlow', writes_eq_writtenBy env hdeep,
        writes_eq_writtenBy env hlow, hwritten]
  · exact writes_of_deep env ⟨hdeep.1, hdepth ▸ lt_max_of_lt_right hdeep.2⟩

theorem ofText_append_of_two_backslashes :
    let a : Template := ⟨[.insert (.ident "x" []), .data "\\"]⟩
    let b : Template := ⟨[.data ";", .insert (.ident "y" [])]⟩
    ofText "t" ['{', 'x', '}', '\\', '\\'] = .ok a ∧
    ofText "u" [';', '{', 'y', '}'] = .ok b ∧
    backslashes ['{', 'x', '}', '\\', '\\'] % 2 = 0 ∧
    ¬(outlineLevel ≤ 0 ∧ Line.depthLimit < b.outlineDepth) ∧
    ∃ c, ofText "v" (['{', 'x', '}', '\\', '\\'] ++ [';', '{', 'y', '}']) = .ok c ∧
      c.writes 0 (Environment.empty.push "x" (.integer 1)) =
        ⟨"1\\;", some (.of (.symbolNotFound "y"))⟩ := by
  intro a b
  have ha : ofText "t" ['{', 'x', '}', '\\', '\\'] = .ok a := by with_unfolding_all rfl
  have hb : ofText "u" [';', '{', 'y', '}'] = .ok b := by with_unfolding_all rfl
  have hopen : backslashes ['{', 'x', '}', '\\', '\\'] % 2 = 0 := rfl
  have hlow : ¬(outlineLevel ≤ 0 ∧ Line.depthLimit < b.outlineDepth) := by decide
  obtain ⟨c, hc, hwrites⟩ := ofText_append "t" "u" "v" _ _ a b ha hb hopen
  refine ⟨ha, hb, hopen, hlow, c, hc, ?_⟩
  rw [(hwrites 0 _).1 hlow]
  with_unfolding_all rfl

/-- A sum of ones between braces is a template, with an outline as deep as there are ones, and one
call more. -/
theorem exists_ofText_ones (name : String) (k : Nat) :
    ∃ b, ofText name ('{' :: (Expr.ones (k + 1) ++ ['}'])) = .ok b ∧ b.outlineDepth = k + 3 := by
  have hrow : Row (innerAt blockLimit) .outermost ('{' :: (Expr.ones (k + 1) ++ ['}'] ++ []))
      [.insert (Expr.sum (k + 1))] .endOfText :=
    .statement (reads_insert ⟨Expr.ones (k + 1), _, Expr.ofText_ones k⟩ rfl) .ended
  rw [List.append_nil] at hrow
  refine ⟨_, ofText_iff_row.mpr ⟨_, hrow, rfl⟩, ?_⟩
  change max (Expr.sum (k + 1)).textDepth 0 = k + 3
  rw [Expr.textDepth_sum, Nat.max_zero]

/-- Where its outline is asked for, a template with a sum of five thousand ones writes nothing, not
even the letter in front of the sum. -/
theorem ofText_append_not_outlined :
    ¬∀ (n₁ n₂ n₃ : String) (t u : List Char) (a b : Template), ofText n₁ t = .ok a →
      ofText n₂ u = .ok b → backslashes t % 2 = 0 →
        ∃ c, ofText n₃ (t ++ u) = .ok c ∧ ∀ level env,
          c.writes level env = (a.writes level env).andThen (b.writes level env) := by
  intro h
  obtain ⟨b, hb, hdepth⟩ := exists_ofText_ones "u" 4998
  have ha : ofText "t" ['a'] = .ok ⟨[.data "a"]⟩ := by with_unfolding_all rfl
  obtain ⟨c, hc, hwrites⟩ := h "t" "u" "v" _ _ _ _ ha hb rfl
  obtain ⟨c', hc', hdepth', -⟩ := exists_ofText_append ha hb rfl "v"
  obtain rfl : c = c' := by
    rw [hc] at hc'
    cases hc'
    rfl
  have hdeep : outlineLevel ≤ 4 ∧ Line.depthLimit < b.outlineDepth := by
    rw [hdepth]
    decide
  have hdeep' : outlineLevel ≤ 4 ∧ Line.depthLimit < c.outlineDepth :=
    ⟨hdeep.1, hdepth' ▸ lt_max_of_lt_right hdeep.2⟩
  have hfour := hwrites 4 .empty
  rw [writes_of_deep .empty hdeep', writes_of_deep .empty hdeep,
    writes_eq_writtenBy .empty (by decide), Node.writtenBy_data] at hfour
  exact absurd (congrArg Written.text hfour) (by decide)

end Template

end Stencil
