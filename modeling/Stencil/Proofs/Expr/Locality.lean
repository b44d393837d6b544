import Stencil.Proofs.Expr.Lookahead

/-!
# Expr — Locality

The reader of expressions is local: what it reads does not depend on what comes behind a closing
character (`follows_nested`).  If an expression is read where `e` levels of parentheses and brackets
are left, then it takes up characters that nest at most `e` deep, and the same characters are read
as the same expression before every alike rest, with any number of levels left that is not less than
their nesting.

The readers of tokens come first; `TracksInside.closed` is the step from one level to the next.
-/

namespace Stencil.Expr

open Scanner Text

variable {e d : Nat}

/-- The reader `y` follows `x` where expressions are read: before alike rests, and with `d` levels
left in place of `e`. -/
abbrev Tracks {α : Type} (e d : Nat) (x y : Scanner α) : Prop :=
  Follows Alike Balanced.measure e d x y

/-! ### Tokens -/

theorem follows_skipBlank : Tracks e d skipBlank skipBlank := by
  refine follows_fold Alike.prefixClosed ?_ (fun _ _ _ => rfl) ?_ 0
  · intro n r r' h hr c cs hcs
    cases h with
    | close _ h' =>
        have hc := isBlank_closer (h' c (by rw [hcs]; rfl))
        simp [hc]
    | point => cases hcs; rfl
    | cons d h => cases hcs; exact hr c _ rfl
  · intro n c cs extra m h
    split at h
    · next hc =>
      obtain ⟨⟨⟩⟩ | h := h
      · refine ⟨Nat.zero_le _, balanced_of_blanks fun d hd => ?_⟩
        obtain rfl : d = c := by simpa using hd
        exact hc
      · cases h
    · rcases h with h | h <;> cases h

/-- Blanks are skipped before every rest that does not go on with one. -/
theorem run_skipBlank_ok {p : Position} {cs : List Char} {n : Nat} {t : Stencil.Stream}
    (h : skipBlank.run (.ofTextAt p cs) = .ok n t) :
    ∃ w r, cs = w ++ r ∧ t = .ofTextAt (p.after w) r ∧ (∀ c ∈ w, isBlank c = true) ∧
      ∀ c ∈ r.head?, isBlank c = false := by
  obtain ⟨w, r, rfl, hw, hr⟩ := exists_front isBlank cs
  rw [reads_skipBlank hw hr p] at h
  cases h
  exact ⟨w, r, rfl, rfl, hw, hr⟩

theorem reads_closing {c : Char} {w : List Char} (hc : isBlank c = false)
    (hw : ∀ b ∈ w, isBlank b = true) (cause : Cause) (r : List Char) :
    (closing c cause).Reads (w ++ [c]) () r := by
  refine (reads_skipBlank hw fun b hb => ?_).bind
    ((reads_anyChar c r).bind_nil (by rw [if_pos rfl]; exact reads_pure _ _))
  obtain rfl : c = b := by simpa using hb
  exact hc

/-- A closing character is read behind blanks. -/
theorem run_closing_ok {c : Char} {cause : Cause} {p : Position} {cs : List Char} {u : Unit}
    {t : Stencil.Stream} (h : (closing c cause).run (.ofTextAt p cs) = .ok u t) :
    ∃ w r, cs = (w ++ [c]) ++ r ∧ t = .ofTextAt (p.after (w ++ [c])) r ∧
      ∀ b ∈ w, isBlank b = true := by
  obtain ⟨n, s, hs, h⟩ := run_bind_ok h
  obtain ⟨w, r, rfl, rfl, hw, -⟩ := run_skipBlank_ok hs
  obtain ⟨o, s, ho, h⟩ := run_bind_ok h
  cases r with
  | nil =>
      cases ho
      rw [if_neg (by simp)] at h
      cases h
  | cons b r =>
      have hb := reads_anyChar b r (p.after w)
      rw [List.singleton_append, ho] at hb
      cases hb
      split at h
      · next hbc =>
        cases hbc
        cases h
        exact ⟨w, r, by simp, by rw [Position.after_append], hw⟩
      · cases h

/-- The operator at the front of a text, and how many characters it has besides the first. -/
def chosen (c : Char) (ahead : List Char) : Option (Nat × Operator) :=
  (Operator.at? (c :: ahead)).map fun op => (op.symbol.length - 1, op)

theorem infixOperator_eq : infixOperator = (do let _ ← skipBlank; next 1 chosen) := by
  have h : (fun c ahead => do
      let op ← Operator.at? (c :: ahead)
      return (op.symbol.length - 1, op)) = chosen := by
    funext c ahead
    unfold chosen
    cases Operator.at? (c :: ahead) <;> rfl
  rw [infixOperator, h]

theorem chosen_some {c : Char} {cs : List Char} {extra : Nat} {op : Operator}
    (h : chosen c (cs.take 1) = some (extra, op)) :
    extra ≤ cs.length ∧ c :: cs.take extra = op.symbol.toList := by
  cases ho : Operator.at? (c :: cs.take 1) with
  | none => rw [chosen, ho] at h; cases h
  | some op' =>
      rw [chosen, ho] at h
      cases h
      obtain ⟨s, hs⟩ := at?_some ho
      rw [← String.length_toList]
      cases hw : op.symbol.toList with
      | nil => cases op <;> simp [Operator.symbol] at hw
      | cons b w =>
          rw [hw, List.cons_append] at hs
          obtain ⟨rfl, hw'⟩ := List.cons.inj hs
          have hlen : w.length ≤ (cs.take 1).length := by rw [hw']; simp
          have htake : cs.take w.length = w := by
            have h₁ := congrArg (List.take w.length) hw'
            rwa [List.take_left, List.take_take,
              Nat.min_eq_left (hlen.trans (List.length_take_le _ _))] at h₁
          refine ⟨hlen.trans (List.length_take_le' _ _), ?_⟩
          rw [List.length_cons, Nat.add_sub_cancel, htake]

theorem follows_infixOperator : Tracks e d infixOperator infixOperator := by
  rw [infixOperator_eq]
  refine follows_skipBlank.bind Alike.prefixClosed fun _ => follows_next Alike.prefixClosed ?_ ?_ ?_
  · intro r r' h hr c cs hcs
    cases h with
    | close _ h' => rw [chosen, at?_closer (.inl (h' c (by rw [hcs]; rfl)))]; rfl
    | point => cases hcs; rw [chosen, at?_closer (.inr rfl)]; rfl
    | cons d h =>
        cases hcs
        rw [chosen, ← at?_alike c h]
        exact hr c _ rfl
  · intro r r' c h
    rw [chosen, chosen, at?_alike c h]
  · intro c cs extra op h
    obtain ⟨hlen, hw⟩ := chosen_some h
    exact ⟨hlen, by rw [hw]; exact .of_plain (plain_of_mem_symbol op)⟩

theorem follows_word : Tracks e d (word isSymbol none) (word isSymbol none) := by
  intro p cs a t h
  obtain ⟨w, r, rfl, hw, hr⟩ := exists_front isSymbol cs
  rw [reads_word hw hr p] at h
  cases h
  exact .flat (M := Balanced.measure) (Balanced.of_plain fun c hc => plain_of_isSymbol (hw c hc))
    fun r' (h : Alike _ r') => reads_word hw (h.head (fun c => isSymbol_closer) hr)

/-! ### Strings -/

/-- A string literal that is closed ends at its closing quote, whatever comes behind. -/
theorem run_string_closed {p : Position} {cs : List Char} {s z : StringState} {t : Stencil.Stream}
    (hs : s.closed = false) (h : (fold 0 StringState.move s).run (.ofTextAt p cs) = .ok z t)
    (hz : z.closed = true) :
    ∃ w r, cs = w ++ r ∧ t = .ofTextAt (p.after w) r ∧
      (∀ n m, w.foldl Opened.next ⟨true, s.escaped, n, m⟩ = ⟨false, false, n, m⟩) ∧
      ∀ r', (fold 0 StringState.move s).Reads w z r' := by
  induction cs generalizing s p with
  | nil =>
      rw [show (fold 0 StringState.move s).run _ = _ from foldFrom_nil 0 _ s p] at h
      cases h
      rw [hs] at hz
      cases hz
  | cons c cs ih =>
      -- One step inside the literal: the quotes seen so far and the machine's state go together.
      have step : ∀ s' : StringState, (∀ ds, StringState.move s c ds = .step 0 s') →
          s'.closed = false →
          (∀ n m, Opened.next ⟨true, s.escaped, n, m⟩ c = ⟨true, s'.escaped, n, m⟩) →
          ∃ w r, c :: cs = w ++ r ∧ t = .ofTextAt (p.after w) r ∧
            (∀ n m, w.foldl Opened.next ⟨true, s.escaped, n, m⟩ = ⟨false, false, n, m⟩) ∧
            ∀ r', (fold 0 StringState.move s).Reads w z r' := by
        intro s' hm hs' hn
        rw [show (fold 0 StringState.move s).run _ = _ from foldFrom_step (hm _) p] at h
        obtain ⟨w, r, hcs, rfl, hw, hread⟩ := ih hs' h
        have hcs' : cs = w ++ r := hcs
        refine ⟨c :: w, r, by rw [hcs', List.cons_append], rfl, fun n m => ?_, fun r' =>
          reads_fold_step_zero (hm _) (hread r')⟩
        rw [List.foldl_cons, hn, hw]
      by_cases he : s.escaped = true
      · have hm : ∀ ds, StringState.move s c ds =
            .step 0 { s with taken := c :: s.taken, escaped := false } := fun ds => by
          simp [StringState.move, he]
        exact step _ hm hs fun n m => by simp [Opened.next, he]
      · have he : s.escaped = false := by simpa using he
        by_cases hb : c = '\\'
        · have hm : ∀ ds, StringState.move s c ds = .step 0 { s with escaped := true } :=
            fun ds => by simp [StringState.move, he, hb]
          exact step _ hm hs fun n m => by simp [Opened.next, he, hb]
        · by_cases hq : c = '"'
          · have hm : ∀ ds, StringState.move s c ds = .last 0 { s with closed := true } :=
              fun ds => by simp [StringState.move, he, hq]
            rw [show (fold 0 StringState.move s).run _ = _ from foldFrom_last (hm _) p] at h
            cases h
            refine ⟨[c], cs, rfl, rfl, fun n m => by simp [Opened.next, he, hq], fun r' => ?_⟩
            exact reads_fold_last (w := []) (hm _)
          · have hm : ∀ ds, StringState.move s c ds = .step 0 { s with taken := c :: s.taken } :=
              fun ds => by simp [StringState.move, he, hb, hq]
            exact step _ hm hs fun n m => by simp [Opened.next, he, hb, hq]

/-- A string literal is read up to its closing quote, whatever comes behind. -/
theorem run_stringLiteral_ok {p : Position} {cs : List Char} {a : String} {t : Stencil.Stream}
    (h : stringLiteral.run (.ofTextAt p cs) = .ok a t) :
    ∃ w r, cs = ('"' :: w) ++ r ∧ t = .ofTextAt (p.after ('"' :: w)) r ∧ Balanced ('"' :: w) 0 ∧
      ∀ r', stringLiteral.Reads ('"' :: w) a r' := by
  obtain ⟨o, u, ho, h⟩ := run_bind_ok h
  cases cs with
  | nil => cases ho; cases h
  | cons c cs =>
      by_cases hc : c = '"'
      · subst hc
        have hacc := @reads_accept (· == '"') '"' rfl
        have hrun : (accept (· == '"')).run (.ofTextAt p ('"' :: cs)) = _ := hacc cs p
        rw [hrun] at ho
        cases ho
        obtain ⟨z, v, hz, h⟩ := run_bind_ok h
        split at h
        · next hclosed =>
          cases h
          obtain ⟨w, r, rfl, rfl, hw, hread⟩ := run_string_closed rfl hz hclosed
          refine ⟨w, r, rfl, rfl, .of_quoted hw, fun r' =>
            (hacc (w ++ r')).bind ((hread r').bind_nil ?_)⟩
          rw [if_pos hclosed]
          exact reads_pure _ _
        · cases h
      · rw [show (accept (· == '"')).run _ = _ from run_next_of_none (by simp [hc]) p] at ho
        cases ho
        cases h

theorem follows_stringLiteral : Tracks e d stringLiteral stringLiteral := by
  intro p cs a t h
  obtain ⟨w, r, rfl, rfl, hw, hread⟩ := run_stringLiteral_ok h
  exact .flat (M := Balanced.measure) hw fun r' _ => hread r'

/-! ### Numbers -/

/-- The value of a literal does not depend on its place. -/
theorem evaluate_ok {l : Literal} {q : Position} {v : Value} (h : l.evaluate q = .ok v)
    (q' : Position) : l.evaluate q' = .ok v := by
  unfold Literal.evaluate at h ⊢
  -- The place is told in failures alone, so each way to a value is the same at both places.
  by_cases hm : (!l.hasMantissa) = true
  · rw [if_pos hm] at h
    cases h
  rw [if_neg hm] at h ⊢
  by_cases hf : (!l.isFloat) = true
  · rw [if_pos hf] at h ⊢
    by_cases ho : Numeral.overlong l.base l.whole = true
    · rw [if_pos ho] at h
      cases h
    rw [if_neg ho] at h ⊢
    by_cases hr : Numeral.inRange l.toInt
    · rw [if_pos hr] at h ⊢
      exact h
    · rw [if_neg hr] at h
      cases h
  rw [if_neg hf] at h ⊢
  by_cases hs : l.strayed.isSome = true
  · rw [if_pos hs] at h
    cases h
  rw [if_neg hs] at h ⊢
  by_cases hx : l.toBinary64.isFinite = true
  · rw [if_pos hx] at h ⊢
    exact h
  · rw [if_neg hx] at h
    cases h

/-- What the reader of numbers makes of what its machine takes. -/
theorem run_number_of_fold {s t : Stencil.Stream} {l : Literal}
    (h : (fold 2 Literal.move .empty).run s = .ok l t) :
    number.run s =
      match l.evaluate t.position with
      | .ok v => .ok v t
      | .error f => .error f t := by
  refine (run_bind_of_ok h).trans ?_
  rw [run_bind_of_ok (x := position) rfl]
  cases l.evaluate t.position <;> rfl

theorem reads_number {w r : List Char} {l : Literal} {v : Value}
    (hl : (fold 2 Literal.move .empty).Reads w l r) (hv : ∀ q, l.evaluate q = .ok v) :
    number.Reads w v r := by
  intro p
  rw [run_number_of_fold (hl p), hv]

/-- The run of the machine for numbers, and the value of what it takes. -/
theorem run_number_ok {s t : Stencil.Stream} {v : Value} (h : number.run s = .ok v t) :
    ∃ l, (fold 2 Literal.move .empty).run s = .ok l t ∧ ∀ q, l.evaluate q = .ok v := by
  obtain ⟨l, u, hl, h⟩ := run_bind_ok h
  obtain ⟨q, u', hq, h⟩ := run_bind_ok h
  cases hq
  cases hv : l.evaluate u.position with
  | ok v' => rw [hv] at h; cases h; exact ⟨l, hl, evaluate_ok hv⟩
  | error f => rw [hv] at h; cases h

theorem follows_number : Tracks e d number number := by
  intro p cs v t h
  -- The machine for literals is local, and the value of what it takes does not depend on the place.
  obtain ⟨l, hl, hv⟩ := run_number_ok h
  obtain ⟨w, r, k, hcs, ht, hM, hk, hw⟩ := follows_fold (e := e) (d := d) (M := Balanced.measure)
    Alike.prefixClosed
    halts_alike (fun l c h => move_alike l c h)
    (fun h => move_within (h.resolve_right move_ne_last)) .empty _ _ _ _ hl
  exact ⟨w, r, k, hcs, ht, hM, hk, fun hd r' hr => reads_number (hw hd r' hr) hv⟩

/-! ### Between parentheses and brackets -/

/-- What `x` reads between parentheses or brackets, `y` reads too: one level is spent on the pair
around it. -/
def TracksInside (e d : Nat) (x y : Scanner Expr) : Prop :=
  ∀ p cs a t, x.run (.ofTextAt p cs) = .ok a t →
    ∃ w r k, cs = w ++ r ∧ t = .ofTextAt (p.after w) r ∧ Balanced w k ∧ k < e ∧
      (k < d → ∀ r', Alike r r' → y.Reads w a r')

/-- Reads an expression and the character that closes it. -/
def closed (inner : Scanner Expr) (c : Char) (cause : Cause) : Scanner Expr := do
  let index ← inner
  closing c cause
  return index

theorem reads_closed {inner : Scanner Expr} {c : Char} (hc : isBlank c = false) {v w r : List Char}
    {a : Expr} (hv : inner.Reads v a (w ++ c :: r)) (hw : ∀ b ∈ w, isBlank b = true)
    (cause : Cause) : (closed inner c cause).Reads (v ++ (w ++ [c])) a r := by
  refine Reads.bind ?_ ((reads_closing hc hw cause r).bind_nil (reads_pure a r))
  rwa [List.append_assoc, List.singleton_append]

/-- What is read up to a closing character is balanced and has depth left, and is read before every
rest. -/
theorem TracksInside.closed {inner inner' : Scanner Expr} (h : TracksInside e d inner inner')
    {c : Char} (hc : IsCloser c) {cause : Cause} {p : Position} {cs : List Char} {a : Expr}
    {t : Stencil.Stream} (hrun : (closed inner c cause).run (.ofTextAt p cs) = .ok a t) :
    ∃ w r k, cs = (w ++ [c]) ++ r ∧ t = .ofTextAt (p.after (w ++ [c])) r ∧ Balanced w k ∧ k < e ∧
      (k < d → ∀ r', (Expr.closed inner' c cause).Reads (w ++ [c]) a r') := by
  obtain ⟨a', s, hs, hrun⟩ := run_bind_ok hrun
  obtain ⟨_, u, hu, hrun⟩ := run_bind_ok hrun
  cases hrun
  obtain ⟨v, r₁, k, rfl, rfl, hv, hk, hread⟩ := h _ _ _ _ hs
  obtain ⟨w, r, rfl, rfl, hw⟩ := run_closing_ok hu
  refine ⟨v ++ w, r, k, by simp, by simp [Position.after_append], ?_, hk, fun hd r' => ?_⟩
  · have := hv.append (balanced_of_blanks hw)
    rwa [Nat.max_eq_left (Nat.zero_le k)] at this
  · rw [List.append_assoc]
    refine reads_closed (isBlank_closer hc) (hread hd _ ?_) hw cause
    rw [List.append_assoc]
    exact Alike.prefixClosed (.close (closes_cons hc r) (closes_cons hc r')) w

/-! ### Indices -/

theorem reads_openIndex {w : List Char} (hw : ∀ c ∈ w, isBlank c = true) (r : List Char) :
    openIndex.Reads (w ++ ['[']) (some '[') r :=
  (reads_skipBlank hw fun c hc => by cases hc; rfl).bind (reads_accept rfl r)

theorem reads_openIndex_none {w r : List Char} (hw : ∀ c ∈ w, isBlank c = true)
    (hr : ∀ c ∈ r.head?, isBlank c = false) (hb : ∀ c ∈ r.head?, (c == '[') = false) :
    openIndex.Reads w none r :=
  (reads_skipBlank hw hr).bind_nil (reads_accept_none hb)

theorem run_openIndex {p : Position} {cs : List Char} {o : Option Char} {t : Stencil.Stream}
    (h : openIndex.run (.ofTextAt p cs) = .ok o t) :
    ∃ w r, (∀ c ∈ w, isBlank c = true) ∧
      ((o = some '[' ∧ cs = (w ++ ['[']) ++ r ∧ t = .ofTextAt (p.after (w ++ ['['])) r) ∨
        (o = none ∧ cs = w ++ r ∧ t = .ofTextAt (p.after w) r ∧
          (∀ c ∈ r.head?, isBlank c = false) ∧ ∀ c ∈ r.head?, (c == '[') = false)) := by
  obtain ⟨w, r, rfl, hw, hr⟩ := exists_front isBlank cs
  by_cases hb : ∀ c ∈ r.head?, (c == '[') = false
  · rw [reads_openIndex_none hw hr hb p] at h
    cases h
    exact ⟨w, r, hw, .inr ⟨rfl, rfl, rfl, hr, hb⟩⟩
  · cases r with
    | nil => exact absurd (fun c hc => by cases hc) hb
    | cons c r =>
        obtain rfl : c = '[' := by
          by_contra hc
          refine hb fun b hbc => ?_
          cases hbc
          simpa using hc
        have hread := reads_openIndex hw r p
        rw [List.append_assoc, List.singleton_append, h] at hread
        cases hread
        exact ⟨w, r, hw, .inl ⟨rfl, by simp, rfl⟩⟩

theorem follows_indexList {inner inner' : Scanner Expr} (h : TracksInside e d inner inner') :
    Tracks e d (indexList inner) (indexList inner') := by
  refine follows_collect Alike.prefixClosed ?_ ?_
  · intro p cs t ho
    obtain ⟨w, r, hw, ⟨ho, -, -⟩ | ⟨-, rfl, rfl, hr, hb⟩⟩ := run_openIndex ho
    · cases ho
    · exact .flat (M := Balanced.measure) (balanced_of_blanks hw) fun r' (h : Alike r r') =>
        reads_openIndex_none hw (h.head (fun c hc => isBlank_closer hc) hr)
          (h.head (P := (· == '[')) (fun c hc => by rcases hc with rfl | rfl | rfl <;> rfl) hb)
  · intro p cs b u a t ho ha
    obtain ⟨w, r, hw, ⟨hb, rfl, rfl⟩ | ⟨ho, -⟩⟩ := run_openIndex ho
    · cases hb
      obtain ⟨v, r, k, rfl, rfl, hv, hk, hread⟩ := h.closed (.inr (.inl rfl)) ha
      refine ⟨w ++ ['['], v ++ [']'], r, k + 1, rfl, by simp only [Position.after_append], ?_, hk,
        fun hd r' _ => ⟨reads_openIndex hw _, hread hd r'⟩⟩
      · have := (balanced_of_blanks hw).append (hv.enclosed (.inr rfl) (.inr rfl))
        rw [Nat.max_eq_right (Nat.zero_le _)] at this
        change Balanced _ _
        simpa using this
    · cases ho

/-! ### Operands -/

/-- What is read behind a number: nothing, unless a symbol follows. -/
def afterNumber (v : Value) : Scanner Expr := do
  match ← peekChar with
  | some c => if isSymbol c then fail .gluedNumber else return .literal v []
  | none => return .literal v []

theorem reads_afterNumber {v : Value} {r : List Char} (hr : ∀ c ∈ r.head?, isSymbol c = false) :
    (afterNumber v).Reads [] (.literal v []) r := by
  refine (reads_peekChar r).nil_bind ?_
  cases r with
  | nil => exact reads_pure _ _
  | cons c r =>
      rw [List.head?_cons]
      dsimp only
      rw [if_neg (by simp [hr c rfl])]
      exact reads_pure _ _

theorem run_afterNumber_ok {v : Value} {p : Position} {cs : List Char} {e : Expr}
    {t : Stencil.Stream} (h : (afterNumber v).run (.ofTextAt p cs) = .ok e t) :
    e = .literal v [] ∧ t = .ofTextAt p cs ∧ ∀ c ∈ cs.head?, isSymbol c = false := by
  have hcs : ∀ c ∈ cs.head?, isSymbol c = false := by
    intro c hc
    rw [afterNumber, run_peekChar_bind, Option.mem_def.mp hc] at h
    dsimp only at h
    split at h
    · cases h
    · next hsym => simpa using hsym
  have hread := reads_afterNumber (v := v) hcs p
  rw [List.nil_append, h] at hread
  cases hread
  exact ⟨rfl, rfl, hcs⟩

theorem follows_afterNumber (v : Value) : Tracks e d (afterNumber v) (afterNumber v) := by
  intro p cs a t h
  obtain ⟨rfl, rfl, hcs⟩ := run_afterNumber_ok h
  exact .nil fun r' (h : Alike cs r') => reads_afterNumber (h.head (fun c => isSymbol_closer) hcs)

theorem follows_numberOperand : Tracks e d numberOperand numberOperand :=
  follows_number.bind Alike.prefixClosed follows_afterNumber

/-- What is read as an operand in view of the characters ahead. -/
def operandAhead (inner : Scanner Expr) (missing : Cause) : List Char → Scanner Expr
  | [] => fail missing
  | c :: rest =>
    if c = '(' then do
      let _ ← anyChar
      closed inner ')' .missingParenthesis
    else if c = '"' then do return .literal (.string (← stringLiteral)) []
    else if startsNumber (c :: rest) then numberOperand
    else if isSymbol c then do return .ident (String.ofList (← word isSymbol none)) []
    else fail missing

theorem bareOperand_eq (inner : Scanner Expr) (missing : Cause) :
    bareOperand inner missing = (do
      let _ ← skipBlank
      let ahead ← peek 2
      operandAhead inner missing ahead) := by
  unfold bareOperand
  congr 1
  funext _
  congr 1
  funext ahead
  cases ahead with
  | nil => rfl
  | cons c rest => rfl

/-- An alike text starts with the same character, if that closes nothing, and is alike behind it
unless it is a point. -/
theorem Alike.cons_inv {c : Char} {cs s : List Char} (h : Alike (c :: cs) s) (hc : ¬IsCloser c) :
    ∃ s', s = c :: s' ∧ (c = '.' ∨ Alike cs s') := by
  cases h with
  | close h _ => exact absurd (h c rfl) hc
  | point => exact ⟨_, rfl, .inl rfl⟩
  | cons _ h => exact ⟨_, rfl, .inr h⟩

/-- Before alike texts, operands of the same sort are read. -/
theorem operandAhead_alike (inner : Scanner Expr) (missing : Cause) {c : Char} {cs s : List Char}
    (h : Alike (c :: cs) s) (hc : ¬IsCloser c) :
    operandAhead inner missing (s.take 2) = operandAhead inner missing ((c :: cs).take 2) := by
  obtain ⟨s', rfl, hs⟩ := h.cons_inv hc
  have hstart : startsNumber (c :: s'.take 1) = startsNumber (c :: cs.take 1) := by
    rcases hs with rfl | hs
    · rfl
    · exact (startsNumber_alike c hs).symm
  simp only [List.take_succ_cons, operandAhead, hstart]

/-- No operand starts with a closing character. -/
theorem operandAhead_closer (inner : Scanner Expr) (missing : Cause) {c : Char} (h : IsCloser c)
    (rest : List Char) : operandAhead inner missing (c :: rest) = fail missing := by
  have hn : startsNumber (c :: rest) = false := by
    rcases h with rfl | rfl | rfl <;> rfl
  have h₁ : c ≠ '(' := by rcases h with rfl | rfl | rfl <;> decide
  have h₂ : c ≠ '"' := by rcases h with rfl | rfl | rfl <;> decide
  rw [operandAhead, if_neg h₁, if_neg h₂, if_neg (by simp [hn]),
    if_neg (by simp [isSymbol_closer h])]

theorem follows_operandAhead {inner inner' : Scanner Expr} (h : TracksInside e d inner inner')
    (missing : Cause) :
    Tracks e d (peek 2 >>= operandAhead inner missing) (peek 2 >>= operandAhead inner' missing) := by
  intro p cs a t ha
  rw [run_peek_bind] at ha
  cases cs with
  | nil => cases ha
  | cons c cs =>
      have hc : ¬IsCloser c := by
        intro hc
        rw [List.take_succ_cons, operandAhead_closer inner missing hc] at ha
        cases ha
      refine Span.peek Alike.prefixClosed ?_ fun hs => operandAhead_alike inner' missing hs hc
      rw [List.take_succ_cons, operandAhead] at ha ⊢
      by_cases hparen : c = '('
      · subst hparen
        rw [if_pos rfl] at ha ⊢
        have hany := reads_anyChar '(' cs
        obtain ⟨o, s, ho, ha⟩ := run_bind_ok ha
        have hrun := hany p
        rw [List.singleton_append, ho] at hrun
        cases hrun
        -- The pair of parentheses is what spends a level.
        obtain ⟨w, r, k, rfl, rfl, hw, hk, hread⟩ := h.closed (.inl rfl) ha
        refine ⟨'(' :: (w ++ [')']), r, k + 1, rfl, ?_, hw.enclosed (.inl rfl) (.inl rfl), hk,
          fun hd r' _ => (reads_anyChar '(' _).bind (hread hd r')⟩
        rw [← Position.after_append]
        rfl
      rw [if_neg hparen] at ha ⊢
      by_cases hquote : c = '"'
      · rw [if_pos hquote] at ha ⊢
        exact follows_stringLiteral.map Alike.prefixClosed _ _ _ _ _ ha
      rw [if_neg hquote] at ha ⊢
      by_cases hnum : startsNumber (c :: cs.take 1) = true
      · rw [if_pos hnum] at ha ⊢
        exact follows_numberOperand _ _ _ _ ha
      rw [if_neg hnum] at ha ⊢
      by_cases hsym : isSymbol c = true
      · rw [if_pos hsym] at ha ⊢
        exact follows_word.map Alike.prefixClosed _ _ _ _ _ ha
      · rw [if_neg hsym] at ha
        cases ha

theorem follows_bareOperand {inner inner' : Scanner Expr} (h : TracksInside e d inner inner')
    (missing : Cause) : Tracks e d (bareOperand inner missing) (bareOperand inner' missing) := by
  rw [bareOperand_eq, bareOperand_eq]
  exact follows_skipBlank.bind Alike.prefixClosed fun _ => follows_operandAhead h missing

theorem follows_operand {inner inner' : Scanner Expr} (h : TracksInside e d inner inner')
    (missing : Cause) : Tracks e d (operand inner missing) (operand inner' missing) :=
  (follows_bareOperand h missing).bind Alike.prefixClosed fun a =>
    (follows_indexList h).map Alike.prefixClosed a.withIndices

/-! ### Expressions -/

theorem follows_chain {inner inner' : Scanner Expr} (h : TracksInside e d inner inner') :
    Tracks e d (chain inner) (chain inner') := by
  refine (follows_operand h _).bind Alike.prefixClosed fun first => ?_
  refine Follows.map Alike.prefixClosed ?_ fun rest => (Chain.mk first rest).tree
  refine follows_collect Alike.prefixClosed (follows_infixOperator _ _ _ _) fun ho hb => ?_
  exact openSpan_of_follows Alike.prefixClosed follows_infixOperator
    (fun op => (follows_operand h _).map Alike.prefixClosed (Prod.mk op)) ho hb

/-- Where no level is left, nothing is read inside. -/
theorem tracksInside_fail (cause : Cause) (inner : Scanner Expr) :
    TracksInside 0 d (fail cause) inner := by
  intro p cs a t h
  cases h

/-- **The reader of expressions is local**: what it reads with some levels left, it reads before
every alike rest, and with any number of levels that is not less than the nesting of what it has
taken up. -/
theorem follows_nested (e d : Nat) : Tracks e d (nested e) (nested d) := by
  induction e generalizing d with
  | zero =>
      cases d with
      | zero => exact follows_chain (tracksInside_fail _ _)
      | succ d => exact follows_chain (tracksInside_fail _ _)
  | succ e ih =>
      cases d with
      | zero =>
          -- What was read inside says nothing about a reader with no level left, but it balances.
          refine follows_chain fun p cs a t h => ?_
          obtain ⟨w, r, k, hcs, ht, hw, hk, -⟩ := ih 0 _ _ _ _ h
          exact ⟨w, r, k, hcs, ht, hw, Nat.lt_succ_of_le hk, fun hd => absurd hd (Nat.not_lt_zero k)⟩
      | succ d =>
          refine follows_chain fun p cs a t h => ?_
          obtain ⟨w, r, k, hcs, ht, hw, hk, hread⟩ := ih d _ _ _ _ h
          exact ⟨w, r, k, hcs, ht, hw, Nat.lt_succ_of_le hk, fun hd => hread (Nat.le_of_lt_succ hd)⟩

/-! ### Whole texts -/

theorem ofText_of_reads {w r : List Char} {a : Expr} (h : scanner.Reads w a r)
    (hr : ∀ c ∈ r, isBlank c = true) : ofText (w ++ r) = .ok a := by
  have hend : wholeScanner.Reads (w ++ r) a [] := by
    refine Reads.bind (w := r) (by rwa [List.append_nil]) ?_
    refine (reads_skipBlank (r := []) hr fun c hc => by cases hc).bind_nil ?_
    refine (reads_peekChar []).nil_bind ?_
    exact reads_pure a []
  have hrun := hend (.start streamName)
  rw [List.append_nil] at hrun
  exact read_eq_ok.mpr ⟨_, hrun⟩

/-- The text of an expression is balanced up to the blanks at its end, and the reading of it goes
through with as many levels as it nests, before whatever is alike to its end. -/
theorem reads_of_ofText {cs : List Char} {a : Expr} (h : ofText cs = .ok a) (d : Nat) :
    ∃ w r, cs = w ++ r ∧ (∀ c ∈ r, isBlank c = true) ∧ Balanced w (nesting cs) ∧
      nesting cs ≤ nestingLimit ∧
      (nesting cs ≤ d → ∀ r', Alike r r' → (nested d).Reads w a r') := by
  obtain ⟨t, hw⟩ := read_eq_ok.mp h
  change wholeScanner.run (.ofTextAt (.start streamName) cs) = _ at hw
  obtain ⟨a', u, ha, hw⟩ := run_bind_ok hw
  obtain ⟨n, v, hn, hw⟩ := run_bind_ok hw
  obtain ⟨w, r, k, rfl, rfl, hbal, hk, hread⟩ := follows_nested nestingLimit d _ _ _ _ ha
  obtain ⟨b, z, rfl, rfl, hb, -⟩ := run_skipBlank_ok hn
  rw [run_peekChar_bind] at hw
  cases z with
  | cons c z => cases hw
  | nil =>
      cases hw
      rw [List.append_nil] at hread ⊢
      have hn : nesting (w ++ b) = k := by
        have := nesting_of_balanced (hbal.append (balanced_of_blanks hb))
        rwa [Nat.max_eq_left (Nat.zero_le k)] at this
      rw [hn]
      exact ⟨w, b, rfl, hb, hbal, hk, hread⟩

theorem nesting_le_of_ofText {cs : List Char} {a : Expr} (h : ofText cs = .ok a) :
    nesting cs ≤ nestingLimit := by
  obtain ⟨-, -, -, -, -, hlim, -⟩ := reads_of_ofText h 0
  exact hlim

/-- In front of a closing character, the text of an expression is read up to the blanks at its
end. -/
theorem reads_of_ofText_of_closer {cs : List Char} {a : Expr} (h : ofText cs = .ok a)
    (hd : nesting cs ≤ d) {c : Char} (hc : IsCloser c) (r : List Char) :
    ∃ w b, cs = w ++ b ∧ (∀ x ∈ b, isBlank x = true) ∧ (nested d).Reads w a (b ++ c :: r) := by
  obtain ⟨w, b, hcs, hb, -, -, hread⟩ := reads_of_ofText h d
  exact ⟨w, b, hcs, hb, hread hd _ (.of_closer hc b r)⟩

/-- The reader of expressions starts by skipping blanks. -/
theorem nested_eq (d : Nat) : ∃ g : Scanner Expr, nested d = (do let _ ← skipBlank; g) := by
  have h : ∀ inner, ∃ g : Scanner Expr, chain inner = (do let _ ← skipBlank; g) := by
    intro inner
    constructor
    rw [chain, operand, bareOperand_eq, bind_assoc, bind_assoc]
  cases d <;> exact h _

theorem run_nested_blanks {b : List Char} (hb : ∀ c ∈ b, isBlank c = true) (d : Nat) (p : Position)
    (cs : List Char) :
    (nested d).run (.ofTextAt p (b ++ cs)) = (nested d).run (.ofTextAt (p.after b) cs) := by
  obtain ⟨g, hg⟩ := nested_eq d
  obtain ⟨w, r, rfl, hw, hr⟩ := exists_front isBlank cs
  have hbw : ∀ c ∈ b ++ w, isBlank c = true := by
    intro c hc
    rcases List.mem_append.mp hc with hc | hc
    · exact hb c hc
    · exact hw c hc
  rw [hg, ← List.append_assoc, run_bind_of_ok (reads_skipBlank hbw hr p),
    run_bind_of_ok (reads_skipBlank hw hr (p.after b)), Position.after_append]

/-- Blanks may stand before an expression. -/
theorem reads_nested_blanks {b w r : List Char} {d : Nat} {a : Expr}
    (hb : ∀ c ∈ b, isBlank c = true) (h : (nested d).Reads w a r) :
    (nested d).Reads (b ++ w) a r := by
  intro p
  rw [List.append_assoc, run_nested_blanks hb, h, Position.after_append]

theorem ofText_of_blanks {b cs : List Char} {a : Expr} (hb : ∀ c ∈ b, isBlank c = true)
    (h : ofText (b ++ cs) = .ok a) : ofText cs = .ok a := by
  obtain ⟨w, r, hcs, hr, -, hlim, hread⟩ := reads_of_ofText h nestingLimit
  -- The reading of the whole text, seen from behind its blanks, is one of `cs`.
  have hrun := hread hlim r (.refl r) (.start streamName)
  rw [← hcs, run_nested_blanks hb] at hrun
  obtain ⟨w', r', k, rfl, ht, -, hk, hread'⟩ :=
    follows_nested nestingLimit nestingLimit _ _ _ _ hrun
  obtain ⟨-, rfl⟩ := Stream.ofTextAt_inj.mp ht
  exact ofText_of_reads (hread' hk r (.refl r)) hr

end Stencil.Expr
