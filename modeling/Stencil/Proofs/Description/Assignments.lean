import Mathlib.Data.List.Forall2
import Stencil.Proofs.Description.Lexemes
import Stencil.Proofs.Expr.Numbers

/-!
# Description — Assignments

What a token does to a statement that is being read: it goes on with it, ends it, or is out of place
(`turn`).  The places of the tokens show in nothing but the places of errors.  If two statements
have the same tokens at places that are related, they are read as the same value, or fail for the
same cause at related places (`agree_assignment`).  A statement that assigns a value has a semicolon
and no stray character (`of_assigned`).
-/

namespace Stencil

/-- A failure without its place. -/
def Failure.unplaced : Failure → Failure
  | .error e => .error ⟨e.cause, none⟩
  | .fault f => .fault f

namespace Description

open Scanner Text

/-! ### Token by token -/

/-- What a token does to a statement that is being read. -/
inductive Turn where
  | on (expected : Expected) (arrays : OpenArrays)
  | last (d : Datum)
  | stop (cause : Cause)

/-- The turn of a token behind a value. -/
def turnBehind (d : Datum) : OpenArrays → Token → Turn
  | items :: arrays, .comma => .on .value ((d :: items) :: arrays)
  | items :: arrays, .closeBracket => .on (.behind (.array (d :: items).reverse)) arrays
  | _ :: _, .semicolon => .stop .missingComma
  | [], .semicolon => .last d
  | _, _ => .stop .missingSemicolon

/-- The turn of a token where a value is called for, or the end of an array that has just been
opened. -/
def turnBefore (mayEnd : Bool) (arrays : OpenArrays) (position : Position) : Token → Turn
  | .string s => .on (.behind (.string s)) arrays
  | .number chars => .on (.behind (.number position chars)) arrays
  | .openBracket => .on .valueOrEnd ([] :: arrays)
  | .closeBracket =>
    match mayEnd, arrays with
    | true, _ :: arrays => .on (.behind (.array [])) arrays
    | _, _ => .stop .missingValue
  | _ => .stop .missingValue

/-- The turn of a token at a place. -/
def turn (expected : Expected) (arrays : OpenArrays) (position : Position) (t : Token) : Turn :=
  match expected with
  | .behind d => turnBehind d arrays t
  | .valueOrEnd => turnBefore true arrays position t
  | .value => turnBefore false arrays position t

/-- The tokens of a statement are read one after another. -/
theorem datum_cons (expected : Expected) (arrays : OpenArrays) (last position : Position)
    (t : Token) (rest : List (Position × Token)) :
    datum expected arrays last ((position, t) :: rest) =
      match turn expected arrays position t with
      | .on expected arrays => datum expected arrays position rest
      | .last d =>
        match rest with
        | [] => .ok d
        | (position, _) :: _ => .error ⟨.missingValue, shifted position⟩
      | .stop cause => .error ⟨cause, shifted position⟩ := by
  rw [datum.eq_def]
  cases expected <;> cases t <;> cases arrays <;> rfl

theorem datum_nil (expected : Expected) (arrays : OpenArrays) (last : Position) :
    datum expected arrays last [] =
      match expected with
      | .behind _ => .error ⟨.missingSemicolon, shifted last⟩
      | _ => .error ⟨.missingValue, shifted last⟩ := by
  cases expected <;> rfl

/-! ### A statement that assigns a value -/

theorem eq_of_turn_last {expected : Expected} {arrays : OpenArrays} {p : Position} {t : Token}
    {d : Datum} (h : turn expected arrays p t = .last d) : t = .semicolon := by
  cases expected <;> cases t <;> cases arrays <;> first | rfl | cases h

theorem ne_stray_of_turn_on {expected next : Expected} {arrays arrays' : OpenArrays} {p : Position}
    {c : Char} : turn expected arrays p (.stray c) ≠ .on next arrays' := by
  cases expected <;> cases arrays <;> rintro ⟨⟩

theorem of_datum {expected : Expected} {arrays : OpenArrays} {last : Position}
    {ts : List (Position × Token)} {d : Datum} (h : datum expected arrays last ts = .ok d) :
    Token.semicolon ∈ ts.map Prod.snd ∧ ∀ c, Token.stray c ∉ ts.map Prod.snd := by
  induction ts generalizing expected arrays last with
  | nil => rw [datum_nil] at h; cases expected <;> cases h
  | cons pt rest ih =>
      obtain ⟨p, t⟩ := pt
      rw [datum_cons] at h
      simp only [List.map_cons, List.mem_cons, not_or]
      cases hturn : turn expected arrays p t with
      | on next arrays' =>
          rw [hturn] at h
          obtain ⟨hend, hstray⟩ := ih h
          refine ⟨.inr hend, fun c => ⟨?_, hstray c⟩⟩
          rintro rfl
          exact ne_stray_of_turn_on hturn
      | last d' =>
          obtain rfl := eq_of_turn_last hturn
          rw [hturn] at h
          cases rest with
          | nil => exact ⟨.inl rfl, fun c => ⟨by rintro ⟨⟩, by simp⟩⟩
          | cons pt rest => cases h
      | stop cause => rw [hturn] at h; cases h

/-- Tokens that assign a value have a semicolon among them and no stray character. -/
theorem of_assigned {symbol : Position} {ts : List (Position × Token)} {d : Datum}
    (h : assigned symbol ts = .ok d) :
    Token.semicolon ∈ ts.map Prod.snd ∧ ∀ c, Token.stray c ∉ ts.map Prod.snd := by
  cases ts with
  | nil => cases h
  | cons pt rest =>
      obtain ⟨p, t⟩ := pt
      cases t with
      | equals =>
          obtain ⟨hend, hstray⟩ := of_datum h
          exact ⟨List.mem_cons_of_mem _ hend, fun c => by simpa using hstray c⟩
      | _ => cases h

theorem of_assignment {p : Position} {v : List Char} {pair : String × Value}
    (h : assignment p v = .ok pair) :
    Token.semicolon ∈ kinds (v.dropWhile isSymbol) ∧
      ∀ c, Token.stray c ∉ kinds (v.dropWhile isSymbol) := by
  rw [assignment] at h
  dsimp only at h
  split at h
  · cases h
  · cases hd : assigned p (tokens (p.after (v.takeWhile isSymbol)) (v.dropWhile isSymbol)) with
    | ok d =>
        have hassigned := of_assigned hd
        rwa [map_snd_tokens] at hassigned
    | error e => rw [hd] at h; cases h

/-! ### Places -/

section Places

variable (R : Position → Position → Prop)

/-- Data that differ in the places of their numbers only, which are related. -/
inductive Datum.Agree : Datum → Datum → Prop where
  | string (s : String) : Agree (.string s) (.string s)
  | number {p q : Position} (h : R p q) (chars : List Char) :
      Agree (.number p chars) (.number q chars)
  | array {ds es : List Datum} (h : List.Forall₂ Agree ds es) : Agree (.array ds) (.array es)

/-- The arrays that are open agree. -/
abbrev OpenArrays.Agree : OpenArrays → OpenArrays → Prop :=
  List.Forall₂ (List.Forall₂ (Datum.Agree R))

/-- The same is called for. -/
inductive Expected.Agree : Expected → Expected → Prop where
  | valueOrEnd : Agree .valueOrEnd .valueOrEnd
  | value : Agree .value .value
  | behind {d e : Datum} (h : Datum.Agree R d e) : Agree (.behind d) (.behind e)

/-- The same turn is taken. -/
inductive Turn.Agree : Turn → Turn → Prop where
  | on {x y : Expected} {as bs : OpenArrays} (hx : Expected.Agree R x y)
      (has : OpenArrays.Agree R as bs) : Agree (.on x as) (.on y bs)
  | last {d e : Datum} (h : Datum.Agree R d e) : Agree (.last d) (.last e)
  | stop (cause : Cause) : Agree (.stop cause) (.stop cause)

/-- The same token stands at related places. -/
abbrev SameToken (a b : Position × Token) : Prop :=
  R a.1 b.1 ∧ a.2 = b.2

/-- Two statements fail for the same cause, which is reported behind related places, or at related
places if arrays nest too deep. -/
inductive SameFailure : Failure → Failure → Prop where
  | inside {cause : Cause} (hs : cause ≠ .endInString) (ha : cause ≠ .arrayTooDeep)
      {p q : Position} (h : R p q) :
      SameFailure (.located cause (shifted p)) (.located cause (shifted q))
  | tooDeep {p q : Position} (h : R p q) :
      SameFailure (.located .arrayTooDeep p) (.located .arrayTooDeep q)
  | fault (f : Fault) : SameFailure (.fault f) (.fault f)

/-- Two results are values that agree, or the same failure. -/
inductive SameResult {α : Type} (A : α → α → Prop) :
    Except Failure α → Except Failure α → Prop where
  | ok {a b : α} (h : A a b) : SameResult A (.ok a) (.ok b)
  | error {f g : Failure} (h : SameFailure R f g) : SameResult A (.error f) (.error g)

variable {R}

theorem SameResult.bind {α β : Type} {A : α → α → Prop} {B : β → β → Prop}
    {x y : Except Failure α} {f g : α → Except Failure β} (h : SameResult R A x y)
    (hfg : ∀ a b, A a b → SameResult R B (f a) (g b)) : SameResult R B (x >>= f) (y >>= g) := by
  cases h with
  | ok h => exact hfg _ _ h
  | error h => exact .error h

theorem SameResult.map {α β : Type} {A : α → α → Prop} {B : β → β → Prop}
    {x y : Except Failure α} {f g : α → β} (h : SameResult R A x y)
    (hfg : ∀ a b, A a b → B (f a) (g b)) : SameResult R B (x.map f) (y.map g) := by
  cases h with
  | ok h => exact .ok (hfg _ _ h)
  | error h => exact .error h

theorem agree_turnBehind {d e : Datum} (hd : Datum.Agree R d e) {as bs : OpenArrays}
    (has : OpenArrays.Agree R as bs) (t : Token) :
    Turn.Agree R (turnBehind d as t) (turnBehind e bs t) := by
  cases has with
  | nil => cases t <;> first | exact .stop _ | exact .last hd
  | cons hitems hrest =>
      cases t <;> try exact .stop _
      · exact .on .value (.cons (.cons hd hitems) hrest)
      · exact .on (.behind (.array (List.rel_reverse (.cons hd hitems)))) hrest

theorem agree_turnBefore (mayEnd : Bool) {as bs : OpenArrays} (has : OpenArrays.Agree R as bs)
    {p q : Position} (hpq : R p q) (t : Token) :
    Turn.Agree R (turnBefore mayEnd as p t) (turnBefore mayEnd bs q t) := by
  cases t with
  | string s => exact .on (.behind (.string s)) has
  | number chars => exact .on (.behind (.number hpq chars)) has
  | openBracket => exact .on .valueOrEnd (.cons .nil has)
  | closeBracket =>
      cases has with
      | nil => cases mayEnd <;> exact .stop _
      | cons hitems hrest =>
          cases mayEnd with
          | false => exact .stop _
          | true => exact .on (.behind (.array .nil)) hrest
  | _ => exact .stop _

theorem agree_turn {x y : Expected} (hx : Expected.Agree R x y) {as bs : OpenArrays}
    (has : OpenArrays.Agree R as bs) {p q : Position} (hpq : R p q) (t : Token) :
    Turn.Agree R (turn x as p t) (turn y bs q t) := by
  cases hx with
  | valueOrEnd => exact agree_turnBefore true has hpq t
  | value => exact agree_turnBefore false has hpq t
  | behind hd => exact agree_turnBehind hd has t

theorem inside_of_turn_stop {x : Expected} {as : OpenArrays} {p : Position} {t : Token}
    {cause : Cause} (h : turn x as p t = .stop cause) :
    cause ≠ .endInString ∧ cause ≠ .arrayTooDeep := by
  cases x <;> cases t <;> cases as <;> cases h <;> exact ⟨by rintro ⟨⟩, by rintro ⟨⟩⟩

theorem agree_datum {x y : Expected} (hx : Expected.Agree R x y) {as bs : OpenArrays}
    (has : OpenArrays.Agree R as bs) {p q : Position} (hpq : R p q)
    {ts us : List (Position × Token)}
    (hts : List.Forall₂ (SameToken R) ts us) :
    SameResult R (Datum.Agree R) ((datum x as p ts).mapError .error)
      ((datum y bs q us).mapError .error) := by
  -- Both take the same turns, at corresponding places, up to the one at which both stop.
  induction hts generalizing x y as bs p q with
  | nil =>
      rw [datum_nil, datum_nil]
      cases hx <;> exact .error (.inside (by rintro ⟨⟩) (by rintro ⟨⟩) hpq)
  | @cons a b ts us hab hts ih =>
      obtain ⟨p', t⟩ := a
      obtain ⟨q', t'⟩ := b
      obtain ⟨hpq', rfl⟩ : R p' q' ∧ t = t' := hab
      have hturn := agree_turn hx has hpq' t
      rw [datum_cons, datum_cons]
      cases hxs : turn x as p' t with
      | on x' as' =>
          rw [hxs] at hturn
          cases hys : turn y bs q' t <;> rw [hys] at hturn <;> cases hturn
          next hx' has' => exact ih hx' has' hpq'
      | last d =>
          rw [hxs] at hturn
          cases hys : turn y bs q' t <;> rw [hys] at hturn <;> cases hturn
          next hd =>
            cases hts with
            | nil => exact .ok hd
            | cons h _ => exact .error (.inside (by rintro ⟨⟩) (by rintro ⟨⟩) h.1)
      | stop cause =>
          rw [hxs] at hturn
          obtain ⟨hs, ha⟩ := inside_of_turn_stop hxs
          cases hys : turn y bs q' t <;> rw [hys] at hturn <;> cases hturn
          exact .error (.inside hs ha hpq')

theorem agree_assigned {p q : Position} (hpq : R p q) {ts us : List (Position × Token)}
    (hts : List.Forall₂ (SameToken R) ts us) :
    SameResult R (Datum.Agree R) ((assigned p ts).mapError .error)
      ((assigned q us).mapError .error) := by
  cases hts with
  | nil => exact .error (.inside (by rintro ⟨⟩) (by rintro ⟨⟩) hpq)
  | @cons a b ts us hab hts =>
      obtain ⟨p', t⟩ := a
      obtain ⟨q', t'⟩ := b
      obtain ⟨hpq', rfl⟩ : R p' q' ∧ t = t' := hab
      cases t with
      | equals => exact agree_datum .value .nil hpq' hts
      | _ => exact .error (.inside (by rintro ⟨⟩) (by rintro ⟨⟩) hpq')

/-! ### Values -/

theorem agree_numberOf {p q : Position} (hpq : R p q) (chars : List Char) :
    SameResult R Eq (numberOf p chars) (numberOf q chars) := by
  obtain ⟨l, t, -, hrun⟩ := Expr.run_number (.start Stream.defaultName) chars
  change number.run (.ofText Stream.defaultName chars) = _ at hrun
  rw [numberOf, numberOf, hrun]
  cases hl : l.evaluate t.position with
  | ok v =>
      dsimp only
      split
      · exact .ok rfl
      · exact .error (.inside (by rintro ⟨⟩) (by rintro ⟨⟩) hpq)
  | error f =>
      rcases Literal.evaluate_error hl with ⟨cause, rfl, hc⟩ | ⟨fault, rfl⟩
      · rcases hc with rfl | ⟨_, rfl⟩ <;> exact .error (.inside (by rintro ⟨⟩) (by rintro ⟨⟩) hpq)
      · exact .error (.fault _)

theorem agree_toValue {p q : Position} (hpq : R p q) (levels : Nat) {d e : Datum}
    (h : Datum.Agree R d e) : SameResult R Eq (d.toValue p levels) (e.toValue q levels) := by
  induction levels generalizing d e with
  | zero =>
      cases h with
      | string s => exact .ok rfl
      | number hd chars => exact agree_numberOf hd chars
      | array h => exact .error (.tooDeep hpq)
  | succ levels ih =>
      have items : ∀ {ds es : List Datum}, List.Forall₂ (Datum.Agree R) ds es →
          SameResult R Eq (Datum.toValue.toValues p levels ds)
            (Datum.toValue.toValues q levels es) := by
        intro ds es h
        induction h with
        | nil => exact .ok rfl
        | cons hd _ ihs =>
            refine (ih hd).bind ?_
            rintro v _ rfl
            refine ihs.bind ?_
            rintro vs _ rfl
            exact .ok rfl
      cases h with
      | string s => exact .ok rfl
      | number hd chars => exact agree_numberOf hd chars
      | array h =>
          rw [Datum.toValue, Datum.toValue]
          exact (items h).map fun vs _ hvs => congrArg Value.array hvs

/-- **Places do not matter**: statements with the same symbol and the same tokens assign the same
value, or fail for the same cause at related places. -/
theorem agree_assignment {p q : Position} (hpq : R p q) {v w symbol : List Char}
    (hv : v.takeWhile isSymbol = symbol) (hw : w.takeWhile isSymbol = symbol)
    (hts : List.Forall₂ (SameToken R) (tokens (p.after symbol) (v.dropWhile isSymbol))
      (tokens (q.after symbol) (w.dropWhile isSymbol))) :
    SameResult R Eq (assignment p v) (assignment q w) := by
  rw [assignment, assignment, hv, hw]
  dsimp only
  split
  · exact .error (.inside (by rintro ⟨⟩) (by rintro ⟨⟩) hpq)
  · refine (agree_assigned hpq hts).bind fun d e hde => ?_
    refine (agree_toValue hpq arrayLimit hde).bind ?_
    rintro v _ rfl
    exact .ok rfl

end Places

theorem SameFailure.unplaced {R : Position → Position → Prop} {f g : Failure}
    (h : SameFailure R f g) : f.unplaced = g.unplaced := by
  cases h <;> rfl

theorem sameTokens_of_map_snd {ts us : List (Position × Token)}
    (h : ts.map Prod.snd = us.map Prod.snd) :
    List.Forall₂ (SameToken fun _ _ => True) ts us := by
  rw [← List.forall₂_eq_eq_eq, List.forall₂_map_left_iff, List.forall₂_map_right_iff] at h
  exact h.imp fun _ _ hab => ⟨trivial, hab⟩

theorem sameTokens_of_kinds (p q : Position) {v w : List Char} (h : kinds v = kinds w) :
    List.Forall₂ (SameToken fun _ _ => True) (tokens p v) (tokens q w) :=
  sameTokens_of_map_snd (by rw [map_snd_tokens, map_snd_tokens, h])

/-- What a statement says does not depend on its place, nor on the blanks and comments in it. -/
theorem unplaced_result (p q : Position) {v w : List Char}
    (hregion : (Region.plain.after v).inString = (Region.plain.after w).inString)
    (hsymbol : v.takeWhile isSymbol = w.takeWhile isSymbol)
    (hkinds : (Region.plain.after v).inString = false →
      kinds (v.dropWhile isSymbol) = kinds (w.dropWhile isSymbol)) :
    (Statement.result p v).mapError Failure.unplaced =
      (Statement.result q w).mapError Failure.unplaced := by
  rw [Statement.result, Statement.result, ← hregion]
  split
  · rfl
  · next hclosed =>
    have hresult := agree_assignment (R := fun _ _ => True) (p := p) (q := q) trivial rfl
      hsymbol.symm (sameTokens_of_kinds _ _ (hkinds (by simpa using hclosed)))
    cases hv : assignment p v <;> cases hw : assignment q w <;> rw [hv, hw] at hresult <;>
      cases hresult
    · next h => exact congrArg Except.error h.unplaced
    · next h => rw [h]

end Description

end Stencil
