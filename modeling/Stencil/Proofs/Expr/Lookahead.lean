import Stencil.Expr.Reading
import Stencil.Proofs.Expr.Nesting

/-!
# Expr — Lookahead

Which rests the readers of tokens cannot tell apart.  A token ends where the text ends, and it ends
before a closing parenthesis, bracket or brace; what comes behind that closing character is not
looked at.  A point is itself part of numbers alone, and no reader that stops before it, or looks
ahead up to it, looks at what comes behind.  `Alike` relates two rests that agree up to such places.

Before alike rests the machine for numbers makes the same moves (`move_alike`), the same operator
stands at the front (`at?_alike`), and the same character starts a number (`startsNumber_alike`).
-/

namespace Stencil.Expr

open Scanner Text

/-- A character before which every token ends. -/
def IsCloser (c : Char) : Prop :=
  c = ')' ∨ c = ']' ∨ c = '}'

/-- The text is at its end, or at a character before which every token ends. -/
def Closes (r : List Char) : Prop :=
  ∀ c ∈ r.head?, IsCloser c

/-- The two texts agree up to a place where both end or close, or where both have a point. -/
inductive Alike : List Char → List Char → Prop where
  | close {r r' : List Char} (h : Closes r) (h' : Closes r') : Alike r r'
  | point (r r' : List Char) : Alike ('.' :: r) ('.' :: r')
  | cons (c : Char) {r r' : List Char} (h : Alike r r') : Alike (c :: r) (c :: r')

theorem closes_nil : Closes [] := fun _ h => by cases h

/-- A rest that starts with a closing character closes. -/
theorem closes_cons {c : Char} (h : IsCloser c) (r : List Char) : Closes (c :: r) := by
  rintro d ⟨⟩
  exact h

/-- A rest that closes is empty or starts with a closing character. -/
theorem Closes.cases {r : List Char} (h : Closes r) :
    r = [] ∨ ∃ c s, r = c :: s ∧ IsCloser c := by
  cases r with
  | nil => exact .inl rfl
  | cons c s => exact .inr ⟨c, s, rfl, h c rfl⟩

namespace Alike

theorem refl : ∀ r, Alike r r
  | [] => .close closes_nil closes_nil
  | c :: r => .cons c (refl r)

/-- Rests that are alike stay so behind a common beginning. -/
theorem prefixClosed : PrefixClosed Alike := by
  intro r r' h w
  induction w with
  | nil => exact h
  | cons c w ih => exact .cons c ih

/-- The end of a text is alike to what closes behind it. -/
theorem of_closer {c : Char} (hc : IsCloser c) (b r : List Char) : Alike b (b ++ c :: r) := by
  have h := prefixClosed (.close closes_nil (closes_cons hc r)) b
  rwa [List.append_nil] at h

/-- What is true of no closing character, and not of the first character of a text, is not true of
the first character of an alike one. -/
theorem head {P : Char → Bool} (hP : ∀ c, IsCloser c → P c = false) {r r' : List Char}
    (h : Alike r r') (hr : ∀ c ∈ r.head?, P c = false) : ∀ c ∈ r'.head?, P c = false := by
  cases h with
  | close _ h' => exact fun c hc => hP c (h' c hc)
  | point => exact hr
  | cons => exact hr

end Alike

/-! ### Classes of characters -/

theorem isBlank_closer {c : Char} (h : IsCloser c) : isBlank c = false := by
  rcases h with rfl | rfl | rfl <;> decide

theorem isBlank_of_isSymbol {c : Char} (h : isSymbol c = true) : isBlank c = false := by
  by_contra hb
  simp only [isBlank, Bool.not_eq_false, Bool.or_eq_true, beq_iff_eq] at hb
  rcases hb with (((rfl | rfl) | rfl) | rfl) | rfl <;> exact absurd h (by decide)

theorem ne_of_isSymbol {c d : Char} (hc : isSymbol c = true) (hd : isSymbol d = false) : c ≠ d := by
  rintro rfl
  rw [hc] at hd
  cases hd

theorem eq_of_isSign {c : Char} (h : isSign c = true) : c = '+' ∨ c = '-' := by
  simpa [isSign] using h

theorem eq_of_isExponentMarker {base : Nat} {c : Char}
    (h : Literal.isExponentMarker base c = true) :
    base = 10 ∧ (c = 'e' ∨ c = 'E') ∨ base = 16 ∧ (c = 'p' ∨ c = 'P') := by
  simpa [Literal.isExponentMarker] using h

theorem eq_of_baseOfMark? {base : Nat} {c : Char} (h : Literal.baseOfMark? c = some base) :
    base = 2 ∧ (c = 'b' ∨ c = 'B') ∨ base = 8 ∧ (c = 'o' ∨ c = 'O') ∨
      base = 16 ∧ (c = 'x' ∨ c = 'X') := by
  unfold Literal.baseOfMark? at h
  split at h
  · next hc => cases h; exact .inl ⟨rfl, hc⟩
  split at h
  · next hc => cases h; exact .inr (.inl ⟨rfl, hc⟩)
  split at h
  · next hc => cases h; exact .inr (.inr ⟨rfl, hc⟩)
  · cases h

/-- The mark of a base is a symbol, and no digit. -/
theorem of_baseOfMark? {base : Nat} {c : Char} (h : Literal.baseOfMark? c = some base) :
    isSymbol c = true ∧ isDigitOf 10 c = false := by
  rcases eq_of_baseOfMark? h with ⟨-, rfl | rfl⟩ | ⟨-, rfl | rfl⟩ | ⟨-, rfl | rfl⟩ <;> decide

theorem isSymbol_closer {c : Char} (h : IsCloser c) : isSymbol c = false := by
  rcases h with rfl | rfl | rfl <;> decide

theorem isDigitOf_closer {c : Char} (h : IsCloser c) (base : Nat) : isDigitOf base c = false := by
  rcases h with rfl | rfl | rfl <;> rfl

theorem isSign_closer {c : Char} (h : IsCloser c) : isSign c = false := by
  rcases h with rfl | rfl | rfl <;> decide

theorem baseOfMark?_closer {c : Char} (h : IsCloser c) : Literal.baseOfMark? c = none := by
  rcases h with rfl | rfl | rfl <;> decide

theorem plain_of_isDigitOf {base : Nat} {c : Char} (h : isDigitOf base c = true) :
    Balanced.Plain c := by
  refine ⟨?_, ?_, ?_, ?_, ?_⟩ <;> rintro rfl <;> cases h

theorem plain_of_isSign {c : Char} (h : isSign c = true) : Balanced.Plain c := by
  refine ⟨?_, ?_, ?_, ?_, ?_⟩ <;> rintro rfl <;> exact absurd h (by decide)

theorem plain_of_baseOfMark? {c : Char} {base : Nat} (h : Literal.baseOfMark? c = some base) :
    Balanced.Plain c := by
  refine ⟨?_, ?_, ?_, ?_, ?_⟩ <;> rintro rfl <;> cases h

theorem plain_of_isExponentMarker {c : Char} {base : Nat}
    (h : Literal.isExponentMarker base c = true) : Balanced.Plain c := by
  refine ⟨?_, ?_, ?_, ?_, ?_⟩ <;> rintro rfl <;>
    simp [Literal.isExponentMarker] at h

/-! ### Numbers -/

theorem digitAhead_closes {r : List Char} (h : Closes r) (n : Nat) :
    Literal.digitAhead (r.take n) = false := by
  rcases h.cases with rfl | ⟨c, s, rfl, hc⟩
  · rw [List.take_nil]; rfl
  · cases n with
    | zero => rfl
    | succ n => exact isDigitOf_closer hc 10

/-- Rests that are alike have a digit ahead together. -/
theorem digitAhead_alike {r r' : List Char} (h : Alike r r') (n : Nat) :
    Literal.digitAhead (r.take n) = Literal.digitAhead (r'.take n) := by
  cases h with
  | close h h' => rw [digitAhead_closes h, digitAhead_closes h']
  | point => cases n <;> rfl
  | cons => cases n <;> rfl

/-- Rests that are alike have an exponent ahead together. -/
theorem exponentAhead_alike {r r' : List Char} (h : Alike r r') (n : Nat) :
    Literal.exponentAhead (r.take n) = Literal.exponentAhead (r'.take n) := by
  have closing : ∀ {r}, Closes r → Literal.exponentAhead (r.take n) = false := by
    intro r h
    rcases h.cases with rfl | ⟨c, s, rfl, hc⟩
    · rw [List.take_nil]; rfl
    · cases n with
      | zero => rfl
      | succ n => simp [Literal.exponentAhead, isDigitOf_closer hc, isSign_closer hc]
  cases h with
  | close h h' => rw [closing h, closing h']
  | point => cases n <;> rfl
  | cons c h =>
      cases n with
      | zero => rfl
      | succ n => simp only [List.take_succ_cons, Literal.exponentAhead, digitAhead_alike h n]

/-- Rests that are alike have the same mark of a base ahead. -/
theorem baseAhead?_alike {r r' : List Char} (h : Alike r r') (n : Nat) :
    Literal.baseAhead? (r.take n) = Literal.baseAhead? (r'.take n) := by
  -- A mark alone announces nothing, so that two characters decide: neither of them may close.
  have one : ∀ c : Char, Literal.baseAhead? [c] = none := fun c => rfl
  have closing : ∀ {r}, Closes r → ∀ n, Literal.baseAhead? (r.take n) = none := by
    intro r h n
    rcases h.cases with rfl | ⟨c, s, rfl, hc⟩
    · rw [List.take_nil]; rfl
    · cases n with
      | zero => rfl
      | succ n =>
          cases ht : s.take n with
          | nil => rw [List.take_succ_cons, ht, one]
          | cons d ds =>
              rw [List.take_succ_cons, ht, Literal.baseAhead?, baseOfMark?_closer hc]
  have marked : ∀ {r} (c : Char), Closes r → ∀ n, Literal.baseAhead? (c :: r.take n) = none := by
    intro r c h n
    rcases h.cases with rfl | ⟨d, s, rfl, hd⟩
    · rw [List.take_nil]; rfl
    · cases n with
      | zero => rfl
      | succ n =>
          rw [List.take_succ_cons, Literal.baseAhead?]
          cases Literal.baseOfMark? c with
          | none => rfl
          | some base => simp [isDigitOf_closer hd]
  cases h with
  | close h h' => rw [closing h, closing h']
  | point r r' =>
      have dot : ∀ s : List Char, Literal.baseAhead? ('.' :: s) = none := by
        intro s
        cases s <;> rfl
      cases n with
      | zero => rfl
      | succ n => rw [List.take_succ_cons, List.take_succ_cons, dot, dot]
  | cons c h =>
      cases n with
      | zero => rfl
      | succ n =>
          rw [List.take_succ_cons, List.take_succ_cons]
          cases h with
          | close h h' => rw [marked c h, marked c h']
          | point =>
              cases n with
              | zero => rfl
              | succ n => rfl
          | cons d h =>
              cases n with
              | zero => rfl
              | succ n => rfl

/-- The machine for numbers moves in the same way before alike rests. -/
theorem move_alike (l : Literal) (c : Char) {r r' : List Char} (h : Alike r r') :
    l.move c (r.take 2) = l.move c (r'.take 2) := by
  simp only [Literal.move, Literal.moveInExponent, Literal.moveInMantissa, Literal.moveAtSign,
    digitAhead_alike h 2, exponentAhead_alike h 2, baseAhead?_alike h 2]

/-- At a point, the machine for numbers does not look at what comes behind. -/
theorem move_point (l : Literal) (s s' : List Char) : l.move '.' s = l.move '.' s' := by
  cases h : l.exponent with
  | none => simp [Literal.move, h, Literal.moveInMantissa]
  | some e => simp [Literal.move, h, Literal.moveInExponent, isSign, isDigitOf, digit?]

/-- A number stops at a closing character. -/
theorem move_closer (l : Literal) {c : Char} (h : IsCloser c) (s : List Char) :
    l.move c s = .stop := by
  have hd := isDigitOf_closer h
  have hs := isSign_closer h
  have hm : ∀ base, Literal.isExponentMarker base c = false := by
    rcases h with rfl | rfl | rfl <;> simp [Literal.isExponentMarker]
  have hp : c ≠ '.' := by rcases h with rfl | rfl | rfl <;> decide
  cases he : l.exponent with
  | none => simp [Literal.move, he, Literal.moveInMantissa, hd, hs, hm, hp]
  | some e => simp [Literal.move, he, Literal.moveInExponent, hd, hs]

/-- A number that halts in front of a rest halts in front of one alike. -/
theorem halts_alike {l : Literal} {r r' : List Char} (h : Alike r r')
    (hr : Halts 2 Literal.move l r) : Halts 2 Literal.move l r' := by
  intro c cs hcs
  cases h with
  | close _ h' => exact move_closer l (h' c (by rw [hcs]; rfl)) _
  | point s s' =>
      cases hcs
      rw [← hr '.' s rfl]
      exact move_point l _ _
  | cons d h =>
      cases hcs
      rw [← hr c _ rfl]
      exact (move_alike l c h).symm

/-- The machine for numbers ends by stopping. -/
theorem move_ne_last {l : Literal} {c : Char} {cs : List Char} {extra : Nat} {l' : Literal} :
    l.move c cs ≠ .last extra l' := by
  unfold Literal.move Literal.moveInExponent Literal.moveInMantissa Literal.moveAtSign
  repeat' split
  all_goals nofun

/-- The machine for numbers takes a point, a sign, the start of an exponent or a digit, and behind a
zero perhaps the mark of a base. -/
theorem move_step {l : Literal} {c : Char} {ahead : List Char} {extra : Nat} {l' : Literal}
    (h : l.move c ahead = .step extra l') :
    Balanced.Plain c ∧ (extra = 0 ∨ extra = 1 ∧ ∃ base, Literal.baseAhead? ahead = some base) := by
  unfold Literal.move at h
  split at h
  · next e _ =>
    -- In the exponent, a sign or a digit.
    unfold Literal.moveInExponent at h
    split at h
    · next hs =>
      split at h
      · cases h; exact ⟨plain_of_isSign hs, .inl rfl⟩
      · cases h
    · split at h
      · next hd => cases h; exact ⟨plain_of_isDigitOf hd, .inl rfl⟩
      · cases h
  · -- Before it, a point, a sign, the start of the exponent, or a digit.
    unfold Literal.moveInMantissa at h
    split at h
    · next hp =>
      subst hp
      split at h
      · cases h
      · cases h; exact ⟨by simp [Balanced.Plain], .inl rfl⟩
    · split at h
      · next hs =>
        unfold Literal.moveAtSign at h
        split at h
        · cases h
        · split at h <;> cases h <;> exact ⟨plain_of_isSign hs, .inl rfl⟩
      · split at h
        · next hm =>
          split at h
          · cases h; exact ⟨plain_of_isExponentMarker hm, .inl rfl⟩
          · cases h
        · split at h
          · next hd =>
            split at h
            · next base hb =>
              split at h
              · cases h; exact ⟨plain_of_isDigitOf hd, .inr ⟨rfl, base, hb⟩⟩
              · cases h; exact ⟨plain_of_isDigitOf hd, .inl rfl⟩
            · cases h; exact ⟨plain_of_isDigitOf hd, .inl rfl⟩
          · cases h

/-- A base is announced by its mark, and a digit has to follow. -/
theorem baseAhead?_some {cs : List Char} {base : Nat}
    (h : Literal.baseAhead? cs = some base) :
    ∃ mark digit s, cs = mark :: digit :: s ∧ Literal.baseOfMark? mark = some base ∧
      isDigitOf base digit = true := by
  match cs with
  | [] => cases h
  | [_] => cases h
  | mark :: digit :: s =>
      rw [Literal.baseAhead?] at h
      cases hm : Literal.baseOfMark? mark with
      | none => rw [hm] at h; cases h
      | some b =>
          rw [hm] at h
          dsimp only at h
          split at h
          · next hd => cases h; exact ⟨mark, digit, s, rfl, hm, hd⟩
          · cases h

/-- What the machine for numbers consumes at once opens nothing. -/
theorem move_within {l : Literal} {c : Char} {cs : List Char} {extra : Nat} {l' : Literal}
    (h : l.move c (cs.take 2) = .step extra l') :
    extra ≤ cs.length ∧ Balanced (c :: cs.take extra) 0 := by
  obtain ⟨hc, rfl | ⟨rfl, base, hb⟩⟩ := move_step h
  · refine ⟨Nat.zero_le _, .of_plain fun d hd => ?_⟩
    obtain rfl : d = c := by simpa using hd
    exact hc
  · obtain ⟨mark, digit, s, hcs, hm, -⟩ := baseAhead?_some hb
    match cs, hcs with
    | m :: cs, hcs =>
        obtain rfl : m = mark := (List.cons.inj hcs).1
        refine ⟨Nat.succ_le_succ (Nat.zero_le _), .of_plain fun d hd => ?_⟩
        rcases List.mem_cons.mp hd with rfl | hd
        · exact hc
        · obtain rfl : d = m := by simpa using hd
          exact plain_of_baseOfMark? hm

/-! ### Operators -/

/-- The operator at the front of a text is its beginning. -/
theorem at?_some {text : List Char} {op : Operator} (h : Operator.at? text = some op) :
    ∃ s, text = op.symbol.toList ++ s := by
  have hp := List.find?_some h
  obtain ⟨s, hs⟩ := List.isPrefixOf_iff_prefix.mp hp
  exact ⟨s, hs.symm⟩

theorem plain_of_mem_symbol (op : Operator) : ∀ c ∈ op.symbol.toList, Balanced.Plain c := by
  cases op <;> simp [Operator.symbol, Balanced.Plain]

/-- Behind its first character, an operator is decided by whether the end or one more character of
its own comes. -/
theorem at?_closes (c : Char) {r : List Char} (h : Closes r) :
    Operator.at? (c :: r.take 1) = Operator.at? [c] := by
  rcases h.cases with rfl | ⟨d, s, rfl, hd⟩
  · rfl
  · rcases hd with rfl | rfl | rfl <;>
      simp [Operator.at?, Operator.all, Operator.symbol, List.find?, List.isPrefixOf]

/-- Rests that are alike make the same operator of a character in front of them. -/
theorem at?_alike (c : Char) {r r' : List Char} (h : Alike r r') :
    Operator.at? (c :: r.take 1) = Operator.at? (c :: r'.take 1) := by
  cases h with
  | close h h' => rw [at?_closes c h, at?_closes c h']
  | point => rfl
  | cons => rfl

/-- No operator starts with a closing character or a point. -/
theorem at?_closer {c : Char} (h : IsCloser c ∨ c = '.') (s : List Char) :
    Operator.at? (c :: s) = none := by
  rcases h with (rfl | rfl | rfl) | rfl <;>
    simp [Operator.at?, Operator.all, Operator.symbol, List.find?, List.isPrefixOf]

/-! ### The start of an operand -/

/-- The character that decides of which sort an operand is decides the same before alike rests. -/
theorem startsNumber_alike (c : Char) {r r' : List Char} (h : Alike r r') :
    startsNumber (c :: r.take 1) = startsNumber (c :: r'.take 1) := by
  simp only [startsNumber, digitAhead_alike h 1]

end Stencil.Expr
