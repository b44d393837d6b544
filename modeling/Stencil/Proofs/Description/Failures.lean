import Stencil.Proofs.Description.Places
import Stencil.Proofs.Numeral.LongestMatch

/-!
# Description — Failures

How a description fails: with an error that has a place in the description, by its form or by a
number out of range, and with a fault only by a number of too many digits (`loadText_reports`).

The only other faults that could come up are those of the reader of numbers at stray signs behind a
point.  Far as the token of a number is wider than the numbers it stands for (`IsNumberToken`), no
sign follows a point in it (`IsNumberToken.not_stray`), and so to read it has a value or an error,
unless it has too many digits (`reports_number`).  The tokens of a statement are such tokens
(`numberIs_of_mem`), and so are the numbers of the datum that they make up (`ends_datum`).
-/

namespace Stencil

open Scanner Text Numeral

namespace Description

/-! ### The tokens of numbers -/

/-- A character of the figures of a number: a digit or a point. -/
def IsFigure (base : Nat) (c : Char) : Prop :=
  isDigitOf base c = true ∨ c = '.'

/-- The text is the token of a number.  Unlike in numbers, there may be any points among the digits
of hexadecimal and decimal ones. -/
inductive IsNumberToken : List Char → Prop where
  | hexadecimal {sign : Option Char} {x : Char} {figures e : List Char}
      {exponent : Option Exponent} (hs : IsSign sign) (hx : x = 'x' ∨ x = 'X')
      (hne : figures ≠ []) (hf : ∀ c ∈ figures, IsFigure 16 c)
      (he : IsExponent 'p' 'P' e exponent) :
      IsNumberToken (sign.toList ++ '0' :: x :: (figures ++ e))
  | binary {sign : Option Char} {x : Char} {ds : List Char} (hs : IsSign sign)
      (hx : x = 'b' ∨ x = 'B') (hds : IsDigits 2 ds) :
      IsNumberToken (sign.toList ++ '0' :: x :: ds)
  | octal {sign : Option Char} {x : Char} {ds : List Char} (hs : IsSign sign)
      (hx : x = 'o' ∨ x = 'O') (hds : IsDigits 8 ds) :
      IsNumberToken (sign.toList ++ '0' :: x :: ds)
  | decimal {sign : Option Char} {figures e : List Char} {exponent : Option Exponent}
      (hs : IsSign sign) (hne : figures ≠ []) (hf : ∀ c ∈ figures, IsFigure 10 c)
      (he : IsExponent 'e' 'E' e exponent) : IsNumberToken (sign.toList ++ (figures ++ e))

section Length

variable {isFigure isMarker : Char → Bool} {text : List Char} {n : Nat}

theorem splitSign_eq (text : List Char) :
    IsSign (splitSign text).1 ∧ text = (splitSign text).1.toList ++ (splitSign text).2 := by
  cases text with
  | nil => exact ⟨isSign_none, rfl⟩
  | cons c rest =>
      by_cases hs : isSign c = true
      · have hsplit : splitSign (c :: rest) = (some c, rest) := if_pos hs
        rw [hsplit]
        exact ⟨isSign_some (Expr.eq_of_isSign hs), rfl⟩
      · have hsplit : splitSign (c :: rest) = (none, c :: rest) := if_neg hs
        rw [hsplit]
        exact ⟨isSign_none, rfl⟩

theorem digitAhead_splitSign (h : Literal.exponentAhead text = true) :
    Literal.digitAhead (splitSign text).2 = true := by
  cases text with
  | nil => cases h
  | cons c rest =>
      by_cases hs : isSign c = true
      · have hd : isDigitOf 10 c = false := by
          rcases Expr.eq_of_isSign hs with rfl | rfl <;> rfl
        simpa [Literal.exponentAhead, splitSign, hs, hd] using h
      · simpa [Literal.exponentAhead, splitSign, hs, Literal.digitAhead] using h

/-- What an exponent is counted for: nothing, or the exponent in front. -/
theorem take_exponentLength (isMarker : Char → Bool) (text : List Char) :
    text.take (exponentLength isMarker text) = [] ∨
      ∃ c sign ds, isMarker c = true ∧ IsSign sign ∧ IsDigits 10 ds ∧
        text.take (exponentLength isMarker text) = c :: (sign.toList ++ ds) := by
  cases text with
  | nil => exact .inl rfl
  | cons c rest =>
      rw [exponentLength]
      split
      · next h =>
        obtain ⟨hmark, hahead⟩ := (Bool.and_eq_true ..).mp h
        have hd := digitAhead_splitSign hahead
        obtain ⟨hs, hrest⟩ := splitSign_eq rest
        dsimp only
        generalize (splitSign rest).1 = sign at *
        generalize (splitSign rest).2 = digits at *
        subst hrest
        refine .inr ⟨c, sign, digits.takeWhile (isDigitOf 10), hmark, hs,
          ⟨?_, fun d => List.mem_takeWhile_imp⟩, ?_⟩
        · cases digits with
          | nil => cases hd
          | cons d ds =>
              have hd : isDigitOf 10 d = true := hd
              rw [List.takeWhile_cons_of_pos hd]
              exact List.cons_ne_nil _ _
        · have hprefix : c :: (sign.toList ++ digits.takeWhile (isDigitOf 10)) <+:
              c :: (sign.toList ++ digits) :=
            List.cons_prefix_cons.mpr
              ⟨rfl, (List.prefix_append_right_inj _).mpr (List.takeWhile_prefix _)⟩
          have hlength : (c :: (sign.toList ++ digits.takeWhile (isDigitOf 10))).length =
              1 + sign.toList.length + (digits.takeWhile (isDigitOf 10)).length := by
            rw [List.length_cons, List.length_append]
            omega
          rw [← hlength]
          exact (List.prefix_iff_eq_take.mp hprefix).symm
      · exact .inl rfl

/-- What figures are counted for: figures, and the exponent behind them, if any. -/
theorem take_figuresLength? (h : figuresLength? isFigure isMarker text = some n) :
    ∃ figures rest : List Char, figures ≠ [] ∧ (∀ c ∈ figures, isFigure c = true) ∧
      text.take n = figures ++ rest.take (exponentLength isMarker rest) := by
  simp only [figuresLength?] at h
  split at h
  · cases h
  · next hne =>
    cases h
    refine ⟨text.takeWhile isFigure, text.drop (text.takeWhile isFigure).length,
      by simpa using hne, fun c => List.mem_takeWhile_imp, ?_⟩
    rw [List.take_add, ← List.prefix_iff_eq_take.mp (List.takeWhile_prefix isFigure)]

/-- What is counted for a number in a base that has neither points nor exponents. -/
theorem isDigits_take_markedLength? {base : Nat} (hbase : base ≠ 16)
    (h : markedLength? base text = some n) : IsDigits base (text.take n) := by
  rw [markedLength?, if_neg hbase] at h
  obtain ⟨ds, rest, hne, hds, htake⟩ := take_figuresLength? h
  rcases take_exponentLength (fun _ => false) rest with he | ⟨_, _, _, hc, -⟩
  · rw [htake, he, List.append_nil]
    exact ⟨hne, hds⟩
  · cases hc

/-- The number without sign in front of a text. -/
theorem isNumberToken_unsigned {sign : Option Char} (hs : IsSign sign)
    (h : unsignedLength? text = some n) : IsNumberToken (sign.toList ++ text.take n) := by
  have exponent : ∀ {isMarker : Char → Bool} {lower upper : Char},
      (∀ c, isMarker c = true → c = lower ∨ c = upper) → ∀ rest : List Char,
      ∃ x, IsExponent lower upper (rest.take (exponentLength isMarker rest)) x := by
    intro isMarker lower upper hm rest
    rcases take_exponentLength isMarker rest with he | ⟨c, sign, ds, hc, hsign, hds, he⟩
    · rw [he]
      exact ⟨none, .absent⟩
    · rw [he]
      exact ⟨_, .present (hm c hc) hsign hds⟩
  have figure : ∀ {base : Nat} {c : Char},
      (isDigitOf base c || c == '.') = true → IsFigure base c := by
    intro base c hc
    simpa [IsFigure] using hc
  have marker : ∀ {a b c : Char}, (c == a || c == b) = true → c = a ∨ c = b := by
    intro a b c hc
    simpa using hc
  -- The text has the mark of a base, or it is decimal.
  rcases unsignedLength?_eq text with ⟨mark, base, rest, m, rfl, hb, hm, h'⟩ | ⟨-, h'⟩
  · rw [h'] at h
    cases h
    rw [List.take_succ_cons, List.take_succ_cons]
    rcases Expr.eq_of_baseOfMark? hb with ⟨rfl, hx⟩ | ⟨rfl, hx⟩ | ⟨rfl, hx⟩
    · exact .binary hs hx (isDigits_take_markedLength? (by decide) hm)
    · exact .octal hs hx (isDigits_take_markedLength? (by decide) hm)
    · rw [markedLength?, if_pos rfl] at hm
      obtain ⟨figures, rest', hne, hf, htake⟩ := take_figuresLength? hm
      obtain ⟨x, he⟩ := exponent (fun c => marker) rest'
      rw [htake]
      exact .hexadecimal hs hx hne (fun c hc => figure (hf c hc)) he
  · rw [h'] at h
    obtain ⟨figures, rest', hne, hf, htake⟩ := take_figuresLength? h
    obtain ⟨x, he⟩ := exponent (fun c => marker) rest'
    rw [htake]
    exact .decimal hs hne (fun c hc => figure (hf c hc)) he

/-- What is counted for a number is the token of one. -/
theorem isNumberToken_take (h : numberLength? text = some n) : IsNumberToken (text.take n) := by
  obtain ⟨hs, htext⟩ := splitSign_eq text
  simp only [numberLength?, Option.map_eq_some_iff] at h
  obtain ⟨m, hm, rfl⟩ := h
  have htake : ((splitSign text).1.toList ++ (splitSign text).2).take
      ((splitSign text).1.toList.length + m) = _ := List.take_length_add_append m
  rw [← htext, Nat.add_comm] at htake
  rw [htake]
  exact isNumberToken_unsigned hs hm

end Length

/-- No sign follows a point at the front of the token of a number. -/
theorem IsNumberToken.not_stray {chars v : List Char} (h : IsNumberToken chars)
    (hv : chars = '.' :: v) : ¬StraySign v := by
  rintro ⟨s, d, w, rfl, hs, -⟩
  have signless : ∀ {sign : Option Char} {u : List Char}, IsSign sign →
      sign.toList ++ u = '.' :: s :: d :: w → u = '.' :: s :: d :: w := by
    intro sign u hsign hu
    cases sign with
    | none => exact hu
    | some c =>
        obtain ⟨rfl, -⟩ := List.cons.inj hu
        rcases hsign _ rfl with h | h <;> cases h
  cases h with
  | hexadecimal hsign => cases signless hsign hv
  | binary hsign => cases signless hsign hv
  | octal hsign => cases signless hsign hv
  | @decimal sign figures e _ hsign hne hf he =>
      have hu := signless hsign hv
      cases figures with
      | nil => exact hne rfl
      | cons c figures =>
          obtain ⟨-, hu⟩ := List.cons.inj hu
          -- What comes next is a figure, or the letter of an exponent, and no sign.
          have hnext : IsFigure 10 s ∨ s = 'e' ∨ s = 'E' := by
            cases figures with
            | cons c' figures =>
                obtain ⟨rfl, -⟩ := List.cons.inj hu
                exact .inl (hf _ (by simp))
            | nil =>
                cases he with
                | absent => cases hu
                | present hc =>
                    obtain ⟨rfl, -⟩ := List.cons.inj hu
                    exact .inr hc
          rcases Expr.eq_of_isSign hs with rfl | rfl <;>
            rcases hnext with (hd | hd) | hd | hd <;> cases hd

/-! ### Errors of a description -/

/-- The failure is an error of a syntax or of a range, and it has a place. -/
def Reported (f : Failure) : Prop :=
  ∃ cause p, f = .located cause p ∧ (cause.kind = .malformed ∨ cause.kind = .range)

/-- The failure is the fault of one of these numbers, which has too many digits in a row. -/
def TooLong (numbers : List Char → Prop) (f : Failure) : Prop :=
  ∃ chars n, numbers chars ∧ LongRun chars ∧ f = .fault (.inDescription (.tooManyDigits n))

variable {numbers : List Char → Prop}

/-- What comes to a failure is reported, but for numbers with too many digits. -/
def Reports {α : Type} (numbers : List Char → Prop) (x : Except Failure α) : Prop :=
  ∀ f, x = .error f → Reported f ∨ TooLong numbers f

variable {α β : Type}

theorem reports_ok (a : α) : Reports numbers (.ok a) := fun f h => by cases h

theorem reports_malformed {cause : Cause} (hc : cause.kind = .malformed) (p : Position) :
    Reports numbers (.error (.located cause p) : Except Failure α) := by
  rintro _ ⟨⟩
  exact .inl ⟨cause, p, rfl, .inl hc⟩

theorem Reports.bind {x : Except Failure α} {g : α → Except Failure β} (hx : Reports numbers x)
    (hg : ∀ a, x = .ok a → Reports numbers (g a)) : Reports numbers (x >>= g) := by
  cases x with
  | error f => exact fun f' h => hx f' (by cases h; rfl)
  | ok a => exact hg a rfl

/-! ### Numbers -/

/-- The reader of numbers has a value or an error for a text that starts with no stray sign, or
finds too many digits in it. -/
theorem reports_number {chars : List Char} (h : ∀ v, chars = '.' :: v → ¬StraySign v)
    (p : Position) :
    (∃ v t, number.run (.ofTextAt p chars) = .ok v t) ∨
      ∃ f t, number.run (.ofTextAt p chars) = .error f t ∧
        (Reported f ∨ (∃ n, f = .fault (.tooManyDigits n)) ∧ LongRun chars) := by
  obtain ⟨l, t, -, hrun⟩ := Expr.run_number p chars
  cases hl : l.evaluate t.position with
  | ok v => exact .inl ⟨v, t, by rw [hrun, hl]⟩
  | error f =>
      rw [hl] at hrun
      refine .inr ⟨f, t, hrun, ?_⟩
      rcases Literal.evaluate_error hl with ⟨cause, rfl, hc⟩ | ⟨fault, rfl⟩
      · refine .inl ⟨cause, t.position, rfl, ?_⟩
        rcases hc with rfl | ⟨_, rfl⟩
        · exact .inl rfl
        · exact .inr rfl
      · rcases of_number_fault hrun with ⟨v, hv, hstray⟩ | ⟨w, l, r, hlongest, hlong, rfl⟩
        · exact absurd hstray (h v hv)
        · exact .inr ⟨⟨_, rfl⟩, hlongest.text_eq ▸ hlong.longRun r⟩

theorem reports_numberOf {chars : List Char} (h : IsNumberToken chars) (hchars : numbers chars)
    (p : Position) : Reports numbers (numberOf p chars) := by
  rcases reports_number (fun v => h.not_stray) (.start Stream.defaultName) with
    ⟨v, t, hrun⟩ | ⟨_, t, hrun, ⟨cause, q, rfl, hkind⟩ | ⟨⟨n, rfl⟩, hlong⟩⟩
  · change number.run (.ofText Stream.defaultName chars) = _ at hrun
    rw [numberOf, hrun]
    dsimp only
    split
    · exact reports_ok v
    · exact reports_malformed rfl _
  · change number.run (.ofText Stream.defaultName chars) = _ at hrun
    rw [numberOf, hrun]
    rintro _ ⟨⟩
    exact .inl ⟨cause, shifted p, rfl, hkind⟩
  · change number.run (.ofText Stream.defaultName chars) = _ at hrun
    rw [numberOf, hrun]
    rintro _ ⟨⟩
    exact .inr ⟨chars, n, hchars, hlong, rfl⟩

/-! ### Data -/

/-- The numbers of a datum are tokens of numbers, and among these. -/
inductive Datum.NumbersAre (numbers : List Char → Prop) : Datum → Prop where
  | string (s : String) : NumbersAre numbers (.string s)
  | number (p : Position) {chars : List Char} (h : IsNumberToken chars) (hchars : numbers chars) :
      NumbersAre numbers (.number p chars)
  | array {ds : List Datum} (h : ∀ d ∈ ds, NumbersAre numbers d) : NumbersAre numbers (.array ds)

/-- The same of the data that are read so far. -/
structure NumbersSoFar (numbers : List Char → Prop) (expected : Expected) (arrays : OpenArrays) :
    Prop where
  behind : ∀ d, expected = .behind d → d.NumbersAre numbers
  arrays : ∀ items ∈ arrays, ∀ d ∈ items, Datum.NumbersAre numbers d

/-- The token, if it is that of a number, is one, and among these. -/
def Token.NumberIs (numbers : List Char → Prop) (t : Token) : Prop :=
  ∀ chars, t = .number chars → IsNumberToken chars ∧ numbers chars

/-- Behind a turn the numbers are tokens of numbers again, or it ends the statement by its form. -/
def Turn.Keeps (numbers : List Char → Prop) : Turn → Prop
  | .on expected arrays => NumbersSoFar numbers expected arrays
  | .last d => d.NumbersAre numbers
  | .stop cause => cause.kind = .malformed

theorem keeps_turnBehind {d : Datum} (hd : d.NumbersAre numbers) {as : OpenArrays}
    (has : ∀ items ∈ as, ∀ d ∈ items, Datum.NumbersAre numbers d) (t : Token) :
    (turnBehind d as t).Keeps numbers := by
  cases as with
  | nil => cases t <;> first | exact hd | rfl
  | cons items as =>
      obtain ⟨hitems, has⟩ := List.forall_mem_cons.mp has
      have hall : ∀ e ∈ d :: items, Datum.NumbersAre numbers e :=
        List.forall_mem_cons.mpr ⟨hd, hitems⟩
      cases t with
      | comma => exact ⟨by rintro _ ⟨⟩, List.forall_mem_cons.mpr ⟨hall, has⟩⟩
      | closeBracket =>
          refine ⟨?_, has⟩
          rintro _ ⟨⟩
          exact .array fun e he => hall e (List.mem_reverse.mp he)
      | _ => rfl

theorem keeps_turnBefore (mayEnd : Bool) {as : OpenArrays}
    (has : ∀ items ∈ as, ∀ d ∈ items, Datum.NumbersAre numbers d) (p : Position) {t : Token}
    (ht : t.NumberIs numbers) : (turnBefore mayEnd as p t).Keeps numbers := by
  cases t with
  | string s => exact ⟨by rintro _ ⟨⟩; exact .string s, has⟩
  | number chars => exact ⟨by rintro _ ⟨⟩; exact .number p (ht chars rfl).1 (ht chars rfl).2, has⟩
  | openBracket =>
      have hnone : ∀ d ∈ ([] : List Datum), d.NumbersAre numbers := fun d hd => by cases hd
      exact ⟨by rintro _ ⟨⟩, List.forall_mem_cons.mpr ⟨hnone, has⟩⟩
  | closeBracket =>
      cases mayEnd with
      | false => rfl
      | true =>
          cases as with
          | nil => rfl
          | cons items as =>
              refine ⟨?_, (List.forall_mem_cons.mp has).2⟩
              rintro _ ⟨⟩
              exact .array fun d hd => by cases hd
  | _ => rfl

theorem keeps_turn {x : Expected} {as : OpenArrays} (h : NumbersSoFar numbers x as) (p : Position)
    {t : Token} (ht : t.NumberIs numbers) : (turn x as p t).Keeps numbers := by
  cases x with
  | behind d => exact keeps_turnBehind (h.behind d rfl) h.arrays t
  | valueOrEnd => exact keeps_turnBefore true h.arrays p ht
  | value => exact keeps_turnBefore false h.arrays p ht

/-- A datum of tokens of numbers is read, or a statement is malformed somewhere. -/
inductive Ends (numbers : List Char → Prop) : Except Error Datum → Prop where
  | datum {d : Datum} (h : d.NumbersAre numbers) : Ends numbers (.ok d)
  | malformed {cause : Cause} (h : cause.kind = .malformed) (p : Position) :
      Ends numbers (.error ⟨cause, p⟩)

/-- How the tokens of a datum are read.  The induction is on them, and each turn keeps the
numbers. -/
theorem ends_datum {x : Expected} {as : OpenArrays} (h : NumbersSoFar numbers x as)
    (last : Position) {ts : List (Position × Token)} (hts : ∀ pt ∈ ts, pt.2.NumberIs numbers) :
    Ends numbers (datum x as last ts) := by
  induction ts generalizing x as last with
  | nil =>
      rw [datum_nil]
      cases x <;> exact .malformed rfl _
  | cons pt rest ih =>
      obtain ⟨p, t⟩ := pt
      obtain ⟨ht, hrest⟩ := List.forall_mem_cons.mp hts
      have hturn := keeps_turn h p ht
      rw [datum_cons]
      cases hx : turn x as p t with
      | on x' as' =>
          rw [hx] at hturn
          exact ih hturn p hrest
      | last d =>
          rw [hx] at hturn
          cases rest with
          | nil => exact .datum hturn
          | cons next rest => exact .malformed rfl _
      | stop cause =>
          rw [hx] at hturn
          exact .malformed hturn _

theorem ends_assigned (symbol : Position) {ts : List (Position × Token)}
    (hts : ∀ pt ∈ ts, pt.2.NumberIs numbers) : Ends numbers (assigned symbol ts) := by
  cases ts with
  | nil => exact .malformed rfl _
  | cons pt rest =>
      obtain ⟨p, t⟩ := pt
      cases t with
      | equals =>
          have hnone : NumbersSoFar numbers .value [] :=
            ⟨by rintro _ ⟨⟩, fun items hitems => by cases hitems⟩
          exact ends_datum hnone p (List.forall_mem_cons.mp hts).2
      | _ => exact .malformed rfl _

theorem reports_toValue (start : Position) (levels : Nat) {d : Datum} (h : d.NumbersAre numbers) :
    Reports numbers (d.toValue start levels) := by
  induction levels generalizing d with
  | zero =>
      cases h with
      | string s => exact reports_ok _
      | number p h hchars => exact reports_numberOf h hchars p
      | array h => exact reports_malformed rfl start
  | succ levels ih =>
      have items : ∀ {ds : List Datum}, (∀ d ∈ ds, Datum.NumbersAre numbers d) →
          Reports numbers (Datum.toValue.toValues start levels ds) := by
        intro ds hds
        induction ds with
        | nil => exact reports_ok _
        | cons d ds ihs =>
            obtain ⟨hd, hds⟩ := List.forall_mem_cons.mp hds
            exact (ih hd).bind fun v _ => (ihs hds).bind fun vs _ => reports_ok _
      cases h with
      | string s => exact reports_ok _
      | number p h hchars => exact reports_numberOf h hchars p
      | @array ds h =>
          rw [Datum.toValue]
          have hitems := items h
          cases hvs : Datum.toValue.toValues start levels ds with
          | ok vs => exact reports_ok _
          | error f => rw [hvs] at hitems; exact fun f' h => hitems f' (by cases h; rfl)

/-! ### Statements -/

/-- The number is one of the tokens of a text. -/
def NumberIn (p : Position) (text chars : List Char) : Prop :=
  ∃ q, (q, Token.number chars) ∈ tokens p text

/-- The tokens of numbers in a text are such. -/
theorem numberIs_of_mem {p : Position} {text : List Char} :
    ∀ pt ∈ tokens p text, pt.2.NumberIs (NumberIn p text) := by
  have htoken : ∀ pt ∈ tokens p text, ∀ chars, pt.2 = .number chars → IsNumberToken chars := by
    induction text using lexeme_induction generalizing p with
    | nil => rw [tokens_nil]; intro pt hpt; cases hpt
    | cons w t r hw ih =>
        rw [tokens_lexeme hw]
        refine List.forall_mem_append.mpr ⟨?_, ih⟩
        rintro pt hpt chars hchars
        cases t with
        | none => cases hpt
        | some t =>
            obtain rfl : pt = (p, t) := List.mem_singleton.mp hpt
            obtain rfl : t = .number chars := hchars
            cases hw with
            | mark hm =>
                rcases eq_of_ofMark? hm with rfl | rfl | rfl | rfl | rfl <;> cases hm
            | number _ hlength =>
                have htoken := isNumberToken_take hlength
                rwa [List.take_left] at htoken
  rintro ⟨q, t⟩ hpt chars rfl
  exact ⟨htoken _ hpt chars rfl, q, hpt⟩

/-- The number stands in a statement behind its symbol. -/
def NumberOf (p : Position) (statement : List Char) : List Char → Prop :=
  NumberIn (p.after (statement.takeWhile isSymbol)) (statement.dropWhile isSymbol)

/-- A statement says something, or why it does not is reported. -/
theorem reports_result (p : Position) (text : List Char) :
    Reports (NumberOf p text) (Statement.result p text) := by
  rw [Statement.result]
  split
  · exact reports_malformed rfl _
  · rw [assignment]
    dsimp only
    split
    · exact reports_malformed rfl _
    · have hends : Ends (NumberOf p text) _ := ends_assigned p numberIs_of_mem
      cases ha : assigned p (tokens (p.after (text.takeWhile isSymbol))
          (text.dropWhile isSymbol)) with
      | error e =>
          rw [ha] at hends
          cases hends with
          | malformed hc q => exact reports_malformed hc q
      | ok d =>
          rw [ha] at hends
          cases hends with
          | datum hd => exact (reports_toValue p arrayLimit hd).bind fun v _ => reports_ok _

/-- What is reported in a text has a place that names it. -/
theorem ReportedIn.named {name : String} {text : List Char} {cause : Cause} {p : Position}
    (h : ReportedIn name text (.located cause p)) : p.name = name := by
  cases h with
  | atPlace _ hp => exact hp.named
  | behind _ hp => exact hp.named

end Description

namespace Environment

open Description

/-- The number stands in one of the statements of a description. -/
def HasNumber (text chars : List Char) : Prop :=
  ∃ p v, (p, v) ∈ statements (.start streamName) text ∧ NumberOf p v chars

/-- **A description fails with an error of its own**: whatever the environment and the text, if the
text does not load as a whole, then for an error of a syntax or of a range, at a place that names
the description; or one of its numbers has more digits than are read.  In particular the token of a
number, wider than numbers as it is, has a value or such an error wherever it is read, unless it has
too many digits. -/
theorem loadText_reports (env : Environment) (text : List Char) :
    (∀ f, (env.loadText text).2 = some f →
      (∃ cause p, f = .located cause p ∧ (cause.kind = .malformed ∨ cause.kind = .range) ∧
        p.name = streamName) ∨
      ∃ chars n, HasNumber text chars ∧ LongRun chars ∧
        f = .fault (.inDescription (.tooManyDigits n))) ∧
    ∀ chars, IsNumberToken chars → ∀ p,
      (∃ v t, number.run (.ofTextAt p chars) = .ok v t) ∨
        (∃ cause q t, number.run (.ofTextAt p chars) = .error (.located cause q) t ∧
          (cause.kind = .malformed ∨ cause.kind = .range)) ∨
        LongRun chars ∧
          ∃ n t, number.run (.ofTextAt p chars) = .error (.fault (.tooManyDigits n)) t := by
  refine ⟨fun f h => ?_, fun chars htoken p => ?_⟩
  · rw [loadText_eq] at h
    obtain ⟨⟨q, v⟩, hs, hf⟩ := List.mem_map.mp (mem_of_untilError h)
    rcases reports_result q v f hf with ⟨cause, p, rfl, hkind⟩ | ⟨chars, n, hchars, hlong, rfl⟩
    · exact .inl ⟨cause, p, rfl, hkind, (reportedIn_of_statements hs hf).named⟩
    · exact .inr ⟨chars, n, ⟨q, v, hs, hchars⟩, hlong, rfl⟩
  · rcases reports_number (fun v => htoken.not_stray) p with
      h | ⟨_, t, hrun, ⟨cause, q, rfl, hkind⟩ | ⟨⟨n, rfl⟩, hlong⟩⟩
    · exact .inl h
    · exact .inr (.inl ⟨cause, q, t, hrun, hkind⟩)
    · exact .inr (.inr ⟨hlong, n, t, hrun⟩)

/-- A statement without a value, and a point with an exponent. -/
theorem loadText_reports_of_missing :
    (∃ cause p, (empty.loadText "x = ;".toList).2 = some (.located cause p) ∧
        (cause.kind = .malformed ∨ cause.kind = .range) ∧ p.name = streamName) ∧
      IsNumberToken ['.', 'e', '+', '5'] ∧
        ∃ cause q t, number.run (.ofTextAt (.start "") ['.', 'e', '+', '5']) =
          .error (.located cause q) t ∧ (cause.kind = .malformed ∨ cause.kind = .range) := by
  have hload : (empty.loadText "x = ;".toList).2 =
      some (.located .missingValue ⟨streamName, 1, 5, 4⟩) := by
    with_unfolding_all rfl
  have hexponent : IsExponent 'e' 'E' ['e', '+', '5'] (some ⟨'e', some '+', ['5']⟩) :=
    .present (.inl rfl) (isSign_some (.inl rfl)) (isDigits_singleton rfl)
  have hpoint : ∀ c ∈ ['.'], IsFigure 10 c := fun c hc => .inr (List.mem_singleton.mp hc)
  have htoken : IsNumberToken ['.', 'e', '+', '5'] :=
    .decimal isSign_none (List.cons_ne_nil '.' []) hpoint hexponent
  have hfold : (fold 2 Literal.move .empty).Reads ['.'] .pointed ['e', '+', '5'] :=
    reads_fold_step_zero rfl (reads_fold_stop rfl)
  have hrun := Expr.run_number_of_fold (hfold (.start ""))
  refine ⟨?_, htoken, ?_⟩
  · rcases (loadText_reports empty "x = ;".toList).1 _ hload with
      ⟨cause, p, hf, hreported⟩ | ⟨chars, n, -, -, ⟨⟩⟩
    exact ⟨cause, p, by rw [hload, hf], hreported⟩
  · rcases (loadText_reports empty []).2 _ htoken (.start "") with ⟨v, t, h⟩ | h | ⟨-, n, t, h⟩
    · cases hrun.symm.trans h
    · exact h
    · cases hrun.symm.trans h

end Environment

end Stencil
