import Mathlib.Data.List.Infix
import Stencil.Proofs.Expr.Literals
import Stencil.Proofs.Expr.Numbers
import Stencil.Proofs.Numeral.Grammar

/-!
# Numeral — Longest match

The reader of numbers takes the longest number that a text starts with (`number_longest`).

Its machine goes through a number part by part, each with one lemma: a sign, the mark of a base and
digits, digits before or behind the point, a point, an exponent (`IsNumber.reads`).  At the end of a
number it stops unless a longer one follows (`IsNumber.halts`).  Only the zero is an exception, as
the machine looks for the mark of a base behind it, but where it finds one a longer number follows
too.
-/

namespace Stencil

open Scanner Text

namespace Literal

variable {l m : Literal} {c : Char} {ds f fraction e v r : List Char} {point : Bool}
  {lower upper : Char} {exponent : Option Exponent}

/-! ### The parts of numbers -/

/-- A literal with some more digits before or after the point. -/
def withDigits (l : Literal) (ds : List Char) : Literal :=
  if l.point then { l with fraction := l.fraction ++ ds } else { l with whole := l.whole ++ ds }

theorem withDigits_nil (l : Literal) : l.withDigits [] = l := by
  simp [withDigits]

theorem withDigits_cons (l : Literal) (c : Char) (ds : List Char) :
    l.withDigits (c :: ds) = (l.withDigit c).withDigits ds := by
  unfold withDigits withDigit
  split <;> simp [*]

@[simp] theorem base_withDigit (l : Literal) (c : Char) : (l.withDigit c).base = l.base := by
  unfold withDigit
  split <;> rfl

@[simp] theorem exponent_withDigit (l : Literal) (c : Char) :
    (l.withDigit c).exponent = l.exponent := by
  unfold withDigit
  split <;> rfl

@[simp] theorem hasMantissa_withDigit (l : Literal) (c : Char) :
    (l.withDigit c).hasMantissa = true :=
  (Kept.withDigit rfl id c).mantissa

/-- No base is announced any more. -/
def Started (l : Literal) : Prop :=
  l.base = 10 → l.hasMantissa = true ∨ l.point = true

theorem move_started (he : l.exponent = none) (hs : l.Started) (hc : isDigitOf l.base c = true)
    (ahead : List Char) : l.move c ahead = .step 0 (l.withDigit c) := by
  rcases move_digit he hc ahead with hm | ⟨⟨-, hbase, hmantissa, hpoint⟩, -⟩
  · exact hm
  · simpa [hmantissa, hpoint] using hs hbase

theorem reads_digits (he : l.exponent = none) (hs : l.Started)
    (hds : ∀ c ∈ ds, isDigitOf l.base c = true)
    (hv : (fold 2 move (l.withDigits ds)).Reads v m r) : (fold 2 move l).Reads (ds ++ v) m r := by
  induction ds generalizing l with
  | nil => rwa [withDigits_nil] at hv
  | cons c ds ih =>
      obtain ⟨hc, hds⟩ := List.forall_mem_cons.mp hds
      rw [withDigits_cons] at hv
      refine reads_fold_step_zero (move_started he hs hc _) (ih ?_ ?_ ?_ hv)
      · rwa [exponent_withDigit]
      · exact fun _ => .inl (hasMantissa_withDigit l c)
      · rwa [base_withDigit]

theorem reads_fraction (hf : Numeral.IsFraction l.base f point fraction)
    (he : l.exponent = none) (hp : l.point = false) (hl : l.fraction = [])
    (h₂ : l.base ≠ 2) (h₈ : l.base ≠ 8)
    (hv : (fold 2 move { l with point := point, fraction := fraction }).Reads v m r) :
    (fold 2 move l).Reads (f ++ v) m r := by
  cases hf with
  | absent =>
      rwa [show ({ l with point := false, fraction := [] } : Literal) = l by rw [← hp, ← hl]] at hv
  | present hds =>
      have hm : ∀ ahead, l.move '.' ahead = .step 0 { l with point := true } := by
        intro ahead
        simp [move, he, moveInMantissa, hp, h₂, h₈]
      refine reads_fold_step_zero (hm _) (reads_digits he (fun _ => .inr rfl) hds ?_)
      rwa [withDigits, if_pos rfl, hl, List.nil_append]

theorem reads_exponentDigits {x : Exponent} (hx : l.exponent = some x)
    (hds : ∀ c ∈ ds, isDigitOf 10 c = true)
    (hv : (fold 2 move { l with exponent := some { x with digits := x.digits ++ ds } }).Reads v m
      r) : (fold 2 move l).Reads (ds ++ v) m r := by
  induction ds generalizing l x with
  | nil => rwa [List.append_nil, show { l with exponent := some x } = l by rw [← hx]] at hv
  | cons c ds ih =>
      obtain ⟨hc, hds⟩ := List.forall_mem_cons.mp hds
      have hsign := (Expr.ne_of_isDigitOf hc).2.1
      have hm : ∀ ahead, l.move c ahead =
          .step 0 { l with exponent := some { x with digits := x.digits ++ [c] } } := by
        intro ahead
        simp [move, hx, moveInExponent, hsign, hc]
      refine reads_fold_step_zero (hm _) (ih rfl hds ?_)
      simpa using hv

theorem digitAhead_digits (hds : Numeral.IsDigits 10 ds) (n : Nat) :
    digitAhead ((ds ++ v).take (n + 1)) = true := by
  obtain ⟨d, ds, rfl⟩ := List.exists_cons_of_ne_nil hds.1
  exact hds.2 d (List.mem_cons_self ..)

theorem reads_exponent (hexp : Numeral.IsExponent lower upper e exponent)
    (hmark : ∀ c, c = lower ∨ c = upper → isExponentMarker l.base c = true)
    (he : l.exponent = none) (hm : l.hasMantissa = true)
    (hv : (fold 2 move { l with exponent := exponent }).Reads [] m r) :
    (fold 2 move l).Reads e m r := by
  -- The marker is taken only if a digit follows it, or a sign and a digit.
  cases hexp with
  | absent => rwa [show { l with exponent := none } = l by rw [← he]] at hv
  | @present c sign ds hc hs hds =>
      have hpoint : c ≠ '.' ∧ ¬isSign c = true := by
        rcases Expr.eq_of_isExponentMarker (hmark c hc) with ⟨-, rfl | rfl⟩ | ⟨-, rfl | rfl⟩ <;>
          decide
      have hmove : ∀ ahead, exponentAhead ahead = true →
          l.move c ahead = .step 0 { l with exponent := some ⟨c, none, []⟩ } := by
        intro ahead hahead
        simp [move, he, moveInMantissa, hpoint, hmark c hc, hm, hahead]
      cases sign with
      | none =>
          have hahead := digitAhead_digits (v := r) hds 1
          refine reads_fold_step_zero (hmove _ ?_) ?_
          · obtain ⟨d, ds, rfl⟩ := List.exists_cons_of_ne_nil hds.1
            simp [exponentAhead, hds.2 d (List.mem_cons_self ..)]
          · have := reads_exponentDigits (l := { l with exponent := some ⟨c, none, []⟩ })
              (v := []) rfl hds.2 hv
            simpa using this
      | some s =>
          have hsign : isSign s = true := by
            rcases hs s rfl with rfl | rfl <;> rfl
          have hahead : ∀ n, digitAhead ((ds ++ r).take (n + 1)) = true :=
            digitAhead_digits (v := r) hds
          refine reads_fold_step_zero (b := { l with exponent := some ⟨c, none, []⟩ }) (hmove _ ?_)
            (reads_fold_step_zero (b := { l with exponent := some ⟨c, some s, []⟩ }) ?_ ?_)
          · simp [exponentAhead, hsign, hahead 0]
          · simp [move, moveInExponent, hsign, hahead 1]
          · have := reads_exponentDigits (l := { l with exponent := some ⟨c, some s, []⟩ })
              (v := []) rfl hds.2 hv
            simpa using this

/-- A sign in front of a number. -/
theorem reads_sign {sign : Option Char} (hs : Numeral.IsSign sign)
    (hd : digitAhead ((v ++ r).take 2) = true)
    (hv : (fold 2 move { empty with sign := sign }).Reads v m r) :
    (fold 2 move empty).Reads (sign.toList ++ v) m r := by
  cases sign with
  | none => exact hv
  | some s =>
      have hsign : s ≠ '.' ∧ isSign s = true := by
        rcases hs s rfl with rfl | rfl <;> decide
      refine reads_fold_step_zero ?_ hv
      simp [move, empty, moveInMantissa, hsign, moveAtSign, hasMantissa, hd]

/-- The digits of a base other than ten, behind the mark that announces it. -/
theorem reads_marked {sign : Option Char} {x : Char} {base : Nat} (hs : Numeral.IsSign sign)
    (hx : baseOfMark? x = some base) (hds : Numeral.IsDigits base ds)
    (hv : (fold 2 move ⟨base, sign, ds, false, none, [], none⟩).Reads v m r) :
    (fold 2 move empty).Reads (sign.toList ++ '0' :: x :: (ds ++ v)) m r := by
  have hbase : base ≠ 10 := by
    rcases Expr.eq_of_baseOfMark? hx with ⟨rfl, -⟩ | ⟨rfl, -⟩ | ⟨rfl, -⟩ <;> decide
  have hdigits : (fold 2 move ⟨base, sign, [], false, none, [], none⟩).Reads (ds ++ v) m r :=
    reads_digits rfl (fun h => absurd h hbase) hds.2 hv
  have hahead : baseAhead? ((x :: (ds ++ v) ++ r).take 2) = some base := by
    obtain ⟨d, ds, rfl⟩ := List.exists_cons_of_ne_nil hds.1
    simp [baseAhead?, hx, hds.2 d (List.mem_cons_self ..)]
  have hm : ∀ ahead, baseAhead? ahead = some base → ({ empty with sign := sign } : Literal).move
      '0' ahead = .step 1 ⟨base, sign, [], false, none, [], none⟩ := by
    intro ahead h
    have hzero : isDigitOf 10 '0' = true := rfl
    simp [move, empty, moveInMantissa, hasMantissa, isSign, isExponentMarker, hzero, h]
  exact reads_sign hs rfl (reads_fold_step (w := [x]) (hm _ hahead) hdigits)

end Literal

namespace Numeral

variable {w r : List Char} {l m : Literal}

/-- Nothing but a zero, and a sign or none, is read. -/
def IsZero (l : Literal) : Prop :=
  ∃ sign, l = Expr.integerLiteral sign ['0']

/-- Behind a digit of a decimal number, no base is announced by what comes next in the number. -/
theorem baseAhead?_parts {ds f fraction e : List Char} {point : Bool} {exponent : Option Exponent}
    (hds : ∀ c ∈ ds, isDigitOf 10 c = true) (hf : IsFraction 10 f point fraction)
    (he : IsExponent 'e' 'E' e exponent)
    (hr : ds ++ (f ++ e) = [] → Literal.baseAhead? (r.take 2) = none) :
    Literal.baseAhead? ((ds ++ (f ++ e) ++ r).take 2) = none := by
  cases ds with
  | cons d ds =>
      have hd := hds d (List.mem_cons_self ..)
      exact Expr.baseAhead?_unmarked (Expr.ne_of_isDigitOf hd).2.2.2 _ 2
  | nil =>
      cases hf with
      | present => exact Expr.baseAhead?_unmarked rfl _ 2
      | absent =>
          cases he with
          | present hm => rcases hm with rfl | rfl <;> exact Expr.baseAhead?_unmarked rfl _ 2
          | absent => exact hr rfl

/-- The machine reads the first digit of a decimal number as its first digit. -/
theorem reads_first {sign : Option Char} {d : Char} {u : List Char}
    (hd : isDigitOf 10 d = true)
    (hzero : d = '0' → Literal.baseAhead? ((u ++ r).take 2) = none)
    (hu : (fold 2 Literal.move (Expr.integerLiteral sign [d])).Reads u m r) :
    (fold 2 Literal.move (Expr.integerLiteral sign [])).Reads (d :: u) m r := by
  refine reads_fold_step_zero ?_ hu
  rcases Literal.move_digit (l := Expr.integerLiteral sign []) rfl hd ((u ++ r).take 2) with
    hm | ⟨⟨rfl, -⟩, base, hbase, -⟩
  · exact hm
  · rw [hzero rfl] at hbase
    cases hbase

/-- The machine reads a number, if it stops at its end, and no zero announces a base there. -/
theorem IsNumber.reads (h : IsNumber w l) (hr : Halts 2 Literal.move l r)
    (hzero : IsZero l → Literal.baseAhead? (r.take 2) = none) :
    (fold 2 Literal.move .empty).Reads w l r := by
  have hend := reads_fold_halts hr
  -- One case for each form of numbers, part by part up to where the machine halts.
  cases h with
  | @hexadecimal sign x ds f fraction e point exponent hs hx hds hf he =>
      have hmantissa : ∀ sign point, (⟨16, sign, ds, point, none, fraction, none⟩ :
          Literal).hasMantissa = true := by simp [Literal.hasMantissa, hds.1]
      have hmark : Literal.baseOfMark? x = some 16 := by rcases hx with rfl | rfl <;> rfl
      have hmarker : ∀ c, c = 'p' ∨ c = 'P' → Literal.isExponentMarker 16 c = true := by
        rintro c (rfl | rfl) <;> rfl
      exact Literal.reads_marked hs hmark hds
        (Literal.reads_fraction hf rfl rfl rfl (by simp) (by simp)
          (Literal.reads_exponent he hmarker rfl (hmantissa sign point) hend))
  | @binary sign x ds hs hx hds =>
      have hmark : Literal.baseOfMark? x = some 2 := by rcases hx with rfl | rfl <;> rfl
      simpa using Literal.reads_marked (v := []) hs hmark hds hend
  | @octal sign x ds hs hx hds =>
      have hmark : Literal.baseOfMark? x = some 8 := by rcases hx with rfl | rfl <;> rfl
      simpa using Literal.reads_marked (v := []) hs hmark hds hend
  | @decimal sign ds f fraction e point exponent hs hds hf he =>
      have hmantissa : ∀ sign point, (⟨10, sign, ds, point, none, fraction, none⟩ :
          Literal).hasMantissa = true := by simp [Literal.hasMantissa, hds.1]
      have hrest : (fold 2 Literal.move ⟨10, sign, ds, false, none, [], none⟩).Reads (f ++ e)
          ⟨10, sign, ds, point, none, fraction, exponent⟩ r := by
        refine Literal.reads_fraction hf rfl rfl rfl (by simp) (by simp)
          (Literal.reads_exponent he ?_ rfl (hmantissa sign point) hend)
        rintro c (rfl | rfl) <;> rfl
      have hahead : Literal.digitAhead ((ds ++ (f ++ e) ++ r).take 2) = true := by
        rw [List.append_assoc]
        exact Literal.digitAhead_digits hds 1
      refine Literal.reads_sign hs hahead ?_
      obtain ⟨d, ds, rfl⟩ := List.exists_cons_of_ne_nil hds.1
      obtain ⟨hd, hds'⟩ := List.forall_mem_cons.mp hds.2
      refine reads_first hd (fun hd => baseAhead?_parts hds' hf he fun hnil => hzero ?_)
        (Literal.reads_digits rfl (fun _ => .inl rfl) hds' hrest)
      obtain ⟨rfl, hfe⟩ := List.append_eq_nil_iff.mp hnil
      obtain ⟨rfl, rfl⟩ := List.append_eq_nil_iff.mp hfe
      cases hf
      cases he
      exact ⟨sign, by rw [hd]; rfl⟩
  | @pointed ds e exponent hds he =>
      have hmantissa : (⟨10, none, [], true, none, ds, none⟩ : Literal).hasMantissa = true := by
        simp [Literal.hasMantissa, hds.1]
      refine reads_fold_step_zero (b := .pointed) rfl
        (Literal.reads_digits rfl (fun _ => .inr rfl) hds.2 ?_)
      refine Literal.reads_exponent he ?_ rfl hmantissa hend
      rintro c (rfl | rfl) <;> rfl

/-- The parts of a number are determined by its text. -/
theorem IsNumber.parts_unique (h : IsNumber w l) (h' : IsNumber w m) : l = m := by
  have reads : ∀ {l}, IsNumber w l → (fold 2 Literal.move .empty).Reads w l [] := fun h =>
    h.reads (fun c cs hcs => by cases hcs) fun _ => rfl
  have hl := reads h (.start "")
  rw [reads h' (.start "")] at hl
  cases hl
  rfl

/-! ### The end of a number -/

/-- A zero goes on with the mark of a base and a digit of that base. -/
theorem IsNumber.announced (h : IsNumber w l) (hl : IsZero l) {x d : Char} {base : Nat}
    (hmark : Literal.baseOfMark? x = some base) (hd : isDigitOf base d = true) :
    ∃ m, IsNumber (w ++ [x, d]) m := by
  obtain ⟨sign, rfl⟩ := hl
  cases h with
  | decimal hs _ hf he =>
      cases hf
      cases he
      rcases Expr.eq_of_baseOfMark? hmark with ⟨rfl, hx⟩ | ⟨rfl, hx⟩ | ⟨rfl, hx⟩
      · exact ⟨_, by simpa using IsNumber.binary hs hx (isDigits_singleton hd)⟩
      · exact ⟨_, by simpa using IsNumber.octal hs hx (isDigits_singleton hd)⟩
      · exact ⟨_, by simpa using
          IsNumber.hexadecimal hs hx (isDigits_singleton hd) .absent .absent⟩

/-- The machine stops at the end of a number, unless a longer one follows. -/
theorem IsNumber.halts (h : IsNumber w l)
    (hlong : ∀ v m, v ≠ [] → v <+: r → ¬IsNumber (w ++ v) m) : Halts 2 Literal.move l r := by
  rintro c cs rfl
  have hone : ¬∃ m, IsNumber (w ++ [c]) m := fun ⟨m, hm⟩ => hlong [c] m (by simp) ⟨cs, rfl⟩ hm
  -- A further character that the machine took would make a longer number.
  cases he : l.exponent with
  | some x =>
      have hd : ¬isDigitOf 10 c = true := fun hc => hone (h.exponentDigit he hc)
      simp [Literal.move, he, Literal.moveInExponent, hd, h.exponent_digits_ne_nil he]
  | none =>
      rw [Literal.move_eq he, Literal.moveInMantissa]
      by_cases hp : c = '.'
      · subst hp
        have hclosed : (l.point || l.base == 2 || l.base == 8) = true := by
          by_contra hopen
          have hopen : (l.point = false ∧ l.base ≠ 2) ∧ l.base ≠ 8 := by simpa using hopen
          exact hone (h.point he hopen.1.1 hopen.1.2 hopen.2)
        rw [if_pos rfl, if_pos hclosed]
      rw [if_neg hp]
      by_cases hs : isSign c = true
      · rw [if_pos hs, Literal.moveAtSign, h.hasMantissa.1]
        rfl
      rw [if_neg hs]
      by_cases hm : Literal.isExponentMarker l.base c = true
      · have hahead : Literal.exponentAhead (cs.take 2) = false := by
          by_contra ha
          rw [Literal.exponentAhead_take, Bool.not_eq_false] at ha
          obtain ⟨sign, d, v, hsign, hd, rfl⟩ := Literal.of_exponentAhead ha
          obtain ⟨m, hnumber⟩ := h.exponent he hm hsign (isDigits_singleton hd)
          exact hlong _ m (by simp) ⟨v, by simp⟩ hnumber
        rw [if_pos hm, hahead, Bool.and_false]
        rfl
      · have hd : ¬isDigitOf l.base c = true := fun hc => hone (h.digit he hc)
        rw [if_neg hm, if_neg hd]

/-! ### The longest number -/

/-- The longest of the numbers that a text starts with, with its parts, and the rest of the text. -/
structure LongestNumber (text w : List Char) (l : Literal) (r : List Char) : Prop where
  text_eq : text = w ++ r
  isNumber : IsNumber w l
  length_le : ∀ v m, v <+: text → IsNumber v m → v.length ≤ w.length

theorem exists_longestNumber {text v : List Char} {m : Literal} (hv : v <+: text)
    (h : IsNumber v m) : ∃ w l r, LongestNumber text w l r := by
  by_cases hmax : ∀ u k, u <+: text → IsNumber u k → u.length ≤ v.length
  · obtain ⟨r, rfl⟩ := hv
    exact ⟨v, m, r, rfl, h, hmax⟩
  · have hlonger : ∃ u k, u <+: text ∧ IsNumber u k ∧ v.length < u.length := by
      simpa using hmax
    obtain ⟨u, k, hu, hk, hlt⟩ := hlonger
    have hle : u.length ≤ text.length := hu.length_le
    exact exists_longestNumber hu hk
termination_by text.length - v.length

theorem LongestNumber.reads {text : List Char} (h : LongestNumber text w l r) :
    (fold 2 Literal.move .empty).Reads w l r := by
  obtain ⟨rfl, hw, hmax⟩ := h
  have hlong : ∀ v m, v ≠ [] → v <+: r → ¬IsNumber (w ++ v) m := by
    intro v m hne hv hm
    have hle := hmax (w ++ v) m ((List.prefix_append_right_inj w).mpr hv) hm
    rw [List.length_append] at hle
    exact hne (List.eq_nil_of_length_eq_zero (by omega))
  refine hw.reads (hw.halts hlong) fun hzero => ?_
  cases hb : Literal.baseAhead? (r.take 2) with
  | none => rfl
  | some base =>
      obtain ⟨x, d, s, hcs, hx, hd⟩ := Expr.baseAhead?_some hb
      obtain ⟨m, hm⟩ := hw.announced hzero hx hd
      have hprefix : [x, d] <+: r := .trans ⟨s, hcs.symm⟩ (List.take_prefix 2 r)
      exact absurd hm (hlong [x, d] m (by simp) hprefix)

/-- What is read of a text that starts with a number is decided by the longest of these. -/
theorem LongestNumber.run_number {text : List Char} (h : LongestNumber text w l r) (p : Position) :
    Scanner.number.run (.ofTextAt p text) =
      match l.evaluate (p.after w) with
      | .ok v => .ok v (.ofTextAt (p.after w) r)
      | .error f => .error f (.ofTextAt (p.after w) r) := by
  have hrun := Expr.run_number_of_fold (h.reads p)
  rwa [← h.text_eq] at hrun

/-- The value of a number with these parts, if it is in range: an integer if it has neither a point
nor an exponent, or else a float. -/
def value? (l : Literal) : Option Value :=
  if l.point = false ∧ l.exponent = none then
    if inRange l.toInt then some (.integer l.toInt) else none
  else if l.toBinary64.isFinite then some (.float l.toBinary64) else none

theorem IsNumber.isFloat_eq_false : l.isFloat = false ↔ l.point = false ∧ l.exponent = none := by
  simp [Literal.isFloat]

/-- The digits of a number are too many just when it is a decimal integer of too many digits. -/
theorem IsNumber.overlong_iff (h : IsNumber w l) :
    l.isFloat = false ∧ overlong l.base l.whole = true ↔ IsOverlong w := by
  constructor
  · rintro ⟨hfloat, hlong⟩
    rw [isFloat_eq_false] at hfloat
    cases h with
    | hexadecimal | binary | octal => cases hlong
    | decimal hs hds hf he =>
        obtain ⟨rfl, rfl⟩ := hfloat
        cases hf
        cases he
        exact ⟨_, _, hs, hds, by simpa [overlong] using hlong, by simp⟩
    | pointed => cases hfloat.1
  · rintro ⟨sign, ds, hs, hds, hlong, rfl⟩
    have hdecimal := IsNumber.decimal hs hds .absent .absent
    rw [List.append_nil, List.append_nil] at hdecimal
    rw [h.parts_unique hdecimal]
    exact ⟨rfl, by simpa [overlong] using hlong⟩

/-- What is read of a number is its value, or it is out of range, or it has too many digits to be
read. -/
theorem IsNumber.evaluate (h : IsNumber w l) (q : Position) :
    (IsOverlong w → l.evaluate q = .error (.fault (.tooManyDigits l.whole.length))) ∧
    (¬IsOverlong w →
      (∀ v, value? l = some v → l.evaluate q = .ok v) ∧
      (value? l = none →
        ∃ chars, l.evaluate q = .error (.located (.numberOutOfRange chars) q))) := by
  obtain ⟨hmantissa, hstrayed⟩ := h.hasMantissa
  rw [← h.overlong_iff]
  refine ⟨fun hlong => Expr.evaluate_fault_iff.mpr ⟨hmantissa, .inr ⟨hlong.1, hlong.2, rfl⟩⟩,
    fun hshort => ?_⟩
  unfold value? Literal.evaluate
  rw [hmantissa, hstrayed]
  by_cases hl : l.point = false ∧ l.exponent = none
  · have hf := isFloat_eq_false.mpr hl
    have hdigits : overlong l.base l.whole = false := by simpa [hf] using hshort
    simp only [if_pos hl, hf, hdigits, Bool.not_true, Bool.not_false, Bool.false_eq_true, if_true,
      if_false]
    split
    · exact ⟨fun v hv => by rw [Option.some.inj hv], (fun hv => by cases hv)⟩
    · exact ⟨(fun v hv => by cases hv), fun _ => ⟨_, rfl⟩⟩
  · have hf : l.isFloat = true := by simpa using mt isFloat_eq_false.mp hl
    simp only [if_neg hl, hf, Bool.not_true, Bool.false_eq_true, if_false, Option.isSome_none]
    split
    · exact ⟨fun v hv => by rw [Option.some.inj hv], (fun hv => by cases hv)⟩
    · exact ⟨(fun v hv => by cases hv), fun _ => ⟨_, rfl⟩⟩

/-- **The reader of numbers** takes the longest number that a text starts with, and has its value or
finds it out of range; if there is none, it wants for a mantissa.  A decimal integer of too many
digits is not read at all.  Texts that start with a point, a sign and a digit are left out. -/
theorem number_longest (p : Position) {text : List Char}
    (h : ∀ v, text = '.' :: v → ¬StraySign v) :
    (StartsWithNumber text → ∃ w l r, LongestNumber text w l r ∧
      (IsOverlong w → number.run (.ofTextAt p text) =
        .error (.fault (.tooManyDigits l.whole.length)) (.ofTextAt (p.after w) r)) ∧
      (¬IsOverlong w →
        (∀ v, value? l = some v →
          number.run (.ofTextAt p text) = .ok v (.ofTextAt (p.after w) r)) ∧
        (value? l = none → ∃ chars, number.run (.ofTextAt p text) =
          .error (.located (.numberOutOfRange chars) (p.after w)) (.ofTextAt (p.after w) r)))) ∧
    (¬StartsWithNumber text → ∃ t, number.run (.ofTextAt p text) =
      .error (.located .missingMantissa t.position) t) := by
  constructor
  · rintro ⟨v, m, hv, hm⟩
    obtain ⟨w, l, r, hlongest⟩ := exists_longestNumber hv hm
    obtain ⟨hlong, hshort⟩ := hlongest.isNumber.evaluate (p.after w)
    have hrun := hlongest.run_number p
    refine ⟨w, l, r, hlongest, fun hw => by rw [hrun, hlong hw], fun hw => ?_⟩
    obtain ⟨hvalue, hrange⟩ := hshort hw
    refine ⟨fun v hl => by rw [hrun, hvalue v hl], fun hl => ?_⟩
    obtain ⟨chars, hl⟩ := hrange hl
    exact ⟨chars, by rw [hrun, hl]⟩
  · intro hnone
    obtain ⟨l, t, htaken, hrun⟩ := Expr.run_number p text
    have missing : l.hasMantissa = false → number.run (.ofTextAt p text) =
        .error (.located .missingMantissa t.position) t := by
      intro hm
      rw [hrun, Literal.evaluate, hm]
      rfl
    -- Neither a mantissa nor a stray sign is taken, so it is nothing, or a point that stands alone.
    cases htaken with
    | mantissa _ hstart => exact absurd hstart hnone
    | stray hcs hv => exact absurd hv (h _ hcs)
    | nothing _ hm => exact ⟨_, missing hm⟩
    | point _ _ hm => exact ⟨_, missing hm⟩

/-- Of `1e+` a number is read, and of the empty text none. -/
theorem number_longest_one :
    (∃ w l r, LongestNumber ['1', 'e', '+'] w l r ∧ (¬IsOverlong w → ∀ v, value? l = some v →
      number.run (.ofTextAt (.start "") ['1', 'e', '+']) =
        .ok v (.ofTextAt ((Position.start "").after w) r))) ∧
      ∃ t, number.run (.ofTextAt (.start "") []) =
        .error (.located .missingMantissa t.position) t := by
  have hone : StartsWithNumber ['1', 'e', '+'] := startsWithNumber_digit isSign_none rfl _
  have hnil : ¬StartsWithNumber [] := fun ⟨w, _, hw, hl⟩ => hl.ne_nil (List.prefix_nil.mp hw)
  obtain ⟨w, l, r, hlongest, -, hvalue⟩ :=
    (number_longest (.start "") fun v hv => by cases hv).1 hone
  exact ⟨⟨w, l, r, hlongest, fun hw => (hvalue hw).1⟩,
    (number_longest (.start "") fun v hv => by cases hv).2 hnil⟩

/-- Decimal digits are a number, and no longer one starts with them. -/
theorem longestNumber_digits {ds : List Char} (hds : IsDigits 10 ds) :
    LongestNumber ds ds ⟨10, none, ds, false, none, [], none⟩ [] where
  text_eq := (List.append_nil ds).symm
  isNumber := by simpa using IsNumber.decimal isSign_none hds .absent .absent
  length_le _ _ hv _ := hv.length_le

theorem run_number_of_overlong {ds : List Char} (hds : IsDigits 10 ds)
    (hlong : digitLimit < ds.length) (p : Position) : number.run (.ofTextAt p ds) =
      .error (.fault (.tooManyDigits ds.length)) (.ofTextAt (p.after ds) []) := by
  have hlongest := longestNumber_digits hds
  rw [hlongest.run_number,
    (hlongest.isNumber.evaluate _).1 ⟨none, ds, isSign_none, hds, hlong, rfl⟩]

theorem isDigits_ones (k : Nat) : IsDigits 10 (List.replicate (k + 1) '1') :=
  ⟨List.cons_ne_nil _ _, fun c hc => by rw [List.eq_of_mem_replicate hc]; rfl⟩

/-- One more one than there may be digits. -/
theorem run_number_manyOnes (p : Position) :
    ∃ t, number.run (.ofTextAt p (List.replicate 4301 '1')) =
      .error (.fault (.tooManyDigits 4301)) t := by
  have hlength : (List.replicate 4301 '1').length = 4301 := List.length_replicate
  have hrun := run_number_of_overlong (isDigits_ones 4300) (by rw [hlength]; decide) p
  rw [hlength] at hrun
  exact ⟨_, hrun⟩

/-- Ones beyond the limit are a number, but reading them ends neither by a value nor by an error. -/
theorem number_of_manyOnes :
    StartsWithNumber (List.replicate 4301 '1') ∧
      (∀ v, List.replicate 4301 '1' = '.' :: v → ¬StraySign v) ∧
      ∃ t, number.run (.ofTextAt (.start "") (List.replicate 4301 '1')) =
        .error (.fault (.tooManyDigits 4301)) t := by
  refine ⟨⟨_, _, List.prefix_rfl, (longestNumber_digits (isDigits_ones 4300)).isNumber⟩,
    fun v hv => ?_, run_number_manyOnes _⟩
  rw [List.replicate_succ] at hv
  cases (List.cons.inj hv).1

/-! ### Faults -/

/-- Reading a number is a fault only when the text starts with a point, a sign and a digit, or with
a decimal integer of too many digits. -/
theorem of_number_fault {p : Position} {text : List Char} {f : Fault} {t : Stencil.Stream}
    (h : number.run (.ofTextAt p text) = .error (.fault f) t) :
    (∃ v, text = '.' :: v ∧ StraySign v) ∨
      ∃ w l r, LongestNumber text w l r ∧ IsOverlong w ∧ f = .tooManyDigits l.whole.length := by
  refine (Expr.of_number_fault h).imp_right ?_
  rintro ⟨⟨v, m, hv, hm⟩, l, s, hl, hfloat, hlong, hf⟩
  obtain ⟨w, l', r, hlongest⟩ := exists_longestNumber hv hm
  have hreads := hlongest.reads p
  rw [← hlongest.text_eq, hl] at hreads
  cases hreads
  exact ⟨w, l, r, hlongest, hlongest.isNumber.overlong_iff.mp ⟨hfloat, hlong⟩, hf⟩

theorem IsOverlong.longRun {w : List Char} (h : IsOverlong w) (r : List Char) :
    LongRun (w ++ r) := by
  obtain ⟨sign, ds, -, hds, hlong, rfl⟩ := h
  exact ⟨ds, ⟨sign.toList, r, rfl⟩, hlong, hds.2⟩

/-- **Reading a number is a fault** just when the text starts with a point, a sign and a digit, or
with a decimal integer of too many digits. -/
theorem number_faults_iff {p : Position} {text : List Char} :
    number.Faults p text ↔ (∃ v, text = '.' :: v ∧ StraySign v) ∨
      ∃ w l r, LongestNumber text w l r ∧ IsOverlong w := by
  constructor
  · rintro ⟨f, t, h⟩
    refine (of_number_fault h).imp_right ?_
    rintro ⟨w, l, r, hlongest, hw, -⟩
    exact ⟨w, l, r, hlongest, hw⟩
  · rintro (⟨v, rfl, hv⟩ | ⟨w, l, r, hlongest, hw⟩)
    · exact Expr.number_faults_of_stray hv
    · refine ⟨.tooManyDigits l.whole.length, .ofTextAt (p.after w) r, ?_⟩
      rw [hlongest.run_number, (hlongest.isNumber.evaluate _).1 hw]

end Numeral

end Stencil
