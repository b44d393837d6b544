import Stencil.Proofs.Expr.Locality
import Stencil.Proofs.Numeral.Grammar
import Stencil.Proofs.Scanner.StraySigns

/-!
# Expr — Numbers

How far the reader of numbers gets.  As soon as it comes to a digit it takes a mantissa
(`kept_of_digit`), and what it has taken by then it keeps (`Literal.Kept`).  So it ends in one of
three ways (`Taken`): with a mantissa, with a mantissa behind a stray sign, or before any digit,
behind at most a point.  The second is a fault (`number_faults_of_stray`), as the first may be for
too many digits (`of_number_fault`), and only in the third can a mantissa be wanted at the end of
the text (`eq_of_number_wants`).
-/

namespace Stencil

open Text Scanner

namespace Literal

/-- What is there once a mantissa is, and stays: the mantissa, the stray sign if any, and the
point. -/
structure Kept (stray : Option Char) (point : Bool) (l : Literal) : Prop where
  mantissa : l.hasMantissa = true
  strayed : l.strayed = stray
  pointed : point = true → l.point = true

variable {stray : Option Char} {point : Bool} {l l' : Literal} {c : Char} {ahead : List Char}

theorem Kept.withDigit (hs : l.strayed = stray) (hp : point = true → l.point = true) (c : Char) :
    Kept stray point (l.withDigit c) := by
  unfold Literal.withDigit
  split
  · exact ⟨by simp [hasMantissa], hs, hp⟩
  · exact ⟨by simp [hasMantissa], hs, hp⟩

theorem Kept.move (h : Kept stray point l) {extra : Nat}
    (hm : l.move c ahead = .step extra l' ∨ l.move c ahead = .last extra l') :
    Kept stray point l' := by
  have hsign : l.moveAtSign c ahead = .stop := by simp [moveAtSign, h.mantissa]
  have hbase : ∀ b : Bool, ¬(c = '0' ∧ l.base = 10 ∧ (!true) = true ∧ b = true) := by simp
  simp only [Literal.move, moveInExponent, moveInMantissa, hsign, h.mantissa, if_neg (hbase _)] at hm
  repeat' split at hm
  all_goals obtain hm | hm := hm <;> cases hm
  -- A move changes the exponent, or sets the point, or adds a digit.
  all_goals first
    | exact .withDigit h.strayed h.pointed c
    | exact ⟨h.mantissa, h.strayed, h.pointed⟩
    | exact ⟨h.mantissa, h.strayed, fun _ => rfl⟩

theorem move_eq (he : l.exponent = none) : l.move c ahead = l.moveInMantissa c ahead := by
  rw [Literal.move, he]

/-- At a digit before the exponent, the machine adds it to the mantissa, or, at a leading zero,
takes it for the announcement of a base. -/
theorem move_digit (he : l.exponent = none) (hc : isDigitOf l.base c = true)
    (ahead : List Char) : l.move c ahead = .step 0 (l.withDigit c) ∨
      (c = '0' ∧ l.base = 10 ∧ l.hasMantissa = false ∧ l.point = false) ∧
        ∃ base, baseAhead? ahead = some base ∧
          l.move c ahead = .step 1 { l with base := base } := by
  have hpoint : c ≠ '.' := by rintro rfl; cases hc
  have hsign : ¬isSign c = true := by
    intro hs
    rcases Expr.eq_of_isSign hs with rfl | rfl <;> cases hc
  have hmark : ¬isExponentMarker l.base c = true := by
    intro hm
    rcases Expr.eq_of_isExponentMarker hm with ⟨hb, rfl | rfl⟩ | ⟨hb, rfl | rfl⟩ <;>
      rw [hb] at hc <;> exact absurd hc (by decide)
  rw [move_eq he, moveInMantissa, if_neg hpoint, if_neg hsign, if_neg hmark, if_pos hc]
  cases hb : baseAhead? ahead with
  | none => exact .inl rfl
  | some base =>
      by_cases hz : c = '0' ∧ l.base = 10 ∧ (!l.hasMantissa) = true ∧ (!l.point) = true
      · exact .inr ⟨by simpa using hz, base, rfl, if_pos hz⟩
      · exact .inl (if_neg hz)

/-- Before the mantissa, the machine goes on by a point, by a sign before a digit, or by a digit. -/
theorem move_other (he : l.exponent = none) (hm : l.hasMantissa = false)
    (hp : c = '.' → l.point = true) (hs : isSign c = true → ¬digitAhead ahead = true)
    (hd : ¬isDigitOf l.base c = true) : l.move c ahead = .stop := by
  rw [move_eq he, moveInMantissa]
  by_cases hpoint : c = '.'
  · rw [if_pos hpoint, hp hpoint]
    rfl
  rw [if_neg hpoint]
  by_cases hsign : isSign c = true
  · rw [if_pos hsign, moveAtSign]
    simp [hs hsign]
  rw [if_neg hsign, hm, if_neg hd]
  simp

/-- The start of an exponent is decided by two characters. -/
theorem exponentAhead_take (cs : List Char) : exponentAhead (cs.take 2) = exponentAhead cs := by
  rcases cs with _ | ⟨c, _ | ⟨d, cs⟩⟩ <;> rfl

/-- The digits of an exponent come next, behind a sign or none. -/
theorem of_exponentAhead {cs : List Char} (h : exponentAhead cs = true) :
    ∃ sign d v, Numeral.IsSign sign ∧ isDigitOf 10 d = true ∧ cs = sign.toList ++ d :: v := by
  cases cs with
  | nil => cases h
  | cons c cs =>
      have hc : isDigitOf 10 c = true ∨ isSign c = true ∧ digitAhead cs = true := by
        simpa [exponentAhead] using h
      rcases hc with hd | ⟨hs, ha⟩
      · exact ⟨none, c, cs, (fun s hs => by cases hs), hd, rfl⟩
      · cases cs with
        | nil => cases ha
        | cons d v =>
            refine ⟨some c, d, v, fun s hsign => ?_, ha, rfl⟩
            cases hsign
            exact Expr.eq_of_isSign hs

/-- The literal of which a leading point is read. -/
def pointed : Literal := { Literal.empty with point := true }

/-- A literal that stands for nothing fails where it ends, for want of a mantissa or out of range,
or by a fault. -/
theorem evaluate_error {p : Position} {f : Failure} (h : l.evaluate p = .error f) :
    (∃ cause, f = .located cause p ∧
      (cause = .missingMantissa ∨ ∃ chars, cause = .numberOutOfRange chars)) ∨
      ∃ fault, f = .fault fault := by
  unfold evaluate at h
  split at h
  · cases h
    exact .inl ⟨_, rfl, .inl rfl⟩
  split at h
  · split at h
    · cases h
      exact .inr ⟨_, rfl⟩
    split at h
    · cases h
    · cases h
      exact .inl ⟨_, rfl, .inr ⟨_, rfl⟩⟩
  split at h
  · cases h
    exact .inr ⟨_, rfl⟩
  · dsimp only at h
    split at h
    · cases h
    · cases h
      exact .inl ⟨_, rfl, .inr ⟨_, rfl⟩⟩

end Literal

namespace Expr

variable {l l' : Literal} {c : Char} {p : Position} {cs : List Char} {t : Stencil.Stream}

/-- Once a mantissa is there, it is in the end. -/
theorem kept_of_fold {stray : Option Char} {point : Bool} (h : l.Kept stray point)
    {s : Stencil.Stream} (hrun : (fold 2 Literal.move l).run s = .ok l' t) :
    l'.Kept stray point :=
  fold_keeps (fun h hm => h.move hm) h hrun

/-- From a digit on, a mantissa is taken. -/
theorem kept_of_digit (he : l.exponent = none) (hc : isDigitOf l.base c = true)
    (h : (fold 2 Literal.move l).run (.ofTextAt p (c :: cs)) = .ok l' t) :
    l'.Kept l.strayed l.point := by
  change foldFrom 2 Literal.move l _ = _ at h
  rcases Literal.move_digit he hc (cs.take 2) with hm | ⟨-, base, hbase, hm⟩
  · rw [foldFrom_step hm] at h
    exact kept_of_fold (.withDigit rfl id c) h
  · -- The mark of a base is read, and behind it a digit of that base.
    obtain ⟨mark, digit, s, hcs, hmark, hdigit⟩ := baseAhead?_some hbase
    rw [foldFrom_step hm] at h
    match cs, hcs with
    | m :: d :: cs, hcs =>
        obtain ⟨rfl, hd⟩ := List.cons.inj hcs
        obtain rfl : d = digit := (List.cons.inj hd).1
        rcases Literal.move_digit (l := { l with base := base }) he hdigit (cs.take 2) with
          hm | ⟨⟨-, hb', -⟩, -⟩
        · rw [List.drop_succ_cons, List.drop_zero, foldFrom_step hm] at h
          have hkept := Literal.Kept.withDigit (l := { l with base := base }) rfl id d
          exact kept_of_fold hkept h
        · -- No mark announces base ten.
          obtain rfl : base = 10 := hb'
          rcases eq_of_baseOfMark? hmark with ⟨⟨⟩, -⟩ | ⟨⟨⟩, -⟩ | ⟨⟨⟩, -⟩

/-- What the reader of numbers takes from a text, and the rest: a mantissa, where a number starts;
or a mantissa behind a stray sign; or nothing; or a point alone. -/
inductive Taken (p : Position) (cs : List Char) : Literal → Stencil.Stream → Prop where
  | mantissa {l : Literal} {t : Stencil.Stream} (hcs : ∀ v, cs = '.' :: v → ¬StraySign v)
      (hstart : Numeral.StartsWithNumber cs) (h : l.Kept none false) : Taken p cs l t
  | stray {l : Literal} {t : Stencil.Stream} {v : List Char} {s : Char} (hcs : cs = '.' :: v)
      (hv : StraySign v) (h : l.Kept (some s) true) : Taken p cs l t
  | nothing {l : Literal} (hcs : ∀ v, cs ≠ '.' :: v) (h : l.hasMantissa = false) :
      Taken p cs l (.ofTextAt p cs)
  | point {l : Literal} {v : List Char} (hcs : cs = '.' :: v) (hv : ¬StraySign v)
      (h : l.hasMantissa = false) : Taken p cs l (.ofTextAt (p.after ['.']) v)

theorem digitAhead_eq_true {r : List Char} (h : Literal.digitAhead (r.take 2) = true) :
    ∃ d w, r = d :: w ∧ isDigitOf 10 d = true := by
  cases r with
  | nil => cases h
  | cons d w => exact ⟨d, w, rfl, h⟩

theorem taken_point {v : List Char}
    (h : (fold 2 Literal.move .pointed).run (.ofTextAt (p.after ['.']) v) = .ok l t) :
    Taken p ('.' :: v) l t := by
  change foldFrom 2 Literal.move .pointed _ = _ at h
  cases v with
  | nil =>
      rw [foldFrom_nil] at h
      cases h
      exact .point rfl (by rintro ⟨s, d, w, ⟨⟩, -⟩) rfl
  | cons c v =>
      -- Behind the point stands a stray sign, a digit, or what ends the number.
      by_cases hv : StraySign (c :: v)
      · obtain ⟨s, d, w, hcs, hs, hd⟩ := hv
        obtain ⟨rfl, rfl⟩ := List.cons.inj hcs
        have hpoint : c ≠ '.' := by rintro rfl; cases hs
        have hahead : Literal.digitAhead ((d :: w).take 2) = true := hd
        have hm : Literal.pointed.move c ((d :: w).take 2) =
            .step 0 { Literal.pointed with strayed := some c } := by
          simp only [Literal.move, Literal.pointed, Literal.empty, Literal.moveInMantissa, hpoint,
            hs, Literal.moveAtSign, hahead]
          rfl
        rw [foldFrom_step hm] at h
        exact .stray rfl ⟨c, d, w, rfl, hs, hd⟩ (kept_of_digit rfl hd h)
      by_cases hd : isDigitOf 10 c = true
      · have hkept := kept_of_digit rfl hd h
        refine .mantissa (fun w hw => ?_) (Numeral.startsWithNumber_point hd v)
          ⟨hkept.mantissa, hkept.strayed, fun hp => by cases hp⟩
        rw [← (List.cons.inj hw).2]
        exact hv
      · have hstop : Literal.pointed.move c (v.take 2) = .stop := by
          refine Literal.move_other rfl rfl (fun _ => rfl) (fun hs ha => ?_) hd
          obtain ⟨d, w, rfl, hdigit⟩ := digitAhead_eq_true ha
          exact hv ⟨c, d, w, rfl, hs, hdigit⟩
        rw [foldFrom_stop hstop] at h
        cases h
        exact .point rfl hv rfl

/-- The reader of numbers takes one of four things. -/
theorem taken_of_fold (h : (fold 2 Literal.move .empty).run (.ofTextAt p cs) = .ok l t) :
    Taken p cs l t := by
  change foldFrom 2 Literal.move .empty _ = _ at h
  cases cs with
  | nil =>
      rw [foldFrom_nil] at h
      cases h
      exact .nothing (by simp) rfl
  | cons c cs =>
      -- A mantissa starts with a point, with a sign in front of a digit, or with a digit.
      by_cases hpoint : c = '.'
      · subst hpoint
        have hm : Literal.empty.move '.' (cs.take 2) = .step 0 .pointed := rfl
        exact taken_point ((foldFrom_step hm p).symm.trans h)
      by_cases hsign : isSign c = true ∧ Literal.digitAhead (cs.take 2) = true
      · obtain ⟨hs, ha⟩ := hsign
        obtain ⟨d, w, rfl, hd⟩ := digitAhead_eq_true ha
        have hm : Literal.empty.move c ((d :: w).take 2) =
            .step 0 { Literal.empty with sign := some c } := by
          simp only [Literal.move, Literal.empty, Literal.moveInMantissa, hpoint, hs,
            Literal.moveAtSign, ha]
          rfl
        rw [foldFrom_step hm] at h
        exact .mantissa (fun v hv => absurd (List.cons.inj hv).1 hpoint)
          (Numeral.startsWithNumber_digit (Numeral.isSign_some (eq_of_isSign hs)) hd w)
          (kept_of_digit rfl hd h)
      by_cases hd : isDigitOf 10 c = true
      · exact .mantissa (fun v hv => absurd (List.cons.inj hv).1 hpoint)
          (Numeral.startsWithNumber_digit Numeral.isSign_none hd cs)
          (kept_of_digit rfl hd h)
      · have hstop : Literal.empty.move c (cs.take 2) = .stop :=
          Literal.move_other rfl rfl (fun h => absurd h hpoint) (fun hs ha => hsign ⟨hs, ha⟩) hd
        rw [foldFrom_stop hstop] at h
        cases h
        exact .nothing (fun v hv => hpoint (List.cons.inj hv).1) rfl

/-! ### The value of what is taken -/

/-- The reader of numbers comes to an end on every text. -/
theorem run_number (p : Position) (cs : List Char) : ∃ l t, Taken p cs l t ∧
    number.run (.ofTextAt p cs) =
      match l.evaluate t.position with
      | .ok v => .ok v t
      | .error f => .error f t := by
  obtain ⟨l, t, hl⟩ := exists_run_fold 2 Literal.move .empty p cs
  exact ⟨l, t, taken_of_fold hl, run_number_of_fold hl⟩

/-- The value of a literal is a fault just when there is a mantissa, and of a float a stray sign, of
an integer too many digits. -/
theorem evaluate_fault_iff {q : Position} {f : Fault} :
    l.evaluate q = .error (.fault f) ↔ l.hasMantissa = true ∧
      (l.isFloat = true ∧ l.strayed.isSome = true ∧ f = .malformedFloat l.chars ∨
        l.isFloat = false ∧ Numeral.overlong l.base l.whole = true ∧
          f = .tooManyDigits l.whole.length) := by
  unfold Literal.evaluate
  cases l.hasMantissa
  · simp [Failure.located]
  cases l.isFloat
  · cases Numeral.overlong l.base l.whole
    · simp only [Bool.not_true, Bool.not_false, Bool.false_eq_true, if_true, if_false, Failure.located]
      split <;> simp
    · simp [@eq_comm Fault _ f]
  · cases l.strayed.isSome
    · simp only [Bool.not_true, Bool.false_eq_true, if_false, Failure.located]
      split <;> simp
    · simp [@eq_comm Fault _ f]

theorem evaluate_missing {q q' : Position}
    (h : l.evaluate q = .error (.located .missingMantissa q')) : l.hasMantissa = false ∧ q = q' := by
  rcases Literal.evaluate_error h with ⟨cause, heq, -⟩ | ⟨fault, ⟨⟩⟩
  cases heq
  refine ⟨?_, rfl⟩
  by_contra hm
  rw [Bool.not_eq_false] at hm
  unfold Literal.evaluate at h
  rw [if_neg (by simp [hm])] at h
  dsimp only at h
  repeat' split at h
  all_goals cases h

/-- Reading a number is a fault when it starts with a point, a sign and a digit. -/
theorem number_faults_of_stray {v : List Char} (hv : StraySign v) : number.Faults p ('.' :: v) := by
  obtain ⟨l, t, htaken, hrun⟩ := run_number p ('.' :: v)
  cases htaken with
  | mantissa hcs => exact absurd hv (hcs v rfl)
  | nothing hcs => exact absurd rfl (hcs v)
  | point hcs hv' => exact absurd ((List.cons.inj hcs).2 ▸ hv) hv'
  | stray _ _ h =>
      have hfloat : l.isFloat = true := by
        rw [Literal.isFloat, h.pointed rfl]
        rfl
      have hstray : l.strayed.isSome = true := by
        rw [h.strayed]
        rfl
      have hfault := (evaluate_fault_iff (q := t.position)).mpr
        ⟨h.mantissa, .inl ⟨hfloat, hstray, rfl⟩⟩
      exact ⟨_, t, by rw [hrun, hfault]⟩

/-- Reading a number is a fault only when it starts with a point, a sign and a digit, or when it has
too many digits. -/
theorem of_number_fault {f : Fault} (h : number.run (.ofTextAt p cs) = .error (.fault f) t) :
    (∃ v, cs = '.' :: v ∧ StraySign v) ∨ Numeral.StartsWithNumber cs ∧
      ∃ l s, (fold 2 Literal.move .empty).run (.ofTextAt p cs) = .ok l s ∧ l.isFloat = false ∧
        Numeral.overlong l.base l.whole = true ∧ f = .tooManyDigits l.whole.length := by
  obtain ⟨l, s, hl⟩ := exists_run_fold 2 Literal.move .empty p cs
  have hfault : l.evaluate s.position = .error (.fault f) := by
    rw [run_number_of_fold hl] at h
    cases he : l.evaluate s.position with
    | ok v => rw [he] at h; cases h
    | error f' => rw [he] at h; cases h; rfl
  obtain ⟨hm, hvalue⟩ := evaluate_fault_iff.mp hfault
  cases taken_of_fold hl with
  | stray hcs hv => exact .inl ⟨_, hcs, hv⟩
  | nothing _ hm' => rw [hm'] at hm; cases hm
  | point _ _ hm' => rw [hm'] at hm; cases hm
  | mantissa _ hstart hkept =>
      rcases hvalue with ⟨-, hstray, -⟩ | hdigits
      · rw [hkept.strayed] at hstray
        cases hstray
      · exact .inr ⟨hstart, l, s, hl, hdigits⟩

/-- If a mantissa is wanted at the end of the text, then the text is empty or a point. -/
theorem eq_of_number_wants (h : number.Wants p cs) : cs = [] ∨ cs = ['.'] := by
  obtain ⟨l, t, htaken, hrun⟩ := run_number p cs
  obtain ⟨t', ht'⟩ := h
  have hmissing : l.hasMantissa = false ∧ t.position = p.after cs := by
    cases he : l.evaluate t.position with
    | ok v => rw [hrun, he] at ht'; cases ht'
    | error f =>
        rw [hrun, he] at ht'
        cases ht'
        exact evaluate_missing he
  obtain ⟨hm, hpos⟩ := hmissing
  have hoffset := congrArg Position.offset hpos
  cases htaken with
  | mantissa _ _ h => exact absurd h.mantissa (by simp [hm])
  | stray _ _ h => exact absurd h.mantissa (by simp [hm])
  | nothing =>
      rw [Position.offset_after] at hoffset
      exact .inl (List.eq_nil_of_length_eq_zero (by simpa [Stream.ofTextAt] using hoffset))
  | point hcs =>
      subst hcs
      simp [Stream.ofTextAt] at hoffset
      exact .inr (by rw [hoffset])

theorem number_wants_point (p : Position) : number.Wants p ['.'] := by
  have hm : Literal.empty.move '.' (List.take 2 []) = .step 0 .pointed := rfl
  have hfold : (fold 2 Literal.move .empty).Reads ['.'] .pointed [] :=
    reads_fold_step_zero hm reads_fold_nil
  exact ⟨_, (run_bind_of_ok (hfold p)).trans (run_bind_of_ok (x := position) rfl)⟩

end Expr

end Stencil
