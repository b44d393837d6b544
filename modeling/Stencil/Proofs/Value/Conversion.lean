import Stencil.Proofs.Value.Readings

/-!
# Value — Conversion of numbers

A float that becomes an integer is that integer, so converting it back gives the number that it was.
An integer of 64 bits always becomes a float, the nearest one, and converting that back gives the
integer only where it has no more than 53 significant binary digits.  `numeric_conversion` says
both, and that a value stays what it is where its conversion fails.
-/

namespace Stencil.Value

open Numeral

variable {u v w : Value} {target : Kind} {n : Int} {x : Binary64}

/-- Whatever a value is converted to can be converted back, and is equal to the value then. -/
def Invertible (v : Value) (target : Kind) : Prop :=
  ∀ w, v.convert target = .ok (true, w) →
    ∃ u, w.convert v.kind = .ok (true, u) ∧ u.agrees v = true

/-! ### Conversion in place -/

theorem convert_eq_true : v.convert target = .ok (true, w) ↔ v.convert? target = .ok (some w) := by
  unfold convert
  cases v.convert? target with
  | error f => exact iff_of_false (fun h => by cases h) (fun h => by cases h)
  | ok w? =>
      cases w? with
      | none => exact iff_of_false (fun h => by cases h) (fun h => by cases h)
      | some w' =>
          refine ⟨fun h => ?_, fun h => ?_⟩
          · cases h
            rfl
          · cases h
            rfl

theorem convert_eq_false :
    v.convert target = .ok (false, w) ↔ v.convert? target = .ok none ∧ w = v := by
  unfold convert
  cases v.convert? target with
  | error f => exact iff_of_false (fun h => by cases h) (fun h => by cases h.1)
  | ok w? =>
      cases w? with
      | some w' => exact iff_of_false (fun h => by cases h) (fun h => by cases h.1)
      | none =>
          refine ⟨fun h => ?_, fun h => ?_⟩
          · cases h
            exact ⟨rfl, rfl⟩
          · rw [h.2]
            rfl

/-! ### Numbers -/

theorem toInt?_float :
    (float x).toInt? = .ok (some n) ↔ inRange n = true ∧ x.toInt? = some n := by
  rw [toInt?]
  cases x.toInt? with
  | none => exact iff_of_false (fun h => by cases h) (fun h => by cases h.2)
  | some m =>
      dsimp only
      rw [Except.ok.injEq, Option.ite_none_right_eq_some, Option.some.injEq]
      constructor
      · rintro ⟨hrange, rfl⟩
        exact ⟨hrange, rfl⟩
      · rintro ⟨hrange, rfl⟩
        exact ⟨hrange, rfl⟩

theorem exists_toInt?_float (x : Binary64) : ∃ n?, (float x).toInt? = .ok n? := by
  rw [toInt?]
  split
  · exact ⟨_, rfl⟩
  · exact ⟨_, rfl⟩

theorem convert?_float_integer (x : Binary64) : (float x).convert? .integer =
    (float x).toInt? >>= fun n? => .ok (n?.map .integer) := rfl

/-- A float becomes an integer where it is one of 64 bits. -/
theorem convert_float_integer : (float x).convert .integer = .ok (true, w) ↔
    ∃ n, inRange n = true ∧ x.toInt? = some n ∧ w = .integer n := by
  rw [convert_eq_true, convert?_float_integer, bind_eq_ok]
  constructor
  · rintro ⟨n?, hn, hw⟩
    rw [Except.ok.injEq, Option.map_eq_some_iff] at hw
    obtain ⟨n, rfl, rfl⟩ := hw
    obtain ⟨hrange, hx⟩ := toInt?_float.mp hn
    exact ⟨n, hrange, hx, rfl⟩
  · rintro ⟨n, hrange, hx, rfl⟩
    exact ⟨some n, toInt?_float.mpr ⟨hrange, hx⟩, rfl⟩

/-- Any other float stays what it is. -/
theorem convert_float_integer_or (x : Binary64) :
    (∃ n, inRange n = true ∧ x.toInt? = some n ∧
      (float x).convert .integer = .ok (true, .integer n)) ∨
    (∀ n, inRange n = true → x.toInt? ≠ some n) ∧
      (float x).convert .integer = .ok (false, .float x) := by
  obtain ⟨n?, hx⟩ := exists_toInt?_float x
  cases n? with
  | some n =>
      obtain ⟨hn, h⟩ := toInt?_float.mp hx
      exact .inl ⟨n, hn, h, convert_float_integer.mpr ⟨n, hn, h, rfl⟩⟩
  | none =>
      refine .inr ⟨fun n hn h => ?_, convert_eq_false.mpr ⟨?_, rfl⟩⟩
      · rw [toInt?_float.mpr ⟨hn, h⟩] at hx
        cases hx
      · rw [convert?_float_integer, hx]
        rfl

/-- An integer of 64 bits becomes the nearest float. -/
theorem convert_integer_float (hn : inRange n = true) :
    (integer n).convert .float = .ok (true, w) ↔ w = .float (.ofInt n) := by
  rw [convert_eq_true, convert?_integer_float hn, Except.ok.injEq, Option.some.injEq, eq_comm]

/-- **A float becomes an integer only if that is the same number.** -/
theorem invertible_float (x : Binary64) : Invertible (float x) .integer := by
  intro w h
  obtain ⟨n, hn, hx, rfl⟩ := convert_float_integer.mp h
  refine ⟨.float (.ofInt n), (convert_integer_float hn).mpr rfl, ?_⟩
  rw [agrees, Binary64.beq_comm]
  exact Binary64.beq_ofInt (Binary64.eq_ofInt_of_toInt? hx)

/-- **An integer becomes the same number** just when it has no more than 53 significant binary
digits. -/
theorem invertible_integer_iff (hn : inRange n = true) :
    Invertible (integer n) .float ↔ Binary64.Represents n := by
  rw [← Binary64.toInt?_ofInt_iff hn]
  constructor
  · intro h
    obtain ⟨u, hback, hu⟩ := h _ ((convert_integer_float hn).mpr rfl)
    obtain ⟨m, -, hm, rfl⟩ := convert_float_integer.mp hback
    rw [hm, eq_of_beq hu]
  · intro h w hw
    rw [(convert_integer_float hn).mp hw]
    exact ⟨.integer n, convert_float_integer.mpr ⟨n, hn, h, rfl⟩, beq_self_eq_true n⟩

/-- **Numeric conversion.**  A float that becomes an integer is that integer, and an integer of 64
bits becomes a float, which is that integer just when it has no more than 53 significant binary
digits.  A value that cannot be converted stays what it is. -/
theorem numeric_conversion (hn : inRange n = true) (x : Binary64) (v : Value) (target : Kind) :
    ((integer n).convert .float = .ok (true, .float (.ofInt n)) ∧
      (Invertible (integer n) .float ↔ Binary64.Represents n)) ∧
    (((∃ m, inRange m = true ∧ x.toInt? = some m ∧
          (float x).convert .integer = .ok (true, .integer m)) ∨
        (∀ m, inRange m = true → x.toInt? ≠ some m) ∧
          (float x).convert .integer = .ok (false, .float x)) ∧
      Invertible (float x) .integer) ∧
    ∀ w, v.convert target = .ok (false, w) → w = v :=
  ⟨⟨(convert_integer_float hn).mpr rfl, invertible_integer_iff hn⟩,
    ⟨convert_float_integer_or x, invertible_float x⟩, fun _ h => (convert_eq_false.mp h).2⟩

/-- Just above the numbers of 53 binary digits every other integer is a float. -/
theorem numeric_conversion_of_wide :
    inRange 9007199254740993 = true ∧ ¬Invertible (integer 9007199254740993) .float ∧
      Invertible (integer 9007199254740994) .float := by
  have hodd := (numeric_conversion (n := 9007199254740993) (by decide) .nan (integer 0) .float).1.2
  have heven := (numeric_conversion (n := 9007199254740994) (by decide) .nan (integer 0) .float).1.2
  exact ⟨by decide, hodd.not.mpr (by decide +kernel), heven.mpr (by decide +kernel)⟩

/-- An integer becomes a float that becomes another integer, and the greatest integer one that
becomes none. -/
theorem conversion_loses_unit :
    (integer 9007199254740993).convert .float = .ok (true, .float (.ofInt 9007199254740993)) ∧
      (float (.ofInt 9007199254740993)).convert .integer =
        .ok (true, .integer 9007199254740992) ∧
      (integer greatestInt).convert .float = .ok (true, .float (.ofInt greatestInt)) ∧
      (float (.ofInt greatestInt)).convert .integer =
        .ok (false, .float (.ofInt greatestInt)) := by
  have hback : (Binary64.ofInt 9007199254740993).toInt? = some 9007199254740992 := by
    decide +kernel
  have hgreatest : (Binary64.ofInt greatestInt).toInt? = some 9223372036854775808 := by
    decide +kernel
  refine ⟨(convert_integer_float (by decide)).mpr rfl,
    convert_float_integer.mpr ⟨_, by decide, hback, rfl⟩,
    (convert_integer_float (by decide)).mpr rfl, ?_⟩
  rcases convert_float_integer_or (.ofInt greatestInt) with ⟨n, hn, h, -⟩ | ⟨-, h⟩
  · rw [hgreatest, Option.some.injEq] at h
    exact absurd (h ▸ hn) (by decide)
  · exact h

end Stencil.Value
