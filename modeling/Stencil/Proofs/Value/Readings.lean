import Stencil.Expr.Evaluation
import Stencil.Proofs.Numeral.Agreement

/-!
# Value — The two readings of a string

A string in place of a number is read as an integer by the remainder and by an index, and as a float
by the difference and by the quotient.  Each of these operators makes of the string what it makes of
the number that the string converts to (`Operator.Reads`), and the float is the one that the integer
converts to, but for the sign of a zero and for octal texts (`readings_agree`).  The text `010` is
eight to the remainder and ten to the difference (`readings_of_octal`).
-/

namespace Stencil

open Numeral

/-- An operator makes of the string `s`, on either side, what it makes of the value `v`. -/
def Operator.Reads (op : Operator) (s : String) (v : Value) : Prop :=
  ∀ b r, (op.apply (.string s) b = .ok r ↔ op.apply v b = .ok r) ∧
    (op.apply b (.string s) = .ok r ↔ op.apply b v = .ok r)

namespace Value

variable {a a' b b' v r : Value} {s operation : String} {n : Int} {x y : Binary64}

/-! ### Operands -/

theorem bind_eq_ok {ε α β : Type} {x : Except ε α} {g : α → Except ε β} {b : β} :
    x >>= g = .ok b ↔ ∃ a, x = .ok a ∧ g a = .ok b := by
  refine ⟨exists_of_bind_ok, ?_⟩
  rintro ⟨a, rfl, h⟩
  exact h

theorem mapError_eq_ok {ε ε' α : Type} {f : ε → ε'} {x : Except ε α} {a : α} :
    x.mapError f = .ok a ↔ x = .ok a := by
  cases x with
  | error e => simp [Except.mapError]
  | ok a' => simp [Except.mapError]

theorem floats_of_toBinary64? (hx : a.toBinary64? = .ok (some x))
    (hy : b.toBinary64? = .ok (some y)) : floats operation a b = .ok (x, y) := by
  rw [floats, hx, hy]
  rfl

/-- Two operands convert to floats together if each of them does. -/
theorem floats_eq_ok {xy : Binary64 × Binary64} : floats operation a b = .ok xy ↔
    a.toBinary64? = .ok (some xy.1) ∧ b.toBinary64? = .ok (some xy.2) := by
  constructor
  · intro h
    obtain ⟨x?, hx, h⟩ := bind_eq_ok.mp h
    obtain ⟨y?, hy, h⟩ := bind_eq_ok.mp h
    rw [mapError_eq_ok.mp hx, mapError_eq_ok.mp hy]
    split at h
    · cases h
      exact ⟨rfl, rfl⟩
    · cases h
  · rintro ⟨hx, hy⟩
    exact floats_of_toBinary64? hx hy

/-- Two operands convert to integers together if each of them does. -/
theorem integers_eq_ok {nm : Int × Int} : integers operation a b = .ok nm ↔
    a.toInt? = .ok (some nm.1) ∧ b.toInt? = .ok (some nm.2) := by
  refine ⟨integers_ok, ?_⟩
  rintro ⟨hn, hm⟩
  rw [integers, hn, hm]
  rfl

theorem sub_of_toBinary64? (hx : a.toBinary64? = .ok (some x))
    (hy : b.toBinary64? = .ok (some y)) : sub a b = .ok (.float (x.sub y)) := by
  rw [sub, floats_of_toBinary64? hx hy]
  rfl

/-- Values that convert to the same floats have the same difference and the same quotient. -/
theorem sub_congr (ha : a.toBinary64? = a'.toBinary64?) (hb : b.toBinary64? = b'.toBinary64?) :
    sub a b = .ok r ↔ sub a' b' = .ok r := by
  simp only [sub, bind_eq_ok, floats_eq_ok, ha, hb]

/-- The quotient sees of its operands only the floats they convert to, unless it fails. -/
theorem div_congr (ha : a.toBinary64? = a'.toBinary64?) (hb : b.toBinary64? = b'.toBinary64?) :
    div a b = .ok r ↔ div a' b' = .ok r := by
  simp only [div, bind_eq_ok, floats_eq_ok, ha, hb]

/-- Values that convert to the same integers have the same remainder. -/
theorem mod_congr (ha : a.toInt? = a'.toInt?) (hb : b.toInt? = b'.toInt?) :
    mod a b = .ok r ↔ mod a' b' = .ok r := by
  simp only [mod, bind_eq_ok, integers_eq_ok, ha, hb]

/-- A string that converts to the float of a value may stand in its place in a difference. -/
theorem reads_minus (h : (string s).toBinary64? = v.toBinary64?) : Operator.minus.Reads s v :=
  fun _ _ => ⟨sub_congr h rfl, sub_congr rfl h⟩

theorem reads_divide (h : (string s).toBinary64? = v.toBinary64?) : Operator.divide.Reads s v :=
  fun _ _ => ⟨div_congr h rfl, div_congr rfl h⟩

/-- A string that converts to the integer of a value may stand in its place in a remainder. -/
theorem reads_modulo (h : (string s).toInt? = v.toInt?) : Operator.modulo.Reads s v :=
  fun _ _ => ⟨mod_congr h rfl, mod_congr rfl h⟩

/-- An index sees of its value only the integer that it converts to. -/
theorem selectItem_congr (h : a.toInt? = b.toInt?) (v : Value) (items : List Value) :
    Expr.selectItem v items a = Expr.selectItem v items b := by
  rw [Expr.selectItem, Expr.selectItem, h]

/-! ### Readings -/

theorem toBinary64?_of_convert? (h : a.convert? .float = .ok (some (.float x))) :
    a.toBinary64? = .ok (some x) := by
  unfold convert? at h
  split at h
  · next hkind =>
    cases h
    rfl
  · obtain ⟨x?, hx, h⟩ := bind_eq_ok.mp h
    cases x? with
    | none => cases h
    | some x' =>
        cases h
        exact hx

/-- An integer of 64 bits converts to the float next to it. -/
theorem convert?_integer_float (hn : inRange n = true) :
    (integer n).convert? .float = .ok (some (.float (.ofInt n))) := by
  have hconvert : (integer n).convert? .float = .ok ((if (Binary64.ofInt n).isFinite then
      some (Binary64.ofInt n) else none).map Value.float) := rfl
  rw [hconvert, if_pos (Binary64.isFinite_ofInt hn)]
  rfl

theorem convert?_string_integer (h : readInteger s.toList = .ok (some n)) :
    (string s).convert? .integer = .ok (some (.integer n)) := by
  have hconvert : (string s).convert? .integer =
      readInteger s.toList >>= fun n? => .ok (n?.map Value.integer) := rfl
  rw [hconvert, h]
  rfl

theorem convert?_string_float (h : readFloat s.toList = .ok (some x)) :
    (string s).convert? .float = .ok (some (.float x)) := by
  have hconvert : (string s).convert? .float =
      readFloat s.toList >>= fun x? => .ok (x?.map Value.float) := rfl
  rw [hconvert, h]
  rfl

/-- **The two readings of a string agree** where both succeed: operators that take integers and
operators that take floats read the string as the number it converts to, and the float is the one
that the integer converts to, with the minus sign that a zero has in the string.  Octal texts for a
number from eight on are the exception: the float is another number than the integer. -/
theorem readings_agree (hn : (string s).convert? .integer = .ok (some (.integer n)))
    (hx : (string s).convert? .float = .ok (some (.float x))) :
    (∃ y, (integer n).convert? .float = .ok (some (.float y)) ∧
      (¬(IsOctal s.toList ∧ 8 ≤ n.natAbs) →
        (x = if n = 0 ∧ isNegative s.toList = true then .zero true else y) ∧ x.beq y = true) ∧
      (IsOctal s.toList ∧ 8 ≤ n.natAbs → x.beq y = false)) ∧
    (Operator.modulo.Reads s (.integer n) ∧
      ∀ v items, Expr.selectItem v items (.string s) = Expr.selectItem v items (.integer n)) ∧
    Operator.minus.Reads s (.float x) ∧ Operator.divide.Reads s (.float x) := by
  have hint : readInteger s.toList = .ok (some n) := toInt?_of_convert? hn
  have hfloat : readFloat s.toList = .ok (some x) := toBinary64?_of_convert? hx
  have hrange := inRange_of_readInteger hint
  refine ⟨⟨.ofInt n, convert?_integer_float hrange, fun hoctal => ?_,
    beq_ofInt_of_octal hint hfloat⟩, ⟨reads_modulo hint, selectItem_congr hint⟩,
    reads_minus hfloat, reads_divide hfloat⟩
  have hvalue := float_of_readings hint hfloat hoctal
  refine ⟨hvalue, Binary64.beq_ofInt ?_⟩
  split at hvalue
  · next hzero => exact .inr ⟨hzero.1, hvalue⟩
  · exact .inl hvalue

/-- A negative hexadecimal number behind a blank is the same number to either kind of operator. -/
theorem readings_agree_of_mark :
    (string " -0x1F").convert? .integer = .ok (some (.integer (-31))) ∧
      (string " -0x1F").convert? .float = .ok (some (.float (.ofInt (-31)))) ∧
      Operator.modulo.Reads " -0x1F" (.integer (-31)) ∧
      Operator.minus.Reads " -0x1F" (.float (.ofInt (-31))) := by
  have hn := convert?_string_integer (s := " -0x1F") (n := -31) (by decide +kernel)
  have hx := convert?_string_float (s := " -0x1F") (x := .ofInt (-31)) (by decide +kernel)
  obtain ⟨-, ⟨hmodulo, -⟩, hminus, -⟩ := readings_agree hn hx
  exact ⟨hn, hx, hmodulo, hminus⟩

/-- The text `010` is eight where an integer is read and ten where a float is read, so a remainder
and a difference see different numbers. -/
theorem readings_of_octal :
    (string "010").convert? .integer = .ok (some (.integer 8)) ∧
      (string "010").convert? .float = .ok (some (.float (.ofInt 10))) ∧
      (integer 8).convert? .float = .ok (some (.float (.ofInt 8))) ∧
      (Binary64.ofInt 10).beq (.ofInt 8) = false ∧
      Operator.modulo.apply (string "010") (integer 100) = .ok (.integer 8) ∧
      Operator.minus.apply (string "010") (integer 0) = .ok (.float (.ofInt 10)) := by
  have hint : readInteger "010".toList = .ok (some 8) := by decide +kernel
  have hfloat : readFloat "010".toList = .ok (some (.ofInt 10)) := by decide +kernel
  have htext := toBinary64?_of_convert? (convert?_string_float hfloat)
  have hzero := toBinary64?_of_convert? (convert?_integer_float (n := 0) (by decide))
  have hdifference : (Binary64.ofInt 10).sub (.ofInt 0) = .ofInt 10 := by decide +kernel
  refine ⟨convert?_string_integer hint, convert?_string_float hfloat,
    convert?_integer_float (by decide), by decide +kernel, ?_, ?_⟩
  · exact bind_eq_ok.mpr ⟨(8, 100), integers_eq_ok.mpr ⟨hint, rfl⟩, rfl⟩
  · rw [Operator.apply, sub_of_toBinary64? htext hzero, hdifference]

end Value

end Stencil
