import Mathlib.Order.Defs.LinearOrder
import Stencil.Expr.Evaluation
import Stencil.Proofs.Numeral.Grammar

/-!
# Value — Faults

Where the operations on values end by a fault.  There are three sources of faults.  A string whose
leading white space has an information separator before a decimal float is not converted to a float
(`IllSpaced`), nor is one with too many decimal digits to an integer (`ManyDigits`); and no base64
text is read from characters beyond ASCII (`StockFilter.apply_faulty_iff`).  Of the operators only
`-` and `/` convert strings to floats, and only `%` converts them to integers, as an index does.  So
`Operator.apply_faulty_iff` and `Expr.selectItem_faulty_iff` are the exact conditions.
-/

namespace Stencil

open Text Numeral

variable {α β : Type}

/-- A result that is a fault. -/
def Faulty (x : Except Failure α) : Prop :=
  ∃ f, x = .error (.fault f)

@[simp] theorem not_faulty_ok (a : α) : ¬Faulty (.ok a : Except Failure α) := by
  rintro ⟨f, ⟨⟩⟩

@[simp] theorem not_faulty_pure (a : α) : ¬Faulty (pure a : Except Failure α) :=
  not_faulty_ok a

@[simp] theorem not_faulty_of (cause : Cause) :
    ¬Faulty (.error (.of cause) : Except Failure α) := by
  rintro ⟨f, ⟨⟩⟩

@[simp] theorem faulty_fault (f : Fault) : Faulty (.error (.fault f) : Except Failure α) :=
  ⟨f, rfl⟩

/-- Two computations in a row are faulty where the first is, or the second behind its result. -/
theorem faulty_bind {x : Except Failure α} {g : α → Except Failure β} :
    Faulty (x >>= g) ↔ Faulty x ∨ ∃ a, x = .ok a ∧ Faulty (g a) := by
  cases x with
  | error e =>
      constructor
      · rintro ⟨f, ⟨⟩⟩
        exact .inl ⟨f, rfl⟩
      · rintro (⟨f, ⟨⟩⟩ | ⟨a, ⟨⟩, -⟩)
        exact ⟨f, rfl⟩
  | ok a =>
      refine ⟨fun h => .inr ⟨a, rfl, h⟩, ?_⟩
      rintro (h | ⟨b, ⟨⟩, h⟩)
      · exact absurd h (not_faulty_ok a)
      · exact h

/-- What follows a computation without faults does not matter where it has none either. -/
theorem faulty_bind_iff {x : Except Failure α} {g : α → Except Failure β}
    (hg : ∀ a, ¬Faulty (g a)) : Faulty (x >>= g) ↔ Faulty x := by
  rw [faulty_bind]
  exact or_iff_left (by rintro ⟨a, -, h⟩; exact hg a h)

/-! ### Conversions -/

/-- A string of which the leading white space has an information separator, with a decimal float
behind it. -/
def IllSpaced (v : Value) : Prop :=
  ∃ s : String, v = .string s ∧ (s.toList.takeWhile isSpace).any isSeparator = true ∧
    ∃ l, floatLiteral? (s.toList.dropWhile isSpace) = some l ∧ l.base = 10

theorem IllSpaced.kind {v : Value} (h : IllSpaced v) : v.kind = .string := by
  obtain ⟨s, rfl, -⟩ := h
  rfl

/-- Of ill-spaced texts, those of hexadecimal floats are read nevertheless. -/
theorem readFloat_fault_iff (text : List Char) :
    (∃ f, readFloat text = .error f) ↔ (text.takeWhile isSpace).any isSeparator = true ∧
      ∃ l, floatLiteral? (text.dropWhile isSpace) = some l ∧ l.base = 10 := by
  unfold readFloat
  cases floatLiteral? (text.dropWhile isSpace) with
  | none => simp
  | some l =>
      dsimp only
      split
      · next h => simp [h.1, h.2]
      · next h =>
        refine ⟨nofun, ?_⟩
        rintro ⟨hs, l', ⟨⟩, hb⟩
        exact absurd ⟨hb, hs⟩ h

/-- A string in which a sign or none, and too many decimal digits, of which the first is no zero,
stand behind white space. -/
def ManyDigits (v : Value) : Prop :=
  ∃ s : String, v = .string s ∧ ∃ c ds, (splitSign (s.toList.dropWhile isSpace)).2 = c :: ds ∧
    c ≠ '0' ∧ IsDigits 10 (c :: ds) ∧ digitLimit < (c :: ds).length

theorem ManyDigits.kind {v : Value} (h : ManyDigits v) : v.kind = .string := by
  obtain ⟨s, rfl, -⟩ := h
  rfl

/-- Only decimal digits are counted. -/
theorem allDigits?_fault_iff (base : Nat) (text : List Char) :
    (∃ f, allDigits? base text = .error f) ↔
      base = 10 ∧ IsDigits 10 text ∧ digitLimit < text.length := by
  have hdigits : (!text.isEmpty && text.all (isDigitOf base)) = true ↔ IsDigits base text := by
    simp [IsDigits]
  unfold allDigits?
  split
  · next hds =>
    rw [hdigits] at hds
    split
    · next hlong =>
      rw [overlong, Bool.and_eq_true, beq_iff_eq, decide_eq_true_iff] at hlong
      obtain ⟨rfl, hlong⟩ := hlong
      exact iff_of_true ⟨_, rfl⟩ ⟨rfl, hds, hlong⟩
    · next hlong =>
      refine iff_of_false nofun ?_
      rintro ⟨rfl, -, h⟩
      exact hlong (by simpa [overlong] using h)
  · next hds =>
    refine iff_of_false nofun ?_
    rintro ⟨rfl, h, -⟩
    exact hds (hdigits.mpr h)

/-- A leading zero is the mark of another base, or of the octal one. -/
theorem magnitude?_fault_iff (text : List Char) : (∃ f, magnitude? text = .error f) ↔
    ∃ c ds, text = c :: ds ∧ c ≠ '0' ∧ IsDigits 10 (c :: ds) ∧ digitLimit < (c :: ds).length := by
  cases text with
  | nil => exact iff_of_false nofun (by rintro ⟨c, ds, ⟨⟩, -⟩)
  | cons c ds =>
      by_cases hc : c = '0'
      · subst hc
        refine iff_of_false ?_ (by rintro ⟨c, ds, ⟨⟩, h, -⟩; exact h rfl)
        unfold magnitude?
        split
        · rw [allDigits?_fault_iff]
          rintro ⟨⟨⟩, -⟩
        · change ¬∃ f, allDigits? 8 ('0' :: ds) = .error f
          rw [allDigits?_fault_iff]
          rintro ⟨⟨⟩, -⟩
      · rw [magnitude?_cons hc, allDigits?_fault_iff]
        constructor
        · rintro ⟨-, h⟩
          exact ⟨c, ds, rfl, hc, h⟩
        · rintro ⟨c', ds', ⟨⟩, -, h⟩
          exact ⟨rfl, h⟩

/-- White space and a sign may stand before the digits. -/
theorem readInteger_fault_iff (text : List Char) : (∃ f, readInteger text = .error f) ↔
    ∃ c ds, (splitSign (text.dropWhile isSpace)).2 = c :: ds ∧ c ≠ '0' ∧ IsDigits 10 (c :: ds) ∧
      digitLimit < (c :: ds).length := by
  rw [← magnitude?_fault_iff]
  unfold readInteger
  rcases hm : magnitude? (splitSign (text.dropWhile isSpace)).2 with fault | _ | n <;> simp [hm]

namespace Value

/-- Only strings are read; the other values convert to integers without faults. -/
theorem toInt?_fault_iff (v : Value) : (∃ f, v.toInt? = .error f) ↔ ManyDigits v := by
  cases v with
  | string s =>
      rw [toInt?, readInteger_fault_iff]
      exact ⟨fun h => ⟨s, rfl, h⟩, by rintro ⟨s', ⟨⟩, h⟩; exact h⟩
  | float x =>
      refine iff_of_false ?_ (by rintro ⟨s, ⟨⟩, -⟩)
      rintro ⟨f, h⟩
      rw [toInt?] at h
      split at h <;> cases h
  | _ => exact ⟨nofun, by rintro ⟨s, ⟨⟩, -⟩⟩

/-- Only strings are read; the other values convert to floats without faults. -/
theorem toBinary64?_fault_iff (v : Value) : (∃ f, v.toBinary64? = .error f) ↔ IllSpaced v := by
  cases v with
  | string s =>
      rw [toBinary64?, readFloat_fault_iff]
      exact ⟨fun h => ⟨s, rfl, h⟩, by rintro ⟨s', ⟨⟩, h⟩; exact h⟩
  | _ => exact ⟨nofun, by rintro ⟨s, ⟨⟩, -⟩⟩

/-- **A conversion is a fault** just when an ill-spaced string is converted to a float, or one with
too many digits to an integer. -/
theorem convert?_fault_iff (v : Value) (target : Kind) :
    (∃ f, v.convert? target = .error f) ↔
      target = .float ∧ IllSpaced v ∨ target = .integer ∧ ManyDigits v := by
  unfold convert?
  split
  · next h =>
    refine ⟨nofun, ?_⟩
    rintro (⟨rfl, hv⟩ | ⟨rfl, hv⟩) <;> rw [hv.kind] at h <;> cases h
  · cases target with
    | float =>
        rw [← toBinary64?_fault_iff]
        cases v.toBinary64? <;> simp [Functor.map, Except.map]
    | integer =>
        rw [← toInt?_fault_iff]
        cases v.toInt? <;> simp [Functor.map, Except.map]
    | _ => exact ⟨nofun, by rintro (⟨⟨⟩, -⟩ | ⟨⟨⟩, -⟩)⟩

/-! ### Operations -/

variable {a b : Value}

@[simp] theorem not_faulty_invalid (operation : String) (a b : Value) :
    ¬Faulty (invalid operation a b : Except Failure α) :=
  not_faulty_of _

/-- Two conversions in a row, and then a computation without faults, are faulty where one of the
conversions is. -/
theorem faulty_conversions {γ : Type} {x : Except Fault α} {y : Except Fault β}
    {g : α → β → Except Failure γ} (hg : ∀ a b, ¬Faulty (g a b)) :
    Faulty (do
      let a ← x.mapError .fault
      let b ← y.mapError .fault
      g a b) ↔ (∃ f, x = .error f) ∨ ∃ f, y = .error f := by
  cases x with
  | error f => exact iff_of_true ⟨f, rfl⟩ (.inl ⟨f, rfl⟩)
  | ok a =>
      cases y with
      | error f => exact iff_of_true ⟨f, rfl⟩ (.inr ⟨f, rfl⟩)
      | ok b => exact iff_of_false (hg a b) nofun

/-- Both operands are converted, the first one first. -/
theorem faulty_floats (operation : String) (a b : Value) :
    Faulty (floats operation a b) ↔ IllSpaced a ∨ IllSpaced b := by
  rw [← toBinary64?_fault_iff, ← toBinary64?_fault_iff]
  refine faulty_conversions fun x y => ?_
  split <;> simp

/-- So are those of an operation on integers. -/
theorem faulty_integers (operation : String) (a b : Value) :
    Faulty (integers operation a b) ↔ ManyDigits a ∨ ManyDigits b := by
  rw [← toInt?_fault_iff, ← toInt?_fault_iff]
  refine faulty_conversions fun n m => ?_
  split <;> simp

theorem faulty_sub : Faulty (sub a b) ↔ IllSpaced a ∨ IllSpaced b := by
  rw [sub, faulty_bind_iff (fun _ => not_faulty_pure _), faulty_floats]

/-- A divisor of zero is an error. -/
theorem faulty_div : Faulty (div a b) ↔ IllSpaced a ∨ IllSpaced b := by
  rw [div, faulty_bind_iff, faulty_floats]
  rintro ⟨x, y⟩
  dsimp only
  split
  · exact not_faulty_of _
  · exact not_faulty_pure _

theorem kind_ne_string (h : ∀ s, a = .string s → False) : a.kind ≠ .string := by
  cases a with
  | string s => exact absurd rfl (h s)
  | _ => nofun

/-- Values that are no strings convert to floats without faults. -/
theorem not_faulty_floats (ha : a.kind ≠ .string) (hb : b.kind ≠ .string) (operation : String) :
    ¬Faulty (floats operation a b) := by
  rw [faulty_floats]
  rintro (h | h)
  · exact ha h.kind
  · exact hb h.kind

theorem not_faulty_exact (operation : String) (a b : Value) (n : Int) :
    ¬Faulty (exact operation a b n) := by
  unfold exact
  split <;> simp

/-- Values that are no strings convert to integers without faults. -/
theorem not_faulty_integers (ha : a.kind ≠ .string) (hb : b.kind ≠ .string) (operation : String) :
    ¬Faulty (integers operation a b) := by
  rw [faulty_integers]
  rintro (h | h)
  · exact ha h.kind
  · exact hb h.kind

/-- A sum converts no string: strings are joined, and refused beside anything else. -/
theorem not_faulty_add (a b : Value) : ¬Faulty (add a b) := by
  unfold add
  split
  · simp
  · simp
  · exact not_faulty_exact _ _ _ _
  · split
    · split <;> simp
    · next h =>
      rw [faulty_bind_iff (fun _ => not_faulty_pure _)]
      exact not_faulty_floats (fun ha => h (.inl ha)) (fun hb => h (.inr hb)) _

/-- How often a string is repeated is told by a number, which is no string. -/
theorem not_faulty_repeated (text : String) (count : Value) : ¬Faulty (repeated text count) := by
  unfold repeated
  split
  · simp
  · next hcount =>
    rw [faulty_bind_iff]
    · rintro ⟨f, hf⟩
      cases hn : count.toInt? with
      | error f =>
          rw [isNumber, ((toInt?_fault_iff count).mp ⟨f, hn⟩).kind] at hcount
          exact hcount rfl
      | ok n => rw [hn] at hf; cases hf
    · intro n
      repeat' split
      all_goals simp

/-- A product repeats a string without converting it. -/
theorem not_faulty_mul (a b : Value) : ¬Faulty (mul a b) := by
  unfold mul
  split
  · simp
  split
  · exact not_faulty_repeated _ _
  · exact not_faulty_repeated _ _
  · next ha hb =>
    split
    · rw [faulty_bind_iff (fun _ => not_faulty_pure _)]
      exact not_faulty_floats (kind_ne_string ha) (kind_ne_string hb) _
    · rw [faulty_bind_iff (fun _ => not_faulty_exact _ _ _ _)]
      exact not_faulty_integers (kind_ne_string ha) (kind_ne_string hb) _

/-- A remainder by zero is an error. -/
theorem faulty_mod : Faulty (mod a b) ↔ ManyDigits a ∨ ManyDigits b := by
  rw [mod, faulty_bind_iff, faulty_integers]
  rintro ⟨n, m⟩
  dsimp only
  split <;> simp

mutual

/-- Strings are compared with strings only, as texts; arrays item by item. -/
theorem not_faulty_order (a b : Value) : ¬Faulty (order a b) := by
  unfold order
  split
  · exact not_faulty_orderAll _ _
  · exact not_faulty_of _
  · exact not_faulty_of _
  · exact not_faulty_ok _
  · exact not_faulty_ok _
  · exact not_faulty_ok _
  · rw [faulty_bind_iff (fun _ => not_faulty_pure _)]
    next ha _ hb _ _ =>
    exact not_faulty_floats (kind_ne_string ha) (kind_ne_string hb) _
termination_by sizeOf a

theorem not_faulty_orderAll (vs ws : List Value) : ¬Faulty (order.orderAll vs ws) := by
  unfold order.orderAll
  split
  · simp
  · simp
  · simp
  · split
    · exact not_faulty_orderAll _ _
    · exact not_faulty_order _ _
termination_by sizeOf vs

end

/-- So no comparison is a fault. -/
theorem not_faulty_ordered (holds : Ordering → Bool) (a b : Value) :
    ¬Faulty (ordered holds a b) := by
  rw [ordered, faulty_bind_iff (fun _ => not_faulty_pure _)]
  exact not_faulty_order a b

end Value

/-! ### Filters and operators -/

/-- A text with a character outside ASCII. -/
def BeyondAscii (text : String) : Prop :=
  ∃ c ∈ text.toList, 0x80 ≤ c.toNat

/-- **A stock filter ends by a fault** just when base64 text is read from characters beyond
ASCII. -/
theorem StockFilter.apply_faulty_iff (f : StockFilter) (v : Value) :
    Faulty (f.apply v) ↔ f = .base64decode ∧ BeyondAscii v.text := by
  have hascii : v.text.toList.any (fun c => 0x80 ≤ c.toNat) = true ↔ BeyondAscii v.text := by
    simp [BeyondAscii]
  cases f with
  | base64decode =>
      rw [StockFilter.apply, decodeBase64]
      split
      · next h => simp [hascii.mp h]
      · next h =>
        have hv : ¬BeyondAscii v.text := fun hv => h (hascii.mpr hv)
        repeat' split
        all_goals simp [hv]
  | _ => simp [StockFilter.apply]

/-- A filter that is given answers an object, or fails by it, but has no faults. -/
theorem Filter.apply_faulty_iff (f : Filter) (v : Value) :
    Faulty (f.apply v) ↔ f = .stock .base64decode ∧ BeyondAscii v.text := by
  cases f with
  | stock f =>
      rw [Filter.apply, StockFilter.apply_faulty_iff]
      simp
  | given name answer =>
      rw [Filter.apply]
      split <;> simp

/-- The operator does not guard against these operands. -/
def Operator.Unguarded (op : Operator) (a b : Value) : Prop :=
  (op = .minus ∨ op = .divide) ∧ (IllSpaced a ∨ IllSpaced b) ∨
    op = .modulo ∧ (ManyDigits a ∨ ManyDigits b) ∨
    op = .pipe ∧ b = .filter (.stock .base64decode) ∧ BeyondAscii a.text

/-- **An operator ends by a fault** just when an ill-spaced string is an operand of `-` or `/`, or
one with too many digits an operand of `%`, or when base64 text is read from characters beyond
ASCII. -/
theorem Operator.apply_faulty_iff (op : Operator) (a b : Value) :
    Faulty (op.apply a b) ↔ op.Unguarded a b := by
  unfold Operator.Unguarded
  cases op with
  | minus => simp [Operator.apply, Value.faulty_sub]
  | divide => simp [Operator.apply, Value.faulty_div]
  | pipe =>
      rw [Operator.apply]
      cases b with
      | filter f => simp [Value.pipe, Filter.apply_faulty_iff]
      | _ => simp [Value.pipe]
  | plus => simp [Operator.apply, Value.not_faulty_add]
  | times => simp [Operator.apply, Value.not_faulty_mul]
  | modulo => simp [Operator.apply, Value.faulty_mod]
  | _ => simp [Operator.apply, Value.not_faulty_ordered]

/-- **To select an item ends by a fault** just when the index is a string with too many digits. -/
theorem Expr.selectItem_faulty_iff (v : Value) (items : List Value) (index : Value) :
    Faulty (selectItem v items index) ↔ ManyDigits index := by
  rw [selectItem, faulty_bind_iff]
  · rw [← Value.toInt?_fault_iff]
    cases index.toInt? with
    | error f => exact iff_of_true ⟨f, rfl⟩ ⟨f, rfl⟩
    | ok n => exact iff_of_false (not_faulty_ok n) nofun
  · intro n
    repeat' split
    all_goals simp

end Stencil
