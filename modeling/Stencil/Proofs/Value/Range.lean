import Mathlib.Algebra.Group.Int.Defs
import Mathlib.Algebra.Group.Nat.Defs
import Stencil.Expr.Application

/-!
# Value — Range

A value fits when each integer in it, at any depth of arrays, is an integer of 64 bits.  Numbers are
read from texts and from floats only where they are integers of 64 bits (`inRange_of_toInt?`), sums
and products are exact or errors (`exact_add`, `exact_mul`), and a remainder is no greater than the
dividend.  So what an operator makes of values that fit fits too, if it is not the result of a
filter (`Operator.fits_apply`).
-/

namespace Stencil

open Text Numeral

/-- A sequence that succeeds does so through a result of its first part. -/
theorem exists_of_bind_ok {ε α β : Type} {x : Except ε α} {g : α → Except ε β} {b : β}
    (h : x >>= g = .ok b) : ∃ a, x = .ok a ∧ g a = .ok b := by
  cases x with
  | error e => cases h
  | ok a => exact ⟨a, rfl, h⟩

/-! ### Integers of 64 bits -/

namespace Numeral

/-- The range of 64 bits in powers of two. -/
theorem inRange_iff {n : Int} : inRange n = true ↔ -2 ^ 63 ≤ n ∧ n ≤ 2 ^ 63 - 1 := by
  rw [inRange, Bool.and_eq_true, decide_eq_true_iff, decide_eq_true_iff, leastInt, greatestInt]
  omega

/-- A text is read as an integer only where it stands for one of 64 bits. -/
theorem inRange_of_readInteger {text : List Char} {n : Int}
    (h : readInteger text = .ok (some n)) : inRange n = true := by
  unfold readInteger at h
  rcases hm : magnitude? (splitSign (text.dropWhile isSpace)).2 with fault | _ | k
  · simp [hm] at h
  · simp [hm] at h
  · simp only [hm, Except.ok.injEq, Option.ite_none_right_eq_some] at h
    obtain ⟨hn, heq⟩ := h
    cases heq
    exact hn

theorem tmod_nonpos {n : Int} (m : Int) (hn : n ≤ 0) : n.tmod m ≤ 0 := by
  have h := Int.tmod_nonneg m (Int.neg_nonneg_of_nonpos hn)
  rw [Int.neg_tmod] at h
  exact Int.nonpos_of_neg_nonneg h

/-- Remainders are in range with their dividends. -/
theorem inRange_tmod {n : Int} (m : Int) (h : inRange n = true) : inRange (n.tmod m) = true := by
  have hle : (n.tmod m).natAbs ≤ n.natAbs := by
    rw [Int.natAbs_tmod]
    exact Nat.mod_le _ _
  have hnonneg : 0 ≤ n → 0 ≤ n.tmod m := Int.tmod_nonneg m
  have hnonpos : n ≤ 0 → n.tmod m ≤ 0 := tmod_nonpos m
  rw [inRange_iff] at h ⊢
  omega

end Numeral

namespace Value

/-- Each integer in a value, at any depth of arrays, is an integer of 64 bits. -/
def fits : Value → Bool
  | .integer n => inRange n
  | .array items => fitsAll items
  | _ => true
where
  /-- All of some values fit. -/
  fitsAll : List Value → Bool
    | [] => true
    | v :: vs => v.fits && fitsAll vs

@[simp] theorem fits_integer (n : Int) : (integer n).fits = inRange n := rfl

@[simp] theorem fits_float (x : Binary64) : (float x).fits = true := rfl

@[simp] theorem fits_string (s : String) : (string s).fits = true := rfl

@[simp] theorem fits_truth (b : Bool) : (truth b).fits = true := by
  cases b <;> decide

@[simp] theorem fits_array {items : List Value} :
    (array items).fits = true ↔ ∀ v ∈ items, v.fits = true := by
  rw [fits]
  induction items with
  | nil => simp [fits.fitsAll]
  | cons v vs ih => simp [fits.fitsAll, ih]

/-! ### Conversions -/

/-- **A value that fits converts to an integer of 64 bits**, if to any. -/
theorem inRange_of_toInt? {v : Value} {n : Int} (hv : v.fits = true)
    (h : v.toInt? = .ok (some n)) : inRange n = true := by
  cases v with
  | integer m => cases h; exact hv
  | float x =>
      rw [toInt?] at h
      split at h
      · obtain ⟨hn, heq⟩ := Option.ite_none_right_eq_some.mp (Except.ok.inj h)
        cases heq
        exact hn
      · cases h
  | string s => exact inRange_of_readInteger h
  | array | filter => cases h

/-- Operands that are taken as integers are converted to them. -/
theorem integers_ok {operation : String} {a b : Value} {n m : Int}
    (h : integers operation a b = .ok (n, m)) :
    a.toInt? = .ok (some n) ∧ b.toInt? = .ok (some m) := by
  unfold integers at h
  rcases ha : a.toInt? with fault | _ | n' <;> rw [ha] at h
  · cases h
  all_goals rcases hb : b.toInt? with fault | _ | m' <;> rw [hb] at h <;> cases h
  exact ⟨rfl, rfl⟩

theorem toInt?_of_convert? {a : Value} {n : Int}
    (h : a.convert? .integer = .ok (some (.integer n))) : a.toInt? = .ok (some n) := by
  unfold convert? at h
  split at h
  · cases h; rfl
  · rcases hn : a.toInt? with fault | _ | m <;> rw [hn] at h <;> cases h
    rfl

/-! ### Operations -/

/-- What an exact operation comes to: the integer `n` where it is one of 64 bits, and an error of
range elsewhere. -/
def Exact (n : Int) (x : Except Failure Value) : Prop :=
  (-2 ^ 63 ≤ n ∧ n ≤ 2 ^ 63 - 1 → x = .ok (.integer n)) ∧
    (¬(-2 ^ 63 ≤ n ∧ n ≤ 2 ^ 63 - 1) →
      ∃ cause, x = .error (.of cause) ∧ cause.kind = .range ∧ cause.code = "out-of-range")

/-- The result of an exact operation is the number itself, or a range error. -/
theorem exact_exact (operation : String) (a b : Value) (n : Int) :
    Exact n (exact operation a b n) := by
  rw [Exact, ← inRange_iff, exact]
  refine ⟨fun h => if_pos h, fun h => ⟨.resultOutOfRange operation a b, if_neg h, rfl, rfl⟩⟩

/-- The sum of two integers is exact. -/
theorem exact_add (n m : Int) : Exact (n + m) (Operator.plus.apply (.integer n) (.integer m)) :=
  exact_exact "+" _ _ (n + m)

/-- The product of two integers is exact. -/
theorem exact_mul (n m : Int) : Exact (n * m) (Operator.times.apply (.integer n) (.integer m)) :=
  exact_exact "*" _ _ (n * m)

theorem fits_of_exact {operation : String} {a b v : Value} {n : Int}
    (h : exact operation a b n = .ok v) : v.fits = true := by
  unfold exact at h
  split at h
  · next hn => cases h; exact hn
  · cases h

/-- `r` is what a division of `n` by `m` that truncates toward zero leaves over. -/
structure Remainder (n m r : Int) : Prop where
  divides : m ∣ n - r
  small : r.natAbs < m.natAbs
  nonneg : 0 ≤ n → 0 ≤ r
  nonpos : n ≤ 0 → r ≤ 0

/-- The truncated remainder has the sign of the dividend and is less than the divisor. -/
theorem remainder_tmod (n : Int) {m : Int} (hm : m ≠ 0) : Remainder n m (n.tmod m) where
  divides := ⟨n.tdiv m, by have := Int.mul_tdiv_add_tmod n m; omega⟩
  small := by
    rw [Int.natAbs_tmod]
    exact Nat.mod_lt _ (Int.natAbs_pos.mpr hm)
  nonneg := Int.tmod_nonneg m
  nonpos := tmod_nonpos m

/-- Two operands that convert to integers, the second of them not zero, have a remainder. -/
theorem mod_of_convert? {a b : Value} {n m : Int}
    (ha : a.convert? .integer = .ok (some (.integer n)))
    (hb : b.convert? .integer = .ok (some (.integer m))) (hm : m ≠ 0) :
    ∃ r, Operator.modulo.apply a b = .ok (.integer r) ∧ Remainder n m r := by
  refine ⟨n.tmod m, ?_, remainder_tmod n hm⟩
  rw [Operator.apply, mod, integers, toInt?_of_convert? ha, toInt?_of_convert? hb]
  exact if_neg hm

/-- Sums fit if their operands do, as arrays hand on their items. -/
theorem fits_add {a b v : Value} (ha : a.fits = true) (hb : b.fits = true)
    (h : add a b = .ok v) : v.fits = true := by
  unfold add at h
  split at h
  · cases h
    rw [fits_array] at ha hb ⊢
    exact fun v hv => (List.mem_append.mp hv).elim (ha v) (hb v)
  · cases h
    rw [fits_array] at ha ⊢
    intro v hv
    rcases List.mem_append.mp hv with hv | hv
    · exact ha v hv
    · rw [List.mem_singleton.mp hv]
      exact hb
  · exact fits_of_exact h
  · split at h
    · split at h
      · cases h
      · cases h; simp
    · obtain ⟨xy, -, h⟩ := exists_of_bind_ok h
      cases h; simp

theorem fits_repeated {text : String} {count v : Value} (h : repeated text count = .ok v) :
    v.fits = true := by
  unfold repeated at h
  split at h
  · cases h
  · obtain ⟨n, -, h⟩ := exists_of_bind_ok h
    repeat' split at h
    all_goals cases h
    all_goals simp

/-- Products fit whatever their operands are. -/
theorem fits_mul {a b v : Value} (h : mul a b = .ok v) : v.fits = true := by
  unfold mul at h
  split at h
  · cases h
  split at h
  · exact fits_repeated h
  · exact fits_repeated h
  · split at h
    · obtain ⟨xy, -, h⟩ := exists_of_bind_ok h
      cases h; simp
    · obtain ⟨nm, -, h⟩ := exists_of_bind_ok h
      exact fits_of_exact h

theorem fits_sub {a b v : Value} (h : sub a b = .ok v) : v.fits = true := by
  obtain ⟨xy, -, h⟩ := exists_of_bind_ok h
  cases h; simp

theorem fits_div {a b v : Value} (h : div a b = .ok v) : v.fits = true := by
  obtain ⟨⟨x, y⟩, -, h⟩ := exists_of_bind_ok h
  dsimp only at h
  split at h
  · cases h
  · cases h; simp

/-- Remainders fit if the dividend does. -/
theorem fits_mod {a b v : Value} (ha : a.fits = true) (h : mod a b = .ok v) : v.fits = true := by
  obtain ⟨⟨n, m⟩, hnm, h⟩ := exists_of_bind_ok h
  have hn := inRange_of_toInt? ha (integers_ok hnm).1
  dsimp only at h
  split at h
  · cases h
  · cases h
    exact inRange_tmod m hn

theorem fits_ordered {holds : Ordering → Bool} {a b v : Value} (h : ordered holds a b = .ok v) :
    v.fits = true := by
  obtain ⟨o, -, h⟩ := exists_of_bind_ok h
  cases h
  simp

end Value

/-- **What an operator makes of values that fit fits**, where it does not apply a filter. -/
theorem Operator.fits_apply {op : Operator} {a b v : Value} (hop : op ≠ .pipe)
    (ha : a.fits = true) (hb : b.fits = true) (h : op.apply a b = .ok v) : v.fits = true := by
  cases op with
  | pipe => exact absurd rfl hop
  | plus => exact Value.fits_add ha hb h
  | minus => exact Value.fits_sub h
  | times => exact Value.fits_mul h
  | divide => exact Value.fits_div h
  | modulo => exact Value.fits_mod ha h
  | both | either => cases h; simp
  | equal | notEqual | less | lessEqual | greater | greaterEqual => exact Value.fits_ordered h

/-! ### Filters -/

/-- The operator `|` gives a value only where it applies a filter. -/
theorem Operator.exists_filter_of_pipe {a b v : Value} (h : Operator.pipe.apply a b = .ok v) :
    ∃ f, b = .filter f ∧ f.apply a = .ok v := by
  cases b with
  | filter f => exact ⟨f, rfl, h⟩
  | integer | float | string | array => cases h

/-- Of the stock filters only the length makes integers, and it does not exceed the number of items
or characters. -/
theorem StockFilter.fits_apply {f : StockFilter} {a v : Value}
    (hitems : ∀ items, a = .array items → items.length < 2 ^ 63)
    (htext : a.kind ≠ .array → a.text.length < 2 ^ 63) (h : f.apply a = .ok v) : v.fits = true := by
  cases f with
  | length =>
      cases h
      rw [Value.fits_integer, inRange_iff]
      cases a with
      | array items =>
          have := hitems items rfl
          dsimp only
          omega
      | integer | float | string | filter =>
          have := htext nofun
          rw [← String.length_toList] at this
          dsimp only
          omega
  | base64decode =>
      rw [StockFilter.apply, decodeBase64] at h
      repeat' split at h
      all_goals cases h
      all_goals simp
  | xmlentities | urlencode | base64encode | upper | lower => cases h; simp

end Stencil
