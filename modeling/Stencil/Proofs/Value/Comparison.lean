import Mathlib.Algebra.Group.Int.Defs
import Stencil.Expr.Application
import Stencil.Proofs.Numeral.Comparison

/-!
# Value — Comparison

The comparison of two values the other way round gives the opposite order, or fails for the same
reason (`Mirrored`), and a value without filters is equal to itself.  The one exception is a pair of
the same infinity: where the comparison of two values comes to such a pair (`MeetsInfinity`), either
value counts as the greater one (`order_of_meetsInfinity`).  `comparison_mirrored` says both, for
values without not-a-number, of the comparison and of the operators that are made from it.

Comparison goes from the first items of two arrays on and ends where two items differ.  So what
holds of it is shown by induction on the first value, and on its items within an array.
-/

namespace Stencil

open Numeral

namespace Value

variable {a b v w : Value} {vs ws : List Value} {p : Value → Prop}

/-! ### Leaves -/

/-- Every leaf of a value, which is a value in it that is no array, satisfies `p`. -/
inductive Over (p : Value → Prop) : Value → Prop where
  | leaf {v : Value} (hkind : v.kind ≠ .array) (h : p v) : Over p v
  | array {items : List Value} (h : ∀ v ∈ items, Over p v) : Over p (.array items)

theorem over_leaf (hkind : v.kind ≠ .array) : Over p v ↔ p v := by
  refine ⟨fun h => ?_, .leaf hkind⟩
  cases h with
  | leaf _ h => exact h
  | array => exact absurd rfl hkind

@[simp] theorem over_integer (n : Int) : Over p (.integer n) ↔ p (.integer n) :=
  over_leaf (by simp [kind])

@[simp] theorem over_float (x : Binary64) : Over p (.float x) ↔ p (.float x) :=
  over_leaf (by simp [kind])

@[simp] theorem over_string (s : String) : Over p (.string s) ↔ p (.string s) :=
  over_leaf (by simp [kind])

@[simp] theorem over_array : Over p (.array vs) ↔ ∀ v ∈ vs, Over p v := by
  refine ⟨fun h => ?_, .array⟩
  cases h with
  | leaf hkind => exact absurd rfl hkind
  | array h => exact h

theorem Over.of_mem (h : Over p (.array vs)) (hv : v ∈ vs) : Over p v :=
  over_array.mp h v hv

/-- No number in a value is not-a-number. -/
def NaNFree (v : Value) : Prop :=
  v.Over (· ≠ .float .nan)

/-- There is no filter in a value. -/
def FilterFree (v : Value) : Prop :=
  v.Over (·.kind ≠ .filter)

/-- No number in a value is infinite. -/
def InfinityFree (v : Value) : Prop :=
  v.Over fun w => ∀ n, w ≠ .float (.infinite n)

/-! ### The cases of a comparison -/

theorem order_array_array (vs ws : List Value) :
    order (.array vs) (.array ws) = order.orderAll vs ws := rfl

theorem order_array_leaf (vs : List Value) (hb : b.kind ≠ .array) :
    order (.array vs) b = .error (.of (.incomparable (.array vs) b)) := by
  cases b with
  | array => exact absurd rfl hb
  | integer | float | string | filter => rfl

theorem order_leaf_array (ha : a.kind ≠ .array) (ws : List Value) :
    order a (.array ws) = .error (.of (.incomparable a (.array ws))) := by
  cases a with
  | array => exact absurd rfl ha
  | integer | float | string | filter => rfl

/-- Two values of which one is a string are compared by their texts. -/
theorem order_text (ha : a.kind ≠ .array) (hb : b.kind ≠ .array)
    (h : a.kind = .string ∨ b.kind = .string) :
    order a b = .ok (compareOfLessAndEq a.text b.text) := by
  cases a with
  | array => exact absurd rfl ha
  | string s =>
      cases b with
      | array => exact absurd rfl hb
      | integer | float | string | filter => rfl
  | integer | float | filter =>
      cases b with
      | string t => rfl
      | integer | float | array | filter => rcases h with h | h <;> cases h

/-- Two leaves that are no strings are compared as numbers. -/
theorem order_number (ha : a.kind ≠ .array ∧ a.kind ≠ .string)
    (hb : b.kind ≠ .array ∧ b.kind ≠ .string) (h : ¬(a.kind = .integer ∧ b.kind = .integer)) :
    order a b = floats "compare" a b >>= fun xy => .ok (orderNumbers xy.1 xy.2) := by
  cases a with
  | array => exact absurd rfl ha.1
  | string => exact absurd rfl ha.2
  | integer =>
      cases b with
      | array => exact absurd rfl hb.1
      | string => exact absurd rfl hb.2
      | integer => exact absurd ⟨rfl, rfl⟩ h
      | float | filter => rfl
  | float | filter =>
      cases b with
      | array => exact absurd rfl hb.1
      | string => exact absurd rfl hb.2
      | integer | float | filter => rfl

theorem orderAll_cons_of_eq (h : order v w = .ok .eq) :
    order.orderAll (v :: vs) (w :: ws) = order.orderAll vs ws := by
  rw [order.orderAll, h]

theorem orderAll_cons_of_ne (h : order v w ≠ .ok .eq) :
    order.orderAll (v :: vs) (w :: ws) = order v w := by
  rw [order.orderAll]
  split
  · next heq => exact absurd heq h
  · rfl

/-! ### Numbers -/

/-- Leaves that are no strings are read as floats without faults: a float as it is, and anything
else as a finite number, if at all. -/
theorem toBinary64?_leaf (ha : a.kind ≠ .string) : ∃ x?, a.toBinary64? = .ok x? ∧
    ∀ x, x? = some x → a = .float x ∨ x.isFinite = true := by
  cases a with
  | string => exact absurd rfl ha
  | integer n =>
      refine ⟨if (Binary64.ofInt n).isFinite then some (Binary64.ofInt n) else none, rfl,
        fun x hx => .inr ?_⟩
      split at hx
      · next hfinite => exact Option.some.inj hx ▸ hfinite
      · cases hx
  | float x => exact ⟨_, rfl, fun y hy => .inl (by cases hy; rfl)⟩
  | array | filter => exact ⟨_, rfl, fun x hx => by cases hx⟩

/-! ### The comparison the other way round -/

/-- The results of a comparison and of the one the other way round: opposite orders, or failures
that name the two values in opposite order. -/
inductive Mirrored : Except Failure Ordering → Except Failure Ordering → Prop where
  | decided (o : Ordering) : Mirrored (.ok o) (.ok o.swap)
  | incomparable (a b : Value) :
      Mirrored (.error (.of (.incomparable a b))) (.error (.of (.incomparable b a)))
  | invalid (operation : String) (a b : Value) :
      Mirrored (.error (.of (.invalidOperands operation a b)))
        (.error (.of (.invalidOperands operation b a)))

/-- The comparison of two values comes to a pair of the same infinity: the two are that infinity, or
they are arrays of which the first items that are not equal come to such a pair. -/
inductive MeetsInfinity : Value → Value → Prop where
  | leaf (n : Bool) : MeetsInfinity (.float (.infinite n)) (.float (.infinite n))
  | head {v w : Value} (vs ws : List Value) (h : MeetsInfinity v w) :
      MeetsInfinity (.array (v :: vs)) (.array (w :: ws))
  | tail {v w : Value} {vs ws : List Value} (heq : order v w = .ok .eq)
      (h : MeetsInfinity (.array vs) (.array ws)) :
      MeetsInfinity (.array (v :: vs)) (.array (w :: ws))

theorem mirrored_numbers (ha : a.kind ≠ .array ∧ a.kind ≠ .string)
    (hb : b.kind ≠ .array ∧ b.kind ≠ .string) (h : ¬(a.kind = .integer ∧ b.kind = .integer))
    (hna : a ≠ .float .nan) (hnb : b ≠ .float .nan) (hmeets : ¬MeetsInfinity a b) :
    Mirrored (order a b) (order b a) := by
  obtain ⟨x?, hx, hxa⟩ := toBinary64?_leaf ha.2
  obtain ⟨y?, hy, hyb⟩ := toBinary64?_leaf hb.2
  rw [order_number ha hb h, order_number hb ha (h ∘ And.symm), floats, floats, hx, hy]
  cases x? with
  | none => cases y? <;> exact .invalid "compare" a b
  | some x =>
      cases y? with
      | none => exact .invalid "compare" a b
      | some y =>
          have hnx : x ≠ .nan := by
            rintro rfl
            rcases hxa _ rfl with h | h
            · exact hna h
            · cases h
          have hny : y ≠ .nan := by
            rintro rfl
            rcases hyb _ rfl with h | h
            · exact hnb h
            · cases h
          -- Two numbers that are the same infinity come from values that meet one.
          have hxy : ∀ n, ¬(x = .infinite n ∧ y = .infinite n) := by
            rintro n ⟨rfl, rfl⟩
            rcases hxa _ rfl with rfl | h
            · rcases hyb _ rfl with rfl | h
              · exact hmeets (.leaf n)
              · cases h
            · cases h
          have hdecided := Mirrored.decided (orderNumbers x y)
          rwa [← orderNumbers_swap hnx hny hxy] at hdecided

theorem mirrored_leaves (ha : a.kind ≠ .array) (hb : b.kind ≠ .array) (hna : a ≠ .float .nan)
    (hnb : b ≠ .float .nan) (hmeets : ¬MeetsInfinity a b) : Mirrored (order a b) (order b a) := by
  by_cases hstring : a.kind = .string ∨ b.kind = .string
  · have hdecided := Mirrored.decided (compareOfLessAndEq a.text b.text)
    rw [order_text ha hb hstring, order_text hb ha hstring.symm]
    rwa [← compareOfLessAndEq_eq_swap String.le_antisymm String.le_total String.not_le]
      at hdecided
  by_cases hinteger : a.kind = .integer ∧ b.kind = .integer
  · obtain ⟨n, rfl⟩ : ∃ n, a = .integer n := by cases a <;> cases hinteger.1; exact ⟨_, rfl⟩
    obtain ⟨m, rfl⟩ : ∃ m, b = .integer m := by cases b <;> cases hinteger.2; exact ⟨_, rfl⟩
    have hdecided := Mirrored.decided (compareOfLessAndEq n m)
    rwa [← compareOfLessAndEq_eq_swap Int.le_antisymm Int.le_total Int.not_le] at hdecided
  · exact mirrored_numbers ⟨ha, hstring ∘ .inl⟩ ⟨hb, hstring ∘ .inr⟩ hinteger hna hnb hmeets

/-- Where each two items are mirrored, unless they come to the same infinity, so are two arrays. -/
theorem mirrored_items
    (hitems : ∀ v ∈ vs, ∀ w, w.NaNFree → ¬MeetsInfinity v w → Mirrored (order v w) (order w v))
    (hws : ∀ w ∈ ws, w.NaNFree) (hmeets : ¬MeetsInfinity (.array vs) (.array ws)) :
    Mirrored (order.orderAll vs ws) (order.orderAll ws vs) := by
  induction vs generalizing ws with
  | nil =>
      cases ws with
      | nil => exact .decided .eq
      | cons w ws => exact .decided .lt
  | cons v vs ih =>
      cases ws with
      | nil => exact .decided .gt
      | cons w ws =>
          have hvw : Mirrored (order v w) (order w v) :=
            hitems v (by simp) w (hws w (by simp)) fun h => hmeets (.head vs ws h)
          have hrest : order v w = .ok .eq →
              Mirrored (order.orderAll vs ws) (order.orderAll ws vs) := fun heq =>
            ih (fun v hv => hitems v (List.mem_cons_of_mem _ hv))
              (fun w hw => hws w (List.mem_cons_of_mem _ hw)) fun h => hmeets (.tail heq h)
          -- Items behind a pair are compared only if the pair is equal.
          rw [order.orderAll, order.orderAll]
          generalize order v w = x at hvw hrest
          generalize order w v = y at hvw
          cases hvw with
          | decided o =>
              cases o with
              | eq => exact hrest rfl
              | lt => exact .decided .lt
              | gt => exact .decided .gt
          | incomparable a b => exact .incomparable a b
          | invalid operation a b => exact .invalid operation a b

/-- **The comparison the other way round gives the opposite order**, or fails for the same reason,
unless it comes to a pair of the same infinity. -/
theorem order_mirrored (ha : a.NaNFree) (hb : b.NaNFree) (hmeets : ¬MeetsInfinity a b) :
    Mirrored (order a b) (order b a) := by
  induction ha generalizing b with
  | leaf hkind hna =>
      cases hb with
      | leaf hkind' hnb => exact mirrored_leaves hkind hkind' hna hnb hmeets
      | array =>
          rw [order_leaf_array hkind, order_array_leaf _ hkind]
          exact .incomparable _ _
  | array _ ih =>
      cases hb with
      | leaf hkind' =>
          rw [order_leaf_array hkind', order_array_leaf _ hkind']
          exact .incomparable _ _
      | array hws =>
          rw [order_array_array, order_array_array]
          exact mirrored_items (fun v hv w hw h => ih v hv hw h) hws hmeets

/-! ### Infinities -/

/-- Of two values whose comparison comes to the same infinity the first counts as greater. -/
theorem order_of_meetsInfinity (h : MeetsInfinity a b) : order a b = .ok .gt := by
  induction h with
  | leaf n => exact congrArg Except.ok (orderNumbers_infinite n)
  | head vs ws _ ih =>
      rw [order_array_array, orderAll_cons_of_ne (by rw [ih]; simp)]
      exact ih
  | tail heq _ ih =>
      rw [order_array_array, orderAll_cons_of_eq heq]
      exact ih

theorem order_eq_symm (ha : a.NaNFree) (hb : b.NaNFree) (h : order a b = .ok .eq) :
    order b a = .ok .eq := by
  have hmeets : ¬MeetsInfinity a b := fun hm => by
    rw [order_of_meetsInfinity hm] at h
    cases h
  have hmirrored := order_mirrored ha hb hmeets
  rw [h] at hmirrored
  generalize order b a = y at hmirrored
  cases hmirrored
  rfl

theorem MeetsInfinity.symm (h : MeetsInfinity a b) (ha : a.NaNFree) (hb : b.NaNFree) :
    MeetsInfinity b a := by
  induction h with
  | leaf n => exact .leaf n
  | head vs ws _ ih => exact .head ws vs (ih (ha.of_mem (by simp)) (hb.of_mem (by simp)))
  | tail heq _ ih =>
      refine .tail (order_eq_symm (ha.of_mem (by simp)) (hb.of_mem (by simp)) heq) (ih ?_ ?_)
      · exact .array fun v hv => ha.of_mem (List.mem_cons_of_mem _ hv)
      · exact .array fun w hw => hb.of_mem (List.mem_cons_of_mem _ hw)

/-- A value whose comparison with another comes to an infinity has an infinity in it. -/
theorem MeetsInfinity.not_infinityFree (h : MeetsInfinity a b) : ¬a.InfinityFree := by
  induction h with
  | leaf n => exact fun hfree => (over_float _).mp hfree n rfl
  | head vs ws _ ih => exact fun hfree => ih (hfree.of_mem (by simp))
  | tail _ _ ih =>
      exact fun hfree => ih (.array fun v hv => hfree.of_mem (List.mem_cons_of_mem _ hv))

/-! ### A value and itself -/

theorem Mirrored.eq_swap {o : Ordering} {y : Except Failure Ordering} (h : Mirrored (.ok o) y) :
    y = .ok o.swap := by
  cases h
  rfl

/-- A value without filters can be compared with itself. -/
theorem exists_order_self (h : a.FilterFree) : ∃ o, order a a = .ok o := by
  induction h with
  | @leaf v hkind hfilter =>
      cases v with
      | array => exact absurd rfl hkind
      | filter => exact absurd rfl hfilter
      | integer | float | string => exact ⟨_, rfl⟩
  | @array items hitems ih =>
      rw [order_array_array]
      induction items with
      | nil => exact ⟨.eq, rfl⟩
      | cons v vs hrest =>
          obtain ⟨o, ho⟩ := ih v (by simp)
          by_cases heq : o = .eq
          · rw [orderAll_cons_of_eq (heq ▸ ho)]
            exact hrest (fun v hv => hitems v (List.mem_cons_of_mem _ hv))
              fun v hv => ih v (List.mem_cons_of_mem _ hv)
          · rw [orderAll_cons_of_ne (by rw [ho]; exact fun h => heq (Except.ok.inj h))]
            exact ⟨o, ho⟩

theorem order_self (ha : a.NaNFree) (hf : a.FilterFree) (h : ¬MeetsInfinity a a) :
    order a a = .ok .eq := by
  obtain ⟨o, ho⟩ := exists_order_self hf
  have hmirrored := order_mirrored ha ha h
  rw [ho] at hmirrored
  have hswap : o = o.swap := Except.ok.inj hmirrored.eq_swap
  cases o with
  | eq => exact ho
  | lt | gt => cases hswap

/-- Where an array does not come to an infinity in comparison with itself, neither do its items. -/
theorem not_meetsInfinity_items (hself : ∀ v ∈ vs, ¬MeetsInfinity v v → order v v = .ok .eq)
    (h : ¬MeetsInfinity (.array vs) (.array vs)) : ∀ v ∈ vs, ¬MeetsInfinity v v := by
  induction vs with
  | nil => exact fun v hv => absurd hv List.not_mem_nil
  | cons v vs ih =>
      have hv : ¬MeetsInfinity v v := fun hm => h (.head vs vs hm)
      have hvs : ¬MeetsInfinity (.array vs) (.array vs) := fun hm =>
        h (.tail (hself v (by simp) hv) hm)
      intro w hw
      rcases List.mem_cons.mp hw with rfl | hw
      · exact hv
      · exact ih (fun v hv => hself v (List.mem_cons_of_mem _ hv)) hvs w hw

/-- The comparison of a value with itself comes to an infinity just when there is one in it. -/
theorem meetsInfinity_self_iff (ha : a.NaNFree) (hf : a.FilterFree) :
    MeetsInfinity a a ↔ ¬a.InfinityFree := by
  refine ⟨MeetsInfinity.not_infinityFree, fun hfree => Classical.byContradiction fun h => hfree ?_⟩
  clear hfree
  induction hf with
  | leaf hkind _ =>
      refine .leaf hkind fun n hn => h ?_
      rw [hn]
      exact .leaf n
  | array hf ih =>
      have hself := not_meetsInfinity_items
        (fun v hv hm => order_self (ha.of_mem hv) (hf v hv) hm) h
      exact .array fun v hv => ih v hv (ha.of_mem hv) (hself v hv)

/-! ### Operators -/

/-- The operator that holds of two values just when another one holds of them the other way round,
for the operators that compare. -/
def flipped? : Operator → Option Operator
  | .equal => some .equal
  | .notEqual => some .notEqual
  | .less => some .greater
  | .lessEqual => some .greaterEqual
  | .greater => some .less
  | .greaterEqual => some .lessEqual
  | _ => none

theorem ordered_of_mirrored {holds holds' : Ordering → Bool}
    (h : Mirrored (order a b) (order b a)) (hswap : ∀ o, holds o = holds' o.swap) (v : Value) :
    ordered holds a b = .ok v ↔ ordered holds' b a = .ok v := by
  rw [ordered, ordered]
  generalize order a b = x at h
  generalize order b a = y at h
  cases h with
  | decided o =>
      change Except.ok (truth (holds o)) = _ ↔ Except.ok (truth (holds' o.swap)) = _
      rw [hswap]
  | incomparable | invalid => exact iff_of_false (fun h => by cases h) (fun h => by cases h)

theorem apply_flipped (h : Mirrored (order a b) (order b a)) {op op' : Operator}
    (hop : flipped? op = some op') (v : Value) : op.apply a b = .ok v ↔ op'.apply b a = .ok v := by
  cases op with
  | equal | notEqual | less | lessEqual | greater | greaterEqual =>
      cases hop
      exact ordered_of_mirrored h (by decide) v
  | pipe | both | either | plus | minus | times | divide | modulo => cases hop

/-- **Comparison is antisymmetric and reflexive but for infinities.**  For values without
not-a-number, the comparison the other way round gives the opposite order, or fails for the same
reason, and each comparing operator gives what its counterpart gives the other way round, unless the
comparison comes to a pair of the same infinity: then each of the two values counts as greater than
the other.  A value without filters is equal to itself just when there is no infinity in it. -/
theorem comparison_mirrored (ha : a.NaNFree) (hb : b.NaNFree) :
    (¬MeetsInfinity a b → Mirrored (order a b) (order b a) ∧
      ∀ op op', flipped? op = some op' → ∀ v, op.apply a b = .ok v ↔ op'.apply b a = .ok v) ∧
    (MeetsInfinity a b → order a b = .ok .gt ∧ order b a = .ok .gt) ∧
    (a.FilterFree → a.InfinityFree →
      order a a = .ok .eq ∧ Operator.equal.apply a a = .ok (.integer 1)) ∧
    (a.FilterFree → ¬a.InfinityFree →
      order a a = .ok .gt ∧ Operator.equal.apply a a = .ok (.integer 0)) := by
  refine ⟨fun h => ?_, fun h => ?_, fun hf hfree => ?_, fun hf hfree => ?_⟩
  · have hmirrored := order_mirrored ha hb h
    exact ⟨hmirrored, fun op op' hop v => apply_flipped hmirrored hop v⟩
  · exact ⟨order_of_meetsInfinity h, order_of_meetsInfinity (h.symm ha hb)⟩
  · have hself := order_self ha hf fun h => (meetsInfinity_self_iff ha hf).mp h hfree
    refine ⟨hself, ?_⟩
    rw [Operator.apply, ordered, hself]
    rfl
  · have hself := order_of_meetsInfinity ((meetsInfinity_self_iff ha hf).mpr hfree)
    refine ⟨hself, ?_⟩
    rw [Operator.apply, ordered, hself]
    rfl

/-- The comparison of arrays that end with opposite infinities is mirrored; that of one of them with
itself is not. -/
theorem comparison_mirrored_of_infinities :
    Mirrored (order (.array [.integer 1, .float (.infinite false)])
        (.array [.integer 1, .float (.infinite true)]))
      (order (.array [.integer 1, .float (.infinite true)])
        (.array [.integer 1, .float (.infinite false)])) ∧
    order (.array [.integer 1, .float (.infinite false)])
      (.array [.integer 1, .float (.infinite false)]) = .ok .gt := by
  have hfree : ∀ n, NaNFree (.array [.integer 1, .float (.infinite n)]) := fun n => by
    simp [NaNFree]
  have hapart : ¬MeetsInfinity (.array [.integer 1, .float (.infinite false)])
      (.array [.integer 1, .float (.infinite true)]) := fun h => by
    cases h with
    | head _ _ h => cases h
    | tail _ h =>
        cases h with
        | head _ _ h => cases h
        | tail _ h => cases h
  have hsame : MeetsInfinity (.array [.integer 1, .float (.infinite false)])
      (.array [.integer 1, .float (.infinite false)]) :=
    .tail rfl (.head [] [] (.leaf false))
  exact ⟨((comparison_mirrored (hfree false) (hfree true)).1 hapart).1,
    ((comparison_mirrored (hfree false) (hfree false)).2.1 hsame).1⟩

/-- The product of a float and an integer that converts to one is that of the floats. -/
theorem times_float_integer (x : Binary64) {n : Int} (hn : (Binary64.ofInt n).isFinite = true) :
    Operator.times.apply (.float x) (.integer n) = .ok (.float (x.mul (.ofInt n))) := by
  have hy : (Value.integer n).toBinary64? = .ok (some (.ofInt n)) := by
    rw [toBinary64?]
    simp only [hn, if_true]
  have hmul : Operator.times.apply (.float x) (.integer n) =
      floats "*" (.float x) (.integer n) >>= fun xy => .ok (.float (xy.1.mul xy.2)) := rfl
  rw [hmul, floats, hy]
  generalize Binary64.ofInt n = y
  rfl

/-- Ten times the number `1e308` is a value that does not equal itself: it counts as greater than
itself. -/
theorem product_exceeds_itself :
    Operator.times.apply (.float (.ofInt (10 ^ 308))) (.integer 10) =
        .ok (.float (.infinite false)) ∧
      NaNFree (.float (.infinite false)) ∧ FilterFree (.float (.infinite false)) ∧
      order (.float (.infinite false)) (.float (.infinite false)) = .ok .gt ∧
      Operator.equal.apply (.float (.infinite false)) (.float (.infinite false)) =
        .ok (.integer 0) := by
  have hten : (Binary64.ofInt 10).isFinite = true := by decide +kernel
  have hproduct : (Binary64.ofInt (10 ^ 308)).mul (.ofInt 10) = .infinite false := by
    decide +kernel
  rw [times_float_integer _ hten, hproduct]
  exact ⟨rfl, by simp [NaNFree], by simp [FilterFree, kind], rfl, rfl⟩

end Value

end Stencil
