import Stencil.Proofs.Value.Comparison

/-!
# Value — Lexicographic order

Values built of arrays over integers, or over strings, are ordered lexicographically
(`order_lexicographic`): equal ones are those that compare as equal, what lies at or below a value
that lies at or below a third can be compared with the third and lies at or below it, an array lies
above its proper prefixes, and of two other arrays the first items that differ decide.

An array cannot be compared with a leaf, and items behind the first ones that differ are never
looked at.  So the order is partial, and transitivity has to come with the fact that the outer two
values can be compared.  Both are shown from the same laws for the leaves (`Linear`), by induction
on the first of the values and on its items within an array.
-/

namespace Stencil.Value

variable {a b c v w : Value} {us vs ws : List Value} {p : Value → Prop}

/-- The first value can be compared with the second and is not greater: `o` is how it compares. -/
def Below (o : Ordering) (a b : Value) : Prop :=
  order a b = .ok o ∧ o ≠ .gt

/-- Leaves that satisfy `p` are ordered linearly: only a leaf itself compares as equal to it, and
what is not greater than a leaf is not greater than what that leaf is not greater than, and less if
one of the two is less. -/
structure Linear (p : Value → Prop) : Prop where
  eq_iff : ∀ {v w}, p v → p w → (order v w = .ok .eq ↔ v = w)
  trans : ∀ {u v w o₁ o₂}, p u → p v → p w → Below o₁ u v → Below o₂ v w →
    Below (o₁.then o₂) u w

/-! ### Equality -/

theorem orderAll_eq_iff
    (hitems : ∀ v ∈ vs, ∀ w, Over p w → (order v w = .ok .eq ↔ v = w)) (hws : ∀ w ∈ ws, Over p w) :
    order.orderAll vs ws = .ok .eq ↔ vs = ws := by
  induction vs generalizing ws with
  | nil =>
      cases ws with
      | nil => exact iff_of_true rfl rfl
      | cons w ws => exact iff_of_false (fun h => by cases h) (fun h => by cases h)
  | cons v vs ih =>
      cases ws with
      | nil => exact iff_of_false (fun h => by cases h) (fun h => by cases h)
      | cons w ws =>
          have hvw := hitems v (by simp) w (hws w (by simp))
          rw [List.cons.injEq, ← hvw]
          by_cases heq : order v w = .ok .eq
          · rw [orderAll_cons_of_eq heq, ih (fun v hv => hitems v (List.mem_cons_of_mem _ hv))
              fun w hw => hws w (List.mem_cons_of_mem _ hw)]
            exact (and_iff_right heq).symm
          · rw [orderAll_cons_of_ne heq]
            exact iff_of_false heq fun h => heq h.1

/-- **Values that compare as equal are equal**, if that holds of their leaves. -/
theorem order_eq_iff (hp : Linear p) (ha : Over p a) (hb : Over p b) :
    order a b = .ok .eq ↔ a = b := by
  induction ha generalizing b with
  | leaf hkind hpa =>
      cases hb with
      | leaf _ hpb => exact hp.eq_iff hpa hpb
      | array =>
          rw [order_leaf_array hkind]
          exact iff_of_false (fun h => by cases h) fun h => hkind (congrArg kind h)
  | array _ ih =>
      cases hb with
      | leaf hkind =>
          rw [order_array_leaf _ hkind]
          exact iff_of_false (fun h => by cases h) fun h => hkind (congrArg kind h.symm)
      | array hws =>
          rw [order_array_array, array.injEq]
          exact orderAll_eq_iff (fun v hv w hw => ih v hv hw) hws

/-! ### Transitivity -/

section

variable {o o₁ o₂ : Ordering}

theorem Below.eq_or_lt (h : Below o v w) : o = .eq ∨ o = .lt := by
  cases o with
  | lt => exact .inr rfl
  | eq => exact .inl rfl
  | gt => exact absurd rfl h.2

theorem below_nil_nil : Below o (.array []) (.array []) ↔ o = .eq := by
  refine ⟨fun h => (Except.ok.inj h.1).symm, ?_⟩
  rintro rfl
  exact ⟨rfl, by decide⟩

theorem below_nil_cons : Below o (.array []) (.array (w :: ws)) ↔ o = .lt := by
  refine ⟨fun h => (Except.ok.inj h.1).symm, ?_⟩
  rintro rfl
  exact ⟨rfl, by decide⟩

theorem not_below_cons_nil : ¬Below o (.array (v :: vs)) (.array []) := fun h =>
  h.2 (Except.ok.inj h.1).symm

/-- An array is not greater than another where its first item equals that of the other and the rest
is not greater, or where its first item is less. -/
theorem below_cons_cons : Below o (.array (v :: vs)) (.array (w :: ws)) ↔
    order v w = .ok .eq ∧ Below o (.array vs) (.array ws) ∨ o = .lt ∧ Below .lt v w := by
  rw [Below, order_array_array]
  by_cases heq : order v w = .ok .eq
  · rw [orderAll_cons_of_eq heq]
    refine ⟨fun h => .inl ⟨heq, h⟩, ?_⟩
    rintro (⟨-, h⟩ | ⟨-, h⟩)
    · exact h
    · rw [Below, heq] at h
      cases h.1
  · rw [orderAll_cons_of_ne heq]
    constructor
    · intro (h : Below o v w)
      rcases h.eq_or_lt with rfl | rfl
      · exact absurd h.1 heq
      · exact .inr ⟨rfl, h⟩
    · rintro (⟨h, -⟩ | ⟨rfl, h⟩)
      · exact absurd h heq
      · exact h

/-- Where items equal only themselves and two steps between items make one, two steps between arrays
of them make one. -/
theorem below_items
    (heq : ∀ u v, Over p u → Over p v → (order u v = .ok .eq ↔ u = v))
    (htrans : ∀ u ∈ us, ∀ v w, Over p v → Over p w → ∀ o₁ o₂, Below o₁ u v → Below o₂ v w →
      Below (o₁.then o₂) u w)
    (hus : ∀ u ∈ us, Over p u) (hvs : ∀ v ∈ vs, Over p v) (hws : ∀ w ∈ ws, Over p w)
    (h₁ : Below o₁ (.array us) (.array vs)) (h₂ : Below o₂ (.array vs) (.array ws)) :
    Below (o₁.then o₂) (.array us) (.array ws) := by
  induction us generalizing vs ws with
  | nil =>
      cases vs with
      | nil =>
          rw [below_nil_nil] at h₁
          rw [h₁]
          exact h₂
      | cons v vs =>
          rw [below_nil_cons] at h₁
          rw [h₁]
          cases ws with
          | nil => exact absurd h₂ not_below_cons_nil
          | cons w ws => exact below_nil_cons.mpr rfl
  | cons u us ih =>
      cases vs with
      | nil => exact absurd h₁ not_below_cons_nil
      | cons v vs =>
          cases ws with
          | nil => exact absurd h₂ not_below_cons_nil
          | cons w ws =>
              rw [List.forall_mem_cons] at hus hvs hws htrans
              rw [below_cons_cons] at h₁ h₂ ⊢
              -- The first difference of the outer two is at the earlier one of the two differences.
              rcases h₁ with ⟨huv, h₁⟩ | ⟨rfl, huv⟩
              · obtain rfl := (heq u v hus.1 hvs.1).mp huv
                rcases h₂ with ⟨hvw, h₂⟩ | ⟨rfl, hvw⟩
                · exact .inl ⟨hvw, ih htrans.2 hus.2 hvs.2 hws.2 h₁ h₂⟩
                · refine .inr ⟨?_, hvw⟩
                  rcases h₁.eq_or_lt with rfl | rfl <;> rfl
              · refine .inr ⟨rfl, ?_⟩
                rcases h₂ with ⟨hvw, -⟩ | ⟨-, hvw⟩
                · obtain rfl := (heq v w hvs.1 hws.1).mp hvw
                  exact huv
                · exact htrans.1 v w hvs.1 hws.1 .lt .lt huv hvw

/-- **What is not greater than a value is not greater than what that value is not greater than**,
and less if one of the two is less. -/
theorem Below.trans_over (hp : Linear p) (ha : Over p a) (hb : Over p b) (hc : Over p c)
    (h₁ : Below o₁ a b) (h₂ : Below o₂ b c) : Below (o₁.then o₂) a c := by
  -- Leaves and arrays do not compare, so that all three are leaves or all three are arrays.
  induction ha generalizing b c o₁ o₂ with
  | leaf hkind hpa =>
      cases hb with
      | leaf hkind' hpb =>
          cases hc with
          | leaf _ hpc => exact hp.trans hpa hpb hpc h₁ h₂
          | array =>
              rw [Below, order_leaf_array hkind'] at h₂
              cases h₂.1
      | array =>
          rw [Below, order_leaf_array hkind] at h₁
          cases h₁.1
  | array hvs ih =>
      cases hb with
      | leaf hkind =>
          rw [Below, order_array_leaf _ hkind] at h₁
          cases h₁.1
      | array hws =>
          cases hc with
          | leaf hkind =>
              rw [Below, order_array_leaf _ hkind] at h₂
              cases h₂.1
          | array hus =>
              exact below_items (fun u v hu hv => order_eq_iff hp hu hv)
                (fun u hu v w hv hw o₁ o₂ h₁ h₂ => ih u hu hv hw h₁ h₂) hvs hws hus h₁ h₂

end

/-! ### Prefixes and first differences -/

/-- Items in front that equal themselves do not matter. -/
theorem orderAll_append {ps : List Value} (hps : ∀ v ∈ ps, order v v = .ok .eq)
    (vs ws : List Value) : order.orderAll (ps ++ vs) (ps ++ ws) = order.orderAll vs ws := by
  induction ps with
  | nil => rfl
  | cons v ps ih =>
      rw [List.forall_mem_cons] at hps
      rw [List.cons_append, List.cons_append, orderAll_cons_of_eq hps.1, ih hps.2]

/-! ### Integers and strings -/

section

variable {α : Type} [LT α] [DecidableLT α] [DecidableEq α] {x y z : α}

theorem eq_of_not_lt (h : compareOfLessAndEq x y ≠ .gt) (hlt : ¬x < y) : x = y := by
  rw [compareOfLessAndEq, if_neg hlt] at h
  exact Classical.byContradiction fun hne => h (if_neg hne)

theorem compareOfLessAndEq_eq_iff (hirrefl : ∀ x : α, ¬x < x) :
    compareOfLessAndEq x y = .eq ↔ x = y := by
  by_cases hlt : x < y
  · rw [compareOfLessAndEq, if_pos hlt]
    exact iff_of_false (by decide) fun h => hirrefl y (h ▸ hlt)
  · refine ⟨fun h => eq_of_not_lt (by rw [h]; decide) hlt, fun h => ?_⟩
    rw [compareOfLessAndEq, if_neg hlt, if_pos h]

/-- Two comparisons of which neither goes down make one, if the relation is transitive. -/
theorem compareOfLessAndEq_then (htrans : ∀ {x y z : α}, x < y → y < z → x < z)
    (hirrefl : ∀ x : α, ¬x < x) (h₁ : compareOfLessAndEq x y ≠ .gt)
    (h₂ : compareOfLessAndEq y z ≠ .gt) :
    compareOfLessAndEq x z = (compareOfLessAndEq x y).then (compareOfLessAndEq y z) := by
  have hself : compareOfLessAndEq y y = .eq := (compareOfLessAndEq_eq_iff hirrefl).mpr rfl
  by_cases hxy : x < y
  · by_cases hyz : y < z
    · rw [compareOfLessAndEq, if_pos (htrans hxy hyz), compareOfLessAndEq, if_pos hxy]
      rfl
    · rw [← eq_of_not_lt h₂ hyz, hself, compareOfLessAndEq, if_pos hxy]
      rfl
  · rw [eq_of_not_lt h₁ hxy, hself]
    rfl

end

/-- Leaves of a form that are compared by a linear order of what they hold are ordered linearly. -/
theorem linear_of {α : Type} [LT α] [DecidableLT α] [DecidableEq α] {f : α → Value}
    (hinj : ∀ x y, f x = f y → x = y)
    (horder : ∀ x y, order (f x) (f y) = .ok (compareOfLessAndEq x y))
    (htrans : ∀ {x y z : α}, x < y → y < z → x < z) (hirrefl : ∀ x : α, ¬x < x) :
    Linear fun v => ∃ x, v = f x where
  eq_iff := by
    rintro _ _ ⟨x, rfl⟩ ⟨y, rfl⟩
    rw [horder, Except.ok.injEq, compareOfLessAndEq_eq_iff hirrefl]
    exact ⟨congrArg f, hinj x y⟩
  trans := by
    rintro _ _ _ o₁ o₂ ⟨x, rfl⟩ ⟨y, rfl⟩ ⟨z, rfl⟩ h₁ h₂
    rw [Below, horder, Except.ok.injEq] at h₁ h₂ ⊢
    obtain ⟨rfl, h₁⟩ := h₁
    obtain ⟨rfl, h₂⟩ := h₂
    have hthen := compareOfLessAndEq_then htrans hirrefl h₁ h₂
    refine ⟨hthen, ?_⟩
    cases hxy : compareOfLessAndEq x y with
    | lt => exact fun h => by cases h
    | eq => exact h₂
    | gt => exact absurd hxy h₁

theorem linear_integer : Linear fun v => ∃ n, v = .integer n :=
  linear_of (fun _ _ h => integer.inj h) (fun _ _ => rfl) Int.lt_trans Int.lt_irrefl

theorem linear_string : Linear fun v => ∃ s, v = .string s :=
  linear_of (fun _ _ h => string.inj h) (fun _ _ => rfl) String.lt_trans String.lt_irrefl

/-- Leaves of one kind, integers or strings, are ordered linearly. -/
theorem linear_kind {k : Kind} (hk : k = .integer ∨ k = .string) : Linear (·.kind = k) := by
  have hinteger : (fun v => v.kind = .integer) = fun v : Value => ∃ n, v = .integer n := by
    funext v
    cases v <;> simp [kind]
  have hstring : (fun v => v.kind = .string) = fun v : Value => ∃ s, v = .string s := by
    funext v
    cases v <;> simp [kind]
  rcases hk with rfl | rfl
  · rw [hinteger]
    exact linear_integer
  · rw [hstring]
    exact linear_string

/-- **Comparison is a lexicographic order** on values built of arrays over integers only, or over
strings only.  Only equal values compare as equal; if `a` can be compared with `b` and `b` with `c`
and neither is greater than the next, then `a` can be compared with `c` and is not greater, and it
is less if one of the two is less; a proper prefix of an array is less than it; and where two arrays
differ at some item, the first two items that differ decide. -/
theorem order_lexicographic {k : Kind} (hk : k = .integer ∨ k = .string) (ha : a.Over (·.kind = k))
    (hb : b.Over (·.kind = k)) (hc : c.Over (·.kind = k)) :
    (order a b = .ok .eq ↔ a = b) ∧
    (∀ o₁ o₂, order a b = .ok o₁ → order b c = .ok o₂ → o₁ ≠ .gt → o₂ ≠ .gt →
      ∃ o, order a c = .ok o ∧ o ≠ .gt ∧ (o₁ = .lt ∨ o₂ = .lt → o = .lt)) ∧
    (∀ ps w ws, a = .array ps → b = .array (ps ++ w :: ws) → order a b = .ok .lt) ∧
    ∀ ps v vs w ws, a = .array (ps ++ v :: vs) → b = .array (ps ++ w :: ws) → v ≠ w →
      order a b = order v w := by
  have hp := linear_kind hk
  have hself : ∀ {v : Value}, v.Over (·.kind = k) → order v v = .ok .eq := fun hv =>
    (order_eq_iff hp hv hv).mpr rfl
  refine ⟨order_eq_iff hp ha hb, fun o₁ o₂ h₁ h₂ hle₁ hle₂ => ?_, ?_, ?_⟩
  · obtain ⟨h, hle⟩ := Below.trans_over hp ha hb hc ⟨h₁, hle₁⟩ ⟨h₂, hle₂⟩
    refine ⟨_, h, hle, fun hlt => ?_⟩
    rcases hlt with rfl | rfl
    · rfl
    · cases o₁ with
      | lt | eq => rfl
      | gt => exact absurd rfl hle₁
  · rintro ps w ws rfl rfl
    have h := orderAll_append (fun v hv => hself (ha.of_mem hv)) [] (w :: ws)
    rw [List.append_nil] at h
    rw [order_array_array, h]
    rfl
  · rintro ps v vs w ws rfl rfl hne
    rw [order_array_array, orderAll_append fun v hv =>
      hself (ha.of_mem (List.mem_append_left _ hv))]
    refine orderAll_cons_of_ne fun heq => hne ?_
    exact (order_eq_iff hp (ha.of_mem (by simp)) (hb.of_mem (by simp))).mp heq

/-- Arrays of strings and of arrays of strings are ordered lexicographically: the first is a proper
prefix of the second, and the second lies below the third by its first item. -/
theorem order_lexicographic_of_nested :
    order (.array [.array [.string "b"]]) (.array [.array [.string "b"], .string "a"]) = .ok .lt ∧
    order (.array [.array [.string "b"], .string "a"]) (.array [.array [.string "c"], .array []]) =
      .ok .lt ∧
    ∃ o, order (.array [.array [.string "b"]]) (.array [.array [.string "c"], .array []]) = .ok o ∧
      o ≠ .gt ∧ (Ordering.lt = .lt ∨ Ordering.lt = .lt → o = .lt) := by
  have hab : order (.array [.array [.string "b"]]) (.array [.array [.string "b"], .string "a"]) =
      .ok .lt := by with_unfolding_all rfl
  have hbc : order (.array [.array [.string "b"], .string "a"])
      (.array [.array [.string "c"], .array []]) = .ok .lt := by with_unfolding_all rfl
  have hlaws := order_lexicographic (k := .string) (a := .array [.array [.string "b"]])
    (b := .array [.array [.string "b"], .string "a"]) (c := .array [.array [.string "c"], .array []])
    (.inr rfl) (by simp [kind]) (by simp [kind]) (by simp [kind])
  exact ⟨hab, hbc, hlaws.2.1 .lt .lt hab hbc (by decide) (by decide)⟩

end Stencil.Value
