import Stencil.Environment.Basic

/-!
# Environment — Stacks

What pushing and popping do to the stacks of an environment (`stack_push`, `stack_pop`): both change
the stack of one symbol and no other.  To pop a value that was just pushed leaves every stack as it
was.  It also leaves the symbols as they were, in their order, unless a stack was reserved and never
filled: such a stack goes with the value that was put on it.  In an environment of which every stack
holds a value (`Occupied`), popping undoes pushing (`pop_push`).
-/

namespace Stencil

namespace Entry

/-- A symbol that is not in the map has no values. -/
theorem stack_of_not_mem {name : String} {entries : List Entry} (h : name ∉ symbols entries) :
    stack name entries = [] := by
  induction entries with
  | nil => rfl
  | cons e rest ih =>
      obtain ⟨n, values⟩ := e
      simp only [symbols, List.map_cons, List.mem_cons, not_or] at h
      rw [stack, if_neg (fun hn => h.1 hn.symm), ih h.2]

/-- Values are added on top of those of their symbol. -/
theorem stack_add (name n : String) (values : List Value) (entries : List Entry) :
    stack n (add name values entries) =
      if name = n then values ++ stack n entries else stack n entries := by
  induction entries with
  | nil => simp [add, stack]
  | cons e rest ih =>
      obtain ⟨m, values'⟩ := e
      by_cases hm : m = name
      · subst hm
        by_cases hn : m = n <;> simp [add, stack, hn]
      · by_cases hn : m = n
        · subst hn
          have hm' : name ≠ m := fun h => hm h.symm
          simp [add, stack, hm, hm']
        · simp [add, stack, hm, hn, ih]

/-- The top value is removed, and with the last value its symbol. -/
theorem stack_remove (name n : String) {entries : List Entry} (h : (symbols entries).Nodup) :
    stack n (remove name entries) =
      if name = n then (stack n entries).tail else stack n entries := by
  induction entries with
  | nil => simp [remove, stack]
  | cons e rest ih =>
      obtain ⟨m, values⟩ := e
      simp only [symbols, List.map_cons, List.nodup_cons] at h
      by_cases hm : m = name
      · subst hm
        cases values with
        | nil => by_cases hn : m = n <;> simp [remove, stack, hn]
        | cons v values =>
            cases values with
            | cons => by_cases hn : m = n <;> simp [remove, stack, hn]
            | nil =>
                by_cases hn : m = n
                · -- The symbol goes with its last value, and it stands nowhere else.
                  subst hn
                  simp [remove, stack, stack_of_not_mem h.1]
                · simp [remove, stack, hn]
      · by_cases hn : m = n
        · subst hn
          have hm' : name ≠ m := fun h => hm h.symm
          simp [remove, stack, hm, hm']
        · simp [remove, stack, hm, hn, ih h.2]

/-- What has been added can be removed again, if no symbol is left without values. -/
theorem remove_add (name : String) (v : Value) {entries : List Entry}
    (h : ∀ e ∈ entries, e.2 ≠ []) : remove name (add name [v] entries) = entries := by
  induction entries with
  | nil => simp [add, remove]
  | cons e rest ih =>
      obtain ⟨n, values⟩ := e
      have hrest := ih fun e he => h e (List.mem_cons_of_mem _ he)
      by_cases hn : n = name
      · cases values with
        | nil => exact absurd rfl (h _ List.mem_cons_self)
        | cons w ws => simp [add, remove, hn]
      · simp [add, remove, hn, hrest]

theorem ne_nil_of_mem_add {name : String} {v : Value} {values : List Value} {entries : List Entry}
    (h : ∀ e ∈ entries, e.2 ≠ []) : ∀ e ∈ add name (v :: values) entries, e.2 ≠ [] := by
  induction entries with
  | nil => simp [add]
  | cons e rest ih =>
      obtain ⟨n, stack⟩ := e
      have hrest := ih fun e he => h e (List.mem_cons_of_mem _ he)
      by_cases hn : n = name
      · simpa [add, hn] using fun a b hab => h (a, b) (List.mem_cons_of_mem _ hab)
      · simpa [add, hn] using ⟨h (n, stack) List.mem_cons_self, fun a b => hrest (a, b)⟩

end Entry

namespace Environment

variable {env : Environment}

/-- To push changes the stack of one symbol. -/
theorem stack_push (env : Environment) (name n : String) (v : Value) :
    (env.push name v).stack n = if name = n then v :: env.stack n else env.stack n :=
  Entry.stack_add name n [v] env.entries

/-- So does to pop, which takes the top value back, if there is one. -/
theorem stack_pop (env : Environment) (name n : String) :
    (env.pop name).stack n = if name = n then (env.stack n).tail else env.stack n :=
  Entry.stack_remove name n env.nodup

/-- The visible value of a symbol is the one pushed last. -/
theorem lookup_push (env : Environment) (name n : String) (v : Value) :
    (env.push name v).lookup n = if name = n then some v else env.lookup n := by
  rw [lookup, stack_push]
  split
  · rfl
  · rfl

/-- Every stack holds a value. -/
def Occupied (env : Environment) : Prop :=
  ∀ e ∈ env.entries, e.2 ≠ []

theorem occupied_empty : Occupied empty := by
  simp [Occupied, empty]

theorem Occupied.push (h : env.Occupied) (name : String) (v : Value) : (env.push name v).Occupied :=
  Entry.ne_nil_of_mem_add h

/-- Where every stack holds a value, popping undoes pushing. -/
theorem pop_push (h : env.Occupied) (name : String) (v : Value) :
    (env.push name v).pop name = env :=
  ext_entries (Entry.remove_add name v h)

end Environment

end Stencil
