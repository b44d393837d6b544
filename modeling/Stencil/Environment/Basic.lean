import Stencil.Value.Plain

/-!
# Environment — Basic

An environment holds a stack of values for each of its symbols, in the order in which the stacks
were created.  A symbol's visible value is the one pushed last.  A stack goes when its last value
is popped; a stack that was reserved for a value but never got one stays where it is, holds its
place in the order, and shows nowhere else.
-/

namespace Stencil

/-- A symbol with its stack, the latest value first. -/
abbrev Entry := String × List Value

/-- The symbols of some entries, in order. -/
abbrev Entry.symbols (entries : List Entry) : List String :=
  entries.map Prod.fst

/-- Stacks of values, one for each symbol. -/
structure Environment where
  entries : List Entry
  nodup : (Entry.symbols entries).Nodup

namespace Entry

/-- The stack of a symbol; empty if it has none. -/
def stack (name : String) : List Entry → List Value
  | [] => []
  | (n, values) :: rest => if n = name then values else stack name rest

/-- The entries after these values, the latest first, are put on the stack of a symbol.  A symbol
without a stack gets one behind all others. -/
def add (name : String) (values : List Value) : List Entry → List Entry
  | [] => [(name, values)]
  | (n, stack) :: rest =>
    if n = name then (n, values ++ stack) :: rest else (n, stack) :: add name values rest

/-- The entries after the latest value of a symbol is taken off its stack, which goes with its last
value. -/
def remove (name : String) : List Entry → List Entry
  | [] => []
  | (n, stack) :: rest =>
    if n = name then
      match stack with
      | [] => (n, []) :: rest
      | [_] => rest
      | _ :: v :: vs => (n, v :: vs) :: rest
    else (n, stack) :: remove name rest

/-- The entries after the latest value of a symbol is replaced. -/
def replace (name : String) (v : Value) : List Entry → List Entry
  | [] => []
  | (n, stack) :: rest =>
    if n = name then
      match stack with
      | [] => (n, []) :: rest
      | _ :: vs => (n, v :: vs) :: rest
    else (n, stack) :: replace name v rest

theorem symbols_add (name : String) (values : List Value) (entries : List Entry) :
    symbols (add name values entries) =
      if name ∈ symbols entries then symbols entries else symbols entries ++ [name] := by
  induction entries with
  | nil => simp [add, symbols]
  | cons e rest ih =>
    obtain ⟨n, stack⟩ := e
    by_cases h : n = name
    · simp [add, symbols, h]
    · have h' : ¬ name = n := fun e => h e.symm
      simp only [symbols] at ih
      simp only [add, symbols, h, if_false, List.map_cons, List.mem_cons, h', false_or, ih]
      split <;> simp

theorem symbols_remove (name : String) (entries : List Entry) :
    (symbols (remove name entries)).Sublist (symbols entries) := by
  induction entries with
  | nil => exact List.Sublist.refl _
  | cons e rest ih =>
    obtain ⟨n, stack⟩ := e
    by_cases h : n = name
    · match stack with
      | [] => simp [remove, symbols, h]
      | [_] => simp [remove, symbols, h]
      | _ :: _ :: _ => simp [remove, symbols, h]
    · simp only [remove, symbols, h, if_false, List.map_cons]
      exact ih.cons_cons n

theorem symbols_replace (name : String) (v : Value) (entries : List Entry) :
    symbols (replace name v entries) = symbols entries := by
  induction entries with
  | nil => rfl
  | cons e rest ih =>
    obtain ⟨n, stack⟩ := e
    by_cases h : n = name
    · cases stack <;> simp [replace, symbols, h]
    · simp only [symbols] at ih
      simp [replace, symbols, h, ih]

end Entry

namespace Environment

/-- No symbols. -/
def empty : Environment := ⟨[], List.nodup_nil⟩

instance : Inhabited Environment := ⟨empty⟩

/-- The stack of a symbol, the latest value first; empty if it has none. -/
def stack (env : Environment) (name : String) : List Value :=
  Entry.stack name env.entries

/-- The visible value of a symbol. -/
def lookup (env : Environment) (name : String) : Option Value :=
  (env.stack name).head?

/-- The symbol has a visible value. -/
def contains (env : Environment) (name : String) : Bool :=
  (env.lookup name).isSome

/-- Puts values on the stack of a symbol, the latest first. -/
def add (env : Environment) (name : String) (values : List Value) : Environment where
  entries := Entry.add name values env.entries
  nodup := by
    rw [Entry.symbols_add]
    split
    · exact env.nodup
    · rename_i h
      rw [List.nodup_append]
      refine ⟨env.nodup, by simp, fun a ha b hb => ?_⟩
      rw [List.mem_singleton] at hb
      rintro rfl
      exact h (hb ▸ ha)

/-- Puts a value on the stack of a symbol. -/
def push (env : Environment) (name : String) (v : Value) : Environment :=
  env.add name [v]

/-- Makes a stack for a symbol that has none, and puts no value on it. -/
def reserve (env : Environment) (name : String) : Environment :=
  env.add name []

/-- Puts the value of a plain object on the stack of a symbol.  The stack is made first, and stays
if the object has no value. -/
def pushPlain (env : Environment) (name : String) (object : Plain) :
    Environment × Option Plain.Obstacle :=
  match object.toValue with
  | .ok v => (env.push name v, none)
  | .error obstacle => (env.reserve name, some obstacle)

/-- Takes the visible value of a symbol off its stack. -/
def pop (env : Environment) (name : String) : Environment where
  entries := Entry.remove name env.entries
  nodup := (Entry.symbols_remove name env.entries).nodup env.nodup

/-- Puts a value in place of the visible one of a symbol, if it has one. -/
def replaceTop (env : Environment) (name : String) (v : Value) : Environment where
  entries := Entry.replace name v env.entries
  nodup := by rw [Entry.symbols_replace]; exact env.nodup

/-- The symbols that have a visible value, each with that value. -/
def visible (env : Environment) : List (String × Value) :=
  env.entries.filterMap fun (name, stack) => stack.head?.map fun v => (name, v)

/-- The symbols that have a visible value. -/
def names (env : Environment) : List String :=
  env.visible.map Prod.fst

/-- How many symbols have a visible value. -/
def size (env : Environment) : Nat :=
  env.names.length

/-- Visits the symbols that have a visible value, each with that value, until a visit ends the
round. -/
def visit {σ : Type} (env : Environment) (step : σ → String → Value → σ × Bool) (start : σ) : σ :=
  round env.visible start
where
  /-- Visits the rest of the symbols. -/
  round : List (String × Value) → σ → σ
    | [], s => s
    | (name, v) :: rest, s =>
      match step s name v with
      | (s, true) => round rest s
      | (s, false) => s

/-- Puts the visible values of `source` on the stacks of their symbols: all of them, or only those
of symbols that have no visible value here. -/
def merge (env source : Environment) (all : Bool) : Environment :=
  source.visible.foldl (fun env (name, v) =>
    if all || !env.contains name then env.push name v else env) env

/-- The symbols that have a visible value, each with its whole stack, the oldest value first. -/
def snapshot (env : Environment) : List (String × List Value) :=
  (env.entries.filter fun e => !e.2.isEmpty).map fun (name, stack) => (name, stack.reverse)

/-- The environment after a program has put the values of plain objects on the stacks of symbols,
one after another, or the first obstacle to that. -/
def ofPlain (objects : List (String × Plain)) : Except Plain.Obstacle Environment :=
  objects.foldlM (fun env (name, object) => do return env.push name (← object.toValue)) empty

/-- Puts the stock filters on the stacks of their names. -/
def withFilters (env : Environment) : Environment :=
  StockFilter.all.foldl (fun env f => env.push f.name (.filter (.stock f))) env

theorem ext_entries {e f : Environment} (h : e.entries = f.entries) : e = f := by
  cases e; cases f
  simp only at h
  subst h
  rfl

end Environment

end Stencil
