import Mathlib.Data.Fintype.EquivFin
import Stencil.Proofs.Environment.Merging
import Stencil.Proofs.Template.Lockstep

/-!
# Environment — Failed pushes

What a push leaves of which the object has no value.  The stack is made before the object is looked
at, so if the symbol had none, an empty one stays behind.  No value is seen of it, but it keeps a
place: the next value of the symbol comes there, and not behind all others.

So a failed push leaves no trace just where the symbol had a stack.  Otherwise the environment
differs in the place of that one symbol (`Displaced`).  Whatever is asked of the environments from
then on, in any number of calls, no answer differs in more than that (`Call.sameBut`); but the order
of the names does differ in some (`failed_push`).
-/

namespace Stencil

/-- The lists are the same up to the place of the elements that are marked. -/
structure SameBut {α : Type} (mark : α → Bool) (l l' : List α) : Prop where
  marked : l.filter mark = l'.filter mark
  others : (l.filter fun a => !mark a) = l'.filter fun a => !mark a

namespace SameBut

variable {α β : Type} {mark : α → Bool} {l l' : List α}

theorem filter (h : SameBut mark l l') (wanted : α → Bool) :
    SameBut mark (l.filter wanted) (l'.filter wanted) where
  marked := by rw [List.filter_comm, h.marked, List.filter_comm]
  others := by rw [List.filter_comm, h.others, List.filter_comm]

theorem map {f : α → β} {mark : β → Bool} (h : SameBut (fun a => mark (f a)) l l') :
    SameBut mark (l.map f) (l'.map f) where
  marked := by
    rw [List.filter_map, List.filter_map]
    exact congrArg (List.map f) h.marked
  others := by
    rw [List.filter_map, List.filter_map]
    exact congrArg (List.map f) h.others

theorem length_eq (h : SameBut mark l l') : l.length = l'.length := by
  rw [List.length_eq_length_filter_add mark, h.marked, h.others,
    ← List.length_eq_length_filter_add mark]

end SameBut

namespace Entry

variable {name n : String} {values : List Value} {entries : List Entry}

/-- The entries of all symbols but one. -/
def others (name : String) (entries : List Entry) : List Entry :=
  entries.filter fun e => !(e.1 == name)

theorem others_cons (e : Entry) (rest : List Entry) :
    others name (e :: rest) = if e.1 = name then others name rest else e :: others name rest := by
  by_cases h : e.1 = name <;> simp [others, h]

theorem stack_others (h : n ≠ name) (entries : List Entry) :
    stack n (others name entries) = stack n entries := by
  induction entries with
  | nil => rfl
  | cons e rest ih =>
      rw [others_cons]
      by_cases he : e.1 = name
      · have hne : e.1 ≠ n := fun heq => h (heq.symm.trans he)
        rw [if_pos he, ih, stack, if_neg hne]
      · rw [if_neg he, stack, stack, ih]

theorem others_add (name n : String) (values : List Value) (entries : List Entry) :
    others name (add n values entries) =
      if n = name then others name entries else add n values (others name entries) := by
  induction entries with
  | nil => by_cases h : n = name <;> simp [others, add, h]
  | cons e rest ih =>
      obtain ⟨m, stack⟩ := e
      by_cases hm : m = n
      · subst hm
        by_cases h : m = name <;> simp [add, others_cons, h]
      · rw [add, if_neg hm, others_cons, others_cons, ih]
        by_cases h : m = name
        · simp only [if_pos h]
        · by_cases hn : n = name
          · simp only [if_neg h, if_pos hn]
          · simp only [if_neg h, if_neg hn, add, if_neg hm]

theorem others_remove (name n : String) (entries : List Entry) :
    others name (remove n entries) =
      if n = name then others name entries else remove n (others name entries) := by
  induction entries with
  | nil => simp [others, remove]
  | cons e rest ih =>
      obtain ⟨m, stack⟩ := e
      by_cases hm : m = n
      · subst hm
        rcases stack with _ | ⟨v, _ | ⟨w, ws⟩⟩ <;> by_cases h : m = name <;>
          simp [remove, others_cons, h]
      · have hpast : ∀ entries, remove n ((m, stack) :: entries) = (m, stack) :: remove n entries :=
          fun entries => by simp [remove, hm]
        rw [hpast, others_cons, others_cons, ih]
        by_cases h : m = name
        · simp only [if_pos h]
        · by_cases hn : n = name
          · simp only [if_neg h, if_pos hn]
          · simp only [if_neg h, if_neg hn, hpast]

theorem add_append (h : name ∉ symbols entries) (values : List Value) (rest : List Entry) :
    add name values (entries ++ rest) = entries ++ add name values rest := by
  induction entries with
  | nil => rfl
  | cons e entries ih =>
      obtain ⟨m, stack⟩ := e
      rw [symbols, List.map_cons, List.mem_cons, not_or] at h
      rw [List.cons_append, add, if_neg fun hm => h.1 hm.symm, ih h.2, List.cons_append]

theorem add_nil_of_mem (h : name ∈ symbols entries) : add name [] entries = entries := by
  induction entries with
  | nil => cases h
  | cons e entries ih =>
      obtain ⟨m, stack⟩ := e
      by_cases hm : m = name
      · simp [add, hm]
      · have hrest : name ∈ symbols entries := by simpa [symbols, Ne.symm hm] using h
        rw [add, if_neg hm, ih hrest]

end Entry

namespace Environment

/-- What is visible of all symbols but one is seen of their entries. -/
theorem others_visible (name : String) (env : Environment) :
    (env.visible.filter fun pair => !(pair.1 == name)) =
      (Entry.others name env.entries).filterMap fun (n, stack) =>
        stack.head?.map fun v => (n, v) := by
  unfold visible Entry.others
  induction env.entries with
  | nil => rfl
  | cons e rest ih =>
      rw [List.filterMap_cons]
      obtain ⟨m, _ | ⟨v, values⟩⟩ := e <;> by_cases hm : m = name <;>
        simp [List.filterMap_cons, hm, ih]

/-- The entries of all symbols but one after pushes are those after the pushes of these symbols. -/
theorem others_pushAll (name : String) (env : Environment) (pairs : List (String × Value)) :
    Entry.others name (env.pushAll pairs).entries =
      (pairs.filter fun pair => !(pair.1 == name)).foldl
        (fun entries pair => Entry.add pair.1 [pair.2] entries) (Entry.others name env.entries) := by
  induction pairs generalizing env with
  | nil => rfl
  | cons pair pairs ih =>
      have hpush : Entry.others name (env.push pair.1 pair.2).entries = _ :=
        Entry.others_add name pair.1 [pair.2] env.entries
      refine (ih (env.push pair.1 pair.2)).trans ?_
      rw [hpush]
      by_cases hp : pair.1 = name <;> simp [hp]

/-- The environments differ in the place of one symbol at most, and in whether an empty stack is
kept for it. -/
structure Displaced (name : String) (env env' : Environment) : Prop where
  stack : env.stack name = env'.stack name
  others : Entry.others name env.entries = Entry.others name env'.entries

variable {name : String} {env env' : Environment}

theorem displaced_reserve (env : Environment) (name : String) :
    Displaced name (env.reserve name) env where
  stack := by
    refine (Entry.stack_add name name [] env.entries).trans ?_
    rw [if_pos rfl]
    rfl
  others := by
    refine (Entry.others_add name name [] env.entries).trans ?_
    rw [if_pos rfl]

namespace Displaced

theorem refl (env : Environment) : Displaced name env env :=
  ⟨rfl, rfl⟩

theorem stack_eq (h : Displaced name env env') (n : String) : env.stack n = env'.stack n := by
  by_cases hn : n = name
  · rw [hn, h.stack]
  · unfold Environment.stack
    rw [← Entry.stack_others hn, h.others, Entry.stack_others hn]

theorem lookup_eq (h : Displaced name env env') : env.lookup = env'.lookup := by
  funext n
  rw [lookup, lookup, h.stack_eq]

theorem contains_eq (h : Displaced name env env') (n : String) :
    env.contains n = env'.contains n := by
  rw [contains, contains, h.lookup_eq]

theorem add (h : Displaced name env env') (n : String) (values : List Value) :
    Displaced name (env.add n values) (env'.add n values) where
  stack := by
    have hadd := fun entries => Entry.stack_add n name values entries
    refine (hadd env.entries).trans (Eq.trans ?_ (hadd env'.entries).symm)
    exact congrArg (fun s => if n = name then values ++ s else s) h.stack
  others := by
    refine (Entry.others_add name n values _).trans
      (Eq.trans ?_ (Entry.others_add name n values _).symm)
    rw [h.others]

theorem push (h : Displaced name env env') (n : String) (v : Value) :
    Displaced name (env.push n v) (env'.push n v) :=
  h.add n [v]

theorem pop (h : Displaced name env env') (n : String) :
    Displaced name (env.pop n) (env'.pop n) where
  stack := by rw [stack_pop, stack_pop, h.stack]
  others := by
    refine (Entry.others_remove name n _).trans (Eq.trans ?_ (Entry.others_remove name n _).symm)
    rw [h.others]

theorem visible (h : Displaced name env env') :
    SameBut (fun pair => pair.1 == name) env.visible env'.visible where
  marked := by rw [filter_visible, filter_visible, h.lookup_eq]
  others := by
    rw [others_visible, others_visible, h.others]

theorem names (h : Displaced name env env') : SameBut (· == name) env.names env'.names :=
  h.visible.map

theorem pushAll (h : Displaced name env env') {pairs pairs' : List (String × Value)}
    (hpairs : SameBut (fun pair => pair.1 == name) pairs pairs') :
    Displaced name (env.pushAll pairs) (env'.pushAll pairs') where
  stack := by
    rw [← List.reverse_inj, stack_pushAll, stack_pushAll, h.stack, valuesOf, hpairs.marked]
    rfl
  others := by
    rw [others_pushAll, others_pushAll, h.others, hpairs.others]

theorem merge (h : Displaced name env env') {source source' : Environment}
    (hsource : Displaced name source source') (all : Bool) :
    Displaced name (env.merge source all) (env'.merge source' all) := by
  rw [merge_eq_pushAll, merge_eq_pushAll]
  simp only [h.contains_eq]
  exact h.pushAll (hsource.visible.filter _)

theorem load (h : Displaced name env env') (s : Stream) :
    Displaced name (env.load s).1 (env'.load s).1 := by
  rw [load_eq_pushAll, load_eq_pushAll]
  exact h.pushAll ⟨rfl, rfl⟩

end Displaced

open Description Scanner

/-- How loading fails has nothing to do with the environment. -/
theorem load_failure_eq (env env' : Environment) (s : Stream) :
    (env.load s).2 = (env'.load s).2 := by
  fun_induction assigned s generalizing env env' with
  | case1 s f rest h => rw [load_error h, load_error h]
  | case2 s rest h => rw [load_none h, load_none h]
  | case3 s start text rest h f hf => rw [load_some h, load_some h, hf]
  | case4 s start text rest h pair hpair ih =>
    rw [load_some h, load_some h, hpair]
    exact ih _ _

end Environment

open Render

namespace Environment.Displaced

variable {name : String} (level : Nat)

/-- Nothing that rendering does sees the place of a symbol. -/
theorem lockstep : Lockstep (Canvas.Alike (Displaced name)) Never level level where
  note := inStep_note
  write := inStep_write
  evaluate e := inStep_evaluate fun h => congrArg (e.evaluate level) h.lookup_eq
  push n v _ _ h := ⟨h.output, h.trace, h.env.push n v⟩
  pop n _ _ h := ⟨h.output, h.trace, h.env.pop n⟩
  halted _ _ _ _ h := h

/-- Rendering over such environments writes the same, leaves the same trace, ends alike, and leaves
such environments. -/
theorem renderTo (t : Template) {env env' : Environment} (h : env.Displaced name env')
    (output : Output) :
    Canvas.Alike (Displaced name) (t.renderTo level env output).canvas
        (t.renderTo level env' output).canvas ∧
      (t.renderTo level env output).failure = (t.renderTo level env' output).failure :=
  Template.renderTo_alike (t.inStep_render (lockstep level)) h output

end Environment.Displaced

open Environment

namespace Environments

/-- What can be asked of environments, each by its number.  To go through the symbols answers what
is offered, in order; whoever stops has seen the beginning of it. -/
inductive Call where
  | push (k : Nat) (name : String) (object : Plain)
  | pop (k : Nat) (name : String)
  | lookup (k : Nat) (name : String)
  | contains (k : Nat) (name : String)
  | size (k : Nat)
  | names (k : Nat)
  | foreach (k : Nat)
  | merge (dest source : Nat) (all : Bool)
  | load (k : Nat) (s : Stream)
  | render (k : Nat) (t : Template) (level : Nat) (output : Output)

/-- What environments answer. -/
inductive Reply where
  | pushed (obstacle : Option Plain.Obstacle)
  | value (v : Option Value)
  | holds (b : Bool)
  | count (n : Nat)
  | names (ns : List String)
  | offered (pairs : List (String × Value))
  | merged
  | loaded (failure : Option Failure)
  | rendered (output : Output) (lines : List String) (failure : Option Failure)

namespace Call

/-- The environments after a call, and what is answered. -/
def run (envs : Environments) : Call → Environments × Reply
  | .push k name object =>
    let (env, obstacle) := (envs k).pushPlain name object
    (Function.update envs k env, .pushed obstacle)
  | .pop k name => (Function.update envs k ((envs k).pop name), .value ((envs k).lookup name))
  | .lookup k name => (envs, .value ((envs k).lookup name))
  | .contains k name => (envs, .holds ((envs k).contains name))
  | .size k => (envs, .count (envs k).size)
  | .names k => (envs, .names (envs k).names)
  | .foreach k => (envs, .offered (envs k).visible)
  | .merge dest source all => (envs.merge dest source all, .merged)
  | .load k s =>
    let (env, failure) := (envs k).load s
    (Function.update envs k env, .loaded failure)
  | .render k t level output =>
    let r := t.renderTo level (envs k) output
    (Function.update envs k r.env, .rendered r.canvas.output r.lines r.failure)

end Call

/-- What is answered to some calls, one after another. -/
def session (envs : Environments) : List Call → List Reply
  | [] => []
  | call :: calls =>
    let (envs, reply) := call.run envs
    reply :: session envs calls

/-- The answers are the same up to the place of a symbol. -/
inductive Reply.SameBut (name : String) : Reply → Reply → Prop where
  | same (r : Reply) : SameBut name r r
  | names {ns ns' : List String} (h : Stencil.SameBut (· == name) ns ns') :
      SameBut name (.names ns) (.names ns')
  | offered {pairs pairs' : List (String × Value)}
      (h : Stencil.SameBut (fun pair => pair.1 == name) pairs pairs') :
      SameBut name (.offered pairs) (.offered pairs')

/-- Each environment differs from its counterpart in the place of a symbol at most. -/
def Displaced (name : String) (envs envs' : Environments) : Prop :=
  ∀ k, (envs k).Displaced name (envs' k)

variable {name : String} {envs envs' : Environments}

theorem Displaced.update (h : Displaced name envs envs') (k : Nat) {env env' : Environment}
    (henv : env.Displaced name env') :
    Displaced name (Function.update envs k env) (Function.update envs' k env') := by
  intro j
  by_cases hj : j = k
  · subst hj
    rwa [Function.update_self, Function.update_self]
  · rw [Function.update_of_ne hj, Function.update_of_ne hj]
    exact h j

/-- A call keeps the environments as close as they are, and its answers differ in no more than the
place of the symbol. -/
theorem Call.sameBut (h : Displaced name envs envs') : ∀ call : Call,
    Displaced name (call.run envs).1 (call.run envs').1 ∧
      Reply.SameBut name (call.run envs).2 (call.run envs').2
  | .push k n object => by
      rw [run, run, pushPlain, pushPlain]
      cases object.toValue with
      | ok v => exact ⟨h.update k ((h k).push n v), .same _⟩
      | error obstacle => exact ⟨h.update k ((h k).add n []), .same _⟩
  | .pop k n => by
      rw [run, run]
      rw [(h k).lookup_eq]
      exact ⟨h.update k ((h k).pop n), .same _⟩
  | .lookup k n => by
      rw [run, run]
      rw [(h k).lookup_eq]
      exact ⟨h, .same _⟩
  | .contains k n => by
      rw [run, run]
      rw [(h k).contains_eq]
      exact ⟨h, .same _⟩
  | .size k => by
      rw [run, run, Environment.size, Environment.size, (h k).names.length_eq]
      exact ⟨h, .same _⟩
  | .names k => ⟨h, .names (h k).names⟩
  | .foreach k => ⟨h, .offered (h k).visible⟩
  | .merge dest source all => by
      rw [run, run]
      rw [merge_eq, merge_eq]
      exact ⟨h.update dest ((h dest).merge (h source) all), .same _⟩
  | .load k s => by
      rw [run, run]
      dsimp only
      rw [load_failure_eq (envs k) (envs' k)]
      exact ⟨h.update k ((h k).load s), .same _⟩
  | .render k t level output => by
      obtain ⟨hcanvas, hfailure⟩ := (h k).renderTo level t output
      rw [run, run, Rendering.lines, Rendering.lines]
      dsimp only
      rw [hcanvas.output, hcanvas.trace, hfailure]
      exact ⟨h.update k hcanvas.env, .same _⟩

/-- In a whole session, no answer differs in more than the place of the symbol. -/
theorem session_sameBut (calls : List Call) (h : Displaced name envs envs') :
    List.Forall₂ (Reply.SameBut name) (envs.session calls) (envs'.session calls) := by
  induction calls generalizing envs envs' with
  | nil => exact .nil
  | cons call calls ih =>
      obtain ⟨hrun, hreply⟩ := call.sameBut h
      exact .cons hreply (ih hrun)

/-- Some other symbol has no stack. -/
theorem exists_fresh (entries : List Entry) (name : String) :
    ∃ n, n ≠ name ∧ n ∉ Entry.symbols entries := by
  have : Infinite String := Infinite.of_injective String.ofList fun _ _ => String.ofList_injective
  obtain ⟨n, hn⟩ := Infinite.exists_notMem_finset (name :: Entry.symbols entries).toFinset
  rw [List.mem_toFinset, List.mem_cons, not_or] at hn
  exact ⟨n, hn⟩

/-- Pushes of another new symbol and of this one, and then all symbols. -/
def reveal (k : Nat) (other name : String) : List Call :=
  [.push k other (.value (.integer 1)), .push k name (.value (.integer 2)), .names k]

theorem session_reveal (envs : Environments) (k : Nat) (other name : String) :
    session envs (reveal k other name) = [.pushed none, .pushed none,
      .names (((envs k).push other (.integer 1)).push name (.integer 2)).names] := by
  simp only [session, reveal, Call.run, pushPlain, Plain.toValue, Function.update_self]

/-- The empty stack that a failed push leaves shows in the order of the symbols. -/
theorem session_reveal_ne {k : Nat} {other : String} (hother : other ≠ name)
    (hname : name ∉ Entry.symbols (envs k).entries)
    (hfresh : other ∉ Entry.symbols (envs k).entries) :
    session (Function.update envs k ((envs k).reserve name)) (reveal k other name) ≠
      session envs (reveal k other name) := by
  have hadd : ∀ {n : String}, n ∉ Entry.symbols (envs k).entries → ∀ values,
      Entry.add n values (envs k).entries = (envs k).entries ++ [(n, values)] := by
    intro n hn values
    have hlast := Entry.add_append hn values []
    rwa [List.append_nil] at hlast
  have hreserved : ((((envs k).reserve name).push other (.integer 1)).push name
      (.integer 2)).entries =
        (envs k).entries ++ [(name, [.integer 2]), (other, [.integer 1])] := by
    change Entry.add name _ (Entry.add other _ (Entry.add name [] _)) = _
    rw [hadd hname, Entry.add_append hfresh, Entry.add_append hname]
    simp [Entry.add, hother.symm]
  have hplain : (((envs k).push other (.integer 1)).push name (.integer 2)).entries =
      (envs k).entries ++ [(other, [.integer 1]), (name, [.integer 2])] := by
    change Entry.add name _ (Entry.add other _ _) = _
    rw [hadd hfresh, Entry.add_append hname]
    simp [Entry.add, hother]
  rw [session_reveal, session_reveal, Function.update_self, Environment.names, Environment.visible,
    hreserved, Environment.names, Environment.visible, hplain]
  simp [hother.symm]

/-- **A failed push leaves its trace in the order of the symbols, and nowhere else.**

A push fails where its object has no value, at any depth of lists, and says why.  It leaves the
environment as it was just where the symbol has a stack, with a value or left by another failed
push; and just there, every later session of calls has the same answers as if the push had not been
tried.  Elsewhere the symbol has got its place in the order.  Still all answers are the same up to
that place: all values, all that is rendered and how it ends, all failures, and how many symbols
there are. -/
theorem failed_push (envs : Environments) (k : Nat) (name : String) {object : Plain}
    {obstacle : Plain.Obstacle} (h : object.toValue = .error obstacle) :
    let outcome := (Call.push k name object).run envs
    let after := outcome.1
    let held := name ∈ Entry.symbols (envs k).entries
    outcome.2 = .pushed (some obstacle) ∧
      (after = envs ↔ held) ∧
      ((∀ calls, session after calls = session envs calls) ↔ held) ∧
      ∀ calls, List.Forall₂ (Reply.SameBut name) (session after calls) (session envs calls) := by
  rw [Call.run, pushPlain, h]
  dsimp only
  -- If the stack is new, a symbol that is bound later tells by its order that it is there.
  have hsession : (∀ calls, session (Function.update envs k ((envs k).reserve name)) calls =
      session envs calls) → name ∈ Entry.symbols (envs k).entries := by
    intro hsame
    by_contra hname
    obtain ⟨other, hother, hfresh⟩ := exists_fresh (envs k).entries name
    exact session_reveal_ne hother hname hfresh (hsame _)
  have hheld : name ∈ Entry.symbols (envs k).entries →
      Function.update envs k ((envs k).reserve name) = envs := by
    intro hname
    rw [show (envs k).reserve name = envs k from ext_entries (Entry.add_nil_of_mem hname),
      Function.update_eq_self]
  have hdisplaced : Displaced name (Function.update envs k ((envs k).reserve name)) envs := by
    intro j
    by_cases hj : j = k
    · rw [hj, Function.update_self]
      exact displaced_reserve (envs k) name
    · rw [Function.update_of_ne hj]
      exact .refl (envs j)
  refine ⟨rfl, ⟨fun hsame => hsession fun calls => by rw [hsame], hheld⟩,
    ⟨hsession, fun hname calls => by rw [hheld hname]⟩, fun calls => ?_⟩
  exact session_sameBut calls hdisplaced

/-- An object that fails inside a list, pushed for a symbol without a stack. -/
theorem failed_push_inside_list :
    let object : Plain := .list [.integer 1, .list [.unsupported "NoneType"]]
    let outcome := (Call.push 0 "a" object).run fun _ => empty
    object.toValue = .error (.unsupported "NoneType") ∧
      outcome.2 = .pushed (some (.unsupported "NoneType")) ∧
      ¬∀ calls, session outcome.1 calls = session (fun _ => empty) calls := by
  intro object outcome
  have hvalue : object.toValue = .error (.unsupported "NoneType") := rfl
  obtain ⟨hreply, -, hsession, -⟩ := failed_push (fun _ => empty) 0 "a" hvalue
  exact ⟨hvalue, hreply, fun hsame => absurd (hsession.mp hsame) (by decide)⟩

/-- After a push of `a` that fails, `b` and then `a` are pushed, and `a` comes first. -/
theorem failed_push_keeps_place :
    let envs : Environments := fun _ => empty
    let after := ((Call.push 0 "a" (.unsupported "NoneType")).run envs).1
    session envs (reveal 0 "b" "a") = [.pushed none, .pushed none, .names ["b", "a"]] ∧
      session after (reveal 0 "b" "a") = [.pushed none, .pushed none, .names ["a", "b"]] := by
  constructor
  · rw [session_reveal]
    rfl
  · rw [session_reveal]
    rfl

end Environments

end Stencil
