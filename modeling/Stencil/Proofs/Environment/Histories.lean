import Mathlib.Data.List.Induction
import Stencil.Proofs.Description.Statements
import Stencil.Proofs.Template.Restoration

/-!
# Environment — Histories

What becomes of an environment over any row of operations: pushes and pops, merges, and the loading
of descriptions and the rendering of templates, whether or not they fail.  Each operation is a row
of changes of single stacks (`apply_eq_changes`): a merge pushes the visible values that it takes
over, loading pushes what the statements before the first failure assign, and rendering changes
nothing, since loops take their variables back.

So the environment is a replay of its history of changes, and a replay is told symbol by symbol
(`stack_replay`): a stack is what the symbol's own changes make, whatever happens to the others in
between.  The symbols stand in the order in which their stacks were created (`names_replay`); a
symbol that was popped to nothing and is pushed again goes to the end.
-/

namespace Stencil

open Environment

namespace Entry

theorem ne_nil_of_mem_remove {name : String} {entries : List Entry}
    (h : ∀ e ∈ entries, e.2 ≠ []) : ∀ e ∈ remove name entries, e.2 ≠ [] := by
  induction entries with
  | nil => simp [remove]
  | cons e rest ih =>
      obtain ⟨n, values⟩ := e
      have hrest := fun e he => h e (List.mem_cons_of_mem _ he)
      by_cases hn : n = name
      · rcases values with _ | ⟨v, _ | ⟨w, ws⟩⟩
        · exact absurd rfl (h _ List.mem_cons_self)
        · simpa [remove, hn] using hrest
        · simpa [remove, hn] using hrest
      · simpa [remove, hn] using ⟨h (n, values) List.mem_cons_self, fun a b => ih hrest (a, b)⟩

theorem remove_of_stack_eq_nil {name : String} {entries : List Entry}
    (h : stack name entries = []) : remove name entries = entries := by
  induction entries with
  | nil => rfl
  | cons e rest ih =>
      obtain ⟨n, values⟩ := e
      by_cases hn : n = name
      · rw [stack, if_pos hn] at h
        simp [remove, hn, h]
      · rw [stack, if_neg hn] at h
        simp [remove, hn, ih h]

theorem stack_eq_nil_iff {name : String} {entries : List Entry} (h : ∀ e ∈ entries, e.2 ≠ []) :
    stack name entries = [] ↔ name ∉ symbols entries := by
  refine ⟨fun hnil hmem => ?_, stack_of_not_mem⟩
  induction entries with
  | nil => simp [symbols] at hmem
  | cons e rest ih =>
      obtain ⟨n, values⟩ := e
      by_cases hn : n = name
      · rw [stack, if_pos hn] at hnil
        exact h _ List.mem_cons_self hnil
      · rw [stack, if_neg hn] at hnil
        have hmem : name ∈ symbols rest := by simpa [symbols, Ne.symm hn] using hmem
        exact ih (fun e he => h e (List.mem_cons_of_mem _ he)) hnil hmem

end Entry

namespace Environment

variable {env : Environment} {name n : String}

theorem Occupied.pop (h : env.Occupied) (name : String) : (env.pop name).Occupied :=
  Entry.ne_nil_of_mem_remove h

/-- To pop a symbol that has no value changes nothing. -/
theorem pop_of_lookup_eq_none (h : env.lookup name = none) : env.pop name = env :=
  ext_entries (Entry.remove_of_stack_eq_nil (List.head?_eq_none_iff.mp h))

theorem names_sublist (env : Environment) : env.names.Sublist (Entry.symbols env.entries) := by
  unfold names visible
  induction env.entries with
  | nil => exact List.Sublist.refl _
  | cons e rest ih =>
      obtain ⟨n, _ | ⟨v, vs⟩⟩ := e
      · exact ih.cons n
      · exact ih.cons_cons n

theorem nodup_names (env : Environment) : env.names.Nodup :=
  env.names_sublist.nodup env.nodup

/-- Where every stack holds a value, every symbol is visible. -/
theorem Occupied.names_eq (h : env.Occupied) : env.names = Entry.symbols env.entries := by
  unfold names visible
  unfold Occupied at h
  revert h
  induction env.entries with
  | nil => exact fun _ => rfl
  | cons e rest ih =>
      intro h
      obtain ⟨n, _ | ⟨v, vs⟩⟩ := e
      · exact absurd rfl (h _ List.mem_cons_self)
      · exact congrArg (n :: ·) (ih fun e he => h e (List.mem_cons_of_mem _ he))

theorem Occupied.mem_names_iff (h : env.Occupied) : n ∈ env.names ↔ env.stack n ≠ [] := by
  rw [h.names_eq, Ne, stack, Entry.stack_eq_nil_iff h, not_not]

/-- The symbols after a push: a symbol that has no stack comes behind all others. -/
theorem Occupied.names_push (h : env.Occupied) (name : String) (v : Value) :
    (env.push name v).names = if env.stack name = [] then env.names ++ [name] else env.names := by
  rw [(h.push name v).names_eq, h.names_eq]
  refine (Entry.symbols_add name [v] env.entries).trans ?_
  have hnil : env.stack name = [] ↔ name ∉ Entry.symbols env.entries := Entry.stack_eq_nil_iff h
  simp only [hnil, ite_not]

/-- A pop moves no symbol. -/
theorem Occupied.names_pop (h : env.Occupied) (name : String) :
    (env.pop name).names.Sublist env.names := by
  rw [(h.pop name).names_eq, h.names_eq]
  exact Entry.symbols_remove name env.entries

/-- A change of one stack. -/
inductive Change where
  | push (name : String) (v : Value)
  | pop (name : String)

namespace Change

/-- The symbol whose stack changes. -/
def symbol : Change → String
  | .push name _ => name
  | .pop name => name

/-- An environment after a change. -/
def apply (env : Environment) : Change → Environment
  | .push name v => env.push name v
  | .pop name => env.pop name

/-- A stack, the latest value first, after a change of it. -/
def onStack (values : List Value) : Change → List Value
  | .push _ v => v :: values
  | .pop _ => values.tail

/-- The stack of a symbol after some changes of stacks, of which those of the symbol count. -/
def stackOf (n : String) (history : List Change) : List Value :=
  (history.filter fun c => c.symbol == n).foldl onStack []

theorem stackOf_snoc (n : String) (history : List Change) (c : Change) :
    stackOf n (history ++ [c]) =
      if c.symbol = n then c.onStack (stackOf n history) else stackOf n history := by
  by_cases h : c.symbol = n <;> simp [stackOf, List.filter_append, h]

/-- The current stack of a symbol was created by the change with number `i`, if this is a push of a
value when there was none, and there has been one ever since. -/
structure Created (history : List Change) (n : String) (i : Nat) : Prop where
  push : ∃ v, history[i]? = some (.push n v)
  before : stackOf n (history.take i) = []
  since : ∀ j, i < j → j ≤ history.length → stackOf n (history.take j) ≠ []

variable {history : List Change} {i j : Nat}

theorem Created.lt_length (h : Created history n i) : i < history.length := by
  obtain ⟨v, hv⟩ := h.push
  exact (List.getElem?_eq_some_iff.mp hv).1

/-- A symbol has but one current stack. -/
theorem Created.unique (hi : Created history n i) (hj : Created history n j) : i = j := by
  rcases Nat.lt_trichotomy i j with hlt | heq | hlt
  · exact absurd hj.before (hi.since j hlt hj.lt_length.le)
  · exact heq
  · exact absurd hi.before (hj.since i hlt hi.lt_length.le)

/-- A change does not create the stack anew that it leaves a value on. -/
theorem Created.snoc (h : Created history n i) {c : Change}
    (hne : stackOf n (history ++ [c]) ≠ []) : Created (history ++ [c]) n i where
  push := by
    rw [List.getElem?_append_left h.lt_length]
    exact h.push
  before := by
    rw [List.take_append_of_le_length h.lt_length.le]
    exact h.before
  since j hij hj := by
    rcases Nat.lt_or_ge history.length j with hlt | hge
    · rwa [List.take_of_length_le (by simpa using Nat.succ_le_of_lt hlt)]
    · rw [List.take_append_of_le_length hge]
      exact h.since j hij hge

theorem created_push (v : Value) (h : stackOf n history = []) :
    Created (history ++ [.push n v]) n history.length where
  push := ⟨v, List.getElem?_concat_length⟩
  before := by rwa [List.take_left]
  since j hlt hle := by
    rw [List.take_of_length_le (by simpa using Nat.succ_le_of_lt hlt), stackOf_snoc, symbol,
      if_pos rfl]
    exact List.cons_ne_nil _ _

/-- The environment after a history of changes of an empty one. -/
def replay (history : List Change) : Environment :=
  history.foldl apply empty

theorem replay_snoc (history : List Change) (c : Change) :
    replay (history ++ [c]) = c.apply (replay history) :=
  List.foldl_concat ..

theorem occupied_apply (h : env.Occupied) : ∀ c : Change, (c.apply env).Occupied
  | .push name v => h.push name v
  | .pop name => h.pop name

theorem stack_apply (env : Environment) (n : String) (c : Change) :
    (c.apply env).stack n = if c.symbol = n then c.onStack (env.stack n) else env.stack n := by
  cases c with
  | push name v => exact stack_push env name n v
  | pop name => exact stack_pop env name n

theorem occupied_foldl (h : env.Occupied) (history : List Change) :
    (history.foldl apply env).Occupied :=
  List.foldlRecOn history apply h fun _ henv c _ => occupied_apply henv c

theorem occupied_replay (history : List Change) : (replay history).Occupied :=
  occupied_foldl occupied_empty history

/-- A stack is what the changes of its symbol make. -/
theorem stack_replay (n : String) (history : List Change) :
    (replay history).stack n = stackOf n history := by
  induction history using List.reverseRecOn with
  | nil => rfl
  | append_singleton history c ih => rw [replay_snoc, stack_apply, ih, stackOf_snoc]

/-- A change moves no symbol that has a stack before and after it. -/
theorem names_apply (h : env.Occupied) (c : Change) :
    (c.apply env).names.Sublist env.names ∨
      ∃ name v, c = .push name v ∧ env.stack name = [] ∧
        (c.apply env).names = env.names ++ [name] := by
  cases c with
  | pop name => exact .inl (h.names_pop name)
  | push name v =>
      have hnames := h.names_push name v
      by_cases hnil : env.stack name = []
      · rw [if_pos hnil] at hnames
        exact .inr ⟨name, v, rfl, hnil, hnames⟩
      · rw [if_neg hnil] at hnames
        exact .inl (by rw [apply, hnames])

/-- The stack of the first symbol was created before that of the second. -/
def Earlier (history : List Change) (m n : String) : Prop :=
  ∃ i j, Created history m i ∧ Created history n j ∧ i < j

/-- The symbols stand in the order in which their current stacks were created. -/
theorem names_replay (history : List Change) :
    (∀ n ∈ (replay history).names, ∃ i, Created history n i) ∧
      (replay history).names.Pairwise (Earlier history) := by
  induction history using List.reverseRecOn with
  | nil => exact ⟨by simp [replay, names, visible, empty], List.Pairwise.nil⟩
  | append_singleton history c ih =>
      obtain ⟨hcreated, hearlier⟩ := ih
      have hocc := occupied_replay history
      have hkept : ∀ m ∈ (replay (history ++ [c])).names, ∀ i,
          Created history m i → Created (history ++ [c]) m i := by
        intro m hm i hi
        rw [(occupied_replay _).mem_names_iff, stack_replay] at hm
        exact hi.snoc hm
      -- What is known of the symbols that were there holds of those that are left.
      have hpairs : ∀ l : List String, l.Sublist (replay history).names →
          (∀ m ∈ l, m ∈ (replay (history ++ [c])).names) →
          (∀ m ∈ l, ∃ i, Created (history ++ [c]) m i) ∧
            l.Pairwise (Earlier (history ++ [c])) := by
        intro l hl hmem
        refine ⟨fun m hm => ?_, (hearlier.sublist hl).imp_of_mem ?_⟩
        · obtain ⟨i, hi⟩ := hcreated m (hl.subset hm)
          exact ⟨i, hkept m (hmem m hm) i hi⟩
        · rintro m n hm hn ⟨i, j, hi, hj, hij⟩
          exact ⟨i, j, hkept m (hmem m hm) i hi, hkept n (hmem n hn) j hj, hij⟩
      rcases names_apply hocc c with hsub | ⟨name, v, rfl, hnil, hnames⟩
      · rw [← replay_snoc] at hsub
        exact hpairs _ hsub fun _ => id
      · rw [← replay_snoc] at hnames
        rw [hnames] at hpairs ⊢
        obtain ⟨hold, hpairwise⟩ := hpairs _ (List.Sublist.refl _) fun m hm =>
          List.mem_append_left _ hm
        have hnew := created_push v ((stack_replay name history).symm.trans hnil)
        refine ⟨fun m hm => ?_, List.pairwise_append.mpr
          ⟨hpairwise, List.pairwise_singleton _ _, fun m hm n hn => ?_⟩⟩
        · rcases List.mem_append.mp hm with hm | hm
          · exact hold m hm
          · rw [List.mem_singleton.mp hm]
            exact ⟨_, hnew⟩
        · -- All other stacks are older than the one the last change has created.
          rw [List.mem_singleton.mp hn]
          obtain ⟨i, hi⟩ := hcreated m hm
          exact ⟨i, _, hkept m (by rw [hnames]; exact List.mem_append_left _ hm) i hi, hnew,
            hi.lt_length⟩

end Change

open Description Scanner

/-- What the statements of a stream assign, up to the first that fails. -/
def assigned (s : Stream) : List (String × Value) :=
  match _h : statement.run s with
  | .error _ _ => []
  | .ok none _ => []
  | .ok (some (start, text)) rest =>
    match assignment start text with
    | .error _ => []
    | .ok pair => pair :: assigned rest
termination_by s.size
decreasing_by exact consumes_statement ‹_›

/-- To load a description, whether or not it fails, is to push what it assigns. -/
theorem load_eq_pushAll (env : Environment) (s : Stream) :
    (env.load s).1 = env.pushAll (assigned s) := by
  fun_induction assigned s generalizing env with
  | case1 s f rest h => rw [load_error h]; rfl
  | case2 s rest h => rw [load_none h]; rfl
  | case3 s start text rest h f hf => rw [load_some h, hf]; rfl
  | case4 s start text rest h pair hpair ih =>
    rw [load_some h, hpair]
    exact ih (env.push pair.1 pair.2)

/-- An operation on an environment.  The object that is pushed has a value. -/
inductive Operation where
  | push (name : String) (object : Plain) (v : Value) (hasValue : object.toValue = .ok v)
  | pop (name : String)
  | merge (source : Environment) (all : Bool)
  | load (s : Stream)
  | render (t : Template) (level : Nat) (output : Output)

namespace Operation

/-- An environment after an operation. -/
def apply (env : Environment) : Operation → Environment
  | .push name object _ _ => (env.pushPlain name object).1
  | .pop name => env.pop name
  | .merge source all => env.merge source all
  | .load s => (env.load s).1
  | .render t level output => (t.renderTo level env output).env

/-- What an operation answers: a pop, the value it takes, if there is one. -/
def answer (env : Environment) : Operation → Option Value
  | .pop name => env.lookup name
  | .push .. | .merge .. | .load _ | .render .. => none

/-- The pushes and pops that an operation on an environment comes to. -/
def changes (env : Environment) : Operation → List Change
  | .push name _ v _ => [.push name v]
  | .pop name => [.pop name]
  | .merge source all =>
    (source.visible.filter fun pair => all || !env.contains pair.1).map fun pair =>
      .push pair.1 pair.2
  | .load s => (assigned s).map fun pair => .push pair.1 pair.2
  | .render .. => []

end Operation

/-- A merge takes over values of different symbols, so that none of them hides another one. -/
theorem merge_eq_pushAll (env source : Environment) (all : Bool) :
    env.merge source all =
      env.pushAll (source.visible.filter fun pair => all || !env.contains pair.1) := by
  have hnodup : (source.visible.map Prod.fst).Nodup := source.nodup_names
  unfold merge
  revert hnodup
  induction source.visible generalizing env with
  | nil => exact fun _ => rfl
  | cons pair pairs ih =>
      obtain ⟨name, v⟩ := pair
      intro hnodup
      obtain ⟨hfresh, hnodup⟩ := List.nodup_cons.mp hnodup
      by_cases htaken : (all || !env.contains name) = true
      · have hrest : (pairs.filter fun p => all || !(env.push name v).contains p.1) =
            pairs.filter fun p => all || !env.contains p.1 := by
          refine List.filter_congr fun p hp => ?_
          have hne : name ≠ p.1 := fun h => hfresh (List.mem_map.mpr ⟨p, hp, h.symm⟩)
          rw [contains, lookup_push, if_neg hne, contains]
        simp only [List.foldl_cons, List.filter_cons, if_pos htaken]
        rw [ih _ hnodup, hrest]
        rfl
      · simp only [List.foldl_cons, List.filter_cons, if_neg htaken]
        exact ih env hnodup

theorem pushAll_eq_changes (env : Environment) (pairs : List (String × Value)) :
    env.pushAll pairs =
      (pairs.map fun pair => Change.push pair.1 pair.2).foldl Change.apply env := by
  rw [List.foldl_map]
  rfl

namespace Operation

/-- An operation, whether or not it fails, comes to its changes. -/
theorem apply_eq_changes (h : env.Occupied) :
    ∀ op : Operation, op.apply env = (op.changes env).foldl Change.apply env
  | .push name object v hasValue => by
      rw [apply, pushPlain, hasValue]
      rfl
  | .pop name => rfl
  | .merge source all => (merge_eq_pushAll env source all).trans (pushAll_eq_changes env _)
  | .load s => (load_eq_pushAll env s).trans (pushAll_eq_changes env _)
  | .render t level output => by
      rw [apply, Rendering.env, Template.canvas_renderTo]
      exact (Render.leaves_contract Node.bracketed_occupied).render t ⟨env, output, []⟩ h

/-- An empty environment after some operations. -/
def run (ops : List Operation) : Environment :=
  ops.foldl apply empty

/-- The changes that some operations on an environment come to, one after another. -/
def history (env : Environment) : List Operation → List Change
  | [] => []
  | op :: ops => op.changes env ++ history (op.apply env) ops

/-- The environment after some operations is the replay of their history. -/
theorem run_eq_replay (ops : List Operation) : run ops = Change.replay (history empty ops) := by
  have hrun : ∀ env : Environment, env.Occupied →
      ops.foldl apply env = (history env ops).foldl Change.apply env := by
    induction ops with
    | nil => exact fun _ _ => rfl
    | cons op ops ih =>
        intro env h
        have hstep := apply_eq_changes h op
        have hocc : (op.apply env).Occupied := by
          rw [hstep]
          exact Change.occupied_foldl h _
        rw [List.foldl_cons, history, List.foldl_append, ← hstep, ih _ hocc]
  exact hrun empty occupied_empty

end Operation

/-- **An environment is a family of independent stacks**, over every row of pushes, pops, merges,
loads and renderings, failing ones included.

Every stack holds a value, and no symbol stands twice.  The stack of a symbol is what the pushes and
pops of that symbol make, and a pop answers the latest value of it; if there is none, it changes
nothing.  A symbol has a visible value if and only if it is contained, and if and only if it is
among the names, which are as many as the size tells; and the names stand in the order in which
their current stacks were created. -/
theorem stacks_of_operations (ops : List Operation) :
    let env := Operation.run ops
    let history := Operation.history empty ops
    (∀ e ∈ env.entries, e.2 ≠ []) ∧
      (Entry.symbols env.entries).Nodup ∧
      (∀ n, env.stack n = Change.stackOf n history) ∧
      (∀ n, (Operation.pop n).answer env = (Change.stackOf n history).head? ∧
        ((Operation.pop n).answer env = none → (Operation.pop n).apply env = env)) ∧
      (∀ n, ((env.lookup n).isSome ↔ env.contains n) ∧ (env.contains n ↔ n ∈ env.names)) ∧
      (env.size = env.names.length ∧ env.names.Nodup) ∧
      (∀ n ∈ env.names, ∃ i, Change.Created history n i) ∧
      env.names.Pairwise fun m n =>
        ∀ i j, Change.Created history m i → Change.Created history n j → i < j := by
  intro env history
  -- The environment is the replay of its history, so what is asked is known of replays.
  have henv : env = Change.replay history := Operation.run_eq_replay ops
  have hocc : env.Occupied := henv ▸ Change.occupied_replay history
  have hstack : ∀ n, env.stack n = Change.stackOf n history := by
    rw [henv]
    exact fun n => Change.stack_replay n history
  have hcontains : ∀ n, env.contains n ↔ n ∈ env.names := by
    intro n
    rw [hocc.mem_names_iff, contains, lookup, List.isSome_head?]
  obtain ⟨hcreated, hearlier⟩ := Change.names_replay history
  rw [← henv] at hcreated hearlier
  refine ⟨hocc, env.nodup, hstack, fun n => ⟨?_, pop_of_lookup_eq_none⟩,
    fun n => ⟨Iff.rfl, hcontains n⟩, ⟨rfl, env.nodup_names⟩, hcreated, hearlier.imp ?_⟩
  · rw [← hstack]
    rfl
  · rintro m n ⟨i, j, hi, hj, hij⟩ i' j' hi' hj'
    rwa [hi'.unique hi, hj'.unique hj]

end Environment

end Stencil
