import Mathlib.Logic.Function.Basic
import Stencil.Proofs.Description.Composition
import Stencil.Proofs.Environment.Histories

/-!
# Environment — Merging

What a merge takes over from another environment: one value for each symbol that is wanted, the
visible one, on top of whatever stack is there (`stack_merge`); and the symbols that are new, behind
the others and in the order of their own environment (`Occupied.names_merge`).  To merge once more,
without the symbols that are there, changes nothing (`merge_of_contains`).

A merge changes an environment while it goes through the symbols of one, which may be the same
environment.  `Environments.merge` takes this as it comes: each symbol is looked up, in both, when
its turn comes.  As no symbol comes twice, and no visit changes what another one looks up, the merge
is that of the environments as they were in the beginning (`Environments.merge_eq`).
-/

namespace Stencil

namespace Entry

theorem stack_of_mem {entries : List Entry} (h : (symbols entries).Nodup) {e : Entry}
    (he : e ∈ entries) : stack e.1 entries = e.2 := by
  induction entries with
  | nil => cases he
  | cons f rest ih =>
      obtain ⟨n, values⟩ := f
      rw [symbols, List.map_cons] at h
      obtain ⟨hfresh, hnodup⟩ := List.nodup_cons.mp h
      rcases List.mem_cons.mp he with rfl | he
      · rw [stack, if_pos rfl]
      · have hne : n ≠ e.1 := fun h => hfresh (List.mem_map.mpr ⟨e, he, h.symm⟩)
        rw [stack, if_neg hne]
        exact ih hnodup he

end Entry

namespace Environment

variable {env source : Environment}

/-- A symbol is visible once at most. -/
theorem filter_visible (env : Environment) (n : String) :
    (env.visible.filter fun pair => pair.1 == n) = (env.lookup n).toList.map fun v => (n, v) := by
  have hnodup := env.nodup
  unfold visible lookup stack
  revert hnodup
  induction env.entries with
  | nil => exact fun _ => rfl
  | cons e rest ih =>
      obtain ⟨m, values⟩ := e
      intro hnodup
      obtain ⟨hfresh, hnodup⟩ := List.nodup_cons.mp hnodup
      have ih := ih hnodup
      rw [List.filterMap_cons]
      by_cases hm : m = n
      · -- No entry but the first is one of this symbol.
        subst hm
        rw [Entry.stack_of_not_mem hfresh] at ih
        cases values <;> simpa [Entry.stack] using ih
      · cases values <;> simpa [Entry.stack, hm] using ih

theorem valuesOf_visible (env : Environment) (n : String) :
    valuesOf n env.visible = (env.lookup n).toList := by
  rw [valuesOf, filter_visible, List.map_map]
  exact List.map_id' _

theorem valuesOf_filter (wanted : String → Bool) (n : String) (pairs : List (String × Value)) :
    valuesOf n (pairs.filter fun pair => wanted pair.1) =
      if wanted n then valuesOf n pairs else [] := by
  unfold valuesOf
  rw [List.filter_filter]
  split
  · next h =>
    congr 1
    refine List.filter_congr fun pair _ => ?_
    by_cases hn : pair.1 = n <;> simp [hn, h]
  · next h =>
    rw [List.map_eq_nil_iff, List.filter_eq_nil_iff]
    intro pair _
    by_cases hn : pair.1 = n <;> simp [hn, h]

/-- A merge puts the visible value of a symbol that is wanted on the stack of the symbol, and
changes no other stack. -/
theorem stack_merge (env source : Environment) (all : Bool) (n : String) :
    (env.merge source all).stack n =
      (if all || !env.contains n then (source.lookup n).toList else []) ++ env.stack n := by
  have hstack := stack_pushAll env (source.visible.filter fun pair => all || !env.contains pair.1) n
  rw [← merge_eq_pushAll, valuesOf_filter (fun m => all || !env.contains m), valuesOf_visible,
    ← List.reverse_inj, List.reverse_reverse, List.reverse_append, List.reverse_reverse] at hstack
  rw [hstack]
  congr 1
  split
  · cases source.lookup n <;> rfl
  · rfl

theorem contains_iff (env : Environment) (n : String) : env.contains n ↔ env.stack n ≠ [] := by
  rw [contains, lookup, List.isSome_head?]

/-- A symbol is contained if and only if it is among the names. -/
theorem contains_iff_mem_names (env : Environment) (n : String) :
    env.contains n ↔ n ∈ env.names := by
  have hvalues := valuesOf_visible env n
  rw [contains, names]
  constructor
  · intro hsome
    obtain ⟨v, hv⟩ := Option.isSome_iff_exists.mp hsome
    have hmem : v ∈ valuesOf n env.visible := by rw [hvalues, hv]; exact List.mem_singleton_self v
    obtain ⟨pair, hpair, -⟩ := List.mem_map.mp hmem
    obtain ⟨hvisible, hname⟩ := List.mem_filter.mp hpair
    exact List.mem_map.mpr ⟨pair, hvisible, by simpa using hname⟩
  · intro hmem
    obtain ⟨pair, hvisible, hname⟩ := List.mem_map.mp hmem
    have hv : pair.2 ∈ valuesOf n env.visible :=
      List.mem_map_of_mem (List.mem_filter.mpr ⟨hvisible, by simpa using hname⟩)
    rw [hvalues] at hv
    exact Option.isSome_iff_exists.mpr ⟨pair.2, Option.mem_toList.mp hv⟩

/-- The symbols after pushes of different ones: those that are new come behind all others. -/
theorem Occupied.names_pushAll (h : env.Occupied) {pairs : List (String × Value)}
    (hnodup : (pairs.map Prod.fst).Nodup) :
    (env.pushAll pairs).names =
      env.names ++ (pairs.map Prod.fst).filter fun n => !env.contains n := by
  induction pairs generalizing env with
  | nil => simp [pushAll]
  | cons pair pairs ih =>
      obtain ⟨name, v⟩ := pair
      obtain ⟨hfresh, hnodup⟩ := List.nodup_cons.mp hnodup
      have hrest : ((pairs.map Prod.fst).filter fun n => !(env.push name v).contains n) =
          (pairs.map Prod.fst).filter fun n => !env.contains n := by
        refine List.filter_congr fun n hn => ?_
        have hne : name ≠ n := fun h => hfresh (h ▸ hn)
        rw [contains, lookup_push, if_neg hne, contains]
      have hpush : (env.pushAll ((name, v) :: pairs)).names =
          ((env.push name v).pushAll pairs).names := rfl
      rw [hpush, ih (h.push name v) hnodup, hrest, h.names_push, List.map_cons]
      have hcontains := env.contains_iff name
      by_cases hnil : env.stack name = []
      · have hnew : env.contains name = false := by simpa [hnil] using hcontains
        rw [if_pos hnil, List.filter_cons_of_pos (by simp [hnew]), List.append_assoc,
          List.singleton_append]
      · have hold : env.contains name = true := hcontains.mpr hnil
        rw [if_neg hnil, List.filter_cons_of_neg (by simp [hold])]

theorem Occupied.pushAll (h : env.Occupied) (pairs : List (String × Value)) :
    (env.pushAll pairs).Occupied := by
  rw [pushAll_eq_changes]
  exact Change.occupied_foldl h _

theorem Occupied.merge (h : env.Occupied) (source : Environment) (all : Bool) :
    (env.merge source all).Occupied := by
  rw [merge_eq_pushAll]
  exact h.pushAll _

/-- The symbols after a merge: those that are new come behind all others, in the order in which
they stand in their own environment. -/
theorem Occupied.names_merge (h : env.Occupied) (source : Environment) (all : Bool) :
    (env.merge source all).names =
      env.names ++ source.names.filter fun n => !env.contains n := by
  have hmap : ((source.visible.filter fun pair => all || !env.contains pair.1).map Prod.fst) =
      source.names.filter fun n => all || !env.contains n := by
    unfold names
    rw [List.filter_map]
    rfl
  rw [merge_eq_pushAll, h.names_pushAll (hmap ▸ source.nodup_names.filter _), hmap,
    List.filter_filter]
  congr 1
  refine List.filter_congr fun n _ => ?_
  cases env.contains n <;> simp

/-- Where all symbols are there, there is nothing to merge. -/
theorem merge_of_contains (h : ∀ n ∈ source.names, env.contains n) :
    env.merge source false = env := by
  have hnil : (source.visible.filter fun pair => false || !env.contains pair.1) = [] := by
    refine List.filter_eq_nil_iff.mpr fun pair hpair => ?_
    simp [h pair.1 (List.mem_map_of_mem hpair)]
  rw [merge_eq_pushAll, hnil]
  rfl

/-- After a merge, all symbols are there. -/
theorem contains_merge (env : Environment) {source : Environment} (all : Bool) {n : String}
    (h : n ∈ source.names) : (env.merge source all).contains n := by
  rw [← contains_iff_mem_names, contains, Option.isSome_iff_exists] at h
  obtain ⟨v, hv⟩ := h
  rw [contains_iff, stack_merge, hv]
  cases hc : env.contains n with
  | false => simp
  | true =>
      have hne := (contains_iff env n).mp hc
      simp [hne]

end Environment

/-- The environments of a program, by number. -/
abbrev Environments := Nat → Environment

namespace Environments

open Environment

/-- The turn of a symbol of the environment `source` in its merge into `dest`.  Both are seen as
they are when the turn comes. -/
def mergeSymbol (dest source : Nat) (all : Bool) (envs : Environments) (name : String) :
    Environments :=
  match (envs source).lookup name with
  | some v =>
    if all || !(envs dest).contains name then
      Function.update envs dest ((envs dest).push name v)
    else envs
  | none => envs

/-- The environments after one of them is merged into another, or into itself.  The merge goes
through the symbols that have a stack when it begins. -/
def merge (envs : Environments) (dest source : Nat) (all : Bool) : Environments :=
  (Entry.symbols (envs source).entries).foldl (mergeSymbol dest source all) envs

/-- What is pushed for one symbol is not seen by another one, in whichever environment. -/
theorem lookup_update_push (envs : Environments) (dest source : Nat) {name n : String}
    (hne : name ≠ n) (v : Value) :
    (Function.update envs dest ((envs dest).push name v) source).lookup n =
      (envs source).lookup n := by
  by_cases hsame : source = dest
  · subst hsame
    rw [Function.update_self, lookup_push, if_neg hne]
  · rw [Function.update_of_ne hsame]

/-- The rest of a merge, if each symbol that is left still has the stack that it began with. -/
theorem foldl_mergeSymbol (dest source : Nat) (all : Bool) {envs : Environments}
    {entries : List Entry} (hnodup : (Entry.symbols entries).Nodup)
    (hstack : ∀ e ∈ entries, (envs source).lookup e.1 = e.2.head?) :
    (Entry.symbols entries).foldl (mergeSymbol dest source all) envs =
      Function.update envs dest
        ((entries.filterMap fun e => e.2.head?.map fun v => (e.1, v)).foldl
          (fun env pair => if all || !env.contains pair.1 then env.push pair.1 pair.2 else env)
          (envs dest)) := by
  induction entries generalizing envs with
  | nil => exact (Function.update_eq_self dest envs).symm
  | cons e entries ih =>
      obtain ⟨name, values⟩ := e
      obtain ⟨hfresh, hdistinct⟩ := List.nodup_cons.mp hnodup
      have hhead : (envs source).lookup name = values.head? := hstack _ List.mem_cons_self
      have hrest := fun e he => hstack e (List.mem_cons_of_mem _ he)
      have hturn : (Entry.symbols ((name, values) :: entries)).foldl (mergeSymbol dest source all)
          envs = (Entry.symbols entries).foldl (mergeSymbol dest source all)
            (mergeSymbol dest source all envs name) := rfl
      rw [hturn, mergeSymbol, hhead]
      cases values with
      | nil => exact ih hdistinct hrest
      | cons v values =>
          dsimp only [List.head?_cons]
          have hcons : (((name, v :: values) :: entries).filterMap
              fun e => e.2.head?.map fun v => (e.1, v)) =
                (name, v) :: entries.filterMap fun e => e.2.head?.map fun v => (e.1, v) := rfl
          rw [hcons, List.foldl_cons]
          by_cases hwanted : (all || !(envs dest).contains name) = true
          · rw [if_pos hwanted, if_pos hwanted]
            -- An environment that is merged into itself changes, but for no symbol that is left.
            have hkept : ∀ e ∈ entries,
                (Function.update envs dest ((envs dest).push name v) source).lookup e.1 =
                  e.2.head? := by
              intro e he
              have hne : name ≠ e.1 := fun h => hfresh (List.mem_map.mpr ⟨e, he, h.symm⟩)
              rw [lookup_update_push envs dest source hne, hrest e he]
            rw [ih hdistinct hkept, Function.update_self, Function.update_idem]
          · rw [if_neg hwanted, if_neg hwanted]
            exact ih hdistinct hrest

/-- A merge is that of the environments as they were in the beginning. -/
theorem merge_eq (envs : Environments) (dest source : Nat) (all : Bool) :
    envs.merge dest source all =
      Function.update envs dest ((envs dest).merge (envs source) all) := by
  refine foldl_mergeSymbol dest source all (envs source).nodup fun e he => ?_
  exact congrArg List.head? (Entry.stack_of_mem (envs source).nodup he)

/-- **A merge copies the visible values that are wanted, and nothing else**, into an environment of
which every stack holds a value, from another one or from itself.

A symbol of the source is wanted if all are, or if the environment does not have it.  Its visible
value in the source, as it was in the beginning, comes on top of its stack.  All other stacks stay
as they were, and so does every other environment.  The symbols keep their order, and those that
are new follow in the order of the source.  To merge once more what is not there changes nothing. -/
theorem merge_visible (envs : Environments) (dest source : Nat) (all : Bool)
    (hdest : (envs dest).Occupied) :
    let merged := envs.merge dest source all
    let wanted := fun n => all = true ∨ n ∉ (envs dest).names
    merged dest = (envs dest).merge (envs source) all ∧
      (∀ n v, (envs source).lookup n = some v → wanted n →
        (merged dest).stack n = v :: (envs dest).stack n) ∧
      (∀ n, ¬(n ∈ (envs source).names ∧ wanted n) →
        (merged dest).stack n = (envs dest).stack n) ∧
      (merged dest).names =
        (envs dest).names ++ (envs source).names.filter (fun n => n ∉ (envs dest).names) ∧
      (merged dest).Occupied ∧
      (∀ k, k ≠ dest → merged k = envs k) ∧
      merged.merge dest source false = merged := by
  intro merged wanted
  have hmerged : merged = Function.update envs dest ((envs dest).merge (envs source) all) :=
    merge_eq envs dest source all
  have hself : merged dest = (envs dest).merge (envs source) all := by
    rw [hmerged, Function.update_self]
  have hothers : ∀ k, k ≠ dest → merged k = envs k := fun k hk => by
    rw [hmerged, Function.update_of_ne hk]
  have hwanted : ∀ n, wanted n ↔ (all || !(envs dest).contains n) = true := by
    intro n
    rw [Bool.or_eq_true, Bool.not_eq_true', ← Bool.not_eq_true, contains_iff_mem_names]
  refine ⟨hself, fun n v hv hn => ?_, fun n hn => ?_, ?_, ?_, hothers, ?_⟩
  · rw [hself, stack_merge, if_pos ((hwanted n).mp hn), hv]
    rfl
  · rw [hself, stack_merge]
    split
    · next h =>
      have hmem : n ∉ (envs source).names := fun hmem => hn ⟨hmem, (hwanted n).mpr h⟩
      rw [← contains_iff_mem_names, contains, Option.not_isSome_iff_eq_none] at hmem
      rw [hmem]
      rfl
    · rfl
  · rw [hself, hdest.names_merge]
    congr 1
    refine List.filter_congr fun n _ => ?_
    rw [Bool.eq_iff_iff, Bool.not_eq_true', ← Bool.not_eq_true, contains_iff_mem_names,
      decide_eq_true_iff]
  · rw [hself]
    exact hdest.merge _ all
  · -- All symbols of the source are bound by now, also if an environment is merged with itself.
    have hthere : ∀ n ∈ (merged source).names, (merged dest).contains n := by
      intro n hn
      by_cases hsame : source = dest
      · rw [hsame] at hn
        exact ((merged dest).contains_iff_mem_names n).mpr hn
      · rw [hothers source hsame] at hn
        rw [hself]
        exact contains_merge (envs dest) all hn
    rw [merge_eq, merge_of_contains hthere, Function.update_eq_self]

/-- Two environments: `a` is in both, and in the source it hides another value; `b` is in the source
only. -/
def overlapping : Environments
  | 0 => empty.push "a" (.integer 1)
  | _ => ((empty.push "b" (.integer 2)).push "a" (.integer 3)).push "a" (.integer 4)

theorem merge_visible_overlapping :
    (overlapping 0).Occupied ∧
      (overlapping.merge 0 1 true 0).stack "a" = [.integer 4, .integer 1] ∧
      (overlapping.merge 0 1 false 0).stack "a" = [.integer 1] ∧
      (overlapping.merge 0 1 false 0).names = ["a", "b"] ∧
      (overlapping.merge 0 0 true 0).stack "a" = [.integer 1, .integer 1] := by
  have hocc : (overlapping 0).Occupied := occupied_empty.push "a" (.integer 1)
  refine ⟨hocc, ?_, ?_, ?_, ?_⟩
  · exact (merge_visible overlapping 0 1 true hocc).2.1 "a" (.integer 4) rfl (.inl rfl)
  · refine (merge_visible overlapping 0 1 false hocc).2.2.1 "a" ?_
    rintro ⟨-, h | h⟩
    · cases h
    · exact h (by decide)
  · exact (merge_visible overlapping 0 1 false hocc).2.2.2.1.trans (by decide)
  · exact (merge_visible overlapping 0 0 true hocc).2.1 "a" (.integer 1) rfl (.inl rfl)

end Environments

end Stencil
