import Mathlib.Data.List.Basic
import Mathlib.Data.Set.Insert
import Stencil.FileTree.Basic
import Stencil.Proofs.Value.Range

/-!
# FileTree — Places

Where paths lead once files have been written.  A file that is put at a place of its own hides no
directory and opens no way (`follow_put`, `LeadsTo.put`), so that paths lead where they led before.
Where only contents have changed, and only at some places, all paths lead to the same places
(`SameBut.target_eq`), and those that lead elsewhere are read as before (`SameBut.read_eq`).
-/

namespace Stencil.FileTree

variable {t t' : FileTree} {p q here there : Place} {names : List String} {path : String}
  {bytes : List UInt8}

/-! ### Nodes -/

/-- A node is that of a directory, or lies in it. -/
def Within (p : Place) (node : Place × Option (List UInt8)) : Prop :=
  node.1 = p ∧ node.2 = none ∨ p <+: node.1 ∧ p.length < node.1.length

theorem isDirectory_iff : t.isDirectory p = true ↔
    (∀ name ∈ p, name = "..") ∨ p = ["/"] ∨ ∃ node ∈ t.nodes, Within p node := by
  simp [isDirectory, Within, List.isPrefixOf_iff_prefix, or_assoc]

theorem isDirectory_nil (t : FileTree) : t.isDirectory [] = true :=
  isDirectory_iff.mpr (.inl fun _ h => by cases h)

theorem lookup_cons (node : Place × Option (List UInt8)) (nodes : List _) (p : Place) :
    (node :: nodes).lookup p = if p = node.1 then some node.2 else nodes.lookup p := by
  rw [List.lookup_cons]
  by_cases h : p = node.1
  · simp [h]
  · simp [h, beq_false_of_ne h]

theorem isSome_lookup_iff : (t.nodes.lookup q).isSome = true ↔ ∃ node ∈ t.nodes, node.1 = q := by
  induction t.nodes with
  | nil => simp
  | cons node nodes ih =>
      rw [lookup_cons]
      by_cases h : q = node.1
      · simp [h]
      · simp [h, ih, Ne.symm h]

/-- What is put at a place replaces the nodes there. -/
theorem lookup_replaced (nodes : List (Place × Option (List UInt8))) (q p : Place)
    (bytes : List UInt8) :
    (nodes.map fun node => if node.1 == q then (q, some bytes) else node).lookup p =
      if p = q then (nodes.lookup q).map fun _ => some bytes else nodes.lookup p := by
  induction nodes with
  | nil => simp
  | cons node nodes ih =>
      rw [List.map_cons, lookup_cons, lookup_cons, lookup_cons, ih]
      by_cases hq : node.1 = q
      · by_cases hp : p = q <;> simp [hq, hp]
      · by_cases hp : p = q
        · simp [hq, hp, Ne.symm hq]
        · simp [hq, hp]

theorem content?_put (t : FileTree) (q p : Place) (bytes : List UInt8) :
    (t.put q bytes).content? p = if p = q then some bytes else t.content? p := by
  unfold content? put
  split
  · next h =>
    rw [lookup_replaced]
    by_cases hp : p = q
    · obtain ⟨content, hcontent⟩ := Option.isSome_iff_exists.mp h
      simp [hp, hcontent]
    · simp [hp]
  · next h =>
    rw [List.lookup_append, lookup_cons]
    by_cases hp : p = q
    · simp [hp, Option.not_isSome_iff_eq_none.mp h]
    · simp [hp]

/-- What is put at a place lies in every directory above it. -/
theorem isDirectory_put (h : t.isDirectory q = false) (bytes : List UInt8) (p : Place) :
    (t.put q bytes).isDirectory p = true ↔
      t.isDirectory p = true ∨ p <+: q ∧ p.length < q.length := by
  have hwithin : ∀ node ∈ t.nodes, node.1 = q →
      (Within p node ↔ p <+: q ∧ p.length < q.length) := by
    rintro ⟨place, content⟩ hnode rfl
    refine or_iff_right ?_
    rintro ⟨rfl, hnone⟩
    have := isDirectory_iff.mpr (.inr (.inr ⟨_, hnode, .inl ⟨rfl, hnone⟩⟩))
    rw [h] at this
    cases this
  -- The directories that the new file lies in are the places on the way to it.
  have hnew : Within p (q, some bytes) ↔ p <+: q ∧ p.length < q.length := by simp [Within]
  suffices hnodes : (∃ node ∈ (t.put q bytes).nodes, Within p node) ↔
      (∃ node ∈ t.nodes, Within p node) ∨ p <+: q ∧ p.length < q.length by
    rw [isDirectory_iff, isDirectory_iff, hnodes, or_assoc, or_assoc]
  unfold put
  split
  · next hsome =>
    simp only [List.mem_map]
    constructor
    · rintro ⟨_, ⟨node, hnode, rfl⟩, hin⟩
      split at hin
      · exact .inr (hnew.mp hin)
      · exact .inl ⟨node, hnode, hin⟩
    · rintro (⟨node, hnode, hin⟩ | hin)
      · refine ⟨_, ⟨node, hnode, rfl⟩, ?_⟩
        split
        · next hq => exact hnew.mpr ((hwithin node hnode (by simpa using hq)).mp hin)
        · exact hin
      · obtain ⟨node, hnode, hq⟩ := isSome_lookup_iff.mp hsome
        exact ⟨_, ⟨node, hnode, rfl⟩, by simpa [hq] using hnew.mpr hin⟩
  · simp only [List.mem_append, List.mem_singleton, or_and_right, exists_or, exists_eq_left, hnew]

/-! ### The ways of paths -/

/-- A place that is not a directory and is named by a name of its own. -/
structure Leaf (t : FileTree) (q : Place) : Prop where
  noDirectory : t.isDirectory q = false
  named : ∃ here last, q = here ++ [last] ∧ last ≠ ".."

theorem Leaf.not_prefix_nil (h : Leaf t q) : ¬q <+: [] := by
  intro hpre
  obtain rfl := List.prefix_nil.mp hpre
  have := h.noDirectory
  rw [isDirectory_nil] at this
  cases this

/-- One level up from what does not lie at a leaf or under it, nothing else does. -/
theorem Leaf.parent (h : Leaf t q) (hq : ¬q <+: here) : ¬q <+: parent here := by
  obtain ⟨above, last, hnamed, hlast⟩ := h.named
  have hdots : ∀ {here : Place}, ¬q <+: here → ¬q <+: here ++ [".."] := by
    intro here hq
    rw [List.prefix_concat_iff, hnamed]
    rintro (heq | hpre)
    · exact hlast (List.singleton_inj.mp (List.append_inj_right' heq rfl))
    · exact hq (hnamed ▸ hpre)
  unfold FileTree.parent
  split
  · exact hdots h.not_prefix_nil
  · exact hdots hq
  · exact hq
  · exact fun hpre => hq (hpre.trans (List.dropLast_prefix here))

/-- No name leads on from a file. -/
theorem eq_of_follow_file (h : (t.content? here).isSome = true)
    (hf : t.follow here names = .ok there) : there = here := by
  cases names with
  | nil =>
      cases hf
      rfl
  | cons name names =>
      rw [follow, if_pos h] at hf
      cases hf

/-- The names lead to a leaf, or under it, only if it is that of a file. -/
theorem Leaf.eq_of_follow (h : Leaf t q) (hq : ¬q <+: here)
    (hf : t.follow here names = .ok there) (hthere : q <+: there) :
    there = q ∧ (t.content? q).isSome = true := by
  -- The path enters the leaf with one of its names, and nothing leads on from a file.
  induction names generalizing here with
  | nil =>
      cases hf
      exact absurd hthere hq
  | cons name names ih =>
      rw [follow] at hf
      split at hf
      · cases hf
      split at hf
      · exact ih hq hf
      split at hf
      · exact ih (h.parent hq) hf
      split at hf
      · cases hf
      dsimp only at hf
      split at hf
      · next hnext =>
        by_cases hpre : q <+: here ++ [name]
        · obtain heq | hpre := List.prefix_concat_iff.mp hpre
          · rw [← heq] at hf hnext
            rw [h.noDirectory, Bool.or_false] at hnext
            exact ⟨eq_of_follow_file hnext hf, hnext⟩
          · exact absurd hpre hq
        · exact ih hpre hf
      · cases hf

theorem follow_append (t : FileTree) (here : Place) (names more : List String) :
    t.follow here (names ++ more) = t.follow here names >>= fun there => t.follow there more := by
  induction names generalizing here with
  | nil => rfl
  | cons name names ih =>
      rw [List.cons_append, follow, follow]
      dsimp only
      split
      · rfl
      split
      · exact ih here
      split
      · exact ih (FileTree.parent here)
      split
      · rfl
      split
      · exact ih (here ++ [name])
      · rfl

/-- A file that is put at a leaf leaves the ways to other places open. -/
theorem follow_put (h : Leaf t q) (hq : ¬q <+: here) (hf : t.follow here names = .ok there)
    (hthere : there ≠ q) (bytes : List UInt8) :
    (t.put q bytes).follow here names = .ok there := by
  -- No place on the way is the file that is put, as nothing leads on from there.
  induction names generalizing here with
  | nil => exact hf
  | cons name names ih =>
      have hne : here ≠ q := by
        rintro rfl
        exact hq (List.prefix_refl _)
      rw [follow] at hf ⊢
      rw [content?_put, if_neg hne]
      split at hf
      · cases hf
      next hfile =>
      rw [if_neg hfile]
      split at hf
      · next hname =>
        rw [if_pos hname]
        exact ih hq hf
      next hname =>
      rw [if_neg hname]
      split at hf
      · next hup =>
        rw [if_pos hup]
        exact ih (h.parent hq) hf
      next hup =>
      rw [if_neg hup]
      split at hf
      · cases hf
      next hsize =>
      rw [if_neg hsize]
      dsimp only at hf ⊢
      split at hf
      · next hnext =>
        have hpre : ¬q <+: here ++ [name] := by
          intro hpre
          obtain heq | hpre := List.prefix_concat_iff.mp hpre
          · rw [← heq] at hf hnext
            rw [h.noDirectory, Bool.or_false] at hnext
            exact hthere (eq_of_follow_file hnext hf)
          · exact hq hpre
        have hne' : here ++ [name] ≠ q := by
          rintro rfl
          exact hpre (List.prefix_refl _)
        rw [content?_put, if_neg hne', if_pos ?_]
        · exact ih hpre hf
        · rw [Bool.or_eq_true] at hnext ⊢
          exact hnext.imp_right fun hdir =>
            (isDirectory_put h.noDirectory bytes _).mpr (.inl hdir)
      · cases hf

/-! ### The files that paths lead to -/

/-- A path leads to a place for a file: the names of directories lead to a directory, in which the
last name may be that of a file. -/
structure LeadsTo (t : FileTree) (path : String) (q : Place) : Prop where
  short : ¬pathLimit ≤ path.utf8ByteSize
  named : ∃ directories here last, FileTree.names path = directories ++ [last] ∧
    q = here ++ [last] ∧ t.follow [] directories = .ok here ∧ t.content? here = none ∧
    last ≠ "" ∧ last ≠ "." ∧ last ≠ ".." ∧ last ≠ "/" ∧ ¬nameLimit < last.utf8ByteSize
  noDirectory : t.isDirectory q = false

theorem leadsTo_of_target (h : t.target path = .ok q) : t.LeadsTo path q := by
  -- Each check that `target` makes of the path is a part of what is to be shown.
  unfold target at h
  dsimp only at h
  split at h
  · cases h
  next hshort =>
  split at h
  · cases h
  next last directories hdrop =>
  obtain ⟨here, hf, h⟩ := exists_of_bind_ok h
  split at h
  · cases h
  next hfile =>
  split at h
  · cases h
  next hname =>
  split at h
  · cases h
  next hsize =>
  cases h
  simp only [Bool.or_eq_true, beq_iff_eq, not_or, Bool.not_eq_true] at hname
  obtain ⟨⟨⟨⟨htrailing, hdot⟩, hdots⟩, hroot⟩, hdir⟩ := hname
  have hreversed : (FileTree.names path).reverse = last :: directories := by
    rw [← hdrop]
    cases hrev : (FileTree.names path).reverse with
    | nil => rfl
    | cons name names =>
        rw [hrev, List.head?_cons, Option.some.injEq] at htrailing
        rw [List.dropWhile_cons_of_neg (by simpa using htrailing)]
  have hlast : last ≠ "" := by
    rintro rfl
    rw [hreversed] at htrailing
    exact htrailing rfl
  refine ⟨hshort, ⟨directories.reverse, here, last, ?_, rfl, hf, ?_, hlast, hdot, hdots, hroot,
    hsize⟩, hdir⟩
  · rw [← List.reverse_cons, ← hreversed, List.reverse_reverse]
  · exact Option.not_isSome_iff_eq_none.mp hfile

theorem LeadsTo.target_eq (h : t.LeadsTo path q) : t.target path = .ok q := by
  obtain ⟨hshort, ⟨directories, here, last, hnames, rfl, hf, hfile, hlast, hdot, hdots, hroot,
    hsize⟩, hdir⟩ := h
  have hreversed : (FileTree.names path).reverse = last :: directories.reverse := by
    rw [hnames, List.reverse_append]
    rfl
  unfold target
  dsimp only
  rw [if_neg hshort, hreversed, List.dropWhile_cons_of_neg (by simpa using hlast)]
  dsimp only
  rw [List.reverse_reverse, hf]
  simp [bind, Except.bind, pure, Except.pure, hfile, hlast, hdot, hdots, hroot, hsize, hdir]

theorem LeadsTo.leaf (h : t.LeadsTo path q) : t.Leaf q where
  noDirectory := h.noDirectory
  named := by
    obtain ⟨_, here, last, _, hq, _, _, _, _, hdots, _, _⟩ := h.named
    exact ⟨here, last, hq, hdots⟩

/-- Where a file is put, no way to another place for a file is opened or closed. -/
theorem LeadsTo.put (hp : t.LeadsTo path p) {other : String} (hq : t.LeadsTo other q)
    (bytes : List UInt8) : (t.put q bytes).LeadsTo path p where
  short := hp.short
  named := by
    obtain ⟨directories, here, last, hnames, rfl, hf, hfile, hlast⟩ := hp.named
    have hne : here ≠ q := by
      rintro rfl
      have := (hq.leaf.eq_of_follow hq.leaf.not_prefix_nil hf (List.prefix_refl _)).2
      rw [hfile] at this
      cases this
    refine ⟨directories, here, last, hnames, rfl, ?_, ?_, hlast⟩
    · exact follow_put hq.leaf hq.leaf.not_prefix_nil hf hne bytes
    · rw [content?_put, if_neg hne, hfile]
  noDirectory := by
    obtain ⟨directories, here, last, hnames, hhere, hf, hfile, hlast⟩ := hq.named
    rw [← Bool.not_eq_true, isDirectory_put hq.noDirectory, hp.noDirectory]
    rintro (hdir | ⟨hpre, hlen⟩)
    · cases hdir
    · -- The place would lie above the new file, in a directory or a file.
      rw [hhere] at hpre hlen
      obtain heq | hpre := List.prefix_concat_iff.mp hpre
      · rw [heq] at hlen
        exact Nat.lt_irrefl _ hlen
      · obtain ⟨rfl, hsome⟩ := hp.leaf.eq_of_follow hp.leaf.not_prefix_nil hf hpre
        rw [hfile] at hsome
        cases hsome

/-- What stands at the place that a path leads to is read. -/
theorem LeadsTo.read_eq (h : t.LeadsTo path q) (hq : t.content? q = some bytes) :
    t.read path = .ok bytes := by
  obtain ⟨directories, here, last, hnames, rfl, hf, hfile, hlast, hdot, hdots, hroot, hsize⟩ :=
    h.named
  have hlead : t.follow [] (FileTree.names path) = .ok (here ++ [last]) := by
    rw [hnames, follow_append, hf]
    simp [bind, Except.bind, follow, hfile, hlast, hdot, hdots, hsize, hq]
  have hempty : path.isEmpty = false := by
    by_contra hpath
    obtain rfl : path = "" := by simpa using hpath
    have hnil : FileTree.names "" = [] := by with_unfolding_all rfl
    rw [hnil] at hnames
    exact List.append_ne_nil_of_right_ne_nil _ (List.cons_ne_nil _ _) hnames.symm
  rw [read, if_neg (by simp [hempty]), if_neg h.short, hlead]
  simp [bind, Except.bind, hq, pure, Except.pure]

/-! ### Trees that differ in contents -/

/-- The trees have the same directories and files, and but for some places the same contents. -/
structure SameBut (S : Set Place) (t t' : FileTree) : Prop where
  directory : ∀ p, t'.isDirectory p = t.isDirectory p
  file : ∀ p, (t'.content? p).isSome = (t.content? p).isSome
  content : ∀ p, p ∉ S → t'.content? p = t.content? p

namespace SameBut

variable {S S' : Set Place} {t'' : FileTree}

theorem refl (S : Set Place) (t : FileTree) : SameBut S t t :=
  ⟨fun _ => rfl, fun _ => rfl, fun _ _ => rfl⟩

theorem trans (h : SameBut S t t') (h' : SameBut S t' t'') : SameBut S t t'' where
  directory p := (h'.directory p).trans (h.directory p)
  file p := (h'.file p).trans (h.file p)
  content p hp := (h'.content p hp).trans (h.content p hp)

theorem mono (h : SameBut S t t') (hS : S ⊆ S') : SameBut S' t t' :=
  ⟨h.directory, h.file, fun p hp => h.content p fun hS' => hp (hS hS')⟩

theorem follow_eq (h : SameBut S t t') (here : Place) (names : List String) :
    t'.follow here names = t.follow here names := by
  induction names generalizing here with
  | nil => rfl
  | cons name names ih => simp only [follow, h.file, h.directory, ih]

theorem target_eq (h : SameBut S t t') (path : String) : t'.target path = t.target path := by
  unfold target
  simp only [h.follow_eq, h.file, h.directory]

theorem leadsTo (h : SameBut S t t') (hq : t.LeadsTo path q) : t'.LeadsTo path q :=
  leadsTo_of_target ((h.target_eq path).trans hq.target_eq)

/-- A path that leads to none of the places is read as before. -/
theorem read_eq (h : SameBut S t t')
    (hpath : ∀ p ∈ S, t.follow [] (FileTree.names path) ≠ .ok p) : t'.read path = t.read path := by
  unfold read
  rw [h.follow_eq]
  cases hf : t.follow [] (FileTree.names path) with
  | error problem => rfl
  | ok here =>
      have hhere : here ∉ S := fun hS => hpath here hS hf
      simp only [bind, Except.bind, h.content here hhere]

/-- The same is put in both. -/
theorem put (h : SameBut S t t') (hq : t.isDirectory q = false) (bytes : List UInt8) :
    SameBut S (t.put q bytes) (t'.put q bytes) where
  directory p := by
    have hq' : t'.isDirectory q = false := (h.directory q).trans hq
    rw [Bool.eq_iff_iff, isDirectory_put hq, isDirectory_put hq', h.directory]
  file p := by
    rw [content?_put, content?_put]
    split
    · rfl
    · exact h.file p
  content p hp := by
    rw [content?_put, content?_put, h.content p hp]

end SameBut

/-- To put other content in a file changes nothing else. -/
theorem sameBut_put (hq : t.isDirectory q = false) (hfile : (t.content? q).isSome = true)
    (bytes : List UInt8) : SameBut {q} t (t.put q bytes) where
  directory p := by
    rw [Bool.eq_iff_iff, isDirectory_put hq]
    refine ⟨fun h => h.elim id fun hpre => ?_, .inl⟩
    obtain ⟨content, hcontent⟩ := Option.isSome_iff_exists.mp hfile
    have hlookup : (t.nodes.lookup q).isSome = true := by
      rw [content?] at hcontent
      cases hl : t.nodes.lookup q with
      | none => rw [hl] at hcontent; cases hcontent
      | some x => rfl
    obtain ⟨node, hnode, rfl⟩ := isSome_lookup_iff.mp hlookup
    exact isDirectory_iff.mpr (.inr (.inr ⟨node, hnode, .inr hpre⟩))
  file p := by
    rw [content?_put]
    split
    · next hp => rw [hp, hfile]; rfl
    · rfl
  content p hp := by
    rw [content?_put, if_neg (by simpa using hp)]

end Stencil.FileTree
