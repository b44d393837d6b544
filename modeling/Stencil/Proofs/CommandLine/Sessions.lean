import Stencil.CommandLine.Run
import Stencil.Proofs.FileTree.Writing

/-!
# CommandLine — Sessions

How a session goes on.  It says further lines, and changes no file but that of the trace
(`Session.Continues`); what it adds to the trace is said unless there is a file for it
(`continues_note`).  At the start of a run that file is emptied (`of_begin`), and later the file of
the output is (`of_openOutput`), which opens and closes no way to other files.
-/

namespace Stencil.CommandLine

open FileTree

variable {mode : Mode} {s s' s'' : Session} {tree : FileTree} {lines lines' : List String}
  {file : Option String} {codec : Codec} {out : Output} {path : String}

/-- The place of a file, if there is one. -/
def placesOf (tree : FileTree) (file : Option String) : Set Place :=
  {q | ∃ path ∈ file, tree.target path = .ok q}

theorem placesOf_some {q : Place} (h : tree.target path = .ok q) :
    placesOf tree (some path) = {q} := by
  ext p
  constructor
  · rintro ⟨_, hpath, hp⟩
    cases hpath
    rw [h] at hp
    cases hp
    rfl
  · rintro rfl
    exact ⟨path, rfl, h⟩

namespace Session

/-- The place of the file for the trace, if there is one. -/
def tracePlaces (s : Session) : Set Place :=
  placesOf s.tree (s.traceFile.map TraceFile.path)

/-- The file for the trace exists, if there is to be one. -/
def Ready (s : Session) : Prop :=
  ∀ path ∈ s.traceFile.map TraceFile.path,
    ∃ q, s.tree.LeadsTo path q ∧ (s.tree.content? q).isSome = true

theorem Ready.isSome (hs : s.Ready) {q : Place} (hq : q ∈ s.tracePlaces) :
    (s.tree.content? q).isSome = true := by
  obtain ⟨path, hpath, hq⟩ := hq
  obtain ⟨q', hq', hsome⟩ := hs path hpath
  rw [hq'.target_eq] at hq
  cases hq
  exact hsome

/-- A session has the files of an earlier one but for the contents at some places, and the same file
for the trace. -/
structure Follows (S : Set Place) (s s' : Session) : Prop where
  same : SameBut S s.tree s'.tree
  traced : s'.traceFile.map TraceFile.path = s.traceFile.map TraceFile.path

namespace Follows

variable {S : Set Place}

theorem tracePlaces_eq (h : Follows S s s') : s'.tracePlaces = s.tracePlaces := by
  simp only [tracePlaces, placesOf, h.traced, h.same.target_eq]

theorem ready (h : Follows S s s') (hs : s.Ready) : s'.Ready := by
  intro path hpath
  rw [h.traced] at hpath
  obtain ⟨q, hq, hsome⟩ := hs path hpath
  exact ⟨q, h.same.leadsTo hq, (h.same.file q).trans hsome⟩

end Follows

/-- A session goes on: it says some lines, and changes no file but that of the trace. -/
structure Continues (s s' : Session) (lines : List String) : Prop extends
    Follows s.tracePlaces s s' where
  said : s'.said = s.said ++ String.join (lines.map (· ++ "\n"))

namespace Continues

theorem refl (s : Session) : Continues s s [] where
  same := .refl _ _
  traced := rfl
  said := String.append_empty.symm

theorem trans (h : Continues s s' lines) (h' : Continues s' s'' lines') :
    Continues s s'' (lines ++ lines') where
  same := h.same.trans (h.tracePlaces_eq ▸ h'.same)
  traced := h'.traced.trans h.traced
  said := by
    rw [h'.said, h.said, List.map_append, String.join_append, String.append_assoc]

end Continues

theorem continues_say (s : Session) (lines : List String) : Continues s (s.say lines) lines where
  same := .refl _ _
  traced := rfl
  said := rfl

theorem continues_complain (s : Session) (text : String) :
    Continues s (s.complain text) [commandName ++ ": " ++ text] :=
  continues_say s _

end Session

open Session

/-- The lines of a trace that are said: all of them, or none if there is a file for them, or no
trace. -/
def heard (mode : Mode) (s : Session) (lines : List String) : List String :=
  if mode.level = 0 ∨ s.traceFile.isSome then [] else lines

theorem heard_nil : heard mode s [] = [] :=
  ite_self _

theorem heard_append (lines lines' : List String) :
    heard mode s (lines ++ lines') = heard mode s lines ++ heard mode s lines' := by
  unfold heard
  split <;> rfl

theorem Session.Follows.heard_eq {S : Set Place} (h : Follows S s s') (lines : List String) :
    heard mode s' lines = heard mode s lines := by
  have hsome := congrArg Option.isSome h.traced
  rw [Option.isSome_map, Option.isSome_map] at hsome
  rw [heard, heard, hsome]

/-- To add to the trace changes no file but that of the trace. -/
theorem continues_note (mode : Mode) (hs : s.Ready) (lines : List String) :
    s.Continues (note mode s lines) (heard mode s lines) := by
  unfold note heard
  by_cases hlevel : mode.level = 0
  · rw [if_pos hlevel, if_pos (.inl hlevel)]
    exact .refl s
  rw [if_neg hlevel, Session.trace]
  cases hfile : s.traceFile with
  | none =>
      rw [if_neg (by simp [hlevel])]
      exact continues_say s lines
  | some file =>
      rw [if_pos (.inr rfl)]
      dsimp only
      split
      · next tree hwrite =>
        obtain ⟨q, hq, hput⟩ := exists_of_bind_ok hwrite
        cases hput
        have hplace : q ∈ s.tracePlaces := ⟨file.path, by simp [hfile], hq⟩
        refine ⟨⟨?_, by simp [hfile]⟩, String.append_empty.symm⟩
        exact (sameBut_put (leadsTo_of_target hq).noDirectory (hs.isSome hplace) _).mono
          (Set.singleton_subset_iff.mpr hplace)
      · exact .refl s

/-! ### Openings -/

/-- At the start of a run nothing has been said, and no file has changed but that for the trace. -/
theorem of_begin {settings : Settings} (h : begin mode settings tree = .ok s) :
    s.said = "" ∧ s.Ready ∧ ∀ q, q ∉ s.tracePlaces → s.tree.content? q = tree.content? q := by
  have huntraced : (⟨tree, "", none⟩ : Session).Ready := fun path hpath => by cases hpath
  unfold begin at h
  split at h
  · next debugFile _ =>
    split at h
    · cases h
      exact ⟨rfl, huntraced, fun _ _ => rfl⟩
    split at h
    · cases h
    split at h
    · next hclear =>
      cases h
      obtain ⟨q, hq, hput⟩ := exists_of_bind_ok hclear
      cases hput
      have hlead := leadsTo_of_target hq
      have hlead' := hlead.put hlead []
      refine ⟨rfl, fun path hpath => ?_, fun p hp => ?_⟩
      · cases hpath
        exact ⟨q, hlead', by rw [content?_put, if_pos rfl]; rfl⟩
      · have hne : p ≠ q := by
          rintro rfl
          exact hp ⟨debugFile, rfl, hlead'.target_eq⟩
        rw [content?_put, if_neg hne]
    · cases h
  · cases h
    exact ⟨rfl, huntraced, fun _ _ => rfl⟩

/-- The output of a session is open and empty, and apart from the file for the trace. -/
structure Opened (s : Session) (file : Option String) (codec : Codec) (out : Output) : Prop where
  ready : s.Ready
  leads : ∀ path ∈ file, ∃ q, s.tree.LeadsTo path q ∧ s.tree.content? q = some []
  keeps : out.Keeps codec
  empty : out.seen = []
  distinct : ∀ q ∈ placesOf s.tree file, q ∉ s.tracePlaces

theorem Opened.bytesOf_eq_nil (h : Opened s file codec out) : bytesOf out = [] := by
  rw [h.keeps.bytesOf_eq, h.empty]
  rfl

theorem openOutput_some (mode : Mode) (s : Session) (path : String) :
    openOutput mode s (some path) =
      ({ s with tree := (s.tree.openOutput path mode.encoding).1 },
        (s.tree.openOutput path mode.encoding).2) := rfl

/-- To open an output empties its file, if there is one, and changes nothing else. -/
theorem of_openOutput (hcodec : mode.encoding.codec? = some codec)
    (h : openOutput mode s file = (s', .ok out)) :
    out.Keeps codec ∧ out.seen = [] ∧ (file = none ∧ s' = s ∨
      ∃ path q, file = some path ∧ s.tree.LeadsTo path q ∧
        s' = { s with tree := s.tree.put q [] }) := by
  have hkeeps : ∀ name ending, (Output.fresh name ⟨none, some codec, none⟩ ending).Keeps codec :=
    fun name ending => ⟨rfl, rfl⟩
  cases file with
  | none =>
      rw [openOutput, hcodec] at h
      cases h
      exact ⟨hkeeps _ _, rfl, .inl ⟨rfl, rfl⟩⟩
  | some path =>
      rw [openOutput_some, Prod.mk.injEq] at h
      obtain ⟨-, q, codec', hq, hcodec', htree, rfl⟩ :=
        openOutput_eq_ok_iff.mp (Prod.ext_iff.mpr ⟨rfl, h.2⟩)
      rw [hcodec] at hcodec'
      cases hcodec'
      have hs' := congrArg (fun tree => { s with tree := tree }) htree
      exact ⟨hkeeps _ _, rfl, .inr ⟨path, q, rfl, hq, h.1.symm.trans hs'⟩⟩

/-- To open an output says nothing, and leaves the file for the trace the same. -/
theorem openOutput_keeps (hcodec : mode.encoding.codec? = some codec)
    (h : openOutput mode s file = (s', .ok out)) :
    s'.said = s.said ∧ s'.traceFile = s.traceFile := by
  obtain ⟨-, -, ⟨-, rfl⟩ | ⟨path, q, -, -, rfl⟩⟩ := of_openOutput hcodec h
  · exact ⟨rfl, rfl⟩
  · exact ⟨rfl, rfl⟩

/-- The output can be opened as well later on, when some contents have changed. -/
theorem openOutput_of_sameBut {S : Set Place} {t : Session}
    (hcodec : mode.encoding.codec? = some codec)
    (h : openOutput mode s file = (s', .ok out)) (hsame : SameBut S s.tree t.tree) :
    ∃ tree, openOutput mode t file = ({ t with tree := tree }, .ok out) ∧
      SameBut S s'.tree tree := by
  cases file with
  | none =>
      rw [openOutput, hcodec] at h ⊢
      cases h
      exact ⟨t.tree, rfl, hsame⟩
  | some path =>
      rw [openOutput_some, Prod.mk.injEq] at h
      obtain ⟨hnull, q, codec, hq, hcodec, htree, rfl⟩ :=
        openOutput_eq_ok_iff.mp (Prod.ext_iff.mpr ⟨rfl, h.2⟩)
      have hopen : t.tree.openOutput path mode.encoding = (t.tree.put q [], _) :=
        openOutput_eq_ok_iff.mpr ⟨hnull, q, codec, hsame.leadsTo hq, hcodec, rfl, rfl⟩
      have hs' := congrArg (fun tree => { s with tree := tree }) htree
      obtain rfl := h.1.symm.trans hs'
      exact ⟨t.tree.put q [], by rw [openOutput_some, hopen], hsame.put hq.noDirectory []⟩

/-- When the output is opened, the file for the trace stays where it is. -/
theorem tracePlaces_openOutput (hs : s.Ready)
    (hcodec : mode.encoding.codec? = some codec)
    (h : openOutput mode s file = (s', .ok out)) :
    s'.Ready ∧ s'.tracePlaces = s.tracePlaces := by
  obtain ⟨-, -, ⟨-, rfl⟩ | ⟨path, q, -, hq, rfl⟩⟩ := of_openOutput hcodec h
  · exact ⟨hs, rfl⟩
  constructor
  · intro traced htraced
    obtain ⟨p, hp, hsome⟩ := hs traced htraced
    refine ⟨p, hp.put hq [], ?_⟩
    rw [content?_put]
    split
    · rfl
    · exact hsome
  · ext p
    constructor
    · rintro ⟨traced, htraced, hp⟩
      obtain ⟨p', hp', -⟩ := hs traced htraced
      exact ⟨traced, htraced, by rw [hp'.target_eq, ← (hp'.put hq []).target_eq, hp]⟩
    · rintro ⟨traced, htraced, hp⟩
      exact ⟨traced, htraced, ((leadsTo_of_target hp).put hq []).target_eq⟩

theorem opened_of_openOutput (hs : s.Ready)
    (hcodec : mode.encoding.codec? = some codec)
    (h : openOutput mode s file = (s', .ok out))
    (hdistinct : ∀ q ∈ placesOf s'.tree file, q ∉ s'.tracePlaces) :
    Opened s' file codec out := by
  obtain ⟨hkeeps, hempty, hfile⟩ := of_openOutput hcodec h
  refine ⟨(tracePlaces_openOutput hs hcodec h).1, ?_, hkeeps, hempty, hdistinct⟩
  rintro path' hpath'
  obtain ⟨rfl, -⟩ | ⟨path, q, rfl, hq, rfl⟩ := hfile
  · cases hpath'
  · cases hpath'
    exact ⟨q, hq.put hq [], by rw [content?_put, if_pos rfl]⟩

/-- A path that does not lead to the file for the trace once the output is open did not lead there
before. -/
theorem apart_of_openOutput (hs : s.Ready)
    (hcodec : mode.encoding.codec? = some codec)
    (h : openOutput mode s file = (s', .ok out))
    (hdistinct : ∀ q ∈ placesOf s'.tree file, q ∉ s'.tracePlaces)
    (hpath : ∀ q ∈ s'.tracePlaces, s'.tree.follow [] (names path) ≠ .ok q) :
    ∀ q ∈ s.tracePlaces, s.tree.follow [] (names path) ≠ .ok q := by
  have hplaces := (tracePlaces_openOutput hs hcodec h).2
  intro p hp hfollow
  rw [← hplaces] at hp
  obtain ⟨-, -, ⟨-, rfl⟩ | ⟨other, q, rfl, hq, rfl⟩⟩ := of_openOutput hcodec h
  · exact hpath p hp hfollow
  · refine hpath p hp (follow_put hq.leaf hq.leaf.not_prefix_nil hfollow ?_ [])
    rintro rfl
    exact hdistinct p ⟨other, rfl, (hq.put hq []).target_eq⟩ hp

end Stencil.CommandLine
