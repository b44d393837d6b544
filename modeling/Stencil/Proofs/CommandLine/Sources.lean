import Stencil.Proofs.CommandLine.Sessions
import Stencil.Proofs.Environment.Histories

/-!
# CommandLine — Sources

What the loading of the sources of an environment comes to.  Each source is read as it was when the
run began, since no file but that of the trace changes; so the environment is the one that the
sources make by themselves, one after another (`loadAll`), and if one of them fails, the session
goes on without an environment (`ends_loadFiles`, `ends_loadChunks`).
-/

namespace Stencil.CommandLine

open FileTree Session

variable {mode : Mode} {s s' : Session} {tree : FileTree} {lines lines' : List String}
  {env : Environment}

/-! ### Sources -/

/-- A source of an environment: a file or a chunk, which need not be given. -/
inductive Source where
  | file (path : Option String)
  | chunk (text : Option String)

/-- The sources that a run loads, in order. -/
def sources (settings : Settings) : List Source :=
  settings.envFiles.map .file ++ settings.envChunks.map .chunk

/-- The environment after loading a description, or the failure with the subject of the complaint
about it. -/
def loaded (subject : String) :
    Environment × Option Failure → Except (String × Failure) Environment
  | (env, none) => .ok env
  | (_, some failure) => .error (subject, failure)

namespace Source

/-- What a source by itself makes of an environment. -/
def load (tree : FileTree) (encoding : Encoding) (env : Environment) :
    Source → Except (String × Failure) Environment
  | .file none => .error ("", .fault .pathNotGiven)
  | .file (some path) =>
    match tree.openStream path encoding with
    | .error failure => .error (aboutFile path, failure)
    | .ok stream => loaded (aboutFile path) (env.load stream)
  | .chunk none => .error ("", .fault .textNotGiven)
  | .chunk (some text) => loaded "" (env.loadText text.toList)

/-- What the trace says before a source is loaded. -/
def announcement : Source → List String
  | .file none => []
  | .file (some path) => ["loading environment from " ++ path]
  | .chunk none => []
  | .chunk (some text) =>
    ["loading environment chunk " ++ String.ofList (Text.quoted text.toList)]

end Source

/-- What some sources by themselves make of an environment, one after another. -/
def loadAll (tree : FileTree) (encoding : Encoding) (env : Environment) (sources : List Source) :
    Except (String × Failure) Environment :=
  sources.foldlM (fun env source => source.load tree encoding env) env

theorem loadAll_append (encoding : Encoding) (v w : List Source) :
    loadAll tree encoding env (v ++ w) =
      loadAll tree encoding env v >>= fun env => loadAll tree encoding env w :=
  List.foldlM_append ..

/-- To load sources is to push values. -/
theorem occupied_loadAll {encoding : Encoding} {sources : List Source} {env' : Environment}
    (henv : env.Occupied) (h : loadAll tree encoding env sources = .ok env') : env'.Occupied := by
  have hload : ∀ {env env' : Environment} {stream : Stream} {subject : String}, env.Occupied →
      loaded subject (env.load stream) = .ok env' → env'.Occupied := by
    intro env env' stream subject henv h
    have hpush := Environment.load_eq_pushAll env stream
    rcases hresult : env.load stream with ⟨env'', _ | failure⟩
    · rw [hresult] at h hpush
      cases h
      change env' = _ at hpush
      rw [hpush, Environment.pushAll_eq_changes]
      exact Environment.Change.occupied_foldl henv _
    · rw [hresult] at h
      cases h
  induction sources generalizing env with
  | nil =>
      cases h
      exact henv
  | cons source sources ih =>
      rw [loadAll, List.foldlM_cons] at h
      obtain ⟨env₁, hsource, h⟩ := exists_of_bind_ok h
      refine ih ?_ h
      match source, hsource with
      | .file (some path), hsource =>
          rw [Source.load] at hsource
          split at hsource
          · cases hsource
          · exact hload henv hsource
      | .chunk (some text), hsource => exact hload henv hsource

/-- How the loading of sources ends that make an environment, or fail, by themselves: the session
goes on with their environment, or without one, or a fault ends the run. -/
def Ends (s : Session) (lines : List String) : Except (String × Failure) Environment →
    Except Fault (Session × Option Environment) → Prop
  | .ok env, x => ∃ s', x = .ok (s', some env) ∧ s.Continues s' lines
  | .error (_, .error _), x => ∃ s' said, x = .ok (s', none) ∧ s.Continues s' said
  | .error (_, .fault f), x => x = .error f

theorem Ends.behind {x : Except Fault (Session × Option Environment)}
    {r : Except (String × Failure) Environment} (h : s.Continues s' lines)
    (hx : Ends s' lines' r x) :
    Ends s (lines ++ lines') r x := by
  match r, hx with
  | .ok env, ⟨s'', hs, hx⟩ => exact ⟨s'', hs, h.trans hx⟩
  | .error (_, .error _), ⟨s'', said, hs, hx⟩ => exact ⟨s'', _, hs, h.trans hx⟩
  | .error (_, .fault f), hx => exact hx

/-- A complaint ends the loading without an environment, unless it is about a fault. -/
theorem ends_complain (s : Session) (subject : String) (failure : Failure) :
    Ends s lines (.error (subject, failure))
      (do return (← complainOf s subject failure, none)) := by
  cases failure with
  | error e => exact ⟨_, _, rfl, continues_complain s _⟩
  | fault f => rfl

/-- A description that was loaded makes way for further sources, or ends the loading. -/
theorem ends_loaded {encoding : Encoding} {subject : String} (rest : List Source)
    (result : Environment × Option Failure)
    {next : Environment → Except Fault (Session × Option Environment)}
    (hnext : ∀ env, Ends s lines (loadAll tree encoding env rest) (next env)) :
    Ends s lines (loaded subject result >>= fun env => loadAll tree encoding env rest)
      (match result with
      | (_, some failure) => do return (← complainOf s subject failure, none)
      | (env, none) => next env) := by
  obtain ⟨env, _ | failure⟩ := result
  · exact hnext env
  · exact ends_complain s subject failure

/-- The session has the files of a tree, but for the content of the file for the trace. -/
structure Stands (tree : FileTree) (s : Session) : Prop where
  ready : s.Ready
  same : SameBut s.tracePlaces tree s.tree

theorem Stands.continues (h : Stands tree s) (hs : s.Continues s' lines) : Stands tree s' where
  ready := hs.ready h.ready
  same := hs.tracePlaces_eq ▸ h.same.trans hs.same

/-- The path does not lead to the file for the trace. -/
def Apart (tree : FileTree) (s : Session) (path : String) : Prop :=
  ∀ q ∈ s.tracePlaces, tree.follow [] (names path) ≠ .ok q

theorem Stands.openStream_eq (h : Stands tree s) {path : String} (hpath : Apart tree s path)
    (encoding : Encoding) :
    s.tree.openStream path encoding = tree.openStream path encoding := by
  rw [openStream, openStream, h.same.read_eq hpath]

theorem Stands.apart (h : s.Continues s' lines) {path : String} (hpath : Apart tree s path) :
    Apart tree s' path := by
  rwa [Apart, h.tracePlaces_eq]

/-- The files of a run make of an environment what they make of it by themselves. -/
theorem ends_loadFiles (mode : Mode) (h : Stands tree s) (env : Environment)
    (paths : List (Option String)) (hpaths : ∀ path, some path ∈ paths → Apart tree s path) :
    Ends s (heard mode s ((paths.map Source.file).flatMap Source.announcement))
      (loadAll tree mode.encoding env (paths.map .file)) (loadFiles mode s env paths) := by
  induction paths generalizing s env with
  | nil =>
      refine ⟨s, rfl, ?_⟩
      change s.Continues s (heard mode s [])
      rw [heard_nil]
      exact .refl s
  | cons path paths ih =>
      cases path with
      | none => exact rfl
      | some path =>
          rw [List.map_cons, List.flatMap_cons, heard_append]
          have hnote := continues_note mode h.ready ["loading environment from " ++ path]
          refine Ends.behind hnote ?_
          have hopen := (h.continues hnote).openStream_eq
            (Stands.apart hnote (hpaths path List.mem_cons_self)) mode.encoding
          rw [loadFiles, loadAll, List.foldlM_cons, Source.load, hopen]
          cases tree.openStream path mode.encoding with
          | error failure => exact ends_complain _ _ failure
          | ok stream =>
              refine ends_loaded (paths.map .file) (env.load stream) fun env' => ?_
              have hrest := ih (h.continues hnote) env' fun other hother =>
                Stands.apart hnote (hpaths other (List.mem_cons_of_mem _ hother))
              rwa [hnote.heard_eq] at hrest

/-- The chunks of a run make of an environment what they make of it by themselves. -/
theorem ends_loadChunks (mode : Mode) (h : Stands tree s) (env : Environment)
    (chunks : List (Option String)) :
    Ends s (heard mode s ((chunks.map Source.chunk).flatMap Source.announcement))
      (loadAll tree mode.encoding env (chunks.map .chunk)) (loadChunks mode s env chunks) := by
  induction chunks generalizing s env with
  | nil =>
      refine ⟨s, rfl, ?_⟩
      change s.Continues s (heard mode s [])
      rw [heard_nil]
      exact .refl s
  | cons chunk chunks ih =>
      cases chunk with
      | none => exact rfl
      | some text =>
          rw [List.map_cons, List.flatMap_cons, heard_append]
          have hnote := continues_note mode h.ready
            ["loading environment chunk " ++ String.ofList (Text.quoted text.toList)]
          refine Ends.behind hnote ?_
          rw [loadChunks, loadAll, List.foldlM_cons, Source.load]
          refine ends_loaded (chunks.map .chunk) (env.loadText text.toList) fun env' => ?_
          have hrest := ih (h.continues hnote) env'
          rwa [hnote.heard_eq] at hrest

/-- What a run works with throughout, with the encodings that there are. -/
def modeOf (codecs : String → Option Codec) (settings : Settings) : Mode :=
  ⟨settings.verbosity, encodingOf codecs settings⟩

/-- The environment of a run before any source is loaded. -/
def startOf (settings : Settings) : Environment :=
  if settings.filters then Environment.empty.withFilters else .empty

theorem occupied_startOf (settings : Settings) : (startOf settings).Occupied := by
  unfold startOf
  split
  · exact List.foldlRecOn _ _ Environment.occupied_empty fun _ henv _ _ => henv.push _ _
  · exact Environment.occupied_empty

/-- The loading of all sources of a run. -/
def loadSources (codecs : String → Option Codec) (settings : Settings) (s : Session) :
    Except Fault (Session × Option Environment) := do
  match ← loadFiles (modeOf codecs settings) s (startOf settings) settings.envFiles with
  | (s, none) => return (s, none)
  | (s, some env) => loadChunks (modeOf codecs settings) s env settings.envChunks

/-- **The sources of a run** make of its environment what they make of it by themselves. -/
theorem ends_loadSources (codecs : String → Option Codec) (settings : Settings) (h : Stands tree s)
    (hpaths : ∀ path, some path ∈ settings.envFiles → Apart tree s path) :
    Ends s (heard (modeOf codecs settings) s ((sources settings).flatMap Source.announcement))
      (loadAll tree (encodingOf codecs settings) (startOf settings) (sources settings))
      (loadSources codecs settings s) := by
  set mode := modeOf codecs settings with hmode
  have hfiles := ends_loadFiles mode h (startOf settings) settings.envFiles hpaths
  rw [sources, loadAll_append, List.flatMap_append, heard_append, loadSources, ← hmode]
  change Ends s _ (loadAll tree mode.encoding (startOf settings) _ >>= _) _
  match loadAll tree mode.encoding (startOf settings) (settings.envFiles.map .file),
    hfiles with
  | .ok env, ⟨s₁, hs₁, hcontinues⟩ =>
      rw [hs₁]
      have hchunks := ends_loadChunks mode (h.continues hcontinues) env settings.envChunks
      rw [hcontinues.heard_eq] at hchunks
      exact .behind hcontinues hchunks
  | .error (_, .error _), ⟨s₁, said, hs₁, hcontinues⟩ =>
      rw [hs₁]
      exact ⟨s₁, said, rfl, hcontinues⟩
  | .error (_, .fault f), hfault =>
      rw [hfault]
      rfl

end Stencil.CommandLine
