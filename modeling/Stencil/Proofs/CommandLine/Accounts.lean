import Stencil.Proofs.CommandLine.Sources

/-!
# CommandLine — Accounts

What a run makes of its templates.  What a template comes to is told by itself: against the
environment as loaded, and the files as they are once the output is open (`textOf`).  All texts go
through one encoder, so the bytes of a text may depend on the texts before it
(`accountBehind`, `accountsFrom`); where the encoder does not remember them, each template has the
bytes that it has alone (`accountsFrom_of_memoryless`).

A run keeps an account of the templates it has rendered (`Rendered`), to which every further one
adds its own text, its own lines and its own failure (`Rendered.renderFile`,
`Rendered.renderFiles`): one that fails adds no bytes, and none changes the environment.  When the
run is finished, its output is what the account says (`Rendered.finish`).
-/

namespace Stencil

namespace Codec

/-- What an encoder makes of a text does not depend on the texts before it. -/
def Memoryless (codec : Codec) : Prop :=
  ∀ before text, codec.encode before text = codec.encode [] text

/-- The standard encodings without a mark do not remember. -/
theorem memoryless_of_mark {charset : Charset} (h : charset.mark = []) :
    charset.codec.Memoryless := by
  intro before text
  simp only [Charset.codec, h, List.nil_append, ite_self]

end Codec

namespace CommandLine

open FileTree

/-! ### Templates by themselves -/

/-- What becomes of the template of a file: the lines of its trace, and its bytes, unless it
fails. -/
structure Account where
  path : String
  lines : List String
  outcome : Except Failure (List UInt8)

namespace Account

/-- The bytes that a template adds to the output; none if it fails. -/
def bytes (account : Account) : List UInt8 :=
  match account.outcome with
  | .ok bytes => bytes
  | .error _ => []

/-- The template fails. -/
def failed (account : Account) : Bool :=
  match account.outcome with
  | .ok _ => false
  | .error _ => true

/-- The complaint about a template that fails. -/
def complaints (account : Account) : List String :=
  match account.outcome with
  | .error (.error e) => [commandName ++ ": " ++ (account.path ++ ": " ++ e.message)]
  | .error (.fault _) => []
  | .ok _ => []

end Account

section Accounts

variable (mode : Mode) (codec : Codec) (sink : String) (tree : FileTree) (env : Environment)

/-- What the template of a file comes to by itself: the lines of its trace, and its text, unless it
fails. -/
def textOf (path : String) : List String × Except Failure String :=
  match tree.readTemplate path mode.encoding with
  | .error failure => (["rendering " ++ path], .error failure)
  | .ok template =>
    let rendering := template.renderTo mode.level env .unlimited
    (("rendering " ++ path) :: rendering.lines,
      match rendering.failure with
      | some failure => .error failure
      | none => .ok rendering.text)

/-- The bytes of a text for an output, whose encoder has seen other texts before. -/
def encoded (before : List String) (text : String) : Except Failure (List UInt8) :=
  match codec.encode before text with
  | .ok bytes => .ok bytes
  | .error reason => .error (.of (.writeFailed sink reason))

/-- What becomes of a template behind other texts. -/
def accountBehind (before : List String) (path : String) : Account :=
  let (lines, result) := textOf mode tree env path
  ⟨path, lines, result >>= encoded codec sink before⟩

/-- What becomes of a template by itself. -/
def alone (path : String) : Account :=
  accountBehind mode codec sink tree env [] path

/-- The texts that an encoder has seen behind a further template. -/
def seenBehind (before : List String) (path : String) : List String :=
  match (textOf mode tree env path).2 with
  | .ok text => text :: before
  | .error _ => before

/-- What becomes of some templates, whose texts go through one encoder. -/
def accountsFrom (before : List String) : List String → List Account
  | [] => []
  | path :: paths =>
    accountBehind mode codec sink tree env before path ::
      accountsFrom (seenBehind mode tree env before path) paths

variable {codec} in
/-- Where the encoder does not remember, what becomes of templates is what becomes of each alone. -/
theorem accountsFrom_of_memoryless (h : codec.Memoryless) (before paths : List String) :
    accountsFrom mode codec sink tree env before paths =
      paths.map (alone mode codec sink tree env) := by
  have hencoded : ∀ before, encoded codec sink before = encoded codec sink [] := by
    intro before
    funext text
    rw [encoded, encoded, h before text]
  induction paths generalizing before with
  | nil => rfl
  | cons path paths ih =>
      rw [accountsFrom, ih, List.map_cons, alone, accountBehind, accountBehind, hencoded before]

/-- The bytes of an encoder are those of the templates that it has seen. -/
theorem bytes_seenBehind (before : List String) (path : String) :
    codec.bytes (seenBehind mode tree env before path) =
      codec.bytes before ++ (accountBehind mode codec sink tree env before path).bytes := by
  unfold seenBehind accountBehind
  obtain ⟨lines, failure | text⟩ := textOf mode tree env path
  · exact (List.append_nil _).symm
  · change codec.bytes before ++ _ = codec.bytes before ++ (Account.mk path lines
      (encoded codec sink before text)).bytes
    rw [encoded]
    cases codec.encode before text <;> rfl

theorem bytes_foldl_seenBehind (before paths : List String) :
    codec.bytes (paths.foldl (seenBehind mode tree env) before) =
      codec.bytes before ++
        (accountsFrom mode codec sink tree env before paths).flatMap Account.bytes := by
  induction paths generalizing before with
  | nil => exact (List.append_nil _).symm
  | cons path paths ih =>
      rw [List.foldl_cons, ih, bytes_seenBehind mode codec sink, accountsFrom, List.flatMap_cons,
        List.append_assoc]

end Accounts

/-! ### Outputs that are open -/

section Opened

variable {mode : Mode} {s s' : Session} {lines : List String} {file : Option String}
  {codec : Codec} {out : Output}

/-- The account of a run that has rendered some templates: the texts that its encoder has seen, what
it has said since its output was opened, and whether a template has failed.  No file but those of
the trace and the output has changed, and the environment has not. -/
structure Rendered (s : Session) (file : Option String) (codec : Codec) (sink : String)
    (env : Environment) (seen said : List String) (failed : Bool) (p : Progress) :
    Prop extends Session.Follows (placesOf s.tree file ∪ s.tracePlaces) s p.session where
  said : p.session.said = s.said ++ String.join (said.map (· ++ "\n"))
  env : p.env = env
  failed : p.failed = failed
  name : p.output.name = sink
  keeps : p.output.Keeps codec
  seen : p.output.seen = seen
  content : ∀ q ∈ placesOf s.tree file,
    p.session.tree.content? q = some ((bytesOf p.output).take (arrived p.output))

namespace Rendered

variable {sink : String} {env : Environment} {seen said : List String} {failed : Bool}
  {p : Progress}

/-- The session goes on. -/
theorem continues (h : Rendered s file codec sink env seen said failed p)
    (hopened : Opened s file codec out) (hs : p.session.Continues s' lines) :
    Rendered s file codec sink env seen (said ++ lines) failed { p with session := s' } where
  said := by
    rw [hs.said, h.said, List.map_append, String.join_append, String.append_assoc]
  same := h.same.trans (hs.same.mono (h.tracePlaces_eq ▸ Set.subset_union_right))
  traced := hs.traced.trans h.traced
  env := h.env
  failed := h.failed
  name := h.name
  keeps := h.keeps
  seen := h.seen
  content := by
    intro q hq
    rw [hs.same.content q (h.tracePlaces_eq ▸ hopened.distinct q hq)]
    exact h.content q hq

theorem note (h : Rendered s file codec sink env seen said failed p)
    (hopened : Opened s file codec out) (mode : Mode) (lines : List String) :
    Rendered s file codec sink env seen (said ++ heard mode s lines) failed
      { p with session := note mode p.session lines } := by
  have hnote := h.continues hopened
    (continues_note mode (h.ready hopened.ready) lines)
  rwa [h.heard_eq] at hnote

/-- A template that fails is complained of. -/
theorem fail (h : Rendered s file codec sink env seen (said ++ heard mode s lines) failed p)
    (hopened : Opened s file codec out) (path : String) {failure : Failure}
    (hfault : ∀ f, failure ≠ .fault f) :
    let account : Account := ⟨path, lines, .error failure⟩
    ∃ p', (do
        return { p with
          session := ← complainOf p.session (aboutFile path) failure, failed := true }) =
        Except.ok p' ∧
      Rendered s file codec sink env seen
        (said ++ (heard mode s account.lines ++ account.complaints)) (failed || account.failed)
        p' := by
  cases failure with
  | fault f => exact absurd rfl (hfault f)
  | error e =>
      refine ⟨_, rfl, ?_⟩
      have hsaid := h.continues hopened
        (Session.continues_complain p.session (aboutFile path ++ e.message))
      change Rendered s file codec sink env seen (said ++ (heard mode s lines ++ _))
        (failed || true) _
      rw [← List.append_assoc, Bool.or_true]
      exact { hsaid with failed := rfl }

/-- If the output is a file, its bytes arrive at the place of that file. -/
theorem arriving {path : String} (h : Rendered s (some path) codec sink env seen said failed p)
    (hopened : Opened s (some path) codec out) :
    ∃ q, placesOf s.tree (some path) = {q} ∧ Arriving p.session.tree path q codec p.output := by
  obtain ⟨q, hq, -⟩ := hopened.leads path rfl
  have hplaces := placesOf_some hq.target_eq
  exact ⟨q, hplaces, h.same.leadsTo hq, h.keeps, h.content q (hplaces ▸ Set.mem_singleton q)⟩

/-- A text goes through the encoder of the output, which may be a file. -/
theorem write (h : Rendered s file codec sink env seen said failed p)
    (hopened : Opened s file codec out) (text : String) :
    ∃ s', writeText p.session file p.output text = (s', p.output.write text) ∧
      Rendered s file codec sink env (text :: seen) said failed
        { p with session := s', output := (p.output.write text).1 } := by
  obtain ⟨hkeeps, hseen, hname, -⟩ := h.keeps.write text
  cases hfile : file with
  | none =>
      subst hfile
      exact ⟨p.session, rfl, { h with
        name := hname.trans h.name
        keeps := hkeeps
        seen := hseen.trans (congrArg _ h.seen)
        content := by
          rintro q ⟨path, hpath, -⟩
          cases hpath }⟩
  | some path =>
      subst hfile
      obtain ⟨q, hplaces, harriving⟩ := h.arriving hopened
      obtain ⟨tree, hwrite, harriving', hsame⟩ := harriving.write text
      refine ⟨{ p.session with tree := tree }, by rw [writeText, hwrite], { h with
        same := h.same.trans (hsame.mono (hplaces ▸ Set.subset_union_left))
        name := hname.trans h.name
        keeps := hkeeps
        seen := hseen.trans (congrArg _ h.seen)
        content := ?_ }⟩
      intro q' hq'
      rw [hplaces] at hq'
      obtain rfl := Set.mem_singleton_iff.mp hq'
      exact harriving'.content

/-- The text of a template is written, or what refuses it is complained of. -/
theorem deliver (h : Rendered s file codec sink env seen (said ++ heard mode s lines) failed p)
    (hopened : Opened s file codec out) (path text : String) :
    let account : Account := ⟨path, lines, encoded codec sink seen text⟩
    ∃ p', (
        let (s, output, cause?) := writeText p.session file p.output text
        let p := { p with output := output }
        match cause? with
        | some cause => do
          return { p with session := ← complainOf s (aboutFile path) (.of cause), failed := true }
        | none => return { p with session := s }) = Except.ok p' ∧
      Rendered s file codec sink env (text :: seen)
        (said ++ (heard mode s account.lines ++ account.complaints)) (failed || account.failed)
        p' := by
  obtain ⟨s', hwrite, hwritten⟩ := h.write hopened text
  obtain ⟨-, -, -, hcause⟩ := h.keeps.write text
  rw [h.seen, h.name] at hcause
  rw [hwrite, encoded]
  -- Either way the encoder has seen the text; if it refuses it, there are no bytes of it.
  cases hencode : codec.encode seen text with
  | ok more =>
      rw [hencode] at hcause
      refine ⟨{ p with session := s', output := (p.output.write text).1 }, ?_, ?_⟩
      · rw [show p.output.write text = ((p.output.write text).1, none) from Prod.ext rfl hcause]
        rfl
      · change Rendered s file codec sink env _ (said ++ (heard mode s lines ++ []))
          (failed || false) _
        rw [List.append_nil, Bool.or_false]
        exact hwritten
  | error reason =>
      rw [hencode] at hcause
      rw [show p.output.write text = ((p.output.write text).1, some _) from Prod.ext rfl hcause]
      exact hwritten.fail hopened path nofun

theorem readTemplate_eq (h : Rendered s file codec sink env seen said failed p) {path : String}
    (encoding : Encoding)
    (hpath : ∀ q ∈ placesOf s.tree file ∪ s.tracePlaces, s.tree.follow [] (names path) ≠ .ok q) :
    p.session.tree.readTemplate path encoding = s.tree.readTemplate path encoding := by
  rw [readTemplate, readTemplate, openStream, openStream, h.same.read_eq hpath]

/-- **One more template** adds to the account what becomes of it behind the texts before it. -/
theorem renderFile (h : Rendered s file codec sink env seen said failed p)
    (hopened : Opened s file codec out) (henv : env.Occupied) {path : String}
    (hpath : ∀ q ∈ placesOf s.tree file ∪ s.tracePlaces, s.tree.follow [] (names path) ≠ .ok q)
    (hfault : ∀ f, (alone mode codec sink s.tree env path).outcome ≠ .error (.fault f)) :
    let account := accountBehind mode codec sink s.tree env seen path
    ∃ p', renderFile mode file p path = .ok p' ∧
      Rendered s file codec sink env (seenBehind mode s.tree env seen path)
        (said ++ (heard mode s account.lines ++ account.complaints)) (failed || account.failed)
        p' := by
  have hnote := h.note hopened mode ["rendering " ++ path]
  have hread := hnote.readTemplate_eq mode.encoding hpath
  dsimp only at hread ⊢
  rw [CommandLine.renderFile, hread]
  unfold alone accountBehind textOf at hfault
  unfold accountBehind seenBehind textOf
  cases hresult : s.tree.readTemplate path mode.encoding with
  | error failure =>
      rw [hresult] at hfault
      exact hnote.fail hopened path fun f hf => hfault f (congrArg Except.error hf)
  | ok template =>
      rw [hresult] at hfault
      obtain rfl := h.env
      set rendering := template.renderTo mode.level p.env .unlimited with hrendering
      -- Loops take back what they push, so the next template finds the same environment.
      have hleft : rendering.env = p.env := by
        rw [hrendering, Rendering.env, Template.canvas_renderTo]
        exact (Render.leaves_contract Node.bracketed_occupied).render template
          ⟨p.env, .unlimited, []⟩ henv
      have hlines := hnote.note hopened mode rendering.lines
      rw [List.append_assoc, ← heard_append] at hlines
      dsimp only at hlines ⊢ hfault
      rw [← hrendering] at hfault ⊢
      rw [hleft]
      cases hfailure : rendering.failure with
      | some failure =>
          rw [hfailure] at hfault
          exact hlines.fail hopened path fun f hf => hfault f (congrArg Except.error hf)
      | none => exact hlines.deliver hopened path rendering.text

/-- **All templates**, one after another, add to the account what becomes of each. -/
theorem renderFiles (h : Rendered s file codec sink env seen said failed p)
    (hopened : Opened s file codec out) (henv : env.Occupied) (paths : List String)
    (hpaths : ∀ path ∈ paths, ∀ q ∈ placesOf s.tree file ∪ s.tracePlaces,
      s.tree.follow [] (names path) ≠ .ok q)
    (hfaults : ∀ path ∈ paths, ∀ f,
      (alone mode codec sink s.tree env path).outcome ≠ .error (.fault f)) :
    let accounts := accountsFrom mode codec sink s.tree env seen paths
    ∃ p', paths.foldlM (CommandLine.renderFile mode file) p = .ok p' ∧
      Rendered s file codec sink env (paths.foldl (seenBehind mode s.tree env) seen)
        (said ++ accounts.flatMap fun account => heard mode s account.lines ++ account.complaints)
        (failed || accounts.any Account.failed) p' := by
  induction paths generalizing seen said failed p with
  | nil => exact ⟨p, rfl, by simpa [accountsFrom] using h⟩
  | cons path paths ih =>
      obtain ⟨p₁, hp₁, h₁⟩ := h.renderFile hopened henv (hpaths path List.mem_cons_self)
        (hfaults path List.mem_cons_self)
      obtain ⟨p₂, hp₂, h₂⟩ := ih h₁ (fun other hother => hpaths other (.tail _ hother))
        fun other hother => hfaults other (.tail _ hother)
      refine ⟨p₂, by rw [List.foldlM_cons, hp₁]; exact hp₂, ?_⟩
      simpa only [accountsFrom, List.foldl_cons, List.flatMap_cons, List.any_cons,
        List.append_assoc, Bool.or_assoc] using h₂

/-- The account of a run whose output has just been opened, in a session that has gone on. -/
theorem start (hopened : Opened s file codec out) (env : Environment) (s' : Session)
    (hsaid : s'.said = s.said ++ String.join (said.map (· ++ "\n")))
    (hsame : SameBut s.tracePlaces s.tree s'.tree)
    (htraced : s'.traceFile.map TraceFile.path = s.traceFile.map TraceFile.path) :
    Rendered s file codec out.name env [] said false ⟨s', env, out, false⟩ where
  said := hsaid
  same := hsame.mono Set.subset_union_right
  traced := htraced
  env := rfl
  failed := rfl
  name := rfl
  keeps := hopened.keeps
  seen := hopened.empty
  content := by
    rintro q hq
    obtain ⟨path, hpath, htarget⟩ := hq
    obtain ⟨q', hq', hempty⟩ := hopened.leads path hpath
    rw [hq'.target_eq] at htarget
    cases htarget
    change s'.tree.content? q = some ((bytesOf out).take (arrived out))
    rw [hsame.content q (hopened.distinct q ⟨path, hpath, hq'.target_eq⟩), hempty,
      hopened.bytesOf_eq_nil, List.take_nil]

theorem bytes (h : Rendered s file codec sink env seen said failed p) :
    bytesOf p.output = codec.bytes seen := by
  rw [h.keeps.bytesOf_eq, h.seen]

end Rendered

/-! ### Finishing -/

/-- What a run delivers to its output, which is a file or the standard output. -/
def Report.Delivers (report : Report) (bytes : List UInt8) : Option String → Prop
  | some path => report.stdout = [] ∧ report.tree.read path = .ok bytes
  | none => report.stdout = bytes

/-- A run that is finished delivers the bytes of the texts that its encoder has seen. -/
theorem Rendered.finish {sink : String} {env : Environment} {seen said : List String}
    {failed : Bool} {p : Progress} (h : Rendered s file codec sink env seen said failed p)
    (hopened : Opened s file codec out) :
    (finish file p).exit = (if failed then 1 else 0) ∧
      (finish file p).stderr = s.said ++ String.join (said.map (· ++ "\n")) ∧
      (finish file p).Delivers (codec.bytes seen) file := by
  obtain ⟨ending, ended, hclose⟩ := p.output.close_fst
  cases file with
  | none =>
      refine ⟨congrArg (if · then 1 else 0) h.failed, h.said, ?_⟩
      change bytesOf p.output.close.1 = codec.bytes seen
      rw [hclose]
      exact h.bytes
  | some path =>
      obtain ⟨q, -, harriving⟩ := h.arriving hopened
      obtain ⟨hcontent, hsame⟩ := harriving.close
      refine ⟨congrArg (if · then 1 else 0) h.failed, h.said, rfl, ?_⟩
      change (p.session.tree.closeOutput path p.output.close.1).read path = _
      rw [hclose]
      exact (hsame.leadsTo harriving.leads).read_eq (h.bytes ▸ hcontent)

end Opened

end CommandLine

end Stencil
