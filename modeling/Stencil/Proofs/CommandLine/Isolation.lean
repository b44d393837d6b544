import Stencil.Proofs.CommandLine.Accounts

/-!
# CommandLine — Isolation

The templates of a run do not touch each other, but for the encoder that all their texts go through.
A run begins, loads its sources and, unless that fails, renders its templates (`run_eq`).  If the
sources make an environment, the output is what one encoder makes of the texts of the templates,
each taken by itself (`run_of_loaded`); if a source fails, nothing is rendered and no output is
opened (`run_of_failed`).

An encoder that puts a mark in front of the first text puts one in front of the whole output, and
not one in front of the text of each template (`run_not_concatenated`).
-/

namespace Stencil.CommandLine

open FileTree

/-! ### Runs -/

/-- The rendering of all templates of a run. -/
def renderTemplates (codecs : String → Option Codec) (settings : Settings) (s : Session)
    (env : Environment) : Except Fault Report :=
  match openOutput (modeOf codecs settings) s (given settings.output) with
  | (s, .error failure) => do return (← complainOf s "" failure).failed
  | (s, .ok output) => do
    let p ← settings.templates.foldlM
      (renderFile (modeOf codecs settings) (given settings.output)) ⟨s, env, output, false⟩
    return finish (given settings.output) p

/-- A run begins, loads its sources and, unless that fails, renders its templates. -/
theorem run_eq (codecs : String → Option Codec) (settings : Settings) (tree : FileTree) :
    run codecs settings tree = (do
      let s ← begin (modeOf codecs settings) settings tree
      match ← loadSources codecs settings s with
      | (s, none) => return s.failed
      | (s, some env) => renderTemplates codecs settings s env) := by
  refine bind_congr fun s => ?_
  unfold loadSources
  set mode := modeOf codecs settings with hmode
  change (loadFiles mode s (startOf settings) settings.envFiles >>= _) = _
  match loadFiles mode s (startOf settings) settings.envFiles with
  | .error _ => rfl
  | .ok (_, none) => rfl
  | .ok (s, some env) =>
      change (loadChunks mode s env settings.envChunks >>= _) =
        loadChunks mode s env settings.envChunks >>= _
      refine bind_congr ?_
      rintro ⟨s, _ | env⟩
      · rfl
      · unfold renderTemplates
        rfl

/-- The files of the output and of the trace are different ones, and none of the inputs. -/
structure Separate (settings : Settings) (s : Session) : Prop where
  inputs : ∀ path, some path ∈ settings.envFiles ∨ path ∈ settings.templates →
    ∀ q ∈ placesOf s.tree (given settings.output) ∪ s.tracePlaces,
      s.tree.follow [] (names path) ≠ .ok q
  outputs : ∀ q ∈ placesOf s.tree (given settings.output), q ∉ s.tracePlaces

/-- What a run leaves, also when a fault ends it: then the fault is told, and no file is written. -/
def Report.ofRun (tree : FileTree) : Except Fault Report → Report
  | .ok report => report
  | .error fault => ⟨1, [], fault.message ++ "\n", tree⟩

section Runs

variable {codecs : String → Option Codec} {settings : Settings} {tree : FileTree}
  {s₀ s₁ : Session} {out : Output} {codec : Codec}

theorem stands_of_begin (hbegin : begin (modeOf codecs settings) settings tree = .ok s₀) :
    Stands s₀.tree s₀ :=
  ⟨(of_begin hbegin).2.1, .refl _ _⟩

/-- If the sources make an environment, the run delivers what one encoder makes of the texts that
its templates come to by themselves. -/
theorem run_of_loaded (hcodec : (encodingOf codecs settings).codec? = some codec)
    (hbegin : begin (modeOf codecs settings) settings tree = .ok s₀)
    (hopen : openOutput (modeOf codecs settings) s₀ (given settings.output) = (s₁, .ok out))
    (hseparate : Separate settings s₁) {env : Environment}
    (hload : loadAll s₀.tree (encodingOf codecs settings) (startOf settings) (sources settings) =
      .ok env)
    (hfaults : ∀ path ∈ settings.templates, ∀ f,
      (alone (modeOf codecs settings) codec out.name s₁.tree env path).outcome ≠
        .error (.fault f)) :
    let mode := modeOf codecs settings
    let accounts := accountsFrom mode codec out.name s₁.tree env [] settings.templates
    ∃ report, run codecs settings tree = .ok report ∧
      report.Delivers (accounts.flatMap Account.bytes) (given settings.output) ∧
      report.stderr = String.join ((heard mode s₁
          ((sources settings).flatMap Source.announcement) ++
        accounts.flatMap fun account =>
          heard mode s₁ account.lines ++ account.complaints).map (· ++ "\n")) ∧
      report.exit = if accounts.any Account.failed then 1 else 0 := by
  intro mode accounts
  obtain ⟨hsaid, hready, -⟩ := of_begin hbegin
  have hopened := opened_of_openOutput hready hcodec hopen hseparate.outputs
  -- Loading the sources changes no file but that of the trace, so the output is opened behind
  -- it just as it is opened from the start.
  have hends := ends_loadSources codecs settings (stands_of_begin hbegin) fun path hpath =>
    apart_of_openOutput hready hcodec hopen hseparate.outputs fun q hq =>
      hseparate.inputs path (.inl hpath) q (.inr hq)
  rw [hload] at hends
  obtain ⟨s, hs, hcontinues⟩ := hends
  obtain ⟨hsaid₁, htraced₁⟩ := openOutput_keeps hcodec hopen
  have hheard : ∀ lines, heard mode s₀ lines = heard mode s₁ lines := by
    intro lines
    rw [heard, heard, htraced₁]
  obtain ⟨opened, hopen', hsame⟩ := openOutput_of_sameBut hcodec hopen hcontinues.same
  rw [← (tracePlaces_openOutput hready hcodec hopen).2] at hsame
  -- The account starts empty, and each template is added to it.
  have hstart := Rendered.start hopened env { s with tree := opened }
    (hsaid₁ ▸ hcontinues.said) hsame (htraced₁ ▸ hcontinues.traced)
  obtain ⟨p, hp, hrendered⟩ := hstart.renderFiles hopened
    (occupied_loadAll (occupied_startOf settings) hload) settings.templates
    (fun path hpath q hq => hseparate.inputs path (.inr hpath) q hq) hfaults
  obtain ⟨hexit, hstderr, hdelivers⟩ := hrendered.finish hopened
  refine ⟨finish (given settings.output) p, ?_, ?_, ?_, ?_⟩
  · rw [run_eq, hbegin]
    change (loadSources codecs settings s₀ >>= _) = _
    rw [hs]
    change renderTemplates codecs settings s env = _
    rw [renderTemplates, hopen']
    change (settings.templates.foldlM _ _ >>= _) = _
    rw [hp]
    rfl
  · rwa [bytes_foldl_seenBehind mode codec out.name] at hdelivers
  · rw [hstderr, hsaid₁, hsaid, String.empty_append, ← hheard]
  · rw [hexit, Bool.false_or]

/-- If a source fails, the run fails and renders nothing: whatever output and templates are asked
for, it is the same run, in which no file changes but that for the trace. -/
theorem run_of_failed (hbegin : begin (modeOf codecs settings) settings tree = .ok s₀)
    (hpaths : ∀ path, some path ∈ settings.envFiles → Apart s₀.tree s₀ path)
    {failed : String × Failure}
    (hload : loadAll s₀.tree (encodingOf codecs settings) (startOf settings) (sources settings) =
      .error failed) :
    (Report.ofRun tree (run codecs settings tree)).exit = 1 ∧
      (Report.ofRun tree (run codecs settings tree)).stdout = [] ∧
      (∀ q, q ∉ s₀.tracePlaces →
        (Report.ofRun tree (run codecs settings tree)).tree.content? q = tree.content? q) ∧
      ∀ output templates,
        run codecs { settings with output := output, templates := templates } tree =
          run codecs settings tree := by
  obtain ⟨-, -, hcontent⟩ := of_begin hbegin
  have hends := ends_loadSources codecs settings (stands_of_begin hbegin) hpaths
  rw [hload] at hends
  -- All such runs begin and load their sources alike.
  have hrun : ∀ output templates,
      run codecs { settings with output := output, templates := templates } tree =
        loadSources codecs settings s₀ >>= fun
          | (s, none) => .ok s.failed
          | (s, some env) =>
            renderTemplates codecs { settings with output := output, templates := templates } s
              env := by
    intro output templates
    rw [run_eq]
    change (begin (modeOf codecs settings) settings tree >>= _) = _
    rw [hbegin]
    rfl
  obtain ⟨subject, e | f⟩ := failed
  · obtain ⟨s, said, hs, hcontinues⟩ := hends
    rw [hs] at hrun
    have hreport : run codecs settings tree = .ok s.failed :=
      hrun settings.output settings.templates
    rw [hreport]
    refine ⟨rfl, rfl, fun q hq => ?_, hrun⟩
    exact (hcontinues.same.content q hq).trans (hcontent q hq)
  · rw [hends] at hrun
    have hreport : run codecs settings tree = .error f := hrun settings.output settings.templates
    rw [hreport]
    exact ⟨rfl, rfl, fun _ _ => rfl, hrun⟩

end Runs

/-- **Templates are isolated** from each other but for their encoder, whichever encodings there are.
Let the encoding of a run be one of them, `s₀` be the session at the start of the run and `s₁` the
one whose output is opened as `out`, both apart from all inputs, and let no template end by a fault.

If the sources make an environment, the run delivers what one encoder makes of the texts of the
templates that succeed by themselves, complains of the others, both in order, and fails just if one
of them does.  Where the encoder does not remember, each template has the bytes, the complaint and
the success that it has alone.  If a source fails, the run fails without output; it is the same run
whatever output and templates are asked for, and no file changes but that for the trace. -/
theorem run_isolated (codecs : String → Option Codec) (settings : Settings) (tree : FileTree)
    (s₀ s₁ : Session) (out : Output) (codec : Codec)
    (hcodec : (encodingOf codecs settings).codec? = some codec)
    (hbegin : begin (modeOf codecs settings) settings tree = .ok s₀)
    (hopen : openOutput (modeOf codecs settings) s₀ (given settings.output) = (s₁, .ok out))
    (hseparate : Separate settings s₁)
    (hfaults : ∀ env, loadAll s₀.tree (encodingOf codecs settings) (startOf settings)
      (sources settings) = .ok env → ∀ path ∈ settings.templates, ∀ f,
        (alone (modeOf codecs settings) codec out.name s₁.tree env path).outcome ≠
          .error (.fault f)) :
    (∀ env, loadAll s₀.tree (encodingOf codecs settings) (startOf settings) (sources settings) =
      .ok env →
      let mode := modeOf codecs settings
      let accounts := accountsFrom mode codec out.name s₁.tree env [] settings.templates
      (∃ report, run codecs settings tree = .ok report ∧
        report.Delivers (accounts.flatMap Account.bytes) (given settings.output) ∧
        report.stderr = String.join ((heard mode s₁
            ((sources settings).flatMap Source.announcement) ++
          accounts.flatMap fun account =>
            heard mode s₁ account.lines ++ account.complaints).map (· ++ "\n")) ∧
        report.exit = if accounts.any Account.failed then 1 else 0) ∧
      (codec.Memoryless →
        accounts = settings.templates.map (alone mode codec out.name s₁.tree env))) ∧
    (∀ failed, loadAll s₀.tree (encodingOf codecs settings) (startOf settings)
      (sources settings) = .error failed →
      let report := Report.ofRun tree (run codecs settings tree)
      report.exit = 1 ∧ report.stdout = [] ∧
        (∀ q, q ∉ s₁.tracePlaces → report.tree.content? q = tree.content? q) ∧
        ∀ output templates,
          run codecs { settings with output := output, templates := templates } tree =
            run codecs settings tree) := by
  refine ⟨fun env hload => ⟨?_, ?_⟩, fun failed hload => ?_⟩
  · exact run_of_loaded hcodec hbegin hopen hseparate hload (hfaults env hload)
  · exact fun hmemoryless => accountsFrom_of_memoryless _ _ _ _ hmemoryless _ _
  · rw [(tracePlaces_openOutput (of_begin hbegin).2.1 hcodec hopen).2]
    refine run_of_failed hbegin (fun path hpath => ?_) hload
    exact apart_of_openOutput (of_begin hbegin).2.1 hcodec hopen hseparate.outputs
      fun q hq => hseparate.inputs path (.inl hpath) q (.inr hq)

/-! ### Two files -/

/-- Two files with a template each, of which the first inserts `y` behind a digit, and the second
one `x`. -/
def twoFiles : FileTree :=
  .ofFiles [("a", [49, 123, 121, 125]), ("b", [50, 123, 120, 125])]

/-- The files when those of the trace and of the output have been opened. -/
def twoFilesOpened : FileTree :=
  (twoFiles.put ["d"] []).put ["o"] []

/-- Settings for a run that renders some of them in an encoding, with `x` alone bound. -/
def settingsFor (encoding : Option String) (templates : List String) : Settings :=
  ⟨1, [], [some "x=1;"], some "o", encoding, some "d", false, templates⟩

variable {encoding : Option String} {templates : List String}

theorem separate_settingsFor (htemplates : ∀ path ∈ templates, path = "a" ∨ path = "b") :
    Separate (settingsFor encoding templates) ⟨twoFilesOpened, "", some ⟨"d", 0⟩⟩ := by
  have houtput : placesOf twoFilesOpened (some "o") = {["o"]} :=
    placesOf_some (by with_unfolding_all rfl)
  have htrace : placesOf twoFilesOpened (some "d") = {["d"]} :=
    placesOf_some (by with_unfolding_all rfl)
  have hinput : ∀ path ∈ templates,
      twoFilesOpened.follow [] (names path) = .ok [path] ∧ path ≠ "o" ∧ path ≠ "d" := by
    intro path hpath
    rcases htemplates path hpath with rfl | rfl
    · exact ⟨by with_unfolding_all rfl, by decide, by decide⟩
    · exact ⟨by with_unfolding_all rfl, by decide, by decide⟩
  constructor
  · change ∀ path, _ ∨ _ → ∀ q ∈ placesOf twoFilesOpened (some "o") ∪
      placesOf twoFilesOpened (some "d"), twoFilesOpened.follow [] (names path) ≠ .ok q
    rw [houtput, htrace]
    intro path hpath q hq hfollow
    obtain ⟨hpath, ho, hd⟩ := hinput path (hpath.resolve_left nofun)
    rw [hpath] at hfollow
    cases hfollow
    rcases hq with hq | hq
    · exact ho (List.singleton_inj.mp hq)
    · exact hd (List.singleton_inj.mp hq)
  · change ∀ q ∈ placesOf twoFilesOpened (some "o"), q ∉ placesOf twoFilesOpened (some "d")
    rw [houtput, htrace]
    rintro q rfl
    decide

theorem begin_settingsFor (mode : Mode) (hlevel : mode.level = 1) :
    begin mode (settingsFor encoding templates) twoFiles =
      .ok ⟨twoFiles.put ["d"] [], "", some ⟨"d", 0⟩⟩ := by
  have hclear : twoFiles.clear "d" = .ok (twoFiles.put ["d"] []) := by with_unfolding_all rfl
  change (if mode.level = 0 then _ else if holdsNull "d" then _ else _) = _
  rw [hlevel, if_neg nofun, if_neg (by decide), hclear]

/-- The environment of `x` alone. -/
def withX : Environment := .push .empty "x" (.integer 1)

theorem loadAll_settingsFor (encoding' : Encoding) :
    loadAll (twoFiles.put ["d"] []) encoding' (startOf (settingsFor encoding templates))
      (sources (settingsFor encoding templates)) = .ok withX := by
  with_unfolding_all rfl

/-- A mode in which the files are rendered in a standard encoding. -/
def modeIn (charset : Charset) : Mode :=
  ⟨1, ⟨charset.name, some charset.codec⟩⟩

theorem openOutput_settingsFor (charset : Charset) :
    openOutput (modeIn charset) ⟨twoFiles.put ["d"] [], "", some ⟨"d", 0⟩⟩
      (given (settingsFor encoding templates).output) =
        (⟨twoFilesOpened, "", some ⟨"d", 0⟩⟩,
          .ok (.fresh "o" ⟨none, some charset.codec, none⟩ .close)) := by
  with_unfolding_all rfl

theorem textOf_first (charset : Charset) : textOf (modeIn charset) twoFilesOpened withX "a" =
    (["rendering a"], .error (.of (.symbolNotFound "y"))) := by
  have hread : twoFilesOpened.readTemplate "a" (modeIn charset).encoding =
      .ok ⟨[.data "1", .insert (.ident "y" [])]⟩ := by
    cases charset <;> with_unfolding_all rfl
  rw [textOf, hread]
  with_unfolding_all rfl

theorem textOf_second (charset : Charset) : textOf (modeIn charset) twoFilesOpened withX "b" =
    (["rendering b"], .ok "21") := by
  have hread : twoFilesOpened.readTemplate "b" (modeIn charset).encoding =
      .ok ⟨[.data "2", .insert (.ident "x" [])]⟩ := by
    cases charset <;> with_unfolding_all rfl
  rw [textOf, hread]
  with_unfolding_all rfl

theorem alone_first (charset : Charset) (sink : String) :
    alone (modeIn charset) charset.codec sink twoFilesOpened withX "a" =
      ⟨"a", ["rendering a"], .error (.of (.symbolNotFound "y"))⟩ := by
  rw [alone, accountBehind, textOf_first]
  rfl

/-- Behind other texts the second template has no mark. -/
theorem accountBehind_second (charset : Charset) (sink : String) (before : List String) :
    accountBehind (modeIn charset) charset.codec sink twoFilesOpened withX before "b" =
      ⟨"b", ["rendering b"],
        .ok (if before.isEmpty then charset.mark ++ [50, 49] else [50, 49])⟩ := by
  have hencode : charset.encode "21".toList = .ok [50, 49] := by
    cases charset <;> with_unfolding_all rfl
  rw [accountBehind, textOf_second]
  change Account.mk "b" ["rendering b"] (encoded charset.codec sink before "21") = _
  simp only [encoded, Charset.codec, hencode]

/-- No template ends by a fault. -/
theorem alone_ne_fault (htemplates : ∀ path ∈ templates, path = "a" ∨ path = "b")
    (charset : Charset) (sink : String) : ∀ path ∈ templates, ∀ f,
      (alone (modeIn charset) charset.codec sink twoFilesOpened withX path).outcome ≠
        .error (.fault f) := by
  intro path hpath f
  rcases htemplates path hpath with rfl | rfl
  · rw [alone_first]
    rintro ⟨⟩
  · rw [alone, accountBehind_second]
    rintro ⟨⟩

/-- Settings for a run in which the first template fails. -/
def plainFiles : Settings := settingsFor none ["a", "b"]

theorem run_isolated_of_failing_template :
    ∃ s₀ s₁ out, (encodingOf Codec.standard plainFiles).codec? = some Charset.utf8.codec ∧
      begin (modeOf Codec.standard plainFiles) plainFiles twoFiles = .ok s₀ ∧
      openOutput (modeOf Codec.standard plainFiles) s₀ (given plainFiles.output) = (s₁, .ok out) ∧
      Separate plainFiles s₁ ∧ Charset.utf8.codec.Memoryless ∧
      (∀ env, loadAll s₀.tree (encodingOf Codec.standard plainFiles) (startOf plainFiles)
        (sources plainFiles) = .ok env → ∀ path ∈ plainFiles.templates, ∀ f,
          (alone (modeOf Codec.standard plainFiles) Charset.utf8.codec out.name s₁.tree env
            path).outcome ≠ .error (.fault f)) ∧
      ∃ report, run Codec.standard plainFiles twoFiles = .ok report ∧
        report.tree.read "o" = .ok [50, 49] ∧
        report.stderr = "curly: a: Symbol 'y' not found in the environment\n" ∧
        report.exit = 1 := by
  have hmode : modeOf Codec.standard plainFiles = modeIn .utf8 := by with_unfolding_all rfl
  have hcodec : (encodingOf Codec.standard plainFiles).codec? = some Charset.utf8.codec :=
    congrArg (fun mode => mode.encoding.codec?) hmode
  have hbegin : begin (modeOf Codec.standard plainFiles) plainFiles twoFiles = _ :=
    begin_settingsFor _ rfl
  have hopen : openOutput (modeOf Codec.standard plainFiles) _ (given plainFiles.output) = _ :=
    hmode ▸ openOutput_settingsFor .utf8
  have hseparate : Separate plainFiles _ := separate_settingsFor fun _ => List.mem_pair.mp
  have hfaults : ∀ env, loadAll (twoFiles.put ["d"] []) (encodingOf Codec.standard plainFiles)
      (startOf plainFiles) (sources plainFiles) = .ok env → ∀ path ∈ plainFiles.templates, ∀ f,
        (alone (modeOf Codec.standard plainFiles) Charset.utf8.codec "o" twoFilesOpened env
          path).outcome ≠ .error (.fault f) := by
    intro env henv
    cases (loadAll_settingsFor _).symm.trans henv
    rw [hmode]
    exact alone_ne_fault (fun _ => List.mem_pair.mp) .utf8 "o"
  obtain ⟨⟨report, hrun, ⟨-, hread⟩, hstderr, hexit⟩, halone⟩ :=
    (run_isolated Codec.standard plainFiles twoFiles _ _ _ _ hcodec hbegin hopen hseparate
      hfaults).1 _ (loadAll_settingsFor _)
  have hmemoryless : Charset.utf8.codec.Memoryless := Codec.memoryless_of_mark rfl
  have htemplates : plainFiles.templates = ["a", "b"] := rfl
  rw [halone hmemoryless, hmode, htemplates] at hread hstderr hexit
  simp only [List.map_cons, List.map_nil, alone_first] at hread hstderr hexit
  simp only [alone, accountBehind_second] at hread hstderr hexit
  exact ⟨_, _, _, hcodec, hbegin, hopen, hseparate, hmemoryless, hfaults, report, hrun, hread,
    hstderr.trans (by with_unfolding_all rfl), hexit⟩

/-- Settings for a run that renders a template twice, with a mark. -/
def markedFiles : Settings := settingsFor (some "utf-8-sig") ["b", "b"]

/-- **The output is not the concatenation** of what the templates have by themselves, if the encoder
puts a mark in front of the first text. -/
theorem run_not_concatenated :
    ∃ s₀ s₁ out codec env report,
      (encodingOf Codec.standard markedFiles).codec? = some codec ∧
      begin (modeOf Codec.standard markedFiles) markedFiles twoFiles = .ok s₀ ∧
      openOutput (modeOf Codec.standard markedFiles) s₀ (given markedFiles.output) =
        (s₁, .ok out) ∧
      Separate markedFiles s₁ ∧
      loadAll s₀.tree (encodingOf Codec.standard markedFiles) (startOf markedFiles)
        (sources markedFiles) = .ok env ∧
      markedFiles.templates.map (alone (modeOf Codec.standard markedFiles) codec out.name s₁.tree
        env) = [⟨"b", ["rendering b"], .ok [0xEF, 0xBB, 0xBF, 50, 49]⟩,
          ⟨"b", ["rendering b"], .ok [0xEF, 0xBB, 0xBF, 50, 49]⟩] ∧
      run Codec.standard markedFiles twoFiles = .ok report ∧
      report.tree.read "o" = .ok [0xEF, 0xBB, 0xBF, 50, 49, 50, 49] := by
  have hmode : modeOf Codec.standard markedFiles = modeIn .utf8Marked := by
    with_unfolding_all rfl
  have hcodec : (encodingOf Codec.standard markedFiles).codec? = some Charset.utf8Marked.codec :=
    congrArg (fun mode => mode.encoding.codec?) hmode
  have hbegin : begin (modeOf Codec.standard markedFiles) markedFiles twoFiles = _ :=
    begin_settingsFor _ rfl
  have hopen : openOutput (modeOf Codec.standard markedFiles) _ (given markedFiles.output) = _ :=
    hmode ▸ openOutput_settingsFor .utf8Marked
  have htemplates : ∀ path ∈ markedFiles.templates, path = "a" ∨ path = "b" :=
    fun path hpath => .inr ((List.mem_pair.mp hpath).elim id id)
  have hseparate : Separate markedFiles _ := separate_settingsFor htemplates
  have hfaults := alone_ne_fault htemplates .utf8Marked "o"
  rw [← hmode] at hfaults
  obtain ⟨report, hrun, ⟨-, hread⟩, -⟩ := run_of_loaded hcodec hbegin hopen hseparate
    (loadAll_settingsFor _) hfaults
  have hpaths : markedFiles.templates = ["b", "b"] := rfl
  refine ⟨_, _, _, _, _, report, hcodec, hbegin, hopen, hseparate, loadAll_settingsFor _, ?_, hrun,
    ?_⟩
  · simp only [hmode, hpaths, List.map_cons, List.map_nil, alone, accountBehind_second]
    rfl
  · simp only [hmode, hpaths, accountsFrom, accountBehind_second, seenBehind, textOf_second]
      at hread
    exact hread

end Stencil.CommandLine
