import Stencil.CommandLine.Arguments
import Stencil.Environment.Loading
import Stencil.FileTree.Opening
import Stencil.Template.Rendering

/-!
# CommandLine — Run

A run of the command.  The environment is loaded from files and chunks; after that every template
is rendered by itself and written as a whole, so that one that fails contributes nothing and does
not stop the others.  If the environment cannot be loaded, nothing is rendered, and no output is
opened.
-/

namespace Stencil.CommandLine

/-- The name of the command, which stands before its complaints. -/
def commandName : String := "curly"

/-- The encoding of files for which none is asked. -/
def defaultEncoding : String := "utf-8"

/-- The file that a trace goes to, and how many bytes of the trace it has taken. -/
structure TraceFile where
  path : String
  taken : Nat

/-- A run as far as it has got: the files, what has been said on the error stream, and the file
that the trace goes to if it does not go there too. -/
structure Session where
  tree : FileTree
  said : String
  traceFile : Option TraceFile

namespace Session

/-- Says some lines. -/
def say (s : Session) (lines : List String) : Session :=
  { s with said := s.said ++ String.join (lines.map (· ++ "\n")) }

/-- Says a complaint. -/
def complain (s : Session) (text : String) : Session :=
  s.say [commandName ++ ": " ++ text]

/-- Adds some lines to the trace.  In a file, they are put in behind the trace so far, even if
another output has changed the file. -/
def trace (s : Session) (lines : List String) : Session :=
  match s.traceFile with
  | none => s.say lines
  | some file =>
    let bytes := Utf8.encode (String.join (lines.map (· ++ "\n"))).toList
    match s.tree.writeAt file.path file.taken bytes with
    | .ok tree =>
      { s with tree := tree, traceFile := some { file with taken := file.taken + bytes.length } }
    | .error _ => s

end Session

/-- Something that went wrong in a run: a complaint about an error, or a fault that ends it. -/
def complainOf (s : Session) (subject : String) : Failure → Except Fault Session
  | .error e => .ok (s.complain (subject ++ e.message))
  | .fault f => .error f

/-- The subject of complaints about a file. -/
def aboutFile (path : String) : String :=
  path ++ ": "

/-- What a run works with throughout: the level of detail of the trace, and the encoding. -/
structure Mode where
  level : Nat
  encoding : Encoding

/-- Adds some lines to the trace of a run that is traced at all. -/
def note (mode : Mode) (s : Session) (lines : List String) : Session :=
  if mode.level = 0 then s else s.trace lines

/-- The environment after loading the descriptions of some files, unless one fails. -/
def loadFiles (mode : Mode) (s : Session) (env : Environment) :
    List (Option String) → Except Fault (Session × Option Environment)
  | [] => .ok (s, some env)
  | none :: _ => .error .pathNotGiven
  | some path :: rest => do
    let s := note mode s ["loading environment from " ++ path]
    match s.tree.openStream path mode.encoding with
    | .error failure => return (← complainOf s (aboutFile path) failure, none)
    | .ok stream =>
      match env.load stream with
      | (_, some failure) => return (← complainOf s (aboutFile path) failure, none)
      | (env, none) => loadFiles mode s env rest

/-- The environment after loading some descriptions, unless one fails. -/
def loadChunks (mode : Mode) (s : Session) (env : Environment) :
    List (Option String) → Except Fault (Session × Option Environment)
  | [] => .ok (s, some env)
  | none :: _ => .error .textNotGiven
  | some chunk :: rest => do
    let shown := String.ofList (Text.quoted chunk.toList)
    let s := note mode s ["loading environment chunk " ++ shown]
    match env.loadText chunk.toList with
    | (_, some failure) => return (← complainOf s "" failure, none)
    | (env, none) => loadChunks mode s env rest

/-- What is rendered of the templates so far: the session, the environment, the output, and whether
a template has failed. -/
structure Progress where
  session : Session
  env : Environment
  output : Output
  failed : Bool

/-- Writes a text to an output, which may be a file, and tells what fails. -/
def writeText (s : Session) (file : Option String) (output : Output) (text : String) :
    Session × Output × Option Cause :=
  match file with
  | none => (s, output.write text)
  | some path =>
    let (tree, written) := s.tree.writeOutput path output text
    ({ s with tree := tree }, written)

/-- Renders the template of a file.  Its text is written to the output, which may be a file, only
if nothing fails. -/
def renderFile (mode : Mode) (file : Option String) (p : Progress) (path : String) :
    Except Fault Progress := do
  let s := note mode p.session ["rendering " ++ path]
  match s.tree.readTemplate path mode.encoding with
  | .error failure =>
    return { p with session := ← complainOf s (aboutFile path) failure, failed := true }
  | .ok template =>
    let rendering := template.renderTo mode.level p.env .unlimited
    let s := note mode s rendering.lines
    let p := { p with session := s, env := rendering.env }
    match rendering.failure with
    | some failure =>
      return { p with session := ← complainOf s (aboutFile path) failure, failed := true }
    | none =>
      let (s, output, cause?) := writeText s file p.output rendering.text
      let p := { p with output := output }
      match cause? with
      | some cause =>
        return { p with session := ← complainOf s (aboutFile path) (.of cause), failed := true }
      | none => return { p with session := s }

/-- What a run leaves: its exit status, what it has written to the standard output and to the error
stream, and the files. -/
structure Report where
  exit : Nat
  stdout : List UInt8
  stderr : String
  tree : FileTree

/-- The report of a run that has failed without output. -/
def Session.failed (s : Session) : Report :=
  ⟨1, [], s.said, s.tree⟩

/-- Opens the output of a run: a file, or the standard output. -/
def openOutput (mode : Mode) (s : Session) : Option String → Session × Except Failure Output
  | some path =>
    let (tree, opened) := s.tree.openOutput path mode.encoding
    ({ s with tree := tree }, opened)
  | none =>
    match mode.encoding.codec? with
    | none =>
      (s, .error (.of (.standardOutputFailed (FileTree.unknownEncoding mode.encoding.name))))
    | some codec => (s, .ok (.fresh "<stdout>" ⟨none, some codec, none⟩ .detach))

/-- The report of a run whose templates are all rendered. -/
def finish (path : Option String) (p : Progress) : Report :=
  let exit := if p.failed then 1 else 0
  match path with
  | some path =>
    ⟨exit, [], p.session.said, p.session.tree.closeOutput path (p.output.close).1⟩
  | none => ⟨exit, FileTree.bytesOf (p.output.close).1, p.session.said, p.session.tree⟩

/-- A text that is given and not empty. -/
def given (text : Option String) : Option String :=
  text.filter fun t => !t.isEmpty

/-- The session at the start of a run.  The file for the trace is emptied, if there is one. -/
def begin (mode : Mode) (settings : Settings) (tree : FileTree) : Except Fault Session :=
  match given settings.debugFile with
  | some path =>
    if mode.level = 0 then .ok ⟨tree, "", none⟩
    else if FileTree.holdsNull path then .error .nullInPath
    else
      match tree.clear path with
      | .ok tree => .ok ⟨tree, "", some ⟨path, 0⟩⟩
      | .error problem => .error (.traceFile path problem)
  | none => .ok ⟨tree, "", none⟩

/-- The encoding of the files of a run. -/
def encodingOf (codecs : String → Option Codec) (settings : Settings) : Encoding :=
  let name := (given settings.encoding).getD defaultEncoding
  ⟨name, codecs name⟩

/-- Runs the command on some files, with the encodings that there are. -/
def run (codecs : String → Option Codec) (settings : Settings) (tree : FileTree) :
    Except Fault Report := do
  let mode : Mode := ⟨settings.verbosity, encodingOf codecs settings⟩
  let s ← begin mode settings tree
  let env := if settings.filters then Environment.empty.withFilters else .empty
  match ← loadFiles mode s env settings.envFiles with
  | (s, none) => return s.failed
  | (s, some env) =>
    match ← loadChunks mode s env settings.envChunks with
    | (s, none) => return s.failed
    | (s, some env) =>
      let path := given settings.output
      match openOutput mode s path with
      | (s, .error failure) => return (← complainOf s "" failure).failed
      | (s, .ok output) =>
        let p ← settings.templates.foldlM (renderFile mode path) ⟨s, env, output, false⟩
        return finish path p

end Stencil.CommandLine
