import Stencil.Text.DecimalDigits

/-!
# CommandLine — Arguments

The arguments of the command.  An argument is a word, the separator `--` behind which all are
words, or options: one by its long name, which may be cut short as long as it is unambiguous, or
several by their letters.  A value stands in the same argument or in the next word.  The separator
in the place of a value leaves the option without one (`valueOf`).  The first run of words that
belong to no option are the templates; there may be no second run.
-/

namespace Stencil

/-- The options of the command. -/
inductive CliOption where
  | help
  | verbose
  | envFile
  | envChunk
  | output
  | encoding
  | debugFile
  | noFilters
deriving DecidableEq, Repr

namespace CliOption

/-- The options with their names, short ones first. -/
def table : List (String × CliOption) :=
  [("-h", .help), ("--help", .help), ("-v", .verbose), ("--verbose", .verbose), ("-e", .envFile),
    ("--env-file", .envFile), ("-c", .envChunk), ("--env-chunk", .envChunk), ("-o", .output),
    ("--output", .output), ("--encoding", .encoding), ("--debug-file", .debugFile),
    ("--no-filters", .noFilters)]

/-- The option of a name. -/
def ofName? (name : List Char) : Option CliOption :=
  (table.find? fun entry => entry.1.toList == name).map Prod.snd

/-- The option has a value. -/
def takesValue : CliOption → Bool
  | .help | .verbose | .noFilters => false
  | .envFile | .envChunk | .output | .encoding | .debugFile => true

end CliOption

/-- What a run is asked to do.  An environment file or chunk may be asked for without being
given. -/
structure Settings where
  verbosity : Nat
  envFiles : List (Option String)
  envChunks : List (Option String)
  output : Option String
  encoding : Option String
  debugFile : Option String
  filters : Bool
  templates : List String
deriving DecidableEq, Repr

/-- What the arguments come to: settings for a run, a request for help, or a misuse. -/
inductive Arguments where
  | run (settings : Settings)
  | help
  | misuse
deriving DecidableEq, Repr

namespace Arguments

open Text

/-- An argument by its form.  What is attached to the name of an option, or to the sign of equality
behind it, may be its value, or the letters of further options. -/
inductive Form where
  | word (text : String)
  | separator
  | named (long : Bool) (option : CliOption) (attached : Option (List Char))
  | unknown

/-- A text before the first sign of equality, and what is behind it. -/
def splitEquals (text : List Char) : List Char × Option (List Char) :=
  match text.dropWhile (· != '=') with
  | [] => (text, none)
  | _ :: value => (text.takeWhile (· != '='), some value)

/-- Digits up to the end of an argument, or up to a line feed that ends it. -/
def isFigures (text : List Char) : Bool :=
  !(text.takeWhile isDecimal).isEmpty &&
    (text.dropWhile isDecimal == [] || text.dropWhile isDecimal == ['\n'])

/-- A minus sign and a decimal number behind it, in the digits of any script, of which at least the
digits behind the point are there if the point is. -/
def isNegativeNumber : List Char → Bool
  | '-' :: text =>
    isFigures text ||
      match text.dropWhile isDecimal with
      | '.' :: fraction => isFigures fraction
      | _ => false
  | _ => false

/-- An argument that starts with a minus sign but belongs to no option. -/
def foreign (text : List Char) : Form :=
  if isNegativeNumber text || text.contains ' ' then .word (String.ofList text) else .unknown

/-- The form of an argument that starts with two minus signs and is not the name of an option.
There may be several options that it is short for; then it has none. -/
def longForm? (text : List Char) : Option Form :=
  let (name, attached) := splitEquals text
  match CliOption.table.filter fun entry => name.isPrefixOf entry.1.toList with
  | [] => some (foreign text)
  | [entry] => some (.named true entry.2 attached)
  | _ => none

/-- The form of an argument before the separator.  An ambiguous one has none. -/
def form? (argument : String) : Option Form :=
  match argument.toList with
  | '-' :: second :: rest =>
    let text := '-' :: second :: rest
    let (name, attached) := splitEquals text
    let long := second == '-'
    if text = ['-', '-'] then some .separator
    else match CliOption.ofName? text, CliOption.ofName? name, attached with
      | some option, _, _ => some (.named long option none)
      | none, some option, some attached => some (.named long option (some attached))
      | none, _, _ =>
        if long then longForm? text
        else match CliOption.ofName? ['-', second] with
          | some option => some (.named false option (some rest))
          | none => some (foreign text)
  | _ => some (.word argument)

/-- The forms of all arguments, unless one is ambiguous. -/
def forms? : List String → Option (List Form)
  | [] => some []
  | argument :: rest =>
    match form? argument with
    | none => none
    | some .separator => some (.separator :: rest.map .word)
    | some form => (forms? rest).map (form :: ·)

/-- Options given by one argument: those that have no value, and the one that has a value, which is
attached to it or stands in the next argument. -/
structure Cluster where
  plain : List CliOption
  valued : Option (CliOption × Option (List Char))

/-- The options given by an argument, of which `option` is the first.  There are none if something
is attached to an option that can have nothing. -/
def cluster? (long : Bool) (option : CliOption) (attached : Option (List Char)) : Option Cluster :=
  if option.takesValue then some ⟨[], some (option, attached)⟩
  else
    match attached with
    | none => some ⟨[option], none⟩
    | some text => if long || text.isEmpty then none else letters option text
where
  /-- The options given by letters behind `option`, which has no value. -/
  letters (option : CliOption) : List Char → Option Cluster
    | [] => some ⟨[option], none⟩
    | letter :: rest =>
      match CliOption.ofName? ['-', letter] with
      | none => none
      | some next =>
        if next.takesValue then
          some ⟨[option], some (next, if rest.isEmpty then none else some rest)⟩
        else (letters next rest).map fun c => { c with plain := option :: c.plain }

/-- Arguments as far as they are read: the settings, whether the templates are among them, and
whether there have been arguments that mean nothing. -/
structure Progress where
  settings : Settings
  placed : Bool
  excess : Bool

/-- No arguments. -/
def Progress.start : Progress :=
  ⟨⟨0, [], [], none, none, none, true, []⟩, false, false⟩

/-- The settings with one more option. -/
def withPlain (s : Settings) : CliOption → Settings
  | .verbose => { s with verbosity := s.verbosity + 1 }
  | .noFilters => { s with filters := false }
  | _ => s

/-- The settings with one more option that can have a value. -/
def withValue (s : Settings) (value : Option String) : CliOption → Settings
  | .envFile => { s with envFiles := s.envFiles ++ [value] }
  | .envChunk => { s with envChunks := s.envChunks ++ [value] }
  | .output => { s with output := value }
  | .encoding => { s with encoding := value }
  | .debugFile => { s with debugFile := value }
  | _ => s

/-- The value that a text attached to an option gives it.  The separator gives none. -/
def valueOf (text : List Char) : Option String :=
  if text = ['-', '-'] then none else some (String.ofList text)

/-- The value that options of one argument have, if one of them has any, and how many of the
arguments behind are taken up by it.  There is nothing if a value is wanting. -/
def Cluster.value? (c : Cluster) (rest : List Form) : Option (Option String × Nat) :=
  match c.valued, rest with
  | none, _ => some (none, 0)
  | some (_, some text), _ => some (valueOf text, 0)
  | some (_, none), .word value :: _ => some (some value, 1)
  | some (_, none), _ => none

/-- The arguments as read after the options of one argument. -/
def Progress.add (p : Progress) (c : Cluster) (value : Option String) : Progress :=
  let plain := c.plain.foldl withPlain p.settings
  match c.valued with
  | some (option, _) => { p with settings := withValue plain value option }
  | none => { p with settings := plain }

/-- The words in some forms.  The separator is none. -/
def words (forms : List Form) : List String :=
  forms.filterMap fun
    | .word text => some text
    | _ => none

/-- The form belongs to a run of words. -/
def Form.inRun : Form → Bool
  | .word _ | .separator => true
  | _ => false

/-- The arguments as read after a run of words. -/
def Progress.place (p : Progress) (run : List Form) : Progress :=
  if p.placed || (words run).isEmpty then { p with excess := true }
  else { p with settings := { p.settings with templates := words run }, placed := true }

/-- Reads the arguments by their forms. -/
def readFrom (p : Progress) : List Form → Arguments
  | [] => if p.placed && !p.excess then .run p.settings else .misuse
  | .unknown :: rest => readFrom { p with excess := true } rest
  | .named long option attached :: rest =>
    match cluster? long option attached with
    | none => .misuse
    | some c =>
      match c.value? rest with
      | none => .misuse
      | some (value, n) =>
        if c.plain.contains .help then .help else readFrom (p.add c value) (rest.drop n)
  | form :: rest =>
    readFrom (p.place (form :: rest.takeWhile Form.inRun)) (rest.dropWhile Form.inRun)
termination_by forms => forms.length
decreasing_by
  · simp
  · simp only [List.length_drop, List.length_cons]
    omega
  · exact Nat.lt_succ_of_le (List.dropWhile_sublist _).length_le

/-- What some arguments come to. -/
def read (arguments : List String) : Arguments :=
  match forms? arguments with
  | none => .misuse
  | some forms => readFrom .start forms

end Arguments

end Stencil
