import Stencil.Fault

/-!
# FileTree — Basic

Files and the directories they lie in, as far as they matter to a run: what can be read, and what
has been written.  A path is followed name by name; every name but the last has to be that of a
directory.
-/

namespace Stencil

/-- A place in a tree, given by the names that lead to it from the working directory or, if the
first one is a stroke, from the root. -/
abbrev Place := List String

/-- Directories, which are nodes without content, and files.  A directory in which a file lies need
not be listed. -/
structure FileTree where
  nodes : List (Place × Option (List UInt8))

namespace FileTree

/-- A tree without files. -/
def empty : FileTree := ⟨[]⟩

/-- The names in a path. -/
def names (path : String) : List String :=
  match (path.splitToList (· == '/')) with
  | "" :: rest => if rest.isEmpty then [] else "/" :: rest
  | names => names

/-- The content of the file at a place. -/
def content? (t : FileTree) (here : Place) : Option (List UInt8) :=
  (t.nodes.lookup here).join

/-- There is a directory at a place. -/
def isDirectory (t : FileTree) (here : Place) : Bool :=
  here.all (· == "..") || here == ["/"] ||
    t.nodes.any fun (place, content) =>
      (place == here && content.isNone) || (here.isPrefixOf place && here.length < place.length)

/-- The place one level up. -/
def parent (here : Place) : Place :=
  match here.getLast? with
  | none => [".."]
  | some ".." => here ++ [".."]
  | some "/" => here
  | some _ => here.dropLast

/-- The greatest number of bytes in the name of a file. -/
def nameLimit : Nat := 255

/-- Paths of so many bytes and more are followed nowhere. -/
def pathLimit : Nat := 4096

/-- The place that is reached by following names. -/
def follow (t : FileTree) (here : Place) : List String → Except PathProblem Place
  | [] => .ok here
  | name :: rest =>
    if (t.content? here).isSome then .error .notDirectory
    else if name = "" ∨ name = "." then follow t here rest
    else if name = ".." then follow t (parent here) rest
    else if nameLimit < name.utf8ByteSize then .error .tooLong
    else
      let next := here ++ [name]
      if (t.content? next).isSome || t.isDirectory next then follow t next rest
      else .error .missing

/-- The places that following names from a place passes, whether or not they exist. -/
def passed (here : Place) : List String → List Place
  | [] => []
  | name :: rest =>
    if name = "" ∨ name = "." then passed here rest
    else if name = ".." then passed (parent here) rest
    else (here ++ [name]) :: passed (here ++ [name]) rest

/-- The content of the file that a path leads to. -/
def read (t : FileTree) (path : String) : Except PathProblem (List UInt8) :=
  if path.isEmpty then .error .missing
  else if pathLimit ≤ path.utf8ByteSize then .error .tooLong
  else do
    let here ← t.follow [] (names path)
    match t.content? here with
    | some bytes => return bytes
    | none => throw .isDirectory

/-- The place of the file that a path leads to, which may be new. -/
def target (t : FileTree) (path : String) : Except PathProblem Place :=
  let reversed := (names path).reverse
  let trailing := reversed.head? == some ""
  if pathLimit ≤ path.utf8ByteSize then .error .tooLong
  else match reversed.dropWhile (· == "") with
    | [] => .error (if path.isEmpty then .missing else .isDirectory)
    | last :: directories => do
      let here ← t.follow [] directories.reverse
      if (t.content? here).isSome then throw .notDirectory
      else if trailing || last == "." || last == ".." || last == "/" ||
        t.isDirectory (here ++ [last]) then throw .isDirectory
      else if nameLimit < last.utf8ByteSize then throw .tooLong
      else return here ++ [last]

/-- The tree with content at a place. -/
def put (t : FileTree) (here : Place) (bytes : List UInt8) : FileTree :=
  if (t.nodes.lookup here).isSome then
    ⟨t.nodes.map fun node => if node.1 == here then (here, some bytes) else node⟩
  else ⟨t.nodes ++ [(here, some bytes)]⟩

/-- The tree with nothing in the file that a path leads to, which may be new. -/
def clear (t : FileTree) (path : String) : Except PathProblem FileTree := do
  return t.put (← t.target path) []

/-- Content with bytes put in at an offset, in place of those there.  What lies between the end of
the old content and the offset is filled with zeros, unless nothing is put in. -/
def overwrite (old : List UInt8) (offset : Nat) (bytes : List UInt8) : List UInt8 :=
  if bytes.isEmpty then old
  else old.take offset ++ List.replicate (offset - old.length) 0 ++ bytes ++
    old.drop (offset + bytes.length)

/-- The tree with bytes put in at an offset of the file that a path leads to. -/
def writeAt (t : FileTree) (path : String) (offset : Nat) (bytes : List UInt8) :
    Except PathProblem FileTree := do
  let here ← t.target path
  return t.put here (overwrite ((t.content? here).getD []) offset bytes)

/-- The path of a place. -/
def pathOf (place : Place) : String :=
  "/".intercalate place

theorem overwrite_end (old bytes : List UInt8) : overwrite old old.length bytes = old ++ bytes := by
  cases bytes <;> simp [overwrite]

/-- The files of a tree, each with its path. -/
def files (t : FileTree) : List (String × List UInt8) :=
  t.nodes.filterMap fun (place, content) => content.map fun bytes => (pathOf place, bytes)

/-- The tree of some files, given by their paths. -/
def ofFiles (files : List (String × List UInt8)) : FileTree :=
  ⟨files.map fun (path, bytes) => (names path, some bytes)⟩

end FileTree

end Stencil
