import Stencil.CommandLine.Run

/-!
# Main

The command.  The files that a run may read are read before it starts, and those it has changed are
written after it has ended; what it does with them is decided without input and output.
-/

namespace Stencil.Main

open CommandLine

/-- The help text of the command. -/
def helpText : String :=
  "usage: " ++ commandName ++ " [-h] [-v] [-e FILE] [-c TEXT] [-o FILE] [--encoding ENC]\n" ++
  "             [--debug-file FILE] [--no-filters] TEMPLATE [TEMPLATE ...]\n\n" ++
  "  -v, --verbose      trace the run; more of it if repeated\n" ++
  "  -e, --env-file     load an environment description from a file\n" ++
  "  -c, --env-chunk    load an environment description from the argument\n" ++
  "  -o, --output       write to a file instead of the standard output\n" ++
  "  --encoding         the encoding of all files\n" ++
  "  --debug-file       write the trace to a file instead of the error stream\n" ++
  "  --no-filters       start without the stock filters\n"

/-- The paths that a run may read or write. -/
def paths (settings : Settings) : List String :=
  settings.envFiles.filterMap id ++ settings.templates ++ settings.output.toList ++
    settings.debugFile.toList

/-- Looks for a file or a directory at a place. -/
def look (place : Place) : IO (List (Place × Option (List UInt8))) := do
  match ← (IO.FS.readBinFile (FileTree.pathOf place)).toBaseIO with
  | .ok bytes => return [(place, some bytes.toList)]
  | .error (.inappropriateType _ code _) => return if code = 21 then [(place, none)] else []
  | .error (.noFileOrDirectory ..) | .error (.invalidArgument ..) => return []
  | .error problem => throw problem

/-- The files and directories at the paths that a run may read or write. -/
def gather (settings : Settings) : IO FileTree := do
  let places := (paths settings).flatMap fun path => FileTree.passed [] (FileTree.names path)
  return ⟨(← places.eraseDups.mapM look).flatten⟩

/-- Writes the files that have changed. -/
def scatter (before after : FileTree) : IO Unit := do
  for (place, content) in after.nodes do
    if before.nodes.lookup place != some content then
      match content with
      | some bytes => IO.FS.writeBinFile (FileTree.pathOf place) ⟨bytes.toArray⟩
      | none => pure ()

/-- Runs the command with its settings. -/
def perform (settings : Settings) : IO UInt32 := do
  let before ← gather settings
  match run Codec.standard settings before with
  | .error fault =>
    (← IO.getStderr).putStrLn fault.message
    return 1
  | .ok report =>
    scatter before report.tree
    (← IO.getStderr).putStr report.stderr
    (← IO.getStdout).write ⟨report.stdout.toArray⟩
    return UInt32.ofNat report.exit

end Stencil.Main

/-- Runs the command. -/
def main (args : List String) : IO UInt32 := do
  match Stencil.Arguments.read args with
  | .run settings => Stencil.Main.perform settings
  | .help =>
    (← IO.getStdout).putStr Stencil.Main.helpText
    return 0
  | .misuse =>
    (← IO.getStderr).putStr Stencil.Main.helpText
    return 2
