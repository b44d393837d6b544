import Stencil.Numeral.Digits
import Stencil.Text.Quoted

/-!
# Fault

Failures that the engine does not report as errors of its own: they have no error code and no
position.  Malformed data provoke them, paths that are none, and sources that are asked for without
being given.  They end whatever was being done.
-/

namespace Stencil

/-- Why a path cannot be opened. -/
inductive PathProblem where
  | missing
  | notDirectory
  | isDirectory
  | tooLong
deriving DecidableEq, Repr

/-- The number and words the operating system gives for a path problem. -/
def PathProblem.text : PathProblem → String
  | .missing => "[Errno 2] No such file or directory"
  | .notDirectory => "[Errno 20] Not a directory"
  | .isDirectory => "[Errno 21] Is a directory"
  | .tooLong => "[Errno 36] File name too long"

/-- The message that names the path with its problem. -/
def PathProblem.message (problem : PathProblem) (path : String) : String :=
  problem.text ++ ": " ++ String.ofList (Text.quoted path.toList)

/-- A failure outside the engine's own errors. -/
inductive Fault where
  /-- A text that was taken for a float has no reading as one. -/
  | malformedFloat (text : List Char)
  /-- An integer is to be read from more decimal digits than are read. -/
  | tooManyDigits (digits : Nat)
  /-- A fault at a number of a description. -/
  | inDescription (f : Fault)
  /-- A text to be read as base64 holds a character outside ASCII. -/
  | textBeyondAscii
  /-- The file for the trace cannot be opened. -/
  | traceFile (path : String) (problem : PathProblem)
  /-- A path holds the null character, which no name of a file can hold. -/
  | nullInPath
  /-- A description is to be loaded from a file, but no path is given. -/
  | pathNotGiven
  /-- A description is to be loaded from a text, but no text is given. -/
  | textNotGiven
deriving DecidableEq, Repr

/-- The message of a fault. -/
def Fault.message : Fault → String
  | .malformedFloat text =>
    "could not convert string to float: " ++ String.ofList (Text.quoted text)
  | .tooManyDigits digits =>
    "Exceeds the limit (" ++ Numeral.integerText Numeral.digitLimit ++
      " digits) for integer string conversion: value has " ++ Numeral.integerText digits ++
      " digits; use sys.set_int_max_str_digits() to increase the limit"
  | .inDescription f => "Error trying to process rule \"number\":\n\n" ++ f.message
  | .textBeyondAscii => "string argument should contain only ASCII characters"
  | .traceFile path problem => problem.message path
  | .nullInPath => "embedded null byte"
  | .pathNotGiven => "expected str, bytes or os.PathLike object, not list"
  | .textNotGiven => "initial_value must be str or None, not list"

end Stencil
