import Stencil.FileTree.Backlog
import Stencil.FileTree.Basic
import Stencil.Output
import Stencil.Stream
import Stencil.Template.Reading

/-!
# FileTree — Opening

Files opened as streams and outputs.  A file that is opened for writing is emptied at once, even
when its encoding turns out to be unknown; what is written to it arrives there little by little
(`Backlog`), and the rest of it when it is closed.
-/

namespace Stencil

/-- An encoding that is asked for: its name, and what it is, if there is one of that name. -/
structure Encoding where
  name : String
  codec? : Option Codec

namespace FileTree

/-- Why a name stands for no encoding. -/
def unknownEncoding (name : String) : String :=
  "unknown encoding: " ++ name

/-- The path holds the null character. -/
def holdsNull (path : String) : Bool :=
  path.toList.contains '\x00'

/-- The text in the file that a path leads to. -/
def openStream (t : FileTree) (path : String) (encoding : Encoding) : Except Failure Stream :=
  if holdsNull path then .error (.fault .nullInPath)
  else match t.read path, encoding.codec? with
    | .error problem, _ => .error (.of (.openFailed path (problem.message path)))
    | .ok _, none => .error (.of (.openFailed path (unknownEncoding encoding.name)))
    | .ok bytes, some codec =>
      let (chunks, failure) := codec.pieces bytes
      .ok (.ofChunks path chunks failure)

/-- An output into the file that a path leads to. -/
def openOutput (t : FileTree) (path : String) (encoding : Encoding) :
    FileTree × Except Failure Output :=
  if holdsNull path then (t, .error (.fault .nullInPath))
  else match t.clear path with
    | .error problem => (t, .error (.of (.openForWritingFailed path (problem.message path))))
    | .ok emptied =>
      match encoding.codec? with
      | none => (emptied, .error (.of (.openForWritingFailed path (unknownEncoding encoding.name))))
      | some codec => (emptied, .ok (.fresh path ⟨none, some codec, none⟩ .close))

/-- The bytes that an output has taken.  Without an encoding there are none. -/
def bytesOf (out : Output) : List UInt8 :=
  match out.sink.codec with
  | none => []
  | some codec => codec.bytes out.seen

/-- How far the bytes have got that an encoder has made of all texts it has seen, the latest of
which is the first. -/
def backlog (codec : Codec) : List String → Backlog
  | [] => .start
  | text :: before =>
    match codec.encode before text with
    | .ok bytes => (backlog codec before).add bytes.length
    | .error _ => backlog codec before

/-- How many of the bytes that an output has taken have arrived in its file before it is closed. -/
def arrived (out : Output) : Nat :=
  match out.sink.codec with
  | none => 0
  | some codec => (backlog codec out.seen).arrived

/-- The tree after more bytes of an output have arrived in the file that a path leads to: those
from one offset up to another. -/
def deliver (t : FileTree) (path : String) (out : Output) (start stop : Nat) : FileTree :=
  match t.writeAt path start (((bytesOf out).take stop).drop start) with
  | .ok written => written
  | .error _ => t

/-- Writes a text to an output into the file that a path leads to, and tells what fails. -/
def writeOutput (t : FileTree) (path : String) (out : Output) (text : String) :
    FileTree × Output × Option Cause :=
  match out.write text with
  | (refused, some cause) => (t, refused, some cause)
  | (written, none) => (t.deliver path written (arrived out) (arrived written), written, none)

/-- The tree after an output into the file that a path leads to is closed. -/
def closeOutput (t : FileTree) (path : String) (out : Output) : FileTree :=
  t.deliver path out (arrived out) (bytesOf out).length

/-- The template in the file that a path leads to. -/
def readTemplate (t : FileTree) (path : String) (encoding : Encoding) :
    Except Failure Template := do
  let s ← t.openStream path encoding
  Template.scanner.read s

end FileTree

end Stencil
