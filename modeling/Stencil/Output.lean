import Stencil.Encoding.Codec
import Stencil.Error

/-!
# Output

The place that rendered text goes to.  An output takes texts one by one; it may be out of room, it
may have no bytes for some text, and it may be unable to pass on what it has taken.  A text that is
refused leaves no trace but in the encoder, which has seen it.
-/

namespace Stencil

/-- What becomes of the sink behind an output when the output is closed: it is flushed and kept,
flushed and let go, or closed. -/
inductive SinkEnd where
  | keep
  | detach
  | close
deriving DecidableEq, Repr

/-- The limits of a sink: how many texts it takes and why no more, in which encoding it keeps text,
and why it cannot be flushed. -/
structure Sink where
  room : Option (Nat × String)
  codec : Option Codec
  flushFault : Option String

/-- A sink without limits. -/
def Sink.unlimited : Sink := ⟨none, none, none⟩

/-- An output with its name, its sink, what becomes of the sink in the end, the texts that it has
taken, those that its encoder has seen, both with the latest first, and how the sink has ended so
far. -/
structure Output where
  name : String
  sink : Sink
  ending : SinkEnd
  taken : List String
  seen : List String
  ended : List SinkEnd

namespace Output

/-- The name of an output that is given none. -/
def defaultName : String := "<output>"

/-- An output without texts. -/
def fresh (name : String) (sink : Sink) (ending : SinkEnd) : Output :=
  ⟨name, sink, ending, [], [], []⟩

/-- An output that takes any text. -/
def unlimited : Output :=
  fresh defaultName .unlimited .keep

/-- The texts that an output has taken, in order. -/
def texts (out : Output) : List String :=
  out.taken.reverse

/-- All that an output has taken. -/
def text (out : Output) : String :=
  String.join out.texts

/-- Why an output refuses a text, if it does. -/
def refusal? (out : Output) (text : String) : Option String :=
  match out.sink.room with
  | some (n, reason) => if n ≤ out.taken.length then some reason else unencodable
  | none => unencodable
where
  /-- Why a text cannot be kept in the encoding of the sink. -/
  unencodable : Option String :=
    match out.sink.codec with
    | none => none
    | some codec =>
      match codec.encode out.seen text with
      | .ok _ => none
      | .error reason => some reason

/-- Shows a text to the encoder, if there is one. -/
def offer (out : Output) (text : String) : Output :=
  { out with seen := if out.sink.codec.isSome then text :: out.seen else out.seen }

/-- Takes a text, or refuses it and tells why. -/
def write (out : Output) (text : String) : Output × Option Cause :=
  match out.refusal? text with
  | some reason => (out.offer text, some (.writeFailed out.name reason))
  | none => ({ out.offer text with taken := text :: out.taken }, none)

/-- Passes on what has been taken. -/
def flush (out : Output) : Option Cause :=
  out.sink.flushFault.map fun reason => .flushFailed out.name reason

/-- Closes an output, and tells what fails.  A sink that is let go is let go once. -/
def close (out : Output) : Output × Option Cause :=
  match out.ending with
  | .close => ({ out with ended := out.ended ++ [.close] }, none)
  | .keep => (out, out.flush)
  | .detach =>
    match out.flush with
    | some cause => (out, some cause)
    | none => ({ out with ending := .keep, ended := out.ended ++ [.detach] }, none)

end Output

end Stencil
