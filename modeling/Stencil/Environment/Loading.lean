import Stencil.Description.Assignment
import Stencil.Description.Statement
import Stencil.Environment.Basic

/-!
# Environment — Loading

An environment is filled from a description statement by statement.  Each statement takes effect
before the next one is read, so that a failure leaves what came before it in place.
-/

namespace Stencil.Environment

open Description

/-- The environment after the statements of a stream, up to the first that fails, and how it
fails. -/
def load (env : Environment) (s : Stream) : Environment × Option Failure :=
  match _h : statement.run s with
  | .error f _ => (env, some f)
  | .ok none _ => (env, none)
  | .ok (some (start, text)) rest =>
    match assignment start text with
    | .error f => (env, some f)
    | .ok (name, v) => load (env.push name v) rest
termination_by s.size
decreasing_by exact consumes_statement ‹_›

/-- The name of a description that is given as a text. -/
def streamName : String := "environment description"

/-- The environment after the statements of a text, up to the first that fails, and how it
fails. -/
def loadText (env : Environment) (text : List Char) : Environment × Option Failure :=
  env.load (.ofText streamName text)

end Stencil.Environment
