import Stencil.Encoding.Base64
import Stencil.Encoding.Charset
import Stencil.Encoding.Escape
import Stencil.Error
import Stencil.Text.Casing

/-!
# Filter — Application

What filters make of a value.  The stock filters work on the text of the value, except that the
length of an array is the number of its items.
-/

namespace Stencil

/-- The text that base64 text stands for, which has to be UTF-8. -/
def decodeBase64 (v : Value) : Except Failure Value :=
  let text := v.text.toList
  if text.any (fun c => 0x80 ≤ c.toNat) then .error (.fault .textBeyondAscii)
  else
    match Base64.decode text with
    | .error fault => .error (.of (.undecodable v fault.text))
    | .ok bytes =>
      match Utf8.decode bytes with
      | .error fault => .error (.of (.undecodable v (Charset.ofUtf8 fault).text))
      | .ok decoded => .ok (.string (String.ofList decoded))

/-- What a stock filter makes of a value. -/
def StockFilter.apply (f : StockFilter) (v : Value) : Except Failure Value :=
  let text := v.text.toList
  match f with
  | .xmlentities => .ok (.string (String.ofList (Escape.entities text)))
  | .urlencode => .ok (.string (String.ofList (Escape.percent text)))
  | .base64encode => .ok (.string (String.ofList (Base64.encode (Utf8.encode text))))
  | .base64decode => decodeBase64 v
  | .upper => .ok (.string (String.ofList (Text.upper text)))
  | .lower => .ok (.string (String.ofList (Text.lower text)))
  | .length => .ok (.integer (match v with | .array items => items.length | _ => text.length))

/-- What a filter makes of a value.  The plain object that a filter answers has to have a value. -/
def Filter.apply (f : Filter) (v : Value) : Except Failure Value :=
  match f with
  | .stock f => f.apply v
  | .given name answer =>
    match (answer v.argument).toValue with
    | .ok result => .ok result
    | .error obstacle => .error (.of (.badFilterResult name obstacle))

/-- Applies the second value, which has to be a filter, to the first. -/
def Value.pipe (a b : Value) : Except Failure Value :=
  match b with
  | .filter f => f.apply a
  | b => .error (.of (.notAFilter b))

end Stencil
