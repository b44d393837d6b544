import Stencil.Encoding.Delivery

/-!
# Encoding — Codec

An encoding as files and outputs use it.  A file is delivered in pieces; texts are written one
behind the other by the same encoder, so that the bytes of a text may depend on the texts before it.
Which encodings there are, and by which names they go, is left to whoever runs the engine; the
standard ones are those of `Charset`.
-/

namespace Stencil

/-- An encoding.  To `encode` a text behind others, the latest of which is the first, gives its
bytes or the reason why it has none.  The `pieces` of some bytes are the texts in which a file of
them is delivered, and the reason why that breaks off, if it does. -/
structure Codec where
  encode : List String → String → Except String (List UInt8)
  pieces : List UInt8 → List (List Char) × Option String

namespace Codec

/-- The bytes that an encoder has made of all texts it has seen, the latest of which is the first.
It makes none of a text that has none. -/
def bytes (codec : Codec) : List String → List UInt8
  | [] => []
  | text :: before => codec.bytes before ++ (codec.encode before text).toOption.getD []

end Codec

/-- A standard encoding.  Its mark stands in front of the first text that is written. -/
def Charset.codec (charset : Charset) : Codec where
  encode before text :=
    match charset.encode text.toList with
    | .ok bytes => .ok (if before.isEmpty then charset.mark ++ bytes else bytes)
    | .error fault => .error fault.text
  pieces bytes :=
    let (chunks, fault) := charset.pieces bytes
    (chunks, fault.map Fault.text)

/-- The standard encodings, by their names. -/
def Codec.standard (name : String) : Option Codec :=
  (Charset.ofName? name).map Charset.codec

end Stencil
