/-!
# Encoding — UTF-8

Texts as bytes and back.  A character is a lead byte, which says how many continuation bytes it
owes and which values the first of them may take, followed by these.  Decoding stops at the first
byte that no well-formed sequence can have at its place, and says how many bytes of the spoilt
sequence were well formed; a sequence cut off by the end of the bytes is told apart from it, since
more bytes may yet complete it.
-/

namespace Stencil.Utf8

/-- The bytes of a text. -/
def encode (text : List Char) : List UInt8 :=
  text.flatMap String.utf8EncodeChar

/-- What a lead byte promises: the number of continuation bytes, the range of the first, and the
bits that the lead byte itself contributes. -/
structure Lead where
  owed : Nat
  low : Nat
  high : Nat
  bits : Nat

/-- The promise of a lead byte above the ASCII range, if it is one. -/
def lead? (byte : Nat) : Option Lead :=
  if 0xc2 ≤ byte ∧ byte ≤ 0xdf then some ⟨1, 0x80, 0xbf, byte - 0xc0⟩
  else if byte = 0xe0 then some ⟨2, 0xa0, 0xbf, 0⟩
  else if byte = 0xed then some ⟨2, 0x80, 0x9f, 0xd⟩
  else if 0xe1 ≤ byte ∧ byte ≤ 0xef then some ⟨2, 0x80, 0xbf, byte - 0xe0⟩
  else if byte = 0xf0 then some ⟨3, 0x90, 0xbf, 0⟩
  else if 0xf1 ≤ byte ∧ byte ≤ 0xf3 then some ⟨3, 0x80, 0xbf, byte - 0xf0⟩
  else if byte = 0xf4 then some ⟨3, 0x80, 0x8f, 4⟩
  else none

/-- The character at the front of some bytes: complete, with the number of its bytes; spoilt, with
the number of bytes that were well formed; or cut off by the end. -/
inductive Front where
  | char (c : Char) (width : Nat)
  | badStart
  | badContinuation (good : Nat)
  | cutOff

/-- The continuation bytes of a sequence of which `good` bytes are read and whose bits so far are
`bits`; `owed` more are to come, the next between `low` and `high`. -/
def continuation : (owed good low high bits : Nat) → List UInt8 → Front
  | 0, good, _, _, bits, _ => .char (Char.ofNat bits) good
  | _ + 1, _, _, _, _, [] => .cutOff
  | owed + 1, good, low, high, bits, b :: rest =>
    if low ≤ b.toNat ∧ b.toNat ≤ high then
      continuation owed (good + 1) 0x80 0xbf (bits * 64 + (b.toNat - 0x80)) rest
    else .badContinuation good

/-- The character at the front of a byte and those after it. -/
def front (byte : UInt8) (rest : List UInt8) : Front :=
  if byte.toNat < 0x80 then .char (Char.ofNat byte.toNat) 1
  else match lead? byte.toNat with
    | none => .badStart
    | some l => continuation l.owed 1 l.low l.high l.bits rest

/-- Why bytes are not UTF-8. -/
inductive Reason where
  | start
  | continuation
  | ended
deriving DecidableEq, Repr

/-- The words for a reason. -/
def Reason.text : Reason → String
  | .start => "invalid start byte"
  | .continuation => "invalid continuation byte"
  | .ended => "unexpected end of data"

/-- A place where bytes are not UTF-8: `count` bytes from `start` on, of which `byte` is the
first. -/
structure Fault where
  byte : UInt8
  start : Nat
  count : Nat
  reason : Reason
deriving DecidableEq, Repr

/-- The text of `bytes`, which stand at `start`, as far as it is complete, with the bytes of a
sequence cut off at the end.  The two bytes of a cut-off surrogate are kept for later as well. -/
def decodeFrom (start : Nat) (bytes : List UInt8) : Except Fault (List Char × List UInt8) :=
  match bytes with
  | [] => .ok ([], [])
  | b :: rest =>
    match front b rest with
    | .char c width => do
      let (text, pending) ← decodeFrom (start + width) (rest.drop (width - 1))
      pure (c :: text, pending)
    | .badStart => .error ⟨b, start, 1, .start⟩
    | .badContinuation good =>
      if b = 0xed ∧ good = 1 ∧ rest.length = 1 ∧ rest.all (fun r => 0xa0 ≤ r ∧ r ≤ 0xbf) then
        .ok ([], bytes)
      else .error ⟨b, start, good, .continuation⟩
    | .cutOff => .ok ([], bytes)
termination_by bytes.length
decreasing_by simp only [List.length_drop, List.length_cons]; omega

/-- What is wrong with bytes that are cut off and are not to be continued. -/
def faultAtEnd (start : Nat) : List UInt8 → Option Fault
  | [] => none
  | b :: rest =>
    match front b rest with
    | .badContinuation good => some ⟨b, start, good, .continuation⟩
    | _ => some ⟨b, start, rest.length + 1, .ended⟩

/-- The text of `bytes`, if they are UTF-8. -/
def decode (bytes : List UInt8) : Except Fault (List Char) := do
  let (text, pending) ← decodeFrom 0 bytes
  match faultAtEnd (bytes.length - pending.length) pending with
  | none => pure text
  | some fault => throw fault

end Stencil.Utf8
