import Stencil.Encoding.Charset
import Stencil.Numeral.Binary64

/-!
# Encoding — Delivery

How the bytes of a file become text.  They are read in blocks and delivered in pieces, so a byte
that has no reading spoils the piece being gathered but not the ones before it.  The bytes of a
character that a block cuts in two wait for the next block, and so does a carriage return at the
end of a block, so that it is not parted from a line feed behind it (`held_append`).
-/

namespace Stencil.Charset

/-- The number of characters in a piece of text. -/
def pieceSize : Nat := 4096

/-- The least number of bytes in a block. -/
def blockSize : Nat := 8192

/-- The pieces of full size at the front of a text, and what remains. -/
def splitPieces (text : List Char) : List (List Char) × List Char :=
  if _h : pieceSize ≤ text.length then
    let (pieces, rest) := splitPieces (text.drop pieceSize)
    (text.take pieceSize :: pieces, rest)
  else ([], text)
termination_by text.length
decreasing_by simp only [List.length_drop, pieceSize] at *; omega

/-- The size of the block to read when `missing` characters are, after a block in which `read`
bytes gave `given` characters: as many bytes as the missing characters take at that rate, which is
a floating point number and no less than one. -/
def nextBlock (missing read given : Nat) : Nat :=
  let rate := (Binary64.ofInt read).div (.ofInt given)
  max blockSize (if given < read ∧ 0 < given then (rate.mul (.ofInt missing)).wholePart
    else missing)

/-- The text of a block behind a carriage return that waits, if one does, without the carriage
return at its end; and whether one waits now.  A block without text changes nothing. -/
def hold (waits : Bool) (text : List Char) : List Char × Bool :=
  if text.isEmpty then ([], waits)
  else
    let all := if waits then '\r' :: text else text
    if all.getLast? = some '\r' then (all.dropLast, true) else (all, false)

/-- The carriage return that waits, if one does. -/
def held (waits : Bool) : List Char :=
  if waits then ['\r'] else []

theorem held_append (waits : Bool) (text : List Char) :
    (hold waits text).1 ++ held (hold waits text).2 = held waits ++ text := by
  unfold hold
  split
  · rename_i h
    simp [List.isEmpty_iff.1 h]
  · have hall : (if waits then '\r' :: text else text) = held waits ++ text := by
      cases waits <;> rfl
    simp only [hall]
    split
    · rename_i h
      obtain ⟨front, hfront⟩ := List.getLast?_eq_some_iff.1 h
      rw [hfront]
      simp [held]
    · simp [held]

/-- What is left over of the blocks read so far: the beginning of the next piece, the bytes and the
carriage return that wait, whether the text of the file has begun, and how many bytes of the last
block gave how many characters. -/
structure Leftover where
  gathered : List Char
  bytes : List UInt8
  waits : Bool
  begun : Bool
  read : Nat
  given : Nat

/-- Nothing is left over where nothing has been read. -/
def Leftover.none : Leftover := ⟨[], [], false, false, 0, 0⟩

/-- The pieces in which the rest of a file's bytes is delivered, and the fault after the last of
them, if any. -/
def piecesFrom (charset : Charset) (left : Leftover) (bytes : List UInt8) :
    List (List Char) × Option Fault :=
  match bytes with
  | [] =>
    match charset.decodeBlock left.begun true left.bytes with
    | .error fault => ([], some fault)
    | .ok decoded =>
      let last := left.gathered ++ held left.waits ++ decoded.text
      (if last.isEmpty then [] else [last], Option.none)
  | b :: rest =>
    let size := nextBlock (pieceSize - left.gathered.length) left.read left.given
    let block := b :: rest.take (size - 1)
    match charset.decodeBlock left.begun false (left.bytes ++ block) with
    | .error fault => ([], some fault)
    | .ok ⟨text, waiting, begun⟩ =>
      let (text, waits) := hold left.waits text
      let (pieces, gathered) := splitPieces (left.gathered ++ text)
      let (more, fault) :=
        piecesFrom charset ⟨gathered, waiting, waits, begun, block.length, text.length⟩
          (rest.drop (size - 1))
      (pieces ++ more, fault)
termination_by bytes.length
decreasing_by simp only [List.length_drop, List.length_cons]; omega

/-- The pieces in which a file's bytes are delivered, and the fault after the last of them. -/
def pieces (charset : Charset) (bytes : List UInt8) : List (List Char) × Option Fault :=
  piecesFrom charset .none bytes

end Stencil.Charset
