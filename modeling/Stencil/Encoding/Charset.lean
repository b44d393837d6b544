import Stencil.Encoding.Utf8
import Stencil.Numeral.Digits
import Stencil.Text.Quoted

/-!
# Encoding — Charset

The standard encodings of files and of the standard output: UTF-8, UTF-8 behind a byte order mark,
Latin-1 and ASCII.  Latin-1 and ASCII write each character as the byte of its code point and differ
in how many they have.  Each encoding is known by one or more names; the one that messages give is
among them (`Charset.ofName?_name`).
-/

namespace Stencil

/-- An encoding of texts as bytes. -/
inductive Charset where
  | utf8
  | utf8Marked
  | latin1
  | ascii
deriving DecidableEq, Repr

namespace Charset

/-- The name of an encoding in messages. -/
def name : Charset → String
  | .utf8 => "utf-8"
  | .utf8Marked => "utf-8-sig"
  | .latin1 => "latin-1"
  | .ascii => "ascii"

/-- A name in normal form: letters in lower case, digits and points, and an underscore for whatever
stands between them.  `inside` says that such a character stands before, `apart` that something
else has come since. -/
def normalFrom (inside apart : Bool) : List Char → List Char
  | [] => []
  | c :: rest =>
    if c.isAlphanum || c == '.' then
      let tail := c.toLower :: normalFrom true false rest
      if inside && apart then '_' :: tail else tail
    else normalFrom inside true rest

/-- The normal form of a name. -/
def normalName (name : String) : List Char :=
  normalFrom false false name.toList

/-- The proper names of the encodings, in normal form. -/
def properNames : List (String × Charset) :=
  [("utf_8", utf8), ("utf_8_sig", utf8Marked), ("latin_1", latin1), ("ascii", ascii)]

/-- Other names of the encodings, in normal form. -/
def otherNames : List (String × Charset) :=
  [("u8", utf8), ("utf", utf8), ("utf8", utf8), ("utf8_ucs2", utf8), ("utf8_ucs4", utf8),
    ("cp65001", utf8), ("8859", latin1), ("cp819", latin1), ("csisolatin1", latin1),
    ("ibm819", latin1), ("iso8859", latin1), ("iso8859_1", latin1), ("iso_8859_1", latin1),
    ("iso_8859_1_1987", latin1), ("iso_ir_100", latin1), ("l1", latin1), ("latin", latin1),
    ("latin1", latin1), ("646", ascii), ("ansi_x3.4_1968", ascii), ("ansi_x3_4_1968", ascii),
    ("ansi_x3.4_1986", ascii), ("cp367", ascii), ("csascii", ascii), ("ibm367", ascii),
    ("iso646_us", ascii), ("iso_646.irv_1991", ascii), ("iso_ir_6", ascii), ("us", ascii),
    ("us_ascii", ascii)]

/-- The encoding that a list of names gives to a name in normal form. -/
def among? (names : List (String × Charset)) (name : List Char) : Option Charset :=
  (names.find? fun entry => entry.1.toList == name).map Prod.snd

/-- The encoding of that name.  Case and the kind of separators do not matter, and in names other
than the proper ones a point may be one. -/
def ofName? (name : String) : Option Charset :=
  let normal := normalName name
  among? otherNames normal <|>
    among? otherNames (normal.map fun c => if c = '.' then '_' else c) <|>
    among? properNames normal

theorem ofName?_name (charset : Charset) : ofName? charset.name = some charset := by
  cases charset <;> decide

/-- The number of characters of an encoding. -/
def capacity : Charset → Nat
  | .utf8 | .utf8Marked => 0x110000
  | .latin1 => 256
  | .ascii => 128

/-- The words for a character or byte that a one-byte encoding does not have. -/
def outside (charset : Charset) : String :=
  "ordinal not in range(" ++ Numeral.integerText charset.capacity ++ ")"

/-- Bytes that an encoding cannot read, or characters that it cannot write. -/
structure Fault where
  charset : Charset
  subject : String
  start : Nat
  count : Nat
  reason : String
deriving DecidableEq, Repr

/-- The places of a fault: one position, or the first and last of several. -/
def Fault.place (fault : Fault) : String :=
  if fault.count = 1 then Numeral.integerText fault.start
  else Numeral.integerText fault.start ++ "-" ++
    Numeral.integerText (fault.start + fault.count - 1)

/-- The message of a fault. -/
def Fault.text (fault : Fault) : String :=
  "'" ++ fault.charset.name ++ "' codec can't " ++ fault.subject ++ " in position " ++
    fault.place ++ ": " ++ fault.reason

/-- The fault of `count` unreadable bytes from `start` on. -/
def unreadable (charset : Charset) (byte : UInt8) (start count : Nat) (reason : String) : Fault :=
  let subject :=
    if count = 1 then "decode byte 0x" ++ String.ofList (Text.hexPlaces 2 byte.toNat)
    else "decode bytes"
  ⟨charset, subject, start, count, reason⟩

/-- The fault of `count` characters from `start` on that cannot be written, the first being `c`. -/
def unwritable (charset : Charset) (c : Char) (start count : Nat) : Fault :=
  let subject :=
    if count = 1 then "encode character '" ++ String.ofList (Text.escapeCode c.toNat) ++ "'"
    else "encode characters"
  ⟨charset, subject, start, count, charset.outside⟩

/-- The fault of bytes that are not UTF-8. -/
def ofUtf8 (fault : Utf8.Fault) : Fault :=
  unreadable .utf8 fault.byte fault.start fault.count fault.reason.text

/-- The characters of a one-byte encoding, which stand at `start`. -/
def decodeBytes (charset : Charset) (start : Nat) : List UInt8 → Except Fault (List Char)
  | [] => .ok []
  | b :: rest =>
    if b.toNat < charset.capacity then do
      let text ← decodeBytes charset (start + 1) rest
      pure (Char.ofNat b.toNat :: text)
    else .error (unreadable charset b start 1 charset.outside)

/-- The bytes of the characters of a one-byte encoding, which stand at `start`. -/
def encodeChars (charset : Charset) (start : Nat) : List Char → Except Fault (List UInt8)
  | [] => .ok []
  | c :: rest =>
    if c.toNat < charset.capacity then do
      let bytes ← encodeChars charset (start + 1) rest
      pure (UInt8.ofNat c.toNat :: bytes)
    else
      let alike := rest.takeWhile (fun d => charset.capacity ≤ d.toNat)
      .error (unwritable charset c start (alike.length + 1))

/-- The byte order mark. -/
def byteOrderMark : List UInt8 := [0xEF, 0xBB, 0xBF]

/-- The bytes in front of the first text that is written, even if that is empty. -/
def mark : Charset → List UInt8
  | .utf8Marked => byteOrderMark
  | _ => []

/-- The bytes of a text, without a mark. -/
def encode (charset : Charset) (text : List Char) : Except Fault (List UInt8) :=
  match charset with
  | .utf8 | .utf8Marked => .ok (Utf8.encode text)
  | _ => encodeChars charset 0 text

/-- The text of a block of UTF-8 with the bytes at its end that wait for the next block. -/
def decodeUtf8 (last : Bool) (bytes : List UInt8) : Except Fault (List Char × List UInt8) :=
  match Utf8.decodeFrom 0 bytes with
  | .error fault => .error (ofUtf8 fault)
  | .ok (text, pending) =>
    if last then
      match Utf8.faultAtEnd (bytes.length - pending.length) pending with
      | some fault => .error (ofUtf8 fault)
      | none => .ok (text, [])
    else .ok (text, pending)

/-- Bytes from the start of a file without the mark, if they have one; none as long as they are too
few to tell. -/
def unmarked? (bytes : List UInt8) : Option (List UInt8) :=
  if byteOrderMark.isPrefixOf bytes then some (bytes.drop byteOrderMark.length)
  else if bytes.isPrefixOf byteOrderMark then none
  else some bytes

/-- A part of a file that has been decoded: its text, the bytes at its end that wait for the next
block, and whether it is known where the text of the file begins. -/
structure Decoded where
  text : List Char
  waiting : List UInt8
  begun : Bool

/-- The text of a block of bytes, before which the text of the file may have `begun`.  The block may
be the `last`, and then no bytes may wait but those of half a mark. -/
def decodeBlock (charset : Charset) (begun last : Bool) (bytes : List UInt8) :
    Except Fault Decoded :=
  match charset with
  | .utf8 => (decodeUtf8 last bytes).map fun (text, waiting) => ⟨text, waiting, true⟩
  | .utf8Marked =>
    match if begun then some bytes else unmarked? bytes with
    | some bytes => (decodeUtf8 last bytes).map fun (text, waiting) => ⟨text, waiting, true⟩
    | none => .ok ⟨[], bytes, false⟩
  | _ => (decodeBytes charset 0 bytes).map fun text => ⟨text, [], true⟩

end Charset

end Stencil
