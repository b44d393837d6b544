import Stencil.Encoding.Utf8

/-!
# Encoding — UTF-8 read back

The bytes of a text are UTF-8, and reading them gives back the text (`decode_encode`).  A character
takes one byte to four.  Its lead byte promises as many continuation bytes as follow (`lead?_two`,
`lead?_three`, `lead?_four`), and the bits of all of them are those of the character's code point.

The ranges that some lead bytes set for the byte behind them leave out what no character has: a form
longer than need be, the surrogates, and code points beyond the last.
-/

namespace Stencil.Utf8

/-! ### Lead bytes -/

/-- The lead bytes of two bytes. -/
theorem lead?_two {n : Nat} (h : 2 ≤ n) (hn : n < 32) :
    lead? (n + 192) = some ⟨1, 0x80, 0xbf, n⟩ := by
  rw [lead?, if_pos (by omega)]
  simp

/-- The lead bytes of three bytes; two of them bound the byte behind them more closely. -/
theorem lead?_three : ∀ n < 16, lead? (n + 224) =
    some ⟨2, if n = 0 then 0xa0 else 0x80, if n = 13 then 0x9f else 0xbf, n⟩ := by
  intro n hn
  unfold lead?
  rw [if_neg (by omega)]
  by_cases h0 : n = 0
  · subst h0; rfl
  by_cases h13 : n = 13
  · subst h13; rfl
  rw [if_neg (by omega), if_neg (by omega), if_pos (by omega), if_neg h0, if_neg h13]
  simp

/-- The lead bytes of four bytes; the first and the last bound the byte behind them more closely. -/
theorem lead?_four {n : Nat} (hn : n < 5) : lead? (n + 240) =
    some ⟨3, if n = 0 then 0x90 else 0x80, if n = 4 then 0x8f else 0xbf, n⟩ := by
  have h : n = 0 ∨ n = 1 ∨ n = 2 ∨ n = 3 ∨ n = 4 := by omega
  rcases h with rfl | rfl | rfl | rfl | rfl <;> rfl

/-! ### Characters -/

variable {rest : List UInt8}

theorem toNat_ofNat_add {n k : Nat} (h : n + k < 256) : (UInt8.ofNat (n + k)).toNat = n + k :=
  UInt8.toNat_ofNat_of_lt' h

/-- A continuation byte within its range adds its six bits. -/
theorem continuation_succ {owed good low high bits n : Nat} (hn : n < 64) (hlow : low ≤ n + 128)
    (hhigh : n + 128 ≤ high) :
    continuation (owed + 1) good low high bits (UInt8.ofNat (n + 128) :: rest) =
      continuation owed (good + 1) 0x80 0xbf (bits * 64 + n) rest := by
  rw [continuation, toNat_ofNat_add (by omega), if_pos ⟨hlow, hhigh⟩, Nat.add_sub_cancel]

theorem continuation_zero {good low high bits : Nat} {c : Char} (h : bits = c.toNat) :
    continuation 0 good low high bits rest = .char c good := by
  rw [continuation, h, Char.ofNat_toNat]

/-- Behind a lead byte come the continuation bytes that it owes. -/
theorem front_of_lead {n base : Nat} (hn : n + base < 256) (hbase : 128 ≤ n + base) {l : Lead}
    (hl : lead? (n + base) = some l) :
    front (UInt8.ofNat (n + base)) rest = continuation l.owed 1 l.low l.high l.bits rest := by
  rw [front, toNat_ofNat_add hn, if_neg (by omega), hl]

/-- The bytes of a character are a lead byte and the continuation bytes that it promises. -/
theorem front_encodeChar (c : Char) (rest : List UInt8) :
    ∃ b bs, String.utf8EncodeChar c = b :: bs ∧
      front b (bs ++ rest) = .char c (bs.length + 1) := by
  have hvalid : c.toNat < 0xd800 ∨ 0xdfff < c.toNat ∧ c.toNat < 0x110000 := c.valid
  delta String.utf8EncodeChar
  rw [Char.toNat_val]
  generalize hv : c.toNat = v at hvalid
  dsimp only
  -- One case for each length of the encoding, with the bounds that the lead byte tells.
  by_cases h1 : v ≤ 127
  · refine ⟨UInt8.ofNat (v + 0), [], by rw [if_pos h1, Nat.add_zero], ?_⟩
    rw [front, toNat_ofNat_add (by omega), if_pos (by omega), Nat.add_zero, ← hv, Char.ofNat_toNat]
    rfl
  rw [if_neg h1]
  by_cases h2 : v ≤ 2047
  · refine ⟨_, _, by rw [if_pos h2], ?_⟩
    rw [front_of_lead (by omega) (by omega) (lead?_two (by omega) (by omega))]
    dsimp only
    rw [List.cons_append, continuation_succ (by omega) (by omega) (by omega),
      continuation_zero (c := c) (by omega)]
    rfl
  rw [if_neg h2]
  by_cases h3 : v ≤ 65535
  · refine ⟨_, _, by rw [if_pos h3], ?_⟩
    rw [front_of_lead (by omega) (by omega) (lead?_three _ (by omega))]
    dsimp only
    rw [List.cons_append, continuation_succ (by omega) (by split <;> omega) (by split <;> omega),
      List.cons_append, continuation_succ (by omega) (by omega) (by omega),
      continuation_zero (c := c) (by omega)]
    rfl
  · refine ⟨_, _, by rw [if_neg h3], ?_⟩
    rw [front_of_lead (by omega) (by omega) (lead?_four (by omega))]
    dsimp only
    rw [List.cons_append, continuation_succ (by omega) (by split <;> omega) (by split <;> omega),
      List.cons_append, continuation_succ (by omega) (by omega) (by omega),
      List.cons_append, continuation_succ (by omega) (by omega) (by omega),
      continuation_zero (c := c) (by omega)]
    rfl

theorem encode_cons (c : Char) (text : List Char) :
    encode (c :: text) = String.utf8EncodeChar c ++ encode text := by
  rw [encode, List.flatMap_cons]
  rfl

theorem encode_singleton (c : Char) : encode [c] = String.utf8EncodeChar c := by
  rw [encode, List.flatMap_cons, List.flatMap_nil, List.append_nil]

/-- A text is decoded to the last of its bytes, wherever they start. -/
theorem decodeFrom_encode (start : Nat) (text : List Char) :
    decodeFrom start (encode text) = .ok (text, []) := by
  induction text generalizing start with
  | nil => rw [encode, List.flatMap_nil, decodeFrom]
  | cons c text ih =>
      obtain ⟨b, bs, hbytes, hfront⟩ := front_encodeChar c (encode text)
      rw [encode_cons, hbytes, List.cons_append, decodeFrom, hfront]
      dsimp only
      rw [Nat.add_sub_cancel, List.drop_left, ih]
      rfl

/-- **Texts are read back from their bytes.** -/
theorem decode_encode (text : List Char) : decode (encode text) = .ok text := by
  rw [decode, decodeFrom_encode]
  rfl

end Stencil.Utf8
