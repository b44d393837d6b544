import Mathlib.Data.List.Basic
import Stencil.Encoding.Base64

/-!
# Encoding — Base64 read back

What is known of the text of some bytes, and that reading it gives back the bytes
(`decode_encode`).
-/

namespace Stencil.Base64

/-- The characters of base64, by value. -/
def alphabet : List Char :=
  "ABCDEFGHIJKLMNOPQRSTUVWXYZabcdefghijklmnopqrstuvwxyz0123456789+/".toList

theorem alphabet_symbol : ∀ n < 64, alphabet[n]? = some (symbol n) := by decide

theorem symbol_mem_alphabet {n : Nat} (h : n < 64) : symbol n ∈ alphabet :=
  List.mem_of_getElem? (alphabet_symbol n h)

theorem value?_symbol : ∀ n < 64, value? (symbol n) = some n := by decide

theorem symbol_ne_pad : ∀ n < 64, symbol n ≠ pad := by decide

theorem lt_of_mem_alphabet {c : Char} (h : c ∈ alphabet) : c.toNat < 0x80 := by
  have hall : alphabet.all (fun c => c.toNat < 0x80) = true := rfl
  exact of_decide_eq_true (List.all_eq_true.mp hall c h)

/-! ### Reading -/

variable {p : Progress} {rest : List Char}

theorem decodeFrom_symbol {n : Nat} (hn : n < 64) (hp : p.padded = false) :
    decodeFrom p (symbol n :: rest) = decodeFrom (p.push n) rest := by
  rw [decodeFrom, if_neg (symbol_ne_pad n hn), value?_symbol n hn, hp]
  rfl

theorem ofNat_eq {n : Nat} {b : UInt8} (h : n = b.toNat) : UInt8.ofNat n = b := by
  rw [h, UInt8.ofNat_toNat]

variable {before : List UInt8} {a b c : UInt8} {x y z w : Nat}

/-- The second symbol of a group completes a byte. -/
theorem decodeFrom_two (hx : x < 64) (hy : y < 64) (ha : x * 4 + y / 16 = a.toNat) :
    decodeFrom ⟨before, [], false, 0⟩ (symbol x :: symbol y :: rest) =
      decodeFrom ⟨a :: before, [x, y], false, 0⟩ rest := by
  rw [decodeFrom_symbol hx rfl, decodeFrom_symbol hy rfl]
  change decodeFrom ⟨UInt8.ofNat (x * 4 + y / 16) :: before, [x, y], false, 0⟩ rest = _
  rw [ofNat_eq ha]

/-- So does the third. -/
theorem decodeFrom_three (hz : z < 64) (hb : y % 16 * 16 + z / 4 = b.toNat) :
    decodeFrom ⟨before, [x, y], false, 0⟩ (symbol z :: rest) =
      decodeFrom ⟨b :: before, [x, y, z], false, 0⟩ rest := by
  rw [decodeFrom_symbol hz rfl]
  change decodeFrom ⟨UInt8.ofNat (y % 16 * 16 + z / 4) :: before, [x, y, z], false, 0⟩ rest = _
  rw [ofNat_eq hb]

/-- The fourth completes a byte and the group. -/
theorem decodeFrom_four (hw : w < 64) (hc : z % 4 * 64 + w = c.toNat) :
    decodeFrom ⟨before, [x, y, z], false, 0⟩ (symbol w :: rest) =
      decodeFrom ⟨c :: before, [], false, 0⟩ rest := by
  rw [decodeFrom_symbol hw rfl]
  change decodeFrom ⟨UInt8.ofNat (z % 4 * 64 + w) :: before, [], false, 0⟩ rest = _
  rw [ofNat_eq hc]

/-- Two symbols and two paddings are a group. -/
theorem decodeFrom_pad_pad : decodeFrom ⟨before, [x, y], false, 0⟩ [pad, pad] = .ok before.reverse :=
  rfl

/-- Three symbols and one padding are a group. -/
theorem decodeFrom_pad : decodeFrom ⟨before, [x, y, z], false, 0⟩ [pad] = .ok before.reverse :=
  rfl

/-- Reading the text of some bytes where a group of four begins.  Three bytes fill a group; one or
two at the end leave it to the padding. -/
theorem decodeFrom_encode (bytes before : List UInt8) :
    decodeFrom ⟨before, [], false, 0⟩ (encode bytes) = .ok (before.reverse ++ bytes) := by
  induction bytes using encode.induct generalizing before with
  | case1 =>
      rw [encode, List.append_nil]
      rfl
  | case2 a =>
      have ha := a.toNat_lt
      rw [encode, decodeFrom_two (a := a) (by omega) (by omega) (by omega), decodeFrom_pad_pad,
        List.reverse_cons]
  | case3 a b =>
      have ha := a.toNat_lt
      have hb := b.toNat_lt
      rw [encode, decodeFrom_two (a := a) (by omega) (by omega) (by omega),
        decodeFrom_three (b := b) (by omega) (by omega), decodeFrom_pad]
      simp
  | case4 a b c rest ih =>
      have ha := a.toNat_lt
      have hb := b.toNat_lt
      have hc := c.toNat_lt
      rw [encode, decodeFrom_two (a := a) (by omega) (by omega) (by omega),
        decodeFrom_three (b := b) (by omega) (by omega),
        decodeFrom_four (c := c) (by omega) (by omega), ih]
      simp

theorem head_encode (bytes : List UInt8) : (encode bytes).head? ≠ some pad := by
  have hne : ∀ n < 64, some (symbol n) ≠ some pad := fun n hn h =>
    symbol_ne_pad n hn (Option.some.inj h)
  fun_cases encode bytes with
  | case1 => simp
  | case2 a n =>
      have ha := a.toNat_lt
      exact hne (n / 64) (by omega)
  | case3 a b n =>
      have ha := a.toNat_lt
      have hb := b.toNat_lt
      exact hne (n / 4096) (by omega)
  | case4 a b c rest n =>
      have ha := a.toNat_lt
      have hb := b.toNat_lt
      have hc := c.toNat_lt
      exact hne (n / 262144) (by omega)

/-- **Bytes are read back from their text**: no check of a strict reader fails on it. -/
theorem decode_encode (bytes : List UInt8) : decode (encode bytes) = .ok bytes := by
  rw [decode, if_neg (head_encode bytes), decodeFrom_encode]
  rfl

/-! ### What the text looks like -/

/-- Base64 text: characters of the alphabet and no more than two paddings behind them, which make
groups of four. -/
structure IsText (body : List Char) (pads : Nat) : Prop where
  alphabet : ∀ c ∈ body, c ∈ alphabet
  pads_le : pads ≤ 2
  fours : 4 ∣ body.length + pads

theorem symbols_mem_alphabet {values : List Nat} (h : ∀ n ∈ values, n < 64) :
    ∀ c ∈ values.map symbol, c ∈ alphabet := by
  intro c hc
  obtain ⟨n, hn, rfl⟩ := List.mem_map.mp hc
  exact symbol_mem_alphabet (h n hn)

/-- The text of some bytes is base64 text. -/
theorem exists_isText (bytes : List UInt8) :
    ∃ body pads, encode bytes = body ++ List.replicate pads pad ∧ IsText body pads := by
  -- By the recursion of `encode`: three bytes at a time, and at the end two, one or none.
  induction bytes using encode.induct with
  | case1 => exact ⟨[], 0, rfl, by simp, by omega, by simp⟩
  | case2 a =>
      have ha := a.toNat_lt
      have hvalues : ∀ n ∈ [a.toNat * 16 / 64, a.toNat * 16 % 64], n < 64 := by
        simp only [List.mem_cons, List.not_mem_nil, or_false, forall_eq_or_imp, forall_eq]
        omega
      exact ⟨_, 2, rfl, symbols_mem_alphabet hvalues, by omega, by simp⟩
  | case3 a b =>
      have ha := a.toNat_lt
      have hb := b.toNat_lt
      have hvalues : ∀ n ∈ [(a.toNat * 256 + b.toNat) * 4 / 4096,
          (a.toNat * 256 + b.toNat) * 4 / 64 % 64, (a.toNat * 256 + b.toNat) * 4 % 64],
          n < 64 := by
        simp only [List.mem_cons, List.not_mem_nil, or_false, forall_eq_or_imp, forall_eq]
        omega
      exact ⟨_, 1, rfl, symbols_mem_alphabet hvalues, by omega, by simp⟩
  | case4 a b c rest ih =>
      have ha := a.toNat_lt
      have hb := b.toNat_lt
      have hc := c.toNat_lt
      obtain ⟨body, pads, heq, htext⟩ := ih
      generalize hn : (a.toNat * 256 + b.toNat) * 256 + c.toNat = n
      have hvalues : ∀ k ∈ [n / 262144, n / 4096 % 64, n / 64 % 64, n % 64], k < 64 := by
        simp only [List.mem_cons, List.not_mem_nil, or_false, forall_eq_or_imp, forall_eq]
        omega
      refine ⟨[n / 262144, n / 4096 % 64, n / 64 % 64, n % 64].map symbol ++ body, pads, ?_, ?_,
        htext.pads_le, ?_⟩
      · rw [encode, heq, ← hn]
        rfl
      · exact List.forall_mem_append.mpr ⟨symbols_mem_alphabet hvalues, htext.alphabet⟩
      · have hfours := htext.fours
        simp only [List.length_append, List.length_map, List.length_cons, List.length_nil]
        omega

end Stencil.Base64
