import Mathlib.Data.List.Basic
import Stencil.Encoding.Escape
import Stencil.Proofs.Encoding.Utf8

/-!
# Encoding — Escapes read back

The escaped forms of a text hold nothing that has a meaning where they are placed, and the text is
read back from them: entities from left to right (`readEntities_entities`), percent escapes byte by
byte (`readPercent_percent`).

Characters become entities one by one.  To replace them in the whole text, one kind after another,
comes to the same if `&` is the first (`entities_eq_replaceAll`), since the other entities hold it.
-/

namespace Stencil.Escape

variable {text rest : List Char}

/-! ### Entities -/

/-- The five entities, each with the character that it stands for. -/
def named : List (List Char × Char) :=
  [("&amp;".toList, '&'), ("&lt;".toList, '<'), ("&gt;".toList, '>'), ("&quot;".toList, '"'),
    ("&#x27;".toList, '\'')]

/-- The characters with a meaning in markup. -/
def special : List Char :=
  named.map Prod.snd

theorem mem_special_iff {c : Char} :
    c ∈ special ↔ c = '&' ∨ c = '<' ∨ c = '>' ∨ c = '"' ∨ c = '\'' := by
  simp [special, named]

/-- A character is written as its entity, or as itself if it has none. -/
theorem entity_cases (c : Char) : (entity c, c) ∈ named ∨ c ∉ special ∧ entity c = [c] := by
  by_cases hc : c ∈ special
  · rcases mem_special_iff.mp hc with rfl | rfl | rfl | rfl | rfl <;> exact .inl (by decide)
  · obtain ⟨h₁, h₂, h₃, h₄, h₅⟩ : c ≠ '&' ∧ c ≠ '<' ∧ c ≠ '>' ∧ c ≠ '"' ∧ c ≠ '\'' := by
      simpa only [mem_special_iff, not_or] using hc
    refine .inr ⟨hc, ?_⟩
    rw [entity, if_neg h₁, if_neg h₂, if_neg h₃, if_neg h₄, if_neg h₅]

/-- Text made of entities and of characters without a meaning in markup. -/
inductive IsEscaped : List Char → Prop where
  | nil : IsEscaped []
  | plain {c : Char} {text : List Char} (hc : c ∉ special) (h : IsEscaped text) :
      IsEscaped (c :: text)
  | entity {e : List Char} {c : Char} {text : List Char} (he : (e, c) ∈ named)
      (h : IsEscaped text) : IsEscaped (e ++ text)

theorem isEscaped_entities (text : List Char) : IsEscaped (entities text) := by
  induction text with
  | nil => exact .nil
  | cons c text ih =>
      rw [entities, List.flatMap_cons]
      rcases entity_cases c with hc | ⟨hc, heq⟩
      · exact .entity hc ih
      · rw [heq]
        exact .plain hc ih

/-- An entity begins with `&`, and holds no character with a meaning behind it. -/
theorem exists_of_mem_named {e : List Char} {c : Char} (he : (e, c) ∈ named) :
    ∃ tail, e = '&' :: tail ∧ ∀ c ∈ tail, c ∉ special := by
  have hall : named.all (fun e => e.1.head? == some '&' &&
      e.1.tail.all fun c => !special.contains c) = true := by decide
  obtain ⟨hhead, htail⟩ := Bool.and_eq_true_iff.mp (List.all_eq_true.mp hall _ he)
  refine ⟨e.tail, List.eq_cons_of_mem_head? (eq_of_beq hhead), fun c hc hmem => ?_⟩
  have hnot := List.all_eq_true.mp htail c hc
  rw [List.contains_iff_mem.mpr hmem] at hnot
  exact Bool.false_ne_true hnot

/-- Of the characters with a meaning only `&` occurs in such text. -/
theorem IsEscaped.eq_of_special (h : IsEscaped text) {c : Char} (hc : c ∈ text)
    (hspecial : c ∈ special) : c = '&' := by
  induction h with
  | nil => cases hc
  | plain hplain h ih =>
      rcases List.mem_cons.mp hc with rfl | hc
      · exact absurd hspecial hplain
      · exact ih hc
  | entity he h ih =>
      obtain ⟨tail, hfront, htail⟩ := exists_of_mem_named he
      rcases List.mem_append.mp hc with hc | hc
      · rw [hfront] at hc
        exact (List.mem_cons.mp hc).resolve_right fun hc => htail c hc hspecial
      · exact ih hc

/-- Wherever `&` occurs in such text, an entity begins. -/
theorem IsEscaped.begins (h : IsEscaped text) {before after : List Char}
    (heq : text = before ++ '&' :: after) : ∃ e ∈ named, e.1 <+: '&' :: after := by
  induction h generalizing before with
  | nil => exact absurd heq.symm (List.append_ne_nil_of_right_ne_nil before (List.cons_ne_nil _ _))
  | plain hplain h ih =>
      cases before with
      | nil =>
          obtain rfl := (List.cons.inj heq).1
          exact absurd (by decide) hplain
      | cons d before => exact ih (List.cons.inj heq).2
  | @entity e c text he h ih =>
      obtain ⟨tail, hfront, htail⟩ := exists_of_mem_named he
      rw [hfront, List.cons_append] at heq
      cases before with
      | nil =>
          refine ⟨(e, c), he, text, ?_⟩
          rw [hfront]
          exact heq
      | cons d before =>
          -- The place is not inside of the entity, behind whose front there is no other `&`.
          rcases List.append_eq_append_iff.mp (List.cons.inj heq).2 with
            ⟨bs, -, htext⟩ | ⟨as, hsplit, hafter⟩
          · exact ih htext
          · cases as with
            | nil => exact ih (show _ = [] ++ '&' :: after from hafter.symm)
            | cons d as =>
                obtain rfl : '&' = d := (List.cons.inj hafter).1
                exact absurd (by decide) (htail '&' (hsplit ▸ List.mem_append_cons_self))

/-- Text that may be placed in markup: `&` is nowhere but at the front of one of the five entities,
and the other characters with a meaning are nowhere. -/
structure IsMarkupSafe (text : List Char) : Prop where
  plain : ∀ c ∈ text, c ≠ '<' ∧ c ≠ '>' ∧ c ≠ '"' ∧ c ≠ '\''
  begins : ∀ before after, text = before ++ '&' :: after → ∃ e ∈ named, e.1 <+: '&' :: after

theorem isMarkupSafe_entities (text : List Char) : IsMarkupSafe (entities text) := by
  have h := isEscaped_entities text
  have hne : ∀ c ∈ entities text, ∀ d ∈ special, d ≠ '&' → c ≠ d := by
    rintro c hc d hd hne rfl
    exact hne (h.eq_of_special hc hd)
  refine ⟨fun c hc => ⟨?_, ?_, ?_, ?_⟩, fun _ _ => h.begins⟩
  all_goals exact hne c hc _ (by decide) (by decide)

/-! ### Reading entities -/

/-- The entity that a text begins with. -/
def entityAhead? (text : List Char) : Option (List Char × Char) :=
  named.find? fun e => e.1.isPrefixOf text

/-- A text in which, from left to right, each of the five entities is replaced by the character
that it stands for. -/
def readEntities (text : List Char) : List Char :=
  match text with
  | [] => []
  | c :: rest =>
    match entityAhead? (c :: rest) with
    | some (e, d) => d :: readEntities (rest.drop (e.length - 1))
    | none => c :: readEntities rest
termination_by text.length
decreasing_by all_goals simp only [List.length_drop, List.length_cons]; omega

theorem entityAhead?_append {e : List Char × Char} (he : e ∈ named) (rest : List Char) :
    entityAhead? (e.1 ++ rest) = some e := by
  simp only [named, List.mem_cons, List.not_mem_nil, or_false] at he
  rcases he with rfl | rfl | rfl | rfl | rfl <;> rfl

theorem entityAhead?_of_ne {c : Char} (hc : c ≠ '&') (rest : List Char) :
    entityAhead? (c :: rest) = none := by
  refine List.find?_eq_none.mpr fun e he => ?_
  obtain ⟨tail, hfront, -⟩ := exists_of_mem_named he
  rw [hfront, List.isPrefixOf, beq_false_of_ne hc.symm]
  exact Bool.false_ne_true

theorem readEntities_append {e : List Char × Char} (he : e ∈ named) (rest : List Char) :
    readEntities (e.1 ++ rest) = e.2 :: readEntities rest := by
  obtain ⟨tail, hfront, -⟩ := exists_of_mem_named he
  have hahead := entityAhead?_append he rest
  rw [hfront, List.cons_append] at hahead ⊢
  rw [readEntities, hahead]
  change e.2 :: readEntities ((tail ++ rest).drop (e.1.length - 1)) = _
  rw [hfront, List.length_cons, Nat.add_sub_cancel, List.drop_left]

/-- **Reading the entities of a text gives back the text.** -/
theorem readEntities_entities (text : List Char) : readEntities (entities text) = text := by
  induction text with
  | nil => rw [entities, List.flatMap_nil, readEntities]
  | cons c text ih =>
      rw [entities, List.flatMap_cons]
      rcases entity_cases c with hc | ⟨hc, heq⟩
      · rw [readEntities_append hc]
        exact congrArg (c :: ·) ih
      · have hne : c ≠ '&' := fun h => hc (h ▸ by decide)
        rw [heq, List.singleton_append, readEntities, entityAhead?_of_ne hne]
        exact congrArg (c :: ·) ih

/-- A text in which a character is replaced by a text. -/
def replaceEach (e : List Char × Char) (text : List Char) : List Char :=
  text.flatMap fun c => if c = e.2 then e.1 else [c]

/-- A text in which one character after another is replaced. -/
def replaceAll (es : List (List Char × Char)) (text : List Char) : List Char :=
  es.foldl (fun text e => replaceEach e text) text

theorem replaceAll_append (es : List (List Char × Char)) (text rest : List Char) :
    replaceAll es (text ++ rest) = replaceAll es text ++ replaceAll es rest := by
  induction es generalizing text rest with
  | nil => rfl
  | cons e es ih =>
      change replaceAll es (replaceEach e (text ++ rest)) = _
      rw [replaceEach, List.flatMap_append, ih]
      rfl

theorem replaceAll_of_not_mem {es : List (List Char × Char)} {c : Char}
    (hc : c ∉ es.map Prod.snd) : replaceAll es [c] = [c] := by
  induction es with
  | nil => rfl
  | cons e es ih =>
      rw [List.map_cons, List.mem_cons, not_or] at hc
      change replaceAll es (replaceEach e [c]) = _
      rw [replaceEach, List.flatMap_singleton, if_neg hc.1, ih hc.2]

/-- Replacing one kind of character after another, `&` before the others, makes the same text. -/
theorem entities_eq_replaceAll (text : List Char) : entities text = replaceAll named text := by
  induction text with
  | nil => rfl
  | cons c text ih =>
      rw [entities, List.flatMap_cons, ← List.singleton_append, replaceAll_append, ← ih]
      congr 1
      by_cases hc : c ∈ special
      · rcases mem_special_iff.mp hc with rfl | rfl | rfl | rfl | rfl <;> rfl
      · rw [replaceAll_of_not_mem hc]
        exact ((entity_cases c).resolve_left fun h =>
          hc (List.mem_map_of_mem (f := Prod.snd) h)).2

/-! ### Percent escapes -/

/-- The value of a hexadecimal digit. -/
def hexValue? (c : Char) : Option Nat :=
  if '0' ≤ c ∧ c ≤ '9' then some (c.toNat - '0'.toNat)
  else if 'A' ≤ c ∧ c ≤ 'F' then some (c.toNat - 'A'.toNat + 10)
  else if 'a' ≤ c ∧ c ≤ 'f' then some (c.toNat - 'a'.toNat + 10)
  else none

/-- The byte of the percent escape that a text begins with. -/
def byteAhead? : List Char → Option UInt8
  | '%' :: a :: b :: _ => do return UInt8.ofNat ((← hexValue? a) * 16 + (← hexValue? b))
  | _ => none

/-- The bytes of a text in which percent escapes stand for a byte each, and all other characters
for their own bytes. -/
def readPercent (text : List Char) : List UInt8 :=
  match text with
  | [] => []
  | c :: rest =>
    match byteAhead? (c :: rest) with
    | some b => b :: readPercent (rest.drop 2)
    | none => String.utf8EncodeChar c ++ readPercent rest
termination_by text.length
decreasing_by all_goals simp only [List.length_drop, List.length_cons]; omega

/-- Upper case hexadecimal digits. -/
def isUpperHex (c : Char) : Bool :=
  ('0' ≤ c && c ≤ '9') || ('A' ≤ c && c ≤ 'F')

/-- Text made of unreserved characters and of percent escapes in upper case. -/
inductive IsAddressSafe : List Char → Prop where
  | nil : IsAddressSafe []
  | unreserved {c : Char} {text : List Char} (hc : isUnreserved c = true)
      (h : IsAddressSafe text) : IsAddressSafe (c :: text)
  | escape {a b : Char} {text : List Char} (ha : isUpperHex a = true) (hb : isUpperHex b = true)
      (h : IsAddressSafe text) : IsAddressSafe ('%' :: a :: b :: text)

theorem isUpperHex_hexDigit : ∀ n < 16, isUpperHex (hexDigit n) = true := by decide

theorem hexValue?_hexDigit : ∀ n < 16, hexValue? (hexDigit n) = some n := by decide

theorem isAddressSafe_bytes (bytes : List UInt8) (h : IsAddressSafe text) :
    IsAddressSafe (bytes.flatMap percentByte ++ text) := by
  induction bytes with
  | nil => exact h
  | cons b bytes ih =>
      have hb := b.toNat_lt
      exact .escape (isUpperHex_hexDigit _ (by omega)) (isUpperHex_hexDigit _ (by omega)) ih

theorem isAddressSafe_percent (text : List Char) : IsAddressSafe (percent text) := by
  induction text with
  | nil => exact .nil
  | cons c text ih =>
      rw [percent, List.flatMap_cons]
      split
      · next hc => exact .unreserved hc ih
      · exact isAddressSafe_bytes _ ih

theorem byteAhead?_percentByte (b : UInt8) (rest : List Char) :
    byteAhead? (percentByte b ++ rest) = some b := by
  have hb := b.toNat_lt
  rw [percentByte, List.cons_append, List.cons_append, List.cons_append, byteAhead?,
    hexValue?_hexDigit _ (by omega), hexValue?_hexDigit _ (by omega)]
  change some (UInt8.ofNat (b.toNat / 16 * 16 + b.toNat % 16)) = some b
  rw [Nat.div_add_mod', UInt8.ofNat_toNat]

theorem byteAhead?_of_ne {c : Char} (hc : c ≠ '%') (rest : List Char) :
    byteAhead? (c :: rest) = none := by
  unfold byteAhead?
  split
  · next heq => exact absurd (List.cons.inj heq).1 hc
  · rfl

theorem readPercent_bytes (bytes : List UInt8) (rest : List Char) :
    readPercent (bytes.flatMap percentByte ++ rest) = bytes ++ readPercent rest := by
  induction bytes with
  | nil => rfl
  | cons b bytes ih =>
      have hahead := byteAhead?_percentByte b (bytes.flatMap percentByte ++ rest)
      rw [percentByte, List.cons_append] at hahead
      rw [List.flatMap_cons, List.append_assoc, percentByte, List.cons_append, readPercent, hahead]
      exact congrArg (b :: ·) ih

/-- **Reading the percent escapes of a text gives the bytes of the text.** -/
theorem readPercent_percent (text : List Char) : readPercent (percent text) = Utf8.encode text := by
  induction text with
  | nil => rw [percent, List.flatMap_nil, readPercent]; rfl
  | cons c text ih =>
      rw [percent, List.flatMap_cons, Utf8.encode_cons c text]
      split
      · next hc =>
        have hne : c ≠ '%' := by
          rintro rfl
          exact absurd hc (by decide)
        rw [List.singleton_append, readPercent, byteAhead?_of_ne hne]
        exact congrArg (String.utf8EncodeChar c ++ ·) ih
      · rw [readPercent_bytes, Utf8.encode_singleton]
        exact congrArg (String.utf8EncodeChar c ++ ·) ih

end Stencil.Escape
