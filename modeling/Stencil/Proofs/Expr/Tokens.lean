import Stencil.Proofs.Expr.Literals

/-!
# Expr — Tokens

The text of an expression as a row of tokens (`tokens`), between which any blanks may stand
(`Spaced`).  The text that shows an expression is spaced so itself (`spaced_text`).  An expression
is *writable* when its literals are strings and integers of 64 bits, its names are names, and its
operators are those of the language; numbers with a fraction and filters have no literals that are
read back as the same.
-/

namespace Stencil.Expr

open Text Numeral

@[elab_as_elim]
theorem expr_induction {P : Expr → Prop} {Q : List Expr → Prop} (nil : Q [])
    (cons : ∀ i is, P i → Q is → Q (i :: is))
    (literal : ∀ v is, Q is → P (.literal v is)) (ident : ∀ name is, Q is → P (.ident name is))
    (binary : ∀ symbol left right is, P left → P right → Q is → P (.binary symbol left right is))
    (e : Expr) : P e :=
  one e
where
  one : ∀ e, P e
    | .literal v is => literal v is (all is)
    | .ident name is => ident name is (all is)
    | .binary symbol left right is => binary symbol left right is (one left) (one right) (all is)
  all : ∀ is, Q is
    | [] => nil
    | i :: is => cons i is (one i) (all is)

/-- A literal with this value can be written. -/
def WritableValue : Value → Prop
  | .integer n => inRange n = true
  | .string _ => True
  | _ => False

/-- A name in expressions: a word that does not start with a digit. -/
structure IsName (name : String) : Prop where
  nonempty : name.toList ≠ []
  symbols : ∀ c ∈ name.toList, isSymbol c = true
  noDigit : ∀ c ∈ name.toList.head?, isDigitOf 10 c = false

mutual

/-- The expression can be written. -/
def Writable : Expr → Prop
  | .literal v is => WritableValue v ∧ AllWritable is
  | .ident name is => IsName name ∧ AllWritable is
  | .binary symbol left right is =>
    (∃ op : Operator, op.symbol = symbol) ∧ Writable left ∧ Writable right ∧ AllWritable is

/-- The indices can be written. -/
def AllWritable : List Expr → Prop
  | [] => True
  | i :: is => Writable i ∧ AllWritable is

end

mutual

/-- The tokens of an expression: every application stands between parentheses. -/
def tokens : Expr → List (List Char)
  | .literal v is => (literalText v).toList :: indexTokens is
  | .ident name is => name.toList :: indexTokens is
  | .binary symbol left right is =>
    ['('] :: (tokens left ++ symbol.toList :: (tokens right ++ [')'] :: indexTokens is))

/-- The tokens of indices. -/
def indexTokens : List Expr → List (List Char)
  | [] => []
  | i :: is => ['['] :: (tokens i ++ [']'] :: indexTokens is)

end

mutual

/-- How deep the parentheses and brackets of an expression nest. -/
def depth : Expr → Nat
  | .literal _ is => indexDepth is
  | .ident _ is => indexDepth is
  | .binary _ left right is => max (max (depth left) (depth right) + 1) (indexDepth is)

/-- How deep the brackets of indices nest. -/
def indexDepth : List Expr → Nat
  | [] => 0
  | i :: is => max (depth i + 1) (indexDepth is)

end

/-- The text consists of these tokens, with any blanks before, between and behind them. -/
inductive Spaced : List (List Char) → List Char → Prop where
  | nil {b : List Char} (hb : ∀ c ∈ b, isBlank c = true) : Spaced [] b
  | cons {b : List Char} (hb : ∀ c ∈ b, isBlank c = true) (t : List Char) {ts : List (List Char)}
    {r : List Char} (h : Spaced ts r) : Spaced (t :: ts) (b ++ (t ++ r))

namespace Spaced

theorem blanks {b : List Char} (hb : ∀ c ∈ b, isBlank c = true) {ts : List (List Char)}
    {r : List Char} (h : Spaced ts r) : Spaced ts (b ++ r) := by
  have both : ∀ {b' : List Char}, (∀ c ∈ b', isBlank c = true) →
      ∀ c ∈ b ++ b', isBlank c = true := by
    intro b' hb' c hc
    rcases List.mem_append.mp hc with hc | hc
    · exact hb c hc
    · exact hb' c hc
  cases h with
  | nil hb' => exact .nil (both hb')
  | cons hb' t h =>
      rw [← List.append_assoc]
      exact .cons (both hb') t h

theorem append {ts us : List (List Char)} {v w : List Char} (hv : Spaced ts v)
    (hw : Spaced us w) : Spaced (ts ++ us) (v ++ w) := by
  induction hv with
  | nil hb => exact hw.blanks hb
  | cons hb t _ ih =>
      rw [List.append_assoc, List.append_assoc]
      exact .cons hb t ih

theorem token (t : List Char) {ts : List (List Char)} {r : List Char} (h : Spaced ts r) :
    Spaced (t :: ts) (t ++ r) :=
  .cons (b := []) (fun c hc => by cases hc) t h

/-- The text of a first token, and of those behind it. -/
theorem uncons {t : List Char} {ts : List (List Char)} {text : List Char}
    (h : Spaced (t :: ts) text) :
    ∃ b r, text = b ++ (t ++ r) ∧ (∀ c ∈ b, isBlank c = true) ∧ Spaced ts r := by
  cases h with
  | cons hb _ h => exact ⟨_, _, rfl, hb, h⟩

/-- The text of the tokens before one, with the blanks behind them, and of those behind it. -/
theorem split {ts us : List (List Char)} {t text : List Char} (h : Spaced (ts ++ t :: us) text) :
    ∃ v w, text = v ++ (t ++ w) ∧ Spaced ts v ∧ Spaced us w := by
  induction ts generalizing text with
  | nil =>
      obtain ⟨b, r, rfl, hb, hr⟩ := h.uncons
      exact ⟨b, r, rfl, .nil hb, hr⟩
  | cons s ts ih =>
      obtain ⟨b, r, rfl, hb, hr⟩ := h.uncons
      obtain ⟨v, w, rfl, hv, hw⟩ := ih hr
      exact ⟨b ++ (s ++ v), w, by simp only [List.append_assoc], .cons hb s hv, hw⟩

end Spaced

/-- The text that shows an expression consists of its tokens. -/
theorem spaced_text (e : Expr) : Spaced e.tokens e.text.toList := by
  induction e using expr_induction (Q := fun is =>
    Spaced (indexTokens is) (text.indexTexts is).toList) with
  | nil => exact .nil fun c hc => by cases hc
  | cons i is hi his =>
      have h : Spaced (indexTokens (i :: is))
          (['['] ++ (i.text.toList ++ ([']'] ++ (text.indexTexts is).toList))) :=
        .token ['['] (hi.append (.token [']'] his))
      have htext : (text.indexTexts (i :: is)).toList =
          ['['] ++ (i.text.toList ++ ([']'] ++ (text.indexTexts is).toList)) := by
        simp [text.indexTexts, String.toList_append]
      rwa [htext]
  | literal v is his =>
      rw [tokens, text, String.toList_append]
      exact .token _ his
  | ident name is his =>
      rw [tokens, text, String.toList_append]
      exact .token _ his
  | binary symbol left right is hl hr his =>
      have space : ∀ c ∈ [' '], isBlank c = true := List.all_eq_true.mp rfl
      have h : Spaced (tokens (.binary symbol left right is))
          (['('] ++ (left.text.toList ++ ([' '] ++ (symbol.toList ++ ([' '] ++
            (right.text.toList ++ ([')'] ++ (text.indexTexts is).toList))))))) :=
        .token ['('] (hl.append (.cons space _ ((hr.append (.token [')'] his)).blanks space)))
      have htext : (Expr.binary symbol left right is).text.toList =
          ['('] ++ (left.text.toList ++ ([' '] ++ (symbol.toList ++ ([' '] ++
            (right.text.toList ++ ([')'] ++ (text.indexTexts is).toList)))))) := by
        simp [text, String.toList_append]
      rwa [htext]

end Stencil.Expr
