import Stencil.Environment.Loading
import Stencil.Proofs.Numeral.LongestMatch
import Stencil.Proofs.Template.Applications
import Stencil.Proofs.Template.StraySigns

/-!
# Template — Faults

Which templates end by a fault, which is no error of the engine and has neither a code nor a place.

* A text ends so when it is lexed if a number in it has a sign behind a leading point (`Strayed`),
  and else at most for a number with too many digits.
* A template ends so when it is rendered just when rendering comes to a step that does not guard
  against its values (`Template.Reaches`, `Expr.Step.Unguarded`): `-` or `/` is applied to an
  ill-spaced string, `%` to a string with too many digits, an index is such a string, or the filter
  `base64decode` is applied to a text beyond ASCII.

`fault_sources` collects these conditions with those for the parts that are to blame: the reader of
numbers, conversions, operators, indices, and stock filters.  All texts are of Unicode scalar
values, so every text has an encoding in UTF-8; the filters that encode their texts do not fail.
-/

namespace Stencil

open Text Scanner Numeral

/-! ### Values of templates -/

namespace Value

/-- Each integer in a value, at any depth of arrays, is an integer of 64 bits, and each filter a
stock filter.  Templates and descriptions have no other values. -/
def own : Value → Bool
  | .integer n => inRange n
  | .filter (.stock _) => true
  | .filter (.given ..) => false
  | .array items => ownAll items
  | _ => true
where
  /-- All of some values are such values. -/
  ownAll : List Value → Bool
    | [] => true
    | v :: vs => v.own && ownAll vs

end Value

/-- The values of a step are values of templates. -/
def Expr.Step.Own : Expr.Step → Prop
  | .apply _ a b => a.own = true ∧ b.own = true
  | .select items index => (Value.array items).own = true ∧ index.own = true

namespace Template

open Render

/-- Rendering a template comes to a step. -/
def Reaches (t : Template) (level : Nat) (env : Environment) (output : Output)
    (step : Expr.Step) : Prop :=
  ∃ s, note level outlineLevel (fun _ => ⟨t.outline, t.outlineDepth⟩) ⟨env, output, []⟩ =
      .ok () s ∧
    Node.Reaches level t.body s step

/-- Rendering a template ends by the faults of the steps it comes to. -/
theorem renderTo_fault_iff {t : Template} {level : Nat} {env : Environment} {output : Output}
    {f : Fault} : (t.renderTo level env output).failure = some (.fault f) ↔
      ∃ step, t.Reaches level env output step ∧ step.result = .error (.fault f) := by
  have hfail : (t.renderTo level env output).failure = some (.fault f) ↔
      Render.Faults (t.render level) ⟨env, output, []⟩ f := by
    unfold renderTo Render.Faults
    cases t.render level ⟨env, output, []⟩ <;> simp
  rw [hfail, render, faults_bind, or_iff_right (not_faults_note _ _ _ _ f)]
  constructor
  · rintro ⟨⟨⟩, s, hs, h⟩
    obtain ⟨step, hstep, hf⟩ := Node.renderAll_fault_iff.mp h
    exact ⟨step, ⟨s, hs, hstep⟩, hf⟩
  · rintro ⟨step, ⟨s, hs, hstep⟩, hf⟩
    exact ⟨(), s, hs, Node.renderAll_fault_iff.mpr ⟨step, hstep, hf⟩⟩

theorem renderTo_faulty_iff (t : Template) (level : Nat) (env : Environment) (output : Output) :
    (∃ f, (t.renderTo level env output).failure = some (.fault f)) ↔
      ∃ step, t.Reaches level env output step ∧ step.Unguarded := by
  simp only [renderTo_fault_iff, ← Expr.Step.faulty_iff]
  constructor
  · rintro ⟨f, step, hstep, hf⟩
    exact ⟨step, hstep, f, hf⟩
  · rintro ⟨step, hstep, f, hf⟩
    exact ⟨f, step, hstep, hf⟩

/-- **Where faults come from.**  Lexing a text is a fault if it has a point before a sign and a
digit where a mantissa is wanted, and else only by too many digits in a row; rendering its template,
in an environment of the stock filters and a description, is one just when it comes to a step that
does not guard against its values.  Each part ends by a fault on the inputs given here and on no
others: the reader of numbers, and, on the values of templates, the conversions, the operators and
indices, and the stock filters. -/
theorem fault_sources (name : String) (text : List Char) :
    (Strayed name text → ∃ f, ofText name text = .error (.fault f)) ∧
    (∀ f, ofText name text = .error (.fault f) →
      Strayed name text ∨ (∃ n, f = .tooManyDigits n) ∧ LongRun text) ∧
    (∀ description env level output t,
      (Environment.withFilters .empty).loadText description = (env, none) →
      ofText name text = .ok t →
      ((∃ f, (t.renderTo level env output).failure = some (.fault f)) ↔
        ∃ step, t.Reaches level env output step ∧ step.Unguarded)) ∧
    (∀ p, number.Faults p text ↔ (∃ v, text = '.' :: v ∧ StraySign v) ∨
      ∃ w l r, LongestNumber text w l r ∧ IsOverlong w) ∧
    (∀ (v : Value) target, v.own = true → ((∃ f, v.convert? target = .error f) ↔
      target = .float ∧ IllSpaced v ∨ target = .integer ∧ ManyDigits v)) ∧
    (∀ step : Expr.Step, step.Own → (Faulty step.result ↔ step.Unguarded)) ∧
    (∀ (f : StockFilter) (v : Value), v.own = true → (Faulty (f.apply v) ↔
      f = .base64decode ∧ BeyondAscii v.text)) :=
  ⟨ofText_fault_of_strayed, fun _ => of_ofText_fault,
    fun _ env level output t _ _ => renderTo_faulty_iff t level env output,
    fun _ => number_faults_iff, fun v target _ => v.convert?_fault_iff target,
    fun step _ => step.faulty_iff, fun f v _ => f.apply_faulty_iff v⟩

/-! ### Faults of each source -/

/-- A template that inserts what an operator makes of two operands. -/
theorem reaches_insert {env : Environment} {symbol : String} {op : Operator} {left right : Expr}
    {a b : Value} (hop : Operator.ofSymbol? symbol = some op)
    (hlines : ((Expr.binary symbol left right []).evaluate 0 env.lookup).lines = [])
    (ha : (Expr.evaluateTo 0 env.lookup 899 left).result = .ok a)
    (hb : (Expr.evaluateTo 0 env.lookup 899 right).result = .ok b) (output : Output) :
    (Template.mk [.insert (.binary symbol left right [])]).Reaches 0 env output
      (.apply op a b) := by
  have hstep : Expr.Reaches 0 env.lookup (899 + 1) (.binary symbol left right []) (.apply op a b) :=
    .apply hop ha hb
  exact ⟨_, rfl, .here rfl (hlines ▸ nofun) hstep⟩

/-- A template that subtracts from an ill-spaced string. -/
theorem reaches_spacedDifference :
    ∃ t, ofText Stream.defaultName "\x7b\"\x1c1\"-1\x7d".toList = .ok t ∧
      t.Reaches 0 (Environment.withFilters .empty) .unlimited
        (.apply .minus (.string "\x1c1") (.integer 1)) := by
  refine ⟨⟨[.insert (.binary "-" (.literal (.string "\x1c1") []) (.literal (.integer 1) []) [])]⟩,
    by with_unfolding_all rfl, reaches_insert rfl rfl ?_ ?_ _⟩
  · rw [Expr.result_evaluateTo]; rfl
  · rw [Expr.result_evaluateTo]; rfl

/-- A template that reads base64 from a letter beyond ASCII. -/
theorem reaches_decodedLetter :
    ∃ t, ofText Stream.defaultName "\x7b\"é\"|base64decode\x7d".toList = .ok t ∧
      t.Reaches 0 (Environment.withFilters .empty) .unlimited
        (.apply .pipe (.string "é") (.filter (.stock .base64decode))) := by
  refine ⟨⟨[.insert (.binary "|" (.literal (.string "é") []) (.ident "base64decode" []) [])]⟩,
    by with_unfolding_all rfl, reaches_insert rfl ?_ ?_ ?_ _⟩
  · with_unfolding_all rfl
  · rw [Expr.result_evaluateTo]; rfl
  · rw [Expr.result_evaluateTo]; rfl

theorem loadText_nothing :
    (Environment.withFilters .empty).loadText [] = (Environment.withFilters .empty, none) := by
  with_unfolding_all rfl

theorem ofText_straySign : ofText Stream.defaultName "\x7b.+5\x7d".toList =
    .error (.fault (.malformedFloat ".+5".toList)) := by
  with_unfolding_all rfl

/-- A stray sign, an ill-spaced string that is subtracted from, and a letter beyond ASCII. -/
theorem fault_sources_of_spacedDifference :
    Strayed Stream.defaultName "\x7b.+5\x7d".toList ∧
      (∃ f, ofText Stream.defaultName "\x7b.+5\x7d".toList = .error (.fault f)) ∧
      (∃ t f, ofText Stream.defaultName "\x7b\"\x1c1\"-1\x7d".toList = .ok t ∧
        (t.renderTo 0 (Environment.withFilters .empty) .unlimited).failure = some (.fault f)) ∧
      (∃ f, (Value.string "\x1c1").convert? .float = .error f) ∧
      Faulty (Expr.Step.apply .minus (.string "\x1c1") (.integer 1)).result ∧
      Faulty (StockFilter.base64decode.apply (.string "é")) := by
  have hspaced : IllSpaced (.string "\x1c1") := ⟨_, rfl, by decide, _, rfl, rfl⟩
  have hletter : BeyondAscii (Value.string "é").text := ⟨'é', by decide, by decide⟩
  obtain ⟨t, ht, hreaches⟩ := reaches_spacedDifference
  have hsign := fault_sources Stream.defaultName "\x7b.+5\x7d".toList
  obtain ⟨-, -, hrender, -, hconvert, hstep, hfilter⟩ :=
    fault_sources Stream.defaultName "\x7b\"\x1c1\"-1\x7d".toList
  obtain ⟨f, hf⟩ := (hrender [] _ 0 .unlimited t loadText_nothing ht).mpr
    ⟨_, hreaches, .inl ⟨.inl rfl, .inl hspaced⟩⟩
  have hstrayed : Strayed Stream.defaultName "\x7b.+5\x7d".toList := by
    rcases hsign.2.1 _ ofText_straySign with h | ⟨⟨n, ⟨⟩⟩, -⟩
    exact h
  exact ⟨hstrayed, hsign.1 hstrayed, ⟨t, f, ht, hf⟩,
    (hconvert _ _ rfl).mpr (.inl ⟨rfl, hspaced⟩),
    (hstep (.apply .minus (.string "\x1c1") (.integer 1)) ⟨rfl, by decide⟩).mpr
      (.inl ⟨.inl rfl, .inl hspaced⟩),
    (hfilter _ _ rfl).mpr ⟨rfl, hletter⟩⟩

/-- There are faults of each source: from the text of a template, from a conversion, and from a
stock filter, the latter two in an environment of the stock filters and an empty description; and
from the digits of a number. -/
theorem fault_of_each_source :
    Template.ofText Stream.defaultName "\x7b.+5\x7d".toList =
      .error (.fault (.malformedFloat ".+5".toList)) ∧
    (∃ env t₁ t₂, (Environment.withFilters .empty).loadText [] = (env, none) ∧
      Template.ofText Stream.defaultName "\x7b\"\x1c1\"-1\x7d".toList = .ok t₁ ∧
      (t₁.renderTo 0 env .unlimited).failure =
        some (.fault (.malformedFloat "\x1c1".toList)) ∧
      Template.ofText Stream.defaultName "\x7b\"é\"|base64decode\x7d".toList = .ok t₂ ∧
      (t₂.renderTo 0 env .unlimited).failure = some (.fault .textBeyondAscii)) ∧
    number.Faults (.start Stream.defaultName) (List.replicate 4301 '1') := by
  obtain ⟨t₁, ht₁, hreaches₁⟩ := reaches_spacedDifference
  obtain ⟨t₂, ht₂, hreaches₂⟩ := reaches_decodedLetter
  exact ⟨ofText_straySign,
    ⟨_, t₁, t₂, loadText_nothing, ht₁, renderTo_fault_iff.mpr ⟨_, hreaches₁, rfl⟩, ht₂,
      renderTo_fault_iff.mpr ⟨_, hreaches₂, rfl⟩⟩,
    _, run_number_manyOnes _⟩

end Template

end Stencil
