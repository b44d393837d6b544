import Stencil.Proofs.Environment.Stacks
import Stencil.Proofs.Expr.Applications
import Stencil.Proofs.Value.Range

/-!
# Expr — Range

Integers stay integers of 64 bits.  A value that evaluation comes to is that of a literal or of a
name, or what an operator makes of two values it came to before, or an item of such a value.  So if
literals, visible values and the results of the filters that are applied fit, the value of an
expression fits (`evaluate_fits`).
-/

namespace Stencil.Expr

open Numeral

/-- The literals of an expression fit, those in its indices too. -/
def literalsFit : Expr → Bool
  | .literal v indices => v.fits && allFit indices
  | .ident _ indices => allFit indices
  | .binary _ left right indices => left.literalsFit && right.literalsFit && allFit indices
where
  /-- The literals of some expressions fit. -/
  allFit : List Expr → Bool
    | [] => true
    | e :: es => e.literalsFit && allFit es

variable {level : Nat} {lookup : String → Option Value} {height : Nat}

/-- The filters that the evaluation of an expression comes to apply answer values that fit. -/
def FiltersFit (level : Nat) (lookup : String → Option Value) (height : Nat) (e : Expr) : Prop :=
  ∀ f a w, Reaches level lookup height e (.apply .pipe a (.filter f)) → f.apply a = .ok w →
    w.fits = true

/-- What indices select from a value that fits fits. -/
theorem fits_selectAll {indices : List Expr} {v w : Value} (hv : v.fits = true)
    (h : selectAll level lookup height v indices = .ok w) : w.fits = true := by
  induction indices generalizing v with
  | nil => cases h; exact hv
  | cons i indices ih =>
      rw [selectAll_cons] at h
      obtain ⟨u, hu, hw⟩ := exists_of_bind_ok h
      obtain ⟨items, rfl, hitem⟩ := select_ok hu
      exact ih (Value.fits_array.mp hv u hitem) hw

/-- What an operator makes of values that fit fits, if the results of filters do. -/
theorem fits_applySymbol {symbol : String} {a b v : Value} (ha : a.fits = true) (hb : b.fits = true)
    (hfilter : ∀ f, Operator.ofSymbol? symbol = some .pipe → b = .filter f → f.apply a = .ok v →
      v.fits = true)
    (h : applySymbol symbol a b = .ok v) : v.fits = true := by
  unfold applySymbol at h
  split at h
  · next op hop =>
    by_cases hpipe : op = .pipe
    · subst hpipe
      obtain ⟨f, hf, hw⟩ := Operator.exists_filter_of_pipe h
      exact hfilter f hop hf hw
    · exact op.fits_apply hpipe ha hb h
  · cases h

/-- What an expression comes to fits.  The induction is on the height that is evaluated, as the
operands have one level less. -/
theorem fits_evaluateTo {e : Expr} {v : Value} (he : e.literalsFit = true)
    (hlookup : ∀ name w, lookup name = some w → w.fits = true)
    (hfilters : FiltersFit level lookup height e)
    (h : (evaluateTo level lookup height e).result = .ok v) : v.fits = true := by
  induction height generalizing e v with
  | zero => cases h
  | succ height ih =>
      rw [result_evaluateTo] at h
      obtain ⟨u, hu, h⟩ := exists_of_bind_ok h
      -- An item of a value fits if the value does, so the indices add nothing.
      refine fits_selectAll ?_ h
      cases e with
      | literal w indices =>
          cases hu
          exact (Bool.and_eq_true_iff.mp he).1
      | ident name indices =>
          rw [bare, valueOf] at hu
          split at hu
          · next hw => cases hu; exact hlookup name _ hw
          · cases hu
      | binary symbol left right indices =>
          simp only [literalsFit, Bool.and_eq_true] at he
          obtain ⟨⟨hleft, hright⟩, -⟩ := he
          rw [result_bare_binary] at hu
          obtain ⟨a, ha, hu⟩ := exists_of_bind_ok hu
          obtain ⟨b, hb, hu⟩ := exists_of_bind_ok hu
          have hfa : a.fits = true :=
            ih hleft (fun f x w happ => hfilters f x w (.left happ)) ha
          have hfb : b.fits = true :=
            ih hright (fun f x w happ => hfilters f x w (.right ha happ)) hb
          refine fits_applySymbol hfa hfb ?_ hu
          rintro f hop rfl hw
          exact hfilters f a u (.apply hop ha hb) hw

/-- **Integers never leave 64 bits.**  If the literals of an expression and the visible values of an
environment fit, and so does whatever the filters answer that evaluation comes to apply, then each
integer in the value of the expression, at any depth of arrays, is an integer of 64 bits.  Sums and
products of integers are exact or errors of range; a remainder is that of a division which truncates
toward zero. -/
theorem evaluate_fits :
    (∀ (level : Nat) (env : Environment) (e : Expr) (v : Value), e.literalsFit = true →
      (∀ name w, env.lookup name = some w → w.fits = true) →
      FiltersFit level env.lookup evaluationLimit e →
      (e.evaluate level env.lookup).result = .ok v → v.fits = true) ∧
    (∀ n m, Value.Exact (n + m) (Operator.plus.apply (.integer n) (.integer m))) ∧
    (∀ n m, Value.Exact (n * m) (Operator.times.apply (.integer n) (.integer m))) ∧
    (∀ a b n m, a.convert? .integer = .ok (some (.integer n)) →
      b.convert? .integer = .ok (some (.integer m)) → m ≠ 0 →
      ∃ r, Operator.modulo.apply a b = .ok (.integer r) ∧ Value.Remainder n m r) :=
  ⟨fun _ _ _ _ he henv hfilters h => fits_evaluateTo he henv hfilters h, Value.exact_add,
    Value.exact_mul, fun _ _ _ _ ha hb hm => Value.mod_of_convert? ha hb hm⟩

/-- A name alone comes to no step. -/
theorem not_reaches_ident {name : String} {step : Step} :
    ¬Reaches level lookup height (.ident name []) step := by
  intro h
  cases h with
  | index he | select he => simp [indices] at he

/-- The array of the least and the greatest integer, with its length behind them; and the least
integer by minus one. -/
theorem evaluate_fits_of_boundaries :
    let xs : Value := .array [.integer (-2 ^ 63), .integer (2 ^ 63 - 1)]
    let env := (Environment.empty.push "xs" xs).push "length" (.filter (.stock .length))
    let e : Expr := .binary "+" (.ident "xs" [])
      (.binary "|" (.ident "xs" []) (.ident "length" []) []) []
    let v : Value := .array [.integer (-2 ^ 63), .integer (2 ^ 63 - 1), .integer 2]
    (e.evaluate 0 env.lookup).result = .ok v ∧ v.fits = true ∧
      Operator.modulo.apply (.integer (-2 ^ 63)) (.integer (-1)) = .ok (.integer 0) := by
  intro xs env e v
  have hxs : xs.fits = true := rfl
  have henv : ∀ name w, env.lookup name = some w → w.fits = true := by
    intro name w hw
    simp only [env, Environment.lookup_push] at hw
    split at hw
    · cases hw; rfl
    · split at hw
      · cases hw; exact hxs
      · cases hw
  have hfilters : FiltersFit 0 env.lookup evaluationLimit e := by
    intro f a w happ hw
    change Reaches 0 env.lookup (898 + 1 + 1) (.binary "+" (.ident "xs" [])
      (.binary "|" (.ident "xs" []) (.ident "length" []) []) []) (.apply .pipe a (.filter f)) at happ
    -- Only the operator `|` applies a filter, and it applies the length to the array.
    cases happ with
    | apply hop => cases hop
    | left h => exact absurd h not_reaches_ident
    | index he => simp [indices] at he
    | right _ h =>
        cases h with
        | left h => exact absurd h not_reaches_ident
        | right _ h => exact absurd h not_reaches_ident
        | index he => simp [indices] at he
        | apply _ ha hb =>
            cases ha
            cases hb
            have hlength : StockFilter.length.apply xs = .ok w := hw
            refine StockFilter.fits_apply (fun items h => ?_) (absurd rfl) hlength
            rw [← Value.array.inj h]
            decide
  have hv : (e.evaluate 0 env.lookup).result = .ok v := rfl
  refine ⟨hv, evaluate_fits.1 0 env e v rfl henv hfilters hv, ?_⟩
  obtain ⟨r, hr, hrem⟩ :=
    evaluate_fits.2.2.2 (.integer (-2 ^ 63)) (.integer (-1)) (-2 ^ 63) (-1) rfl rfl (by decide)
  have := hrem.small
  obtain rfl : r = 0 := by omega
  exact hr

end Stencil.Expr
