import Stencil.Text.CasingTable

/-!
# Text — Casing

Upper and lower case of a text.  A character is mapped by the casing table, to several characters
where its other case is written so.  The one rule that looks at neighbours is that of the Greek
sigma: its lower case is the final form at the end of a word, that is when a cased letter stands
before it and none after it, characters without influence on case being passed over.
-/

namespace Stencil.Text

/-- The code point that a table of runs maps `n` to. -/
def CaseRun.lookup (runs : List CaseRun) (n : Nat) : Nat :=
  match runs with
  | [] => n
  | r :: rs =>
    if r.first ≤ n ∧ n ≤ r.last ∧ (n - r.first) % r.stride = 0 then ((n : Int) + r.shift).toNat
    else lookup rs n

/-- The characters a mapping writes for `c`. -/
def mapCase (runs : List CaseRun) (expansions : List (Nat × List Nat)) (c : Char) : List Char :=
  match expansions.lookup c.toNat with
  | some codes => codes.map Char.ofNat
  | none => [Char.ofNat (CaseRun.lookup runs c.toNat)]

/-- The upper case of a text. -/
def upper (text : List Char) : List Char :=
  text.flatMap (mapCase upperRuns upperExpansions)

/-- `c` has no influence on the case of its neighbours. -/
def isCaseIgnorable (c : Char) : Bool :=
  inRanges caseIgnorablePoints c.toNat

/-- The nearest character of `text` that has an influence on case has a case itself. -/
def meetsCased (text : List Char) : Bool :=
  match text.dropWhile isCaseIgnorable with
  | [] => false
  | c :: _ => inRanges casedPoints c.toNat

/-- The capital sigma, whose lower case depends on its neighbours. -/
def capitalSigma : Char := Char.ofNat 0x3a3

/-- The lower case of a capital sigma between two texts, the one before it in reverse. -/
def lowerSigma (before after : List Char) : Char :=
  if meetsCased before && !meetsCased after then Char.ofNat 0x3c2 else Char.ofNat 0x3c3

/-- The lower case of `text` after the characters `before`, which are in reverse. -/
def lowerAfter (before : List Char) : List Char → List Char
  | [] => []
  | c :: cs =>
    (if c = capitalSigma then [lowerSigma before cs] else mapCase lowerRuns lowerExpansions c)
      ++ lowerAfter (c :: before) cs

/-- The lower case of a text. -/
def lower (text : List Char) : List Char :=
  lowerAfter [] text

end Stencil.Text
