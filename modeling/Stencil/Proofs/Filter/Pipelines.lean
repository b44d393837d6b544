import Stencil.Proofs.Encoding.Base64
import Stencil.Proofs.Encoding.Escape
import Stencil.Proofs.Environment.Stacks
import Stencil.Proofs.Expr.Applications

/-!
# Filter — Pipelines

An expression may be put through several filters, one after another.  Where the stock filters go by
their names, its value then is what the filters make of it one after another (`evaluate_piped`).

Three stock filters can be undone.  What `base64encode` makes of a value is base64 text, from which
`base64decode` makes the text of the value again (`base64_decodes`).  What `xmlentities` and
`urlencode` make of a value may be placed in markup and in an address, and the text of the value is
read back from it (`escapes_readBack`).
-/

namespace Stencil

open Stencil.Expr

/-- An expression put through stock filters, by their names. -/
def Expr.piped (e : Expr) (fs : List StockFilter) : Expr :=
  fs.foldl (fun e f => .binary "|" e (.ident f.name []) []) e

variable {level height : Nat} {lookup : String → Option Value}

theorem Environment.lookup_withFilters (env : Environment) (f : StockFilter) :
    env.withFilters.lookup f.name = some (.filter (.stock f)) := by
  simp only [withFilters, StockFilter.all, List.foldl_cons, List.foldl_nil, lookup_push]
  cases f <;> rfl

/-- A filter is applied one level above what it is applied to. -/
theorem Expr.evaluateTo_filter {f : StockFilter} (hf : lookup f.name = some (.filter (.stock f)))
    (e : Expr) :
    (evaluateTo level lookup (height + 2) (.binary "|" e (.ident f.name []) [])).result =
      (evaluateTo level lookup (height + 1) e).result >>= f.apply := by
  have hname : (evaluateTo level lookup (height + 1) (.ident f.name [])).result =
      .ok (.filter (.stock f)) := by
    refine (result_evaluateTo_bare height (.ident f.name [])).trans ?_
    rw [bare, valueOf, hf]
    rfl
  refine (result_evaluateTo_bare (height + 1) (.binary "|" e (.ident f.name []) [])).trans ?_
  rw [result_bare_binary, hname]
  rfl

/-- **Filters are applied one after another.** -/
theorem Expr.evaluateTo_piped {fs : List StockFilter}
    (hfs : ∀ f ∈ fs, lookup f.name = some (.filter (.stock f))) (e : Expr) :
    (evaluateTo level lookup (height + 1 + fs.length) (e.piped fs)).result =
      (evaluateTo level lookup (height + 1) e).result >>= fun v =>
        fs.foldlM (fun v f => f.apply v) v := by
  induction fs generalizing e height with
  | nil => exact (bind_pure _).symm
  | cons f fs ih =>
      obtain ⟨hf, hfs⟩ := List.forall_mem_cons.mp hfs
      change (evaluateTo level lookup (height + 1 + (fs.length + 1))
        (Expr.piped (.binary "|" e (.ident f.name []) []) fs)).result = _
      rw [show height + 1 + (fs.length + 1) = height + 1 + 1 + fs.length by omega, ih hfs,
        evaluateTo_filter hf, bind_assoc]
      rfl

/-- The value of a value that is put through stock filters. -/
theorem Expr.evaluate_piped (level : Nat) (env : Environment) (v : Value) {fs : List StockFilter}
    (hfs : fs.length < evaluationLimit) :
    (((Expr.literal v []).piped fs).evaluate level env.withFilters.lookup).result =
      fs.foldlM (fun v f => f.apply v) v := by
  obtain ⟨height, hheight⟩ := Nat.exists_eq_add_of_lt hfs
  rw [evaluate, show evaluationLimit = height + 1 + fs.length by omega,
    evaluateTo_piped fun f _ => env.lookup_withFilters f]
  rw [result_evaluateTo]
  rfl

namespace StockFilter

/-- The text of some bytes is ASCII. -/
theorem not_beyondAscii_encoded (bytes : List UInt8) :
    ((Base64.encode bytes).any fun c => 0x80 ≤ c.toNat) = false := by
  obtain ⟨body, pads, htext, hbody⟩ := Base64.exists_isText bytes
  rw [htext, List.any_append, Bool.or_eq_false_iff]
  constructor
  · refine List.any_eq_false.mpr fun c hc => ?_
    have hlt := Base64.lt_of_mem_alphabet (hbody.alphabet c hc)
    rw [decide_eq_true_iff]
    omega
  · refine List.any_eq_false.mpr fun c hc => ?_
    rw [List.eq_of_mem_replicate hc]
    decide

/-- A value whose text is base64 for another text is decoded to that text. -/
theorem decodeBase64_of_encoded {w : Value} {text : String}
    (hw : w.text.toList = Base64.encode (Utf8.encode text.toList)) :
    decodeBase64 w = .ok (.string text) := by
  unfold decodeBase64
  dsimp only
  rw [hw, not_beyondAscii_encoded, if_neg Bool.false_ne_true, Base64.decode_encode]
  dsimp only
  rw [Utf8.decode_encode]
  dsimp only
  rw [String.ofList_toList]

/-- **`base64decode` undoes `base64encode`.**  What `base64encode` makes of a value is base64 text:
characters of the alphabet and no more than two paddings behind them, in groups of four.  From that
`base64decode` makes the text of the value. -/
theorem base64_decodes (level : Nat) (env : Environment) (v : Value) :
    ∃ body pads, Base64.IsText body pads ∧
      (((Expr.literal v []).piped [.base64encode]).evaluate level env.withFilters.lookup).result =
        .ok (.string (String.ofList (body ++ List.replicate pads Base64.pad))) ∧
      (((Expr.literal v []).piped [.base64encode, .base64decode]).evaluate level
        env.withFilters.lookup).result = .ok (.string v.text) := by
  obtain ⟨body, pads, htext, hbody⟩ := Base64.exists_isText (Utf8.encode v.text.toList)
  obtain ⟨w, hw⟩ : ∃ w, w = String.ofList (body ++ List.replicate pads Base64.pad) := ⟨_, rfl⟩
  have hencode : StockFilter.base64encode.apply v = .ok (.string w) := by
    rw [hw, ← htext]
    rfl
  have hdecode : StockFilter.base64decode.apply (.string w) = .ok (.string v.text) := by
    refine decodeBase64_of_encoded ?_
    rw [Value.text, hw, String.toList_ofList, htext]
  refine ⟨body, pads, hbody, ?_, ?_⟩
  · rw [evaluate_piped level env v (by decide), List.foldlM_cons, hencode, hw]
    rfl
  · rw [evaluate_piped level env v (by decide), List.foldlM_cons, hencode]
    change [StockFilter.base64decode].foldlM (fun v f => f.apply v) (Value.string w) = _
    rw [List.foldlM_cons, hdecode]
    rfl

/-- **The escapes of a text are safe and reversible.**  What `xmlentities` makes of a value may be
placed in markup, and what `urlencode` makes of it may be placed in an address; reading the entities
from left to right, or the percent escapes and then UTF-8, gives the text of the value. -/
theorem escapes_readBack (level : Nat) (env : Environment) (v : Value) :
    (∃ w : String,
      (((Expr.literal v []).piped [.xmlentities]).evaluate level env.withFilters.lookup).result =
        .ok (.string w) ∧
      Escape.IsMarkupSafe w.toList ∧ Escape.readEntities w.toList = v.text.toList) ∧
    (∃ w : String,
      (((Expr.literal v []).piped [.urlencode]).evaluate level env.withFilters.lookup).result =
        .ok (.string w) ∧
      Escape.IsAddressSafe w.toList ∧
      Utf8.decode (Escape.readPercent w.toList) = .ok v.text.toList) := by
  have hentities : StockFilter.xmlentities.apply v =
      .ok (.string (String.ofList (Escape.entities v.text.toList))) := rfl
  have hpercent : StockFilter.urlencode.apply v =
      .ok (.string (String.ofList (Escape.percent v.text.toList))) := rfl
  constructor
  · refine ⟨String.ofList (Escape.entities v.text.toList), ?_, ?_, ?_⟩
    · rw [evaluate_piped level env v (by decide), List.foldlM_cons, hentities]
      rfl
    · rw [String.toList_ofList]
      exact Escape.isMarkupSafe_entities _
    · rw [String.toList_ofList, Escape.readEntities_entities]
  · refine ⟨String.ofList (Escape.percent v.text.toList), ?_, ?_, ?_⟩
    · rw [evaluate_piped level env v (by decide), List.foldlM_cons, hpercent]
      rfl
    · rw [String.toList_ofList]
      exact Escape.isAddressSafe_percent _
    · rw [String.toList_ofList, Escape.readPercent_percent, Utf8.decode_encode]

end StockFilter

end Stencil
