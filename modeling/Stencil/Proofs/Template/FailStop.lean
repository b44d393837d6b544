import Stencil.Proofs.Template.Course

/-!
# Template — Fail-stop

Rendering to an output that runs out of room.  The effects of a template, in order, are those of its
course (`Course.effects`).  An output with room for all of its texts has all of the effects
(`Act.playAll_of_fits`).  An output with room for `k` of more texts has the effects in front of text
number `k`, counted from zero, and none behind it, in whichever loops that text is written
(`Act.playAll_of_full`).  So rendering stops at the text that is refused, and the failure of the
output comes before any failure that rendering would have come to later
(`Template.renderTo_failStop`).
-/

namespace Stencil

open Render

namespace Effect

/-- The lines that are left. -/
def lines : List Effect → List String
  | [] => []
  | .line text :: es => text :: lines es
  | .write _ :: es => lines es

/-- The texts that are written. -/
def texts : List Effect → List String
  | [] => []
  | .line _ :: es => texts es
  | .write text :: es => text :: texts es

/-- The effects in front of the text with a number, or all effects if there is no such text. -/
def upTo : Nat → List Effect → List Effect
  | _, [] => []
  | k, .line text :: es => .line text :: upTo k es
  | 0, .write _ :: _ => []
  | k + 1, .write text :: es => .write text :: upTo k es

variable {k : Nat} {es es' : List Effect}

@[simp] theorem lines_append (es es' : List Effect) :
    lines (es ++ es') = lines es ++ lines es' := by
  fun_induction lines es <;> simp [lines, *]

@[simp] theorem texts_append (es es' : List Effect) :
    texts (es ++ es') = texts es ++ texts es' := by
  fun_induction texts es <;> simp [texts, *]

theorem texts_upTo (k : Nat) (es : List Effect) : texts (upTo k es) = (texts es).take k := by
  fun_induction upTo k es <;> simp [texts, *]

theorem upTo_append_of_lt (h : k < (texts es).length) (es' : List Effect) :
    upTo k (es ++ es') = upTo k es := by
  fun_induction upTo k es <;> simp_all [texts, upTo]

theorem upTo_append_of_le (h : (texts es).length ≤ k) (es' : List Effect) :
    upTo k (es ++ es') = es ++ upTo (k - (texts es).length) es' := by
  fun_induction upTo k es <;> simp_all [texts, upTo]

end Effect

open Effect

namespace Output

variable {out : Output} {k n : Nat} {reason : String}

/-- The output after it has taken some texts. -/
def took (out : Output) (texts : List String) : Output :=
  { out with taken := texts.reverse ++ out.taken }

theorem texts_took_fresh (name : String) (sink : Sink) (ending : SinkEnd) (texts : List String) :
    ((fresh name sink ending).took texts).texts = texts := by
  simp [took, fresh, Output.texts]

/-- The output keeps any text, and it has room for at least `n` more. -/
structure Fits (out : Output) (n : Nat) : Prop where
  codec : out.sink.codec = none
  room : ∀ m reason, out.sink.room = some (m, reason) → out.taken.length + n ≤ m

/-- The output keeps any text, and it has room for `k` more and not for the one after these. -/
structure FullAfter (out : Output) (k : Nat) (reason : String) : Prop where
  codec : out.sink.codec = none
  room : out.sink.room = some (out.taken.length + k, reason)

theorem FullAfter.fits (h : out.FullAfter k reason) (hle : n ≤ k) : out.Fits n where
  codec := h.codec
  room m reason' hroom := by
    obtain ⟨rfl, -⟩ := Prod.mk.inj (Option.some.inj (h.room.symm.trans hroom))
    exact Nat.add_le_add_left hle _

theorem Fits.took {texts : List String} (h : out.Fits (texts.length + n)) :
    (out.took texts).Fits n where
  codec := h.codec
  room m reason hroom := by
    have hle := h.room m reason hroom
    simp only [Output.took, List.length_append, List.length_reverse]
    omega

theorem FullAfter.took {texts : List String} (h : out.FullAfter (texts.length + k) reason) :
    (out.took texts).FullAfter k reason where
  codec := h.codec
  room := by
    refine h.room.trans ?_
    simp only [Output.took, List.length_append, List.length_reverse]
    congr 2
    omega

/-- Without an encoding there is no encoder that sees the text. -/
theorem offer_of_none (h : out.sink.codec = none) (text : String) : out.offer text = out := by
  rw [offer, h]
  rfl

theorem write_of_fits (h : out.Fits 1) (text : String) :
    out.write text = (out.took [text], none) := by
  have hrefusal : out.refusal? text = none := by
    unfold refusal? refusal?.unencodable
    rw [h.codec]
    split
    · rename_i m reason hroom
      have hle := h.room m reason hroom
      rw [if_neg (by omega)]
    · rfl
  rw [write, hrefusal]
  dsimp only
  rw [offer_of_none h.codec]
  rfl

theorem write_of_full (h : out.FullAfter 0 reason) (text : String) :
    out.write text = (out, some (.writeFailed out.name reason)) := by
  have hrefusal : out.refusal? text = some reason := by
    unfold refusal?
    rw [h.room]
    exact if_pos (Nat.le_refl _)
  rw [write, hrefusal]
  dsimp only
  rw [offer_of_none h.codec]

end Output

/-- A canvas after some effects, and a change of the environment. -/
def Canvas.left (s : Canvas) (change : Environment → Environment) (es : List Effect) : Canvas :=
  ⟨change s.env, s.output.took (texts es), (lines es).reverse ++ s.trace⟩

theorem Canvas.left_left (s : Canvas) (change change' : Environment → Environment)
    (es es' : List Effect) :
    (s.left change es).left change' es' = s.left (change' ∘ change) (es ++ es') := by
  simp [left, Output.took]

theorem Canvas.lines_left (env : Environment) (output : Output)
    (change : Environment → Environment) (es : List Effect) :
    ((Canvas.mk env output []).left change es).trace.reverse = lines es := by
  simp [left]

namespace Act

/-- The effects of what is done. -/
def effects : Act → List Effect
  | .effect e => [e]
  | .turn _ _ acts => effectsAll acts
where
  /-- The effects of one thing after another. -/
  effectsAll : List Act → List Effect
    | [] => []
    | a :: as => effects a ++ effectsAll as

/-- What becomes of the environment. -/
def env : Act → Environment → Environment
  | .effect _ => id
  | .turn name v acts => fun env => (envAll acts (env.push name v)).pop name
where
  /-- What becomes of the environment by one thing after another. -/
  envAll : List Act → Environment → Environment
    | [] => id
    | a :: as => envAll as ∘ env a

open play (playAll)
open effects (effectsAll)
open env (envAll)

mutual

theorem play_of_fits : ∀ (a : Act) (s : Canvas), s.output.Fits (texts a.effects).length →
    a.play s = .ok () (s.left a.env a.effects)
  | .effect (.line text), s, _ => rfl
  | .effect (.write text), s, h => by
      rw [play, Effect.play, Render.write, Output.write_of_fits h]
      rfl
  | .turn name v acts, s, h => by
      have hacts := playAll_of_fits acts { s with env := s.env.push name v } h
      rw [play, bind_of_ok (modifyEnv_apply _ s), always, hacts]
      rfl

/-- An output with room for all texts has all effects. -/
theorem playAll_of_fits : ∀ (as : List Act) (s : Canvas),
    s.output.Fits (texts (effectsAll as)).length →
      playAll as s = .ok () (s.left (envAll as) (effectsAll as))
  | [], s, _ => rfl
  | a :: as, s, h => by
      rw [effectsAll, texts_append, List.length_append] at h
      have ha := play_of_fits a s ⟨h.codec, fun m reason hroom => by
        have hle := h.room m reason hroom
        omega⟩
      rw [playAll, bind_of_ok ha, playAll_of_fits as _ h.took, Canvas.left_left]
      rfl

end

mutual

theorem play_of_full : ∀ (a : Act) (s : Canvas) {k : Nat} {reason : String},
    s.output.FullAfter k reason → k < (texts a.effects).length →
      ∃ change, a.play s =
        .error (.of (.writeFailed s.output.name reason)) (s.left change (upTo k a.effects))
  | .effect (.line text), s, k, reason, _, hlt => absurd hlt (Nat.not_lt_zero k)
  | .effect (.write text), s, k, reason, h, hlt => by
      obtain rfl : k = 0 := Nat.lt_one_iff.mp hlt
      refine ⟨id, ?_⟩
      rw [play, Effect.play, Render.write, Output.write_of_full h]
      rfl
  | .turn name v acts, s, k, reason, h, hlt => by
      obtain ⟨change, hacts⟩ := playAll_of_full acts { s with env := s.env.push name v } h hlt
      refine ⟨fun env => (change (env.push name v)).pop name, ?_⟩
      rw [play, bind_of_ok (modifyEnv_apply _ s), always, hacts]
      rfl

/-- An output with room for fewer texts refuses the one behind these, and has no effect from there
on. -/
theorem playAll_of_full : ∀ (as : List Act) (s : Canvas) {k : Nat} {reason : String},
    s.output.FullAfter k reason → k < (texts (effectsAll as)).length →
      ∃ change, playAll as s =
        .error (.of (.writeFailed s.output.name reason)) (s.left change (upTo k (effectsAll as)))
  | [], s, k, reason, _, hlt => absurd hlt (Nat.not_lt_zero k)
  | a :: as, s, k, reason, h, hlt => by
      rw [playAll, effectsAll]
      rcases Nat.lt_or_ge k (texts a.effects).length with hk | hk
      · obtain ⟨change, ha⟩ := play_of_full a s h hk
        exact ⟨change, by rw [bind_of_error ha, upTo_append_of_lt hk]⟩
      · have ha := play_of_fits a s (h.fits hk)
        rw [effectsAll, texts_append, List.length_append] at hlt
        obtain ⟨m, rfl⟩ := Nat.exists_eq_add_of_le hk
        obtain ⟨change, has⟩ := playAll_of_full as (s.left a.env a.effects) h.took
          (Nat.lt_of_add_lt_add_left hlt)
        refine ⟨change ∘ a.env, ?_⟩
        rw [bind_of_ok ha, has, Canvas.left_left, upTo_append_of_le hk, Nat.add_sub_cancel_left]
        rfl

end

end Act

/-- The effects of a course. -/
def Course.effects (c : Course) : List Effect :=
  Act.effects.effectsAll c.acts

namespace Template

variable {level k : Nat} {env : Environment} {output : Output} {reason : String}

/-- An output with room for all texts of a template. -/
theorem renderTo_of_fits (t : Template)
    (h : output.Fits (texts (t.course level env.lookup).effects).length) :
    t.renderTo level env output =
      ⟨(Canvas.mk env output []).left (Act.env.envAll (t.course level env.lookup).acts)
        (t.course level env.lookup).effects, (t.course level env.lookup).failure⟩ := by
  rw [renderTo, plays_render t, Course.play, bind_of_ok (Act.playAll_of_fits _ _ h)]
  cases (t.course level env.lookup).failure <;> rfl

/-- An output with room for fewer texts than a template has. -/
theorem renderTo_of_full (t : Template) (h : output.FullAfter k reason)
    (hlt : k < (texts (t.course level env.lookup).effects).length) :
    ∃ change, t.renderTo level env output =
      ⟨(Canvas.mk env output []).left change (upTo k (t.course level env.lookup).effects),
        some (.of (.writeFailed output.name reason))⟩ := by
  obtain ⟨change, hplay⟩ :=
    Act.playAll_of_full (t.course level env.lookup).acts ⟨env, output, []⟩ h hlt
  refine ⟨change, ?_⟩
  rw [renderTo, plays_render t, Course.play, bind_of_error hplay]
  rfl

/-- **Rendering stops at the text that is refused.**  Let a template be rendered to an output that
takes any text, and to the same output with room for `k` texts.  The one with room for `k` gets the
first `k` of the texts.  If there are more, rendering fails because of the output, and its trace is
what comes in front of the text that was refused.  So nothing is evaluated behind that text, as is
seen from `Expr.traceLevel` on, where each value leaves a line.  If there are no more texts, both
renderings end alike. -/
theorem renderTo_failStop (t : Template) (level k : Nat) (env : Environment)
    (name reason : String) (flushFault : Option String) (ending : SinkEnd) :
    let effects := (t.course level env.lookup).effects
    let free := t.renderTo level env (.fresh name ⟨none, none, flushFault⟩ ending)
    let limited := t.renderTo level env (.fresh name ⟨some (k, reason), none, flushFault⟩ ending)
    free.canvas.output.texts = texts effects ∧ free.lines = lines effects ∧
      limited.canvas.output.texts = free.canvas.output.texts.take k ∧
      (k < free.canvas.output.texts.length →
        limited.failure = some (.of (.writeFailed name reason)) ∧
          limited.lines = lines (upTo k effects)) ∧
      (free.canvas.output.texts.length ≤ k →
        limited.failure = free.failure ∧ limited.lines = free.lines ∧ limited.env = free.env) := by
  intro effects free limited
  have hfree : free = ⟨_, _⟩ := renderTo_of_fits t ⟨rfl, fun _ _ h => by cases h⟩
  have htexts : free.canvas.output.texts = texts effects := by
    rw [hfree]
    exact Output.texts_took_fresh name _ ending _
  have hlines : free.lines = lines effects := by
    rw [hfree]
    exact Canvas.lines_left env _ _ _
  have hfull : (Output.fresh name ⟨some (k, reason), none, flushFault⟩ ending).FullAfter k reason :=
    ⟨rfl, by rw [Output.fresh, List.length_nil, Nat.zero_add]⟩
  rw [htexts, hlines, ← texts_upTo]
  -- Either the output is full before the last text, or all texts fit into it.
  rcases Nat.lt_or_ge k (texts effects).length with hk | hk
  · obtain ⟨change, hlimited⟩ : ∃ change, limited = ⟨Canvas.left _ change (upTo k effects), _⟩ :=
      renderTo_of_full t hfull hk
    rw [hlimited]
    exact ⟨rfl, rfl, Output.texts_took_fresh name _ ending _,
      fun _ => ⟨rfl, Canvas.lines_left env _ _ _⟩, fun h => absurd hk (Nat.not_lt.mpr h)⟩
  · have hlimited : limited = ⟨_, _⟩ := renderTo_of_fits t (hfull.fits hk)
    rw [hlimited, hfree, texts_upTo, List.take_of_length_le hk]
    exact ⟨rfl, rfl, Output.texts_took_fresh name _ ending _,
      fun h => absurd h (Nat.not_lt.mpr hk), fun _ => ⟨rfl, Canvas.lines_left env _ _ _, rfl⟩⟩

/-- A loop over two items, an expression that fails behind it, and room for one text: the second
item is evaluated and refused, and the expression is never come to. -/
theorem renderTo_failStop_in_loop :
    let env := Environment.empty.push "xs" (.array [.integer 1, .integer 2])
    let t : Template :=
      ⟨[.loop "x" (.ident "xs" []) [.insert (.ident "x" [])], .insert (.ident "y" [])]⟩
    let free := t.renderTo 3 env (.fresh "out" ⟨none, none, none⟩ .keep)
    let limited := t.renderTo 3 env (.fresh "out" ⟨some (1, "full"), none, none⟩ .keep)
    free.canvas.output.texts = ["1", "2"] ∧ free.failure = some (.of (.symbolNotFound "y")) ∧
      limited.canvas.output.texts = ["1"] ∧
      limited.failure = some (.of (.writeFailed "out" "full")) ∧
      limited.lines = ["eval xs -> [1, 2]", "for x = 1", "eval x -> 1", "for x = 2",
        "eval x -> 2"] := by
  intro env t
  have hstop := renderTo_failStop t 3 1 env "out" "full" none .keep
  dsimp only at hstop ⊢
  have hfree : (t.renderTo 3 env (.fresh "out" ⟨none, none, none⟩ .keep)).canvas.output.texts =
      ["1", "2"] := by decide +kernel
  have hlines : lines (upTo 1 (t.course 3 env.lookup).effects) = ["eval xs -> [1, 2]", "for x = 1",
      "eval x -> 1", "for x = 2", "eval x -> 2"] := by decide +kernel
  rw [hfree, hlines] at hstop
  obtain ⟨-, -, hlimited, hfull, -⟩ := hstop
  exact ⟨hfree, by with_unfolding_all rfl, hlimited, hfull (by decide)⟩

end Template

end Stencil
