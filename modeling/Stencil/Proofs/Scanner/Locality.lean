import Stencil.Proofs.Scanner.Readings

/-!
# Scanner — Locality

A scanner looks a few characters ahead, but what it reads is decided by what it consumes and by
little of what comes behind.  `Follows R M e d x y` says so of two scanners: whenever `x` reads
something, it consumes some characters `w` that go no deeper than `e` in the measure `M`, and if
they go no deeper than `d`, then `y` reads the same from `w` before every rest that `R` relates to
the one `x` has left.

The relation `R` says which rests cannot be told apart (`PrefixClosed`: what is common to two rests
may be read first).  The measure is for readers that go on by levels, where `y` may have fewer of
them than `x`; where depth plays no part it is `Measure.flat`.

Locality is kept by sequences (`Follows.bind`), by looking at the next characters
(`follows_next`), by machines (`follows_fold`) and by repetition (`follows_gather`).
-/

namespace Stencil.Scanner

variable {α β σ τ : Type}

/-- A relation between rests that also relates them behind a common beginning. -/
def PrefixClosed (R : List Char → List Char → Prop) : Prop :=
  ∀ {r r'}, R r r' → ∀ w, R (w ++ r) (w ++ r')

/-- A way to tell how deep a text goes, no deeper than the deepest of its parts. -/
structure Measure where
  Holds : List Char → Nat → Prop
  nil : Holds [] 0
  append : ∀ {v w k m}, Holds v k → Holds w m → Holds (v ++ w) (max k m)

/-- The measure by which no text has depth. -/
def Measure.flat : Measure where
  Holds _ k := k = 0
  nil := rfl
  append hv hw := by rw [hv, hw]; rfl

/-- The reading of `a` from the beginning of `cs`, which ends in the stream `t`, is one that `y`
does too. -/
def Span (R : List Char → List Char → Prop) (M : Measure) (e d : Nat) (y : Scanner α)
    (p : Position) (cs : List Char) (a : α) (t : Stencil.Stream) : Prop :=
  ∃ w r k, cs = w ++ r ∧ t = .ofTextAt (p.after w) r ∧ M.Holds w k ∧ k ≤ e ∧
    (k ≤ d → ∀ r', R r r' → y.Reads w a r')

/-- Whatever `x` reads, `y` reads as well, and before any rest that `R` relates to the one left. -/
def Follows (R : List Char → List Char → Prop) (M : Measure) (e d : Nat) (x y : Scanner α) :
    Prop :=
  ∀ p cs a t, x.run (.ofTextAt p cs) = .ok a t → Span R M e d y p cs a t

variable {R : List Char → List Char → Prop} {M : Measure} {e d : Nat}

/-- A reading of which nothing is consumed. -/
theorem Span.nil {y : Scanner α} {p : Position} {cs : List Char} {a : α}
    (h : ∀ r', R cs r' → y.Reads [] a r') : Span R M e d y p cs a (.ofTextAt p cs) :=
  ⟨[], cs, 0, rfl, rfl, M.nil, Nat.zero_le e, fun _ => h⟩

/-- A reading of characters without depth. -/
theorem Span.flat {y : Scanner α} {p : Position} {w r : List Char} {a : α} (hM : M.Holds w 0)
    (h : ∀ r', R r r' → y.Reads w a r') :
    Span R M e d y p (w ++ r) a (.ofTextAt (p.after w) r) :=
  ⟨w, r, 0, rfl, rfl, hM, Nat.zero_le e, fun _ => h⟩

/-- Where the depth is known to suffice, the reading is one for every related rest. -/
theorem Span.reads {y : Scanner α} {p : Position} {cs : List Char} {a : α} {t : Stencil.Stream}
    (h : Span R M e d y p cs a t) (hed : e ≤ d) :
    ∃ w r, cs = w ++ r ∧ t = .ofTextAt (p.after w) r ∧ ∀ r', R r r' → y.Reads w a r' := by
  obtain ⟨w, r, k, hcs, ht, -, hk, hy⟩ := h
  exact ⟨w, r, hcs, ht, hy (hk.trans hed)⟩

theorem follows_pure (a : α) : Follows R M e d (pure a) (pure a) := by
  intro p cs b t h
  cases h
  exact .nil fun r' _ => reads_pure a r'

/-- A scanner that always fails is followed by any. -/
theorem follows_of_fails {x y : Scanner α} (h : ∀ s, ∃ f t, x.run s = .error f t) :
    Follows R M e d x y := by
  intro p cs a t hx
  obtain ⟨f, u, hf⟩ := h (.ofTextAt p cs)
  rw [hf] at hx
  cases hx

theorem follows_fail (cause : Cause) (y : Scanner α) : Follows R M e d (fail cause) y :=
  follows_of_fails fun s => ⟨_, s, rfl⟩

/-- Two readings in a row, of which the first is that of `y` and the second that of `g a`. -/
theorem Span.bind (hR : PrefixClosed R) {y : Scanner α} {g : α → Scanner β} {p : Position}
    {cs : List Char} {a : α} {b : β} {t u : Stencil.Stream} (hy : Span R M e d y p cs a t)
    (hg : ∀ {q r}, t = .ofTextAt q r → Span R M e d (g a) q r b u) :
    Span R M e d (y >>= g) p cs b u := by
  obtain ⟨v, r₁, k, rfl, rfl, hMv, hk, hy⟩ := hy
  obtain ⟨w, r, m, rfl, rfl, hMw, hm, hg⟩ := hg rfl
  refine ⟨v ++ w, r, max k m, (List.append_assoc v w r).symm, by rw [Position.after_append],
    M.append hMv hMw, Nat.max_le.mpr ⟨hk, hm⟩, fun hd r' hr => ?_⟩
  obtain ⟨hkd, hmd⟩ := Nat.max_le.mp hd
  exact (hy hkd _ (hR hr w)).bind (hg hmd r' hr)

theorem Follows.bind (hR : PrefixClosed R) {x y : Scanner α} {f g : α → Scanner β}
    (hx : Follows R M e d x y) (hf : ∀ a, Follows R M e d (f a) (g a)) :
    Follows R M e d (x >>= f) (y >>= g) := by
  intro p cs b u h
  obtain ⟨a, t, ha, hb⟩ := run_bind_ok h
  exact (hx _ _ _ _ ha).bind hR fun ht => hf a _ _ _ _ (by rw [← ht]; exact hb)

theorem Follows.map (hR : PrefixClosed R) {x y : Scanner α} (hx : Follows R M e d x y)
    (f : α → β) : Follows R M e d (do return f (← x)) (do return f (← y)) :=
  hx.bind hR fun a => follows_pure (f a)

/-- Fewer rests may be related, and fewer depths granted. -/
theorem Follows.mono {R' : List Char → List Char → Prop} {x y : Scanner α}
    (h : Follows R M e d x y) (hR : ∀ {r r'}, R' r r' → R r r') (hed : e ≤ d) :
    Follows R' .flat 0 0 x y := by
  intro p cs a t hx
  obtain ⟨w, r, rfl, rfl, hy⟩ := (h _ _ _ _ hx).reads hed
  exact .flat rfl fun r' hr => hy r' (hR hr)

/-! ### Looking at the next characters -/

/-- What is read in view of the characters ahead is read the same before related rests, if those
give the same view. -/
theorem Span.peek (hR : PrefixClosed R) {n : Nat} {g : List Char → Scanner α} {p : Position}
    {cs : List Char} {a : α} {t : Stencil.Stream} (h : Span R M e d (g (cs.take n)) p cs a t)
    (same : ∀ {s}, R cs s → g (s.take n) = g (cs.take n)) :
    Span R M e d (Scanner.peek n >>= g) p cs a t := by
  obtain ⟨w, r, k, rfl, rfl, hMw, hk, hg⟩ := h
  refine ⟨w, r, k, rfl, rfl, hMw, hk, fun hd r' hr => ?_⟩
  refine (reads_peek n (w ++ r')).nil_bind ?_
  rw [same (hR hr w)]
  exact hg hd r' hr

section Next

variable {ahead : Nat} {choose : Char → List Char → Option (Nat × β)}

/-- Nothing is wanted at the front of a text. -/
def Declines (ahead : Nat) (choose : Char → List Char → Option (Nat × β)) (r : List Char) : Prop :=
  ∀ c cs, r = c :: cs → choose c (cs.take ahead) = none

theorem reads_next_none {r : List Char} (h : Declines ahead choose r) :
    (next ahead choose).Reads [] none r := by
  intro p
  cases r with
  | nil => rfl
  | cons c cs => exact run_next_of_none (h c cs rfl) p

theorem reads_next_some {c : Char} {w r : List Char} {b : β}
    (h : choose c ((w ++ r).take ahead) = some (w.length, b)) :
    (next ahead choose).Reads (c :: w) (some b) r := by
  intro p
  refine (run_next_of_some h p).trans ?_
  rw [List.take_left, List.drop_left]

/-- Looking at the next characters is local, if the choice is the same before related rests. -/
theorem follows_next (hR : PrefixClosed R)
    (declines : ∀ {r r'}, R r r' → Declines ahead choose r → Declines ahead choose r')
    (same : ∀ {r r'} c, R r r' → choose c (r.take ahead) = choose c (r'.take ahead))
    (within : ∀ {c} {cs : List Char} {extra b}, choose c (cs.take ahead) = some (extra, b) →
      extra ≤ cs.length ∧ M.Holds (c :: cs.take extra) 0) :
    Follows R M e d (next ahead choose) (next ahead choose) := by
  intro p cs o t h
  cases cs with
  | nil =>
      cases h
      exact .nil fun r' hr => reads_next_none (declines hr fun _ _ h => by cases h)
  | cons c cs =>
      cases hc : choose c (cs.take ahead) with
      | none =>
          rw [run_next_of_none hc] at h
          cases h
          refine .nil fun r' hr => reads_next_none (declines hr fun c' cs' h => ?_)
          cases h
          exact hc
      | some choice =>
          obtain ⟨extra, b⟩ := choice
          obtain ⟨hlen, hM⟩ := within hc
          rw [run_next_of_some hc] at h
          cases h
          -- What is chosen depends on nothing behind the characters that are looked at.
          have split : c :: cs = (c :: cs.take extra) ++ cs.drop extra := by simp
          rw [split]
          refine .flat hM fun r' hr => reads_next_some ?_
          rw [← same c (hR hr (cs.take extra)), List.take_append_drop, hc,
            List.length_take_of_le hlen]

end Next

/-! ### Machines -/

section Fold

variable {ahead : Nat} {move : σ → Char → List Char → Move σ}

/-- A machine goes no further at the front of a text. -/
def Halts (ahead : Nat) (move : σ → Char → List Char → Move σ) (s : σ) (r : List Char) : Prop :=
  ∀ c cs, r = c :: cs → move s c (cs.take ahead) = .stop

theorem reads_fold_halts {s : σ} {r : List Char} (h : Halts ahead move s r) :
    (fold ahead move s).Reads [] s r := by
  cases r with
  | nil => exact reads_fold_nil
  | cons c cs => exact reads_fold_stop (h c cs rfl)

/-- A machine is local, if its moves are the same before related rests. -/
theorem follows_fold (hR : PrefixClosed R)
    (halts : ∀ {s r r'}, R r r' → Halts ahead move s r → Halts ahead move s r')
    (same : ∀ {r r'} s c, R r r' → move s c (r.take ahead) = move s c (r'.take ahead))
    (within : ∀ {s c} {cs : List Char} {extra b}, move s c (cs.take ahead) = .step extra b ∨
      move s c (cs.take ahead) = .last extra b → extra ≤ cs.length ∧ M.Holds (c :: cs.take extra) 0)
    (s : σ) : Follows R M e d (fold ahead move s) (fold ahead move s) := by
  intro p cs a t h
  -- The induction is on the length of the text, of which each step takes a character at least.
  induction hn : cs.length using Nat.strong_induction_on generalizing s p cs with
  | _ n ih =>
    cases cs with
    | nil =>
        rw [show (fold ahead move s).run _ = _ from foldFrom_nil ahead move s p] at h
        cases h
        exact .nil fun r' hr => reads_fold_halts (halts hr fun _ _ h => by cases h)
    | cons c cs =>
        cases hm : move s c (cs.take ahead) with
        | stop =>
            rw [show (fold ahead move s).run _ = _ from foldFrom_stop hm p] at h
            cases h
            refine .nil fun r' hr => reads_fold_halts (halts hr fun c' cs' h => ?_)
            cases h
            exact hm
        | last extra b =>
            obtain ⟨hlen, hM⟩ := within (.inr hm)
            rw [show (fold ahead move s).run _ = _ from foldFrom_last hm p] at h
            cases h
            have split : c :: cs = (c :: cs.take extra) ++ cs.drop extra := by simp
            rw [split]
            refine .flat hM fun r' hr => reads_fold_last ?_
            rw [← same s c (hR hr (cs.take extra)), List.take_append_drop, hm,
              List.length_take_of_le hlen]
        | step extra b =>
            obtain ⟨hlen, hM⟩ := within (.inl hm)
            have hstep : foldFrom ahead move b (.ofTextAt (p.after (c :: cs.take extra))
                (cs.drop extra)) = .ok a t := by rw [← foldFrom_step hm p]; exact h
            have hlt : (cs.drop extra).length < n := by
              rw [← hn, List.length_drop, List.length_cons]; omega
            obtain ⟨w, r, k, hcs, rfl, hMw, hk, hw⟩ := ih _ hlt _ _ _ hstep rfl
            refine ⟨(c :: cs.take extra) ++ w, r, max 0 k, ?_, ?_, M.append hM hMw, ?_, ?_⟩
            · rw [List.append_assoc, ← hcs, List.cons_append, List.take_append_drop]
            · rw [Position.after_append]
            · rwa [Nat.zero_max]
            · intro hd r' hr
              rw [Nat.zero_max] at hd
              refine reads_fold_step ?_ (hw hd r' hr)
              have hrest := hR (hR hr w) (cs.take extra)
              rw [← same s c hrest, ← hcs, List.take_append_drop, hm, List.length_take_of_le hlen]

end Fold

/-! ### Repetitions -/

section Gather

variable {opening opening' : Scanner (Option β)} {consumes : Consumes opening}
  {consumes' : Consumes opening'}

/-- An opening and a body that are read in a row, and that `opening'` and `body'` read too. -/
def OpenSpan (R : List Char → List Char → Prop) (M : Measure) (e d : Nat)
    (opening' : Scanner (Option β)) (body' : β → Scanner α) (p : Position) (cs : List Char)
    (b : β) (z : α) (t : Stencil.Stream) : Prop :=
  ∃ v w r k, cs = v ++ (w ++ r) ∧ t = .ofTextAt (p.after (v ++ w)) r ∧ M.Holds (v ++ w) k ∧ k ≤ e ∧
    (k ≤ d → ∀ r', R r r' → opening'.Reads v (some b) (w ++ r') ∧ (body' b).Reads w z r')

section Turns

variable {body' : β → Scanner (α ⊕ τ)} {ended : τ} {p : Position} {cs : List Char} {b : β}

/-- A body that ends a repetition. -/
theorem OpenSpan.last {x : τ} {t : Stencil.Stream}
    (h : OpenSpan R M e d opening' body' p cs b (.inr x) t) :
    Span R M e d (gather opening' @consumes' body' ended) p cs ([], x) t := by
  obtain ⟨v, w, r, k, hcs, rfl, hM, hk, hvw⟩ := h
  refine ⟨v ++ w, r, k, by rw [hcs, List.append_assoc], rfl, hM, hk, fun hd r' hr => ?_⟩
  obtain ⟨hv, hw⟩ := hvw hd r' hr
  exact reads_gather_last hv hw

/-- A turn of a repetition, and the turns behind it. -/
theorem OpenSpan.cons (hR : PrefixClosed R) {a : α} {as : List α} {x : τ} {t u : Stencil.Stream}
    (h : OpenSpan R M e d opening' body' p cs b (.inl a) t)
    (hz : ∀ {q r}, t = .ofTextAt q r →
      Span R M e d (gather opening' @consumes' body' ended) q r (as, x) u) :
    Span R M e d (gather opening' @consumes' body' ended) p cs (a :: as, x) u := by
  obtain ⟨v, w, r, k, rfl, rfl, hM, hk, hvw⟩ := h
  obtain ⟨z, r₂, m, rfl, rfl, hMz, hm, hz⟩ := hz rfl
  refine ⟨v ++ (w ++ z), r₂, max k m, by simp only [List.append_assoc], ?_, ?_,
    Nat.max_le.mpr ⟨hk, hm⟩, fun hd r' hr => ?_⟩
  · rw [← Position.after_append, List.append_assoc]
  · rw [← List.append_assoc]
    exact M.append hM hMz
  · obtain ⟨hkd, hmd⟩ := Nat.max_le.mp hd
    obtain ⟨hv, hw⟩ := hvw hkd _ (hR hr z)
    exact reads_gather_cons hv hw (hz hmd r' hr)

end Turns

/-- A repetition is local, if the way it ends and each of its turns are. -/
theorem follows_gather {body body' : β → Scanner (α ⊕ τ)} {ended : τ} (hR : PrefixClosed R)
    (stops : ∀ {p cs t}, opening.run (.ofTextAt p cs) = .ok none t →
      Span R M e d opening' p cs none t)
    (turns : ∀ {p cs b u z t}, opening.run (.ofTextAt p cs) = .ok (some b) u →
      (body b).run u = .ok z t → OpenSpan R M e d opening' body' p cs b z t) :
    Follows R M e d (gather opening @consumes body ended)
      (gather opening' @consumes' body' ended) := by
  intro p cs a t h
  change gatherFrom opening @consumes body ended _ = _ at h
  generalize hs : Stream.ofTextAt p cs = s at h
  -- The induction is on how much is not read yet: an opening consumes some of it.
  induction hn : s.size using Nat.strong_induction_on generalizing s p cs a with
  | _ n ih =>
    subst hs
    cases ho : opening.run (.ofTextAt p cs) with
    | error f u => rw [gatherFrom_error ho] at h; cases h
    | ok o u =>
        cases o with
        | none =>
            rw [gatherFrom_ended ho] at h
            cases h
            obtain ⟨w, r, k, hcs, ht, hM, hk, hw⟩ := stops ho
            exact ⟨w, r, k, hcs, ht, hM, hk, fun hd r' hr => reads_gather_nil (hw hd r' hr)⟩
        | some b =>
            rw [gatherFrom_some ho] at h
            cases hb : (body b).run u with
            | error f u' => rw [chain, hb] at h; cases h
            | ok z u' =>
                rw [chain, hb] at h
                cases z with
                | inr x => cases h; exact (turns ho hb).last
                | inl a' =>
                    dsimp only at h
                    cases hr : gatherFrom opening @consumes body ended u' with
                    | error f u' => rw [chain, hr] at h; cases h
                    | ok rest u' =>
                        rw [chain, hr] at h
                        cases h
                        have hlt : u'.size < n := by
                          rw [← hn]
                          exact Nat.lt_of_le_of_lt (size_of_ok hb) (consumes ho)
                        exact (turns ho hb).cons hR fun ht => ih _ hlt _ _ _ _ ht.symm hr rfl

/-- A repetition that no body ends is local, if the way it ends and each of its turns are. -/
theorem follows_collect {body body' : β → Scanner α} (hR : PrefixClosed R)
    (stops : ∀ {p cs t}, opening.run (.ofTextAt p cs) = .ok none t →
      Span R M e d opening' p cs none t)
    (turns : ∀ {p cs b u a t}, opening.run (.ofTextAt p cs) = .ok (some b) u →
      (body b).run u = .ok a t → OpenSpan R M e d opening' body' p cs b a t) :
    Follows R M e d (collect opening @consumes body) (collect opening' @consumes' body') := by
  refine Follows.map hR (follows_gather hR stops ?_) Prod.fst
  intro p cs b u z t ho hb
  obtain ⟨a, s, ha, hb⟩ := run_bind_ok hb
  cases hb
  obtain ⟨v, w, r, k, hcs, ht, hM, hk, hvw⟩ := turns ho ha
  refine ⟨v, w, r, k, hcs, ht, hM, hk, fun hd r' hr => ?_⟩
  obtain ⟨hv, hw⟩ := hvw hd r' hr
  exact ⟨hv, hw.map⟩

/-- An opening and a body that are local each are local in a row. -/
theorem openSpan_of_follows {body body' : β → Scanner α} (hR : PrefixClosed R)
    (ho : Follows R M e d opening opening') (hb : ∀ b, Follows R M e d (body b) (body' b))
    {p : Position} {cs : List Char} {b : β} {z : α} {u t : Stencil.Stream}
    (hou : opening.run (.ofTextAt p cs) = .ok (some b) u) (hbt : (body b).run u = .ok z t) :
    OpenSpan R M e d opening' body' p cs b z t := by
  obtain ⟨v, r₁, k, rfl, rfl, hMv, hk, hv⟩ := ho _ _ _ _ hou
  obtain ⟨w, r, m, rfl, rfl, hMw, hm, hw⟩ := hb b _ _ _ _ hbt
  refine ⟨v, w, r, max k m, rfl, by rw [Position.after_append], M.append hMv hMw,
    Nat.max_le.mpr ⟨hk, hm⟩, fun hd r' hr => ?_⟩
  obtain ⟨hkd, hmd⟩ := Nat.max_le.mp hd
  exact ⟨hv hkd _ (hR hr w), hw hmd r' hr⟩

end Gather

end Stencil.Scanner
