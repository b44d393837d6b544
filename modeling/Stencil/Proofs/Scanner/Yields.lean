import Stencil.Proofs.Scanner.Locality

/-!
# Scanner — Yields

What is known of the values that scanners read.  `Yields Q x` says that whatever `x` reads from a
text at hand satisfies `Q`, and that the rest is a text at hand again.  It composes along `>>=`,
where the second reader may rely on what the first has read (`Yields.bind`), and along repetition
(`yields_collect`).
-/

namespace Stencil.Scanner

variable {α β τ : Type} {P Q : α → Prop}

/-- What `x` reads from a text at hand satisfies `Q`, and leaves a text at hand. -/
def Yields (Q : α → Prop) (x : Scanner α) : Prop :=
  ∀ p cs a t, x.run (.ofTextAt p cs) = .ok a t → Q a ∧ ∃ q r, t = .ofTextAt q r

theorem yields_pure {a : α} (h : Q a) : Yields Q (pure a) := by
  intro p cs b t hrun
  cases hrun
  exact ⟨h, p, cs, rfl⟩

theorem yields_fail (cause : Cause) : Yields Q (fail cause) := by
  intro p cs a t hrun
  cases hrun

/-- What a sequence yields, from what its first reader yields. -/
theorem Yields.bind {x : Scanner α} {f : α → Scanner β} {Q : β → Prop} (hx : Yields P x)
    (hf : ∀ a, P a → Yields Q (f a)) : Yields Q (x >>= f) := by
  intro p cs b u hrun
  obtain ⟨a, t, ha, hb⟩ := run_bind_ok hrun
  obtain ⟨hP, q, r, rfl⟩ := hx p cs a t ha
  exact hf a hP q r b u hb

theorem Yields.map {x : Scanner α} {Q : β → Prop} (hx : Yields P x) {f : α → β}
    (hf : ∀ a, P a → Q (f a)) : Yields Q (do return f (← x)) :=
  hx.bind fun a ha => yields_pure (hf a ha)

theorem Yields.imp {x : Scanner α} (hx : Yields P x) (h : ∀ a, P a → Q a) : Yields Q x :=
  fun p cs a t hrun => (hx p cs a t hrun).imp_left (h a)

theorem yields_ite {c : Prop} [Decidable c] {x y : Scanner α} (hx : Yields Q x)
    (hy : Yields Q y) : Yields Q (if c then x else y) := by
  split
  · exact hx
  · exact hy

/-- A scanner that is followed by another leaves a text at hand. -/
theorem Follows.yields {R : List Char → List Char → Prop} {M : Measure} {e d : Nat}
    {x y : Scanner α} (h : Follows R M e d x y) : Yields (fun _ => True) x := by
  intro p cs a t hrun
  obtain ⟨w, r, -, -, ht, -⟩ := h p cs a t hrun
  exact ⟨trivial, _, r, ht⟩

/-- To look ahead leaves everything where it is. -/
theorem yields_peek {n : Nat} {g : List Char → Scanner α}
    (h : ∀ p cs a t, (g (cs.take n)).run (.ofTextAt p cs) = .ok a t →
      Q a ∧ ∃ q r, t = .ofTextAt q r) : Yields Q (peek n >>= g) := by
  intro p cs a t hrun
  rw [run_peek_bind] at hrun
  exact h p cs a t hrun

variable {opening : Scanner (Option β)} {consumes : Consumes opening}

/-- What holds of each body holds of all that are gathered. -/
theorem yields_gather {body : β → Scanner (α ⊕ τ)} {ended : τ}
    (ho : Yields (fun _ => True) opening)
    (hb : ∀ b, Yields (fun z => ∀ a, z = .inl a → Q a) (body b)) :
    Yields (fun found => ∀ a ∈ found.1, Q a) (gather opening @consumes body ended) := by
  intro p cs found t hrun
  change gatherFrom opening @consumes body ended _ = _ at hrun
  generalize hs : Stream.ofTextAt p cs = s at hrun
  fun_induction gatherFrom opening @consumes body ended s generalizing p cs found with subst hs
  | case1 | case3 | case5 => cases hrun
  | case2 _ _ hopen =>
    cases hrun
    exact ⟨fun a ha => absurd ha List.not_mem_nil, (ho p cs none t hopen).2⟩
  | case4 _ b u hopen x _ hbody =>
    cases hrun
    obtain ⟨-, q, r, rfl⟩ := ho p cs _ u hopen
    exact ⟨fun a ha => absurd ha List.not_mem_nil, (hb b q r _ t hbody).2⟩
  | case6 _ b u hopen a v hbody as x t hrest ih =>
    cases hrun
    obtain ⟨-, q, r, rfl⟩ := ho p cs _ u hopen
    obtain ⟨hz, q', r', rfl⟩ := hb b q r _ v hbody
    obtain ⟨hall, hat⟩ := ih q' r' (as, x) rfl hrest
    refine ⟨fun a' ha' => ?_, hat⟩
    rcases List.mem_cons.mp ha' with rfl | ha'
    · exact hz a' rfl
    · exact hall a' ha'

/-- If each body yields such a result, a list of them is collected. -/
theorem yields_collect {body : β → Scanner α} (ho : Yields (fun _ => True) opening)
    (hb : ∀ b, Yields Q (body b)) :
    Yields (fun as => ∀ a ∈ as, Q a) (collect opening @consumes body) := by
  refine (yields_gather ho fun b => (hb b).map fun a ha a' h => ?_).map fun _ => id
  cases h
  exact ha

end Stencil.Scanner
