import Stencil.Proofs.Scanner.Chunks

/-!
# Scanner — Places

Where errors lie.  A place in a text is told by the characters before it: their number is the
offset, the line feeds among them tell the line, and the characters behind the last of these the
column (`Position.IsPlaceOf`).  A scanner is located if it stands at a place of the text however it
ends, and an error of it lies where it stands (`Located`).  That is kept by sequences
(`Located.bind`) and by repetition (`located_gather`), and holds of a machine over characters that
consumes no more than it has seen (`located_fold`).
-/

namespace Stencil

/-- The position is a place in the text of that name: its line and its column are those that the
characters before it tell. -/
structure Position.IsPlaceOf (p : Position) (name : String) (text : List Char) : Prop where
  named : p.name = name
  offset_le : p.offset ≤ text.length
  line : p.line = 1 + (text.take p.offset).count '\n'
  column : p.column = ((text.take p.offset).reverse.takeWhile (· != '\n')).length

instance (p : Position) (name : String) (text : List Char) : Decidable (p.IsPlaceOf name text) :=
  decidable_of_iff (p.name = name ∧ p.offset ≤ text.length ∧
      p.line = 1 + (text.take p.offset).count '\n' ∧
      p.column = ((text.take p.offset).reverse.takeWhile (· != '\n')).length)
    ⟨fun ⟨hn, ho, hl, hc⟩ => ⟨hn, ho, hl, hc⟩, fun ⟨hn, ho, hl, hc⟩ => ⟨hn, ho, hl, hc⟩⟩

/-- What a stream of a text has come to behind some characters is a place in the text. -/
theorem Position.isPlaceOf_after (name : String) (u v : List Char) :
    ((start name).after u).IsPlaceOf name (u ++ v) := by
  have htake : (u ++ v).take u.length = u := List.take_left
  rw [after_start]
  exact ⟨rfl, by simp, by rw [htake], by rw [htake]⟩

namespace Scanner

variable {α β σ τ : Type} {s t : Stream}

/-- A reading gets some characters further, and an error of it lies where it has got to. -/
inductive EndsHere (s : Stream) : Outcome α → Prop where
  | ok {a : α} {w : List Char} {t : Stream} (ht : s.Reaches w t) : EndsHere s (.ok a t)
  | error {cause : Cause} {w : List Char} {t : Stream} (ht : s.Reaches w t) :
      EndsHere s (.error (.located cause t.position) t)
  | fault {f : Fault} {t : Stream} : EndsHere s (.error (.fault f) t)

/-- The errors of the scanner lie where it fails. -/
def Located (x : Scanner α) : Prop :=
  ∀ s, EndsHere s (x.run s)

theorem EndsHere.behind {w : List Char} {o : Outcome α} (h : EndsHere t o)
    (ht : s.Reaches w t) : EndsHere s o := by
  cases h with
  | ok h => exact .ok (ht.trans h)
  | error h => exact .error (ht.trans h)
  | fault => exact .fault

/-- A sequence gets further as its readers do, one behind the other. -/
theorem EndsHere.bind {x : Scanner α} {f : α → Scanner β} (hx : EndsHere s (x.run s))
    (hf : ∀ {a t}, x.run s = .ok a t → EndsHere t ((f a).run t)) :
    EndsHere s ((x >>= f).run s) := by
  rw [run_bind, chain]
  generalize x.run s = o at hx hf ⊢
  cases hx with
  | ok ht => exact (hf rfl).behind ht
  | error ht => exact .error ht
  | fault => exact .fault

/-- A sequence fails where it stands if its readers do. -/
theorem Located.bind {x : Scanner α} {f : α → Scanner β} (hx : Located x)
    (hf : ∀ a, Located (f a)) : Located (x >>= f) :=
  fun s => EndsHere.bind (hx s) fun _ => hf _ _

theorem located_pure (a : α) : Located (pure a : Scanner α) :=
  fun s => .ok (.refl s)

theorem located_fail (cause : Cause) : Located (fail cause : Scanner α) :=
  fun s => .error (.refl s)

/-! ### Looking ahead -/

/-- If the source breaks off, it does so where the stream is. -/
theorem endsHere_of_peek_error {n : Nat} {f : Failure} (h : s.peek n = .error f t) :
    EndsHere s (.error f t : Outcome α) := by
  obtain ⟨hgrants, -⟩ := Stream.same_of_peek_error h
  obtain ⟨reason, -, hpeek⟩ := Stream.peek_of_not_grants hgrants
  rw [hpeek] at h
  cases h
  exact .error (Stream.same_filled n s)

theorem located_peek (n : Nat) : Located (peek n) := by
  intro s
  change EndsHere s (s.peek n)
  cases h : s.peek n with
  | ok cs t => exact .ok (Stream.shows_of_peek_ok h).2.2.same
  | error f t => exact endsHere_of_peek_error h

theorem located_take (n : Nat) : Located (take n) := by
  intro s
  simp only [take]
  cases h : s.peek n with
  | ok cs t => exact .ok ((Stream.shows_of_peek_ok h).2.2.reaches_advance (Nat.le_refl _))
  | error f t => exact endsHere_of_peek_error h

/-- The next character is taken with no more behind it than is there. -/
theorem located_next {ahead : Nat} {choose : Char → List Char → Option (Nat × β)}
    (within : ∀ {c cs extra b}, choose c cs = some (extra, b) → extra ≤ cs.length) :
    Located (next ahead choose) := by
  intro s
  simp only [next]
  cases h : s.peek (ahead + 1) with
  | error f t => exact endsHere_of_peek_error h
  | ok cs t =>
      have hshows := (Stream.shows_of_peek_ok h).2.2
      cases cs with
      | nil => exact .ok hshows.same
      | cons c cs =>
          dsimp only
          cases hc : choose c cs with
          | none => exact .ok hshows.same
          | some chosen => exact .ok (hshows.reaches_advance (Nat.succ_le_succ (within hc)))

/-- A machine that consumes no more than it has seen is located.  The induction is on the length of
what is left of the text. -/
theorem located_fold {ahead : Nat} {move : σ → Char → List Char → Move σ}
    (within : ∀ {a c cs extra b},
      move a c cs = .step extra b ∨ move a c cs = .last extra b → extra ≤ cs.length) (a : σ) :
    Located (fold ahead move a) := by
  intro s
  induction hn : s.size using Nat.strong_induction_on generalizing a s with
  | _ n ih =>
    rw [run_fold]
    cases h : s.peek (ahead + 1) with
    | error f t => exact endsHere_of_peek_error h
    | ok cs t =>
        have hshows := (Stream.shows_of_peek_ok h).2.2
        cases cs with
        | nil => exact .ok hshows.same
        | cons c cs =>
            dsimp only
            cases hm : move a c cs with
            | stop => exact .ok hshows.same
            | last extra b =>
                exact .ok (hshows.reaches_advance (Nat.succ_le_succ (within (.inr hm))))
            | step extra b =>
                have hless : (t.advance (extra + 1)).size < n := hn ▸ Stream.size_advance_lt h
                exact (ih _ hless b _ rfl).behind
                  (hshows.reaches_advance (Nat.succ_le_succ (within (.inl hm))))

theorem located_peekWord (accepted : Char → Bool) (limit : Option Nat) :
    Located (peekWord accepted limit) := by
  intro s
  have h := peekedWord_run accepted limit s
  generalize (peekWord accepted limit).run s = o at h ⊢
  cases h with
  | ok _ hs => exact .ok hs
  | error _ _ hs => rw [show s.position = _ from hs.position.symm]; exact .error hs

/-! ### Repetitions -/

section Gather

variable {opening : Scanner (Option β)} {consumes : Consumes opening}
  {body : β → Scanner (α ⊕ τ)} {ended : τ}

/-- A repetition of what is located is located.  The induction is on how much is left of the text,
which is less after an opening. -/
theorem located_gather (ho : Located opening) (hb : ∀ b, Located (body b)) :
    Located (gather opening @consumes body ended) := by
  intro s
  induction hn : s.size using Nat.strong_induction_on generalizing s with
  | _ n ih =>
    rw [gather_eq]
    refine EndsHere.bind (ho s) fun {o t} hopen => ?_
    cases o with
    | none => exact located_pure _ t
    | some b =>
        refine EndsHere.bind (hb b t) fun {z u} hbody => ?_
        cases z with
        | inr x => exact located_pure _ u
        | inl a =>
            have hless : u.size < n :=
              hn ▸ Nat.lt_of_le_of_lt (size_of_ok hbody) (consumes hopen)
            exact EndsHere.bind (ih _ hless u rfl) fun _ => located_pure _ _

end Gather

/-- **Errors lie in the text**: what a located scanner reports of a text lies at a place of it. -/
theorem Located.place {x : Scanner α} (hx : Located x) {name : String} {text : List Char}
    {e : Error} (h : x.read (.ofText name text) = .error (.error e)) :
    ∃ p, e.position = some p ∧ p.IsPlaceOf name text := by
  obtain ⟨t, hrun⟩ := read_eq_error.mp h
  have hends := hx (.ofText name text)
  rw [hrun] at hends
  cases hends with
  | @error cause w t ht =>
      have htext : text = w ++ t.unread := by
        rw [← ht.unread]
        exact (List.append_nil text).symm
      refine ⟨t.position, rfl, ?_⟩
      rw [ht.position, htext]
      exact Position.isPlaceOf_after name w _

end Scanner

end Stencil
