import Stencil.Proofs.Scanner.StraySigns
import Stencil.Proofs.Stream.Cursor

/-!
# Scanner — Chunks

Where a text is cut into chunks does not show.  A scanner is seamless if, on two streams that differ
in nothing but in how much has arrived, it comes to the same value or the same failure, behind the
same characters (`Seamless`).  That is kept by sequences (`Seamless.bind`) and by repetition
(`seamless_gather`), and holds of a machine over characters that consumes no more than it has seen
(`seamless_fold`).

Looking for a word takes in chunks until one character more has arrived, or as many as the limit
says; which chunks these come in makes no difference (`peekedWord`).
-/

namespace Stencil.Scanner

variable {α β σ τ : Type} {s t : Stream}

/-- On two streams, two readings end by the same value or the same failure, behind the same
characters. -/
inductive SameEnd (s t : Stream) : Outcome α → Outcome α → Prop where
  | ok {a : α} {w : List Char} {s' t' : Stream} (hs : s.Reaches w s') (ht : t.Reaches w t') :
      SameEnd s t (.ok a s') (.ok a t')
  | error {f : Failure} {w : List Char} {s' t' : Stream} (hs : s.Reaches w s')
      (ht : t.Reaches w t') : SameEnd s t (.error f s') (.error f t')

/-- What the scanner comes to does not depend on how much of the text has arrived. -/
def Seamless (x : Scanner α) : Prop :=
  ∀ s t, s.Same t → SameEnd s t (x.run s) (x.run t)

/-- What ends alike behind some characters ends alike before them. -/
theorem SameEnd.behind {s' t' : Stream} {w : List Char} {o o' : Outcome α} (h : SameEnd s' t' o o')
    (hs : s.Reaches w s') (ht : t.Reaches w t') : SameEnd s t o o' := by
  cases h with
  | ok hs' ht' => exact .ok (hs.trans hs') (ht.trans ht')
  | error hs' ht' => exact .error (hs.trans hs') (ht.trans ht')

/-- Sequences end alike if their first readers do, and their second ones behind these. -/
theorem SameEnd.bind {x : Scanner α} {f : α → Scanner β} (hst : s.Same t)
    (hx : SameEnd s t (x.run s) (x.run t))
    (hf : ∀ {a s' t'}, x.run s = .ok a s' → s'.Same t' →
      SameEnd s' t' ((f a).run s') ((f a).run t')) :
    SameEnd s t ((x >>= f).run s) ((x >>= f).run t) := by
  rw [run_bind, run_bind, chain, chain]
  generalize x.run s = o at hx hf ⊢
  generalize x.run t = o' at hx ⊢
  cases hx with
  | ok hs ht => exact (hf rfl (hst.same hs ht)).behind hs ht
  | error hs ht => exact .error hs ht

/-- Sequences of readers to which the ends of chunks do not matter are such readers. -/
theorem Seamless.bind {x : Scanner α} {f : α → Scanner β} (hx : Seamless x)
    (hf : ∀ a, Seamless (f a)) : Seamless (x >>= f) :=
  fun s t h => SameEnd.bind h (hx s t h) fun _ h' => hf _ _ _ h'

theorem seamless_pure (a : α) : Seamless (pure a : Scanner α) :=
  fun s t _ => .ok (.refl s) (.refl t)

theorem Seamless.map {x : Scanner α} (hx : Seamless x) (f : α → β) :
    Seamless (do return f (← x)) :=
  hx.bind fun a => seamless_pure (f a)

theorem seamless_position : Seamless position := by
  intro s t h
  change SameEnd s t (.ok s.position s) (.ok t.position t)
  rw [h.position]
  exact .ok (.refl s) (.refl t)

theorem seamless_throw (f : Failure) : Seamless (throw f : Scanner α) :=
  fun s t _ => .error (.refl s) (.refl t)

theorem seamless_fail (cause : Cause) : Seamless (fail cause : Scanner α) := by
  intro s t h
  change SameEnd s t (.error (.located cause s.position) s) (.error (.located cause t.position) t)
  rw [h.position]
  exact .error (.refl s) (.refl t)

/-! ### Looking ahead -/

/-- What is peeked at is what is unread, from however many chunks it comes. -/
theorem seamless_peek (n : Nat) : Seamless (peek n) := by
  intro s t h
  have hp := h.peeked n
  change SameEnd s t (s.peek n) (t.peek n)
  generalize s.peek n = o at hp ⊢
  generalize t.peek n = o' at hp ⊢
  cases hp with
  | ok hs ht => exact .ok hs.same ht.same
  | error hs ht => exact .error hs ht

theorem seamless_peekChar : Seamless peekChar :=
  (seamless_peek 1).map _

theorem seamless_atEnd : Seamless atEnd :=
  (seamless_peek 1).map _

/-- What is taken is what is unread, from however many chunks it comes. -/
theorem seamless_take (n : Nat) : Seamless (take n) := by
  intro s t h
  have hp := h.peeked n
  simp only [take]
  generalize s.peek n = o at hp ⊢
  generalize t.peek n = o' at hp ⊢
  cases hp with
  | ok hs ht => exact .ok (hs.reaches_advance (Nat.le_refl _)) (ht.reaches_advance (Nat.le_refl _))
  | error hs ht => exact .error hs ht

/-- To look at characters and read some of those that have been seen is seamless. -/
theorem seamless_next {ahead : Nat} {choose : Char → List Char → Option (Nat × β)}
    (within : ∀ {c cs extra b}, choose c cs = some (extra, b) → extra ≤ cs.length) :
    Seamless (next ahead choose) := by
  intro s t h
  have hp := h.peeked (ahead + 1)
  simp only [next]
  generalize s.peek (ahead + 1) = o at hp ⊢
  generalize t.peek (ahead + 1) = o' at hp ⊢
  cases hp with
  | error hs ht => exact .error hs ht
  | @ok cs s' t' hs ht =>
      cases cs with
      | nil => exact .ok hs.same ht.same
      | cons c cs =>
          dsimp only
          cases hc : choose c cs with
          | none => exact .ok hs.same ht.same
          | some chosen =>
              have hle : chosen.1 + 1 ≤ (c :: cs).length := Nat.succ_le_succ (within hc)
              exact .ok (hs.reaches_advance hle) (ht.reaches_advance hle)

theorem seamless_accept (wanted : Char → Bool) : Seamless (accept wanted) := by
  refine seamless_next fun h => ?_
  split at h <;> cases h
  exact Nat.zero_le _

theorem seamless_anyChar : Seamless anyChar :=
  seamless_accept _

/-! ### Machines over characters -/

/-- One step of a fold, told of streams of any number of chunks. -/
theorem run_fold (ahead : Nat) (move : σ → Char → List Char → Move σ) (a : σ) (s : Stream) :
    (fold ahead move a).run s = match s.peek (ahead + 1) with
      | .error f t => .error f t
      | .ok [] t => .ok a t
      | .ok (c :: cs) t =>
        match move a c cs with
        | .stop => .ok a t
        | .last extra b => .ok b (t.advance (extra + 1))
        | .step extra b => (fold ahead move b).run (t.advance (extra + 1)) := by
  change foldFrom ahead move a s = _
  rw [foldFrom]
  cases s.peek (ahead + 1) with
  | error f t => rfl
  | ok cs t => cases cs <;> rfl

/-- A machine that consumes no more than it has seen is seamless.  The induction is on the length of
what is left of the text. -/
theorem seamless_fold {ahead : Nat} {move : σ → Char → List Char → Move σ}
    (within : ∀ {a c cs extra b},
      move a c cs = .step extra b ∨ move a c cs = .last extra b → extra ≤ cs.length) (a : σ) :
    Seamless (fold ahead move a) := by
  intro s t h
  -- By induction on how much is unread: each step of the fold leaves less of it.
  induction hn : s.unread.length using Nat.strong_induction_on generalizing a s t with
  | _ n ih =>
    have hp := h.peeked (ahead + 1)
    rw [run_fold, run_fold]
    generalize s.peek (ahead + 1) = o at hp ⊢
    generalize t.peek (ahead + 1) = o' at hp ⊢
    cases hp with
    | error hs ht => exact .error hs ht
    | @ok cs s' t' hs ht =>
        cases cs with
        | nil => exact .ok hs.same ht.same
        | cons c cs =>
            dsimp only
            cases hm : move a c cs with
            | stop => exact .ok hs.same ht.same
            | last extra b =>
                have hle : extra + 1 ≤ (c :: cs).length := Nat.succ_le_succ (within (.inr hm))
                exact .ok (hs.reaches_advance hle) (ht.reaches_advance hle)
            | step extra b =>
                have hle : extra + 1 ≤ (c :: cs).length := Nat.succ_le_succ (within (.inl hm))
                have hs' := hs.reaches_advance hle
                have ht' := ht.reaches_advance hle
                refine (ih _ ?_ b _ _ (h.same hs' ht') rfl).behind hs' ht'
                rw [← hn, hs'.unread, List.length_append, List.take_succ_cons, List.length_cons]
                omega

theorem seamless_skipBlank : Seamless skipBlank := by
  refine seamless_fold (fun h => ?_) 0
  split at h <;> rcases h with h | h <;> cases h
  exact Nat.zero_le _

/-! ### Words -/

/-- Of a beginning of a text, no more is accepted than of the text, and no more than there is. -/
theorem acceptedLength_take (accepted : Char → Bool) (limit : Option Nat) (text : List Char)
    (k : Nat) :
    acceptedLength accepted limit (text.take k) = min k (acceptedLength accepted limit text) := by
  unfold acceptedLength
  rw [← List.take_takeWhile, List.length_take]
  cases limit with
  | none => rfl
  | some m => exact Nat.min_assoc _ _ _

/-- What has arrived of a stream tells of the word at its front as much as has arrived. -/
theorem acceptedLength_buffer (accepted : Char → Bool) (limit : Option Nat) (s : Stream) :
    acceptedLength accepted limit s.buffer =
      min s.buffer.length (acceptedLength accepted limit s.unread) := by
  rw [← acceptedLength_take, Stream.unread, List.take_left]

/-- How many characters there have to be until the word at the front is known. -/
def wordReach (accepted : Char → Bool) (limit : Option Nat) (text : List Char) : Nat :=
  let n := acceptedLength accepted limit text
  if limit = some n then n else n + 1

/-- What looking for the word at the front of a stream comes to: the word, if the source does not
break off before it is known. -/
inductive PeekedWord (accepted : Char → Bool) (limit : Option Nat) (s : Stream) :
    Outcome (List Char) → Prop where
  | ok {t : Stream} (hgrants : s.Grants (wordReach accepted limit s.unread)) (hs : s.Same t) :
      PeekedWord accepted limit s (.ok (s.unread.take (acceptedLength accepted limit s.unread)) t)
  | error {reason : String} {t : Stream} (hreason : s.failure = some reason)
      (hgrants : ¬s.Grants (wordReach accepted limit s.unread)) (hs : s.Same t) :
      PeekedWord accepted limit s (.error (.located (.readFailed reason) s.position) t)

section Words

variable {accepted : Char → Bool} {limit : Option Nat} {n : Nat}

theorem PeekedWord.of_same {o : Outcome (List Char)} (h : s.Same t)
    (ht : PeekedWord accepted limit t o) : PeekedWord accepted limit s o := by
  have hunread : t.unread = s.unread := h.unread.symm
  have hgrants := h.grants_iff (wordReach accepted limit t.unread)
  cases ht with
  | ok hg hs =>
      rw [hunread] at hgrants hg ⊢
      exact .ok (hgrants.mpr hg) (h.trans hs)
  | error hreason hg hs =>
      rw [hunread] at hgrants hg
      rw [show t.position = s.position from h.position]
      exact .error (h.failure ▸ hreason) (mt hgrants.mp hg) (h.trans hs)

/-- To look at the word when its length is known. -/
theorem peekedWord_peek (hn : acceptedLength accepted limit s.unread = n)
    (hgrants : s.Grants n ↔ s.Grants (wordReach accepted limit s.unread)) :
    PeekedWord accepted limit s (s.peek n) := by
  subst hn
  by_cases h : s.Grants (acceptedLength accepted limit s.unread)
  · rw [Stream.peek_of_grants h]
    exact .ok (hgrants.mp h) (Stream.same_filled _ s)
  · obtain ⟨reason, hreason, hpeek⟩ := Stream.peek_of_not_grants h
    rw [hpeek]
    exact .error hreason (mt hgrants.mpr h) (Stream.same_filled _ s)

/-- Looking for a word, of which `n` characters are known, comes to the same however the characters
arrive. -/
theorem peekedWord (hn : n ≤ acceptedLength accepted limit s.unread) :
    PeekedWord accepted limit s (peekWordFrom accepted limit n s) := by
  have hlength := acceptedLength_le accepted limit s.unread
  fun_induction peekWordFrom accepted limit n s with
  | case1 n s hlimit =>
    -- As many are known as the limit says.
    have hm : acceptedLength accepted limit s.unread = n := by
      refine Nat.le_antisymm ?_ hn
      rw [hlimit]
      exact Nat.min_le_right _ _
    exact peekedWord_peek hm (by rw [wordReach, hm, if_pos hlimit])
  | case2 n s hlimit f t hpeek =>
    -- The source breaks off before one character more.
    obtain ⟨hgrants, hs⟩ := Stream.same_of_peek_error hpeek
    obtain ⟨reason, hreason, hpeek'⟩ := Stream.peek_of_not_grants hgrants
    rw [hpeek] at hpeek'
    cases hpeek'
    have hshort : ¬n + 1 ≤ s.unread.length := fun h => hgrants (.inr h)
    have hm : acceptedLength accepted limit s.unread = n := by omega
    refine .error hreason ?_ hs
    rwa [wordReach, hm, if_neg hlimit]
  | case3 n s hlimit cs t hpeek m hm ih =>
    -- What has arrived tells that the word is longer.
    obtain ⟨-, -, hshows⟩ := Stream.shows_of_peek_ok hpeek
    have hunread : s.unread = t.unread := hshows.same.unread
    have hbuffer : m = min t.buffer.length (acceptedLength accepted limit t.unread) :=
      acceptedLength_buffer accepted limit t
    exact .of_same hshows.same (ih (hbuffer ▸ Nat.min_le_right _ _) (acceptedLength_le _ _ _))
  | case4 n s hlimit cs t hpeek m hm =>
    -- What has arrived tells that the word is no longer.
    obtain ⟨hgrants, hcs, hshows⟩ := Stream.shows_of_peek_ok hpeek
    have hunread : s.unread = t.unread := hshows.same.unread
    have hbuffer : m = min t.buffer.length (acceptedLength accepted limit t.unread) :=
      acceptedLength_buffer accepted limit t
    have harrived : min (n + 1) s.unread.length ≤ t.buffer.length := by
      have := hshows.arrived
      rwa [hcs, List.length_take] at this
    rw [hunread] at hn hlength harrived
    have hword : acceptedLength accepted limit t.unread = n := by omega
    refine .of_same hshows.same (peekedWord_peek hword ?_)
    rw [wordReach, hword, if_neg hlimit]
    have hmore : t.Grants (n + 1) := (hshows.same.grants_iff _).mp hgrants
    exact iff_of_true (hmore.imp_right (by omega)) hmore

/-- Words are peeked at as `PeekedWord` says. -/
theorem peekedWord_run (accepted : Char → Bool) (limit : Option Nat) (s : Stream) :
    PeekedWord accepted limit s ((peekWord accepted limit).run s) :=
  peekedWord (Nat.zero_le _)

/-- The window in which words are looked for grows alike over any chunks. -/
theorem seamless_peekWord : Seamless (peekWord accepted limit) := by
  intro s t h
  have hs := peekedWord_run accepted limit s
  have ht := peekedWord_run accepted limit t
  have hunread : s.unread = t.unread := h.unread
  generalize (peekWord accepted limit).run s = o at hs ⊢
  generalize (peekWord accepted limit).run t = o' at ht ⊢
  have hgrants := h.grants_iff (wordReach accepted limit s.unread)
  cases hs with
  | ok hg hs =>
      cases ht with
      | ok _ ht => rw [hunread]; exact .ok hs ht
      | error _ hg' ht => exact absurd (hunread ▸ hgrants.mp hg) hg'
  | error hreason hg hs =>
      cases ht with
      | ok hg' ht => exact absurd (hgrants.mpr (hunread ▸ hg')) hg
      | error hreason' _ ht =>
          rw [h.failure, hreason] at hreason'
          cases hreason'
          rw [show t.position = s.position from h.position]
          exact .error hs ht

theorem seamless_word : Seamless (word accepted limit) :=
  seamless_peekWord.bind fun cs => seamless_take cs.length

end Words

/-! ### Repetitions -/

section Gather

variable {opening : Scanner (Option β)} {consumes : Consumes opening}
  {body : β → Scanner (α ⊕ τ)} {ended : τ}

/-- A repetition of what is seamless is seamless.  The induction is on how much is left of the text,
which is less after an opening. -/
theorem seamless_gather (ho : Seamless opening) (hb : ∀ b, Seamless (body b)) :
    Seamless (gather opening @consumes body ended) := by
  intro s t h
  induction hn : s.size using Nat.strong_induction_on generalizing s t with
  | _ n ih =>
    rw [gather_eq]
    refine SameEnd.bind h (ho s t h) fun {o s' t'} hopen h' => ?_
    cases o with
    | none => exact seamless_pure _ _ _ h'
    | some b =>
        refine SameEnd.bind h' (hb b _ _ h') fun {z u v} hbody h'' => ?_
        cases z with
        | inr x => exact seamless_pure _ _ _ h''
        | inl a =>
            have hless : u.size < n :=
              hn ▸ Nat.lt_of_le_of_lt (size_of_ok hbody) (consumes hopen)
            exact SameEnd.bind h'' (ih _ hless u v h'' rfl) fun _ => seamless_pure _ _ _

end Gather

/-! ### What is not consumed -/

section Kept

variable {x : Scanner α}

/-- The scanner consumes nothing, whatever it comes to. -/
def Still (x : Scanner α) : Prop :=
  ∀ s : Stream, s.Same (x.run s).rest

/-- The scanner consumes nothing when it fails. -/
def Wholly (x : Scanner α) : Prop :=
  ∀ (s : Stream) {f t}, x.run s = .error f t → s.Same t

/-- What only looks also leaves the stream as it is where it fails. -/
theorem Still.wholly (h : Still x) : Wholly x := by
  intro s f t hrun
  have hs := h s
  rwa [hrun] at hs

theorem Still.map (h : Still x) (f : α → β) : Still (do return f (← x)) := by
  intro s
  have hs := h s
  rw [run_bind, chain]
  generalize x.run s = o at hs ⊢
  cases o <;> exact hs

theorem Wholly.map (h : Wholly x) (f : α → β) : Wholly (do return f (← x)) := by
  intro s e t hrun
  rcases run_bind_error hrun with hx | ⟨a, u, -, hpure⟩
  · exact h s hx
  · cases hpure

/-- To peek leaves the place and what is unread. -/
theorem still_peek (n : Nat) : Still (peek n) := by
  intro s
  have hp := (Stream.Reaches.refl s).peeked n
  change s.Same (s.peek n).rest
  generalize s.peek n = o at hp ⊢
  cases hp with
  | ok hs _ => exact hs.same
  | error hs _ => exact hs

theorem still_peekChar : Still peekChar :=
  (still_peek 1).map _

theorem still_atEnd : Still atEnd :=
  (still_peek 1).map _

theorem still_peekWord (accepted : Char → Bool) (limit : Option Nat) :
    Still (peekWord accepted limit) := by
  intro s
  have hs := peekedWord_run accepted limit s
  generalize (peekWord accepted limit).run s = o at hs ⊢
  cases hs with
  | ok _ hs => exact hs
  | error _ _ hs => exact hs

/-- Either all characters are taken, or the stream is left as it is. -/
theorem wholly_take (n : Nat) : Wholly (take n) := by
  intro s f t h
  simp only [take] at h
  split at h
  · cases h
  · next hp => cases h; exact (Stream.same_of_peek_error hp).2

theorem wholly_anyChar : Wholly anyChar := by
  intro s f t h
  simp only [anyChar, accept, next] at h
  split at h
  · next hp => cases h; exact (Stream.same_of_peek_error hp).2
  · cases h
  · split at h <;> cases h

/-- Once a word is known, its characters are there to be consumed. -/
theorem wholly_word (accepted : Char → Bool) (limit : Option Nat) :
    Wholly (word accepted limit) := by
  intro s f t h
  rcases run_bind_error h with hpeek | ⟨cs, u, hpeek, htake⟩
  · exact (still_peekWord accepted limit).wholly s hpeek
  · have hword := peekedWord_run accepted limit s
    rw [hpeek] at hword
    cases hword with
    | ok _ hs =>
        have hunread : s.unread = u.unread := hs.unread
        have hgrants :
            u.Grants (s.unread.take (acceptedLength accepted limit s.unread)).length :=
          .inr (hunread ▸ List.length_take_le' _ _)
        simp only [take, Stream.peek_of_grants hgrants] at htake
        cases htake

end Kept

end Stencil.Scanner
