import Stencil.Scanner.Basic
import Mathlib.Data.List.Basic
import Mathlib.Data.List.TakeWhile

/-!
# Scanner — Readings

What scanners do with a text that is at hand as a whole.  `x.Reads w a r` says that `x` reads the
characters `w` as `a` when `r` comes behind them, and leaves `r`, wherever in a text that happens;
`x.Fails cs cause` says that `x` does not come to an end on `cs` for this cause.  Readings compose
along `>>=` (`Reads.bind`, `Reads.fails`, `FailsBy.bind`), along the repetition of an opening and a
body (`reads_gather_nil`, `reads_gather_cons`, `reads_gather_last`, `fails_gather`), and the
machines over characters have one equation for each move (`foldFrom_stop`, `foldFrom_last`,
`foldFrom_step`).

A run that is given can be taken apart in turn: `run_bind_ok` and `run_bind_error` give the runs of
the two parts.
-/

namespace Stencil

namespace Stream

@[simp] theorem peek_ofTextAt (n : Nat) (p : Position) (cs : List Char) :
    (ofTextAt p cs).peek n = .ok (cs.take n) (ofTextAt p cs) := rfl

@[simp] theorem advance_ofTextAt (n : Nat) (p : Position) (cs : List Char) :
    (ofTextAt p cs).advance n = ofTextAt (p.after (cs.take n)) (cs.drop n) := rfl

theorem ofTextAt_inj {p q : Position} {cs ds : List Char} :
    ofTextAt p cs = ofTextAt q ds ↔ p = q ∧ cs = ds := by
  simp [ofTextAt]

end Stream

namespace Scanner

variable {α β σ τ : Type}

/-- `x` reads `w` as `a` before `r`, wherever in a text that happens. -/
def Reads (x : Scanner α) (w : List Char) (a : α) (r : List Char) : Prop :=
  ∀ p, x.run (.ofTextAt p (w ++ r)) = .ok a (.ofTextAt (p.after w) r)

/-- `x` fails on a text, wherever the text stands.  What it fails by may depend on a place. -/
def FailsBy (x : Scanner α) (cs : List Char) (failure : Position → Failure) : Prop :=
  ∀ p, ∃ q t, x.run (.ofTextAt p cs) = .error (failure q) t

/-- `x` fails for a cause on a text, wherever the text stands. -/
abbrev Fails (x : Scanner α) (cs : List Char) (cause : Cause) : Prop :=
  x.FailsBy cs (Failure.located cause)

/-! ### Sequences -/

/-- A scanner that reads nothing. -/
theorem reads_pure (a : α) (r : List Char) : Reads (pure a) [] a r := fun _ => rfl

/-- A scanner that fails where it is. -/
theorem fails_fail (cause : Cause) (cs : List Char) : Fails (fail cause : Scanner α) cs cause :=
  fun p => ⟨p, _, rfl⟩

theorem run_bind_of_ok {x : Scanner α} {f : α → Scanner β} {s t : Stream} {a : α}
    (h : x.run s = .ok a t) : (x >>= f).run s = (f a).run t := by
  rw [run_bind, chain, h]

theorem run_bind_of_error {x : Scanner α} {f : α → Scanner β} {s t : Stream} {e : Failure}
    (h : x.run s = .error e t) : (x >>= f).run s = .error e t := by
  rw [run_bind, chain, h]

/-- What two scanners read one behind the other, the second one in front of the same rest. -/
theorem Reads.bind {x : Scanner α} {f : α → Scanner β} {v w r : List Char} {a : α} {b : β}
    (hx : x.Reads v a (w ++ r)) (hf : (f a).Reads w b r) : (x >>= f).Reads (v ++ w) b r := by
  intro p
  rw [List.append_assoc, run_bind_of_ok (hx p), hf, Position.after_append]

/-- A reading, and then one that reads nothing. -/
theorem Reads.bind_nil {x : Scanner α} {f : α → Scanner β} {w r : List Char} {a : α} {b : β}
    (hx : x.Reads w a r) (hf : (f a).Reads [] b r) : (x >>= f).Reads w b r := by
  simpa using Reads.bind (w := []) hx hf

/-- A reading of nothing, and then another. -/
theorem Reads.nil_bind {x : Scanner α} {f : α → Scanner β} {w r : List Char} {a : α} {b : β}
    (hx : x.Reads [] a (w ++ r)) (hf : (f a).Reads w b r) : (x >>= f).Reads w b r := by
  simpa using Reads.bind (v := []) hx hf

theorem Reads.map {x : Scanner α} {f : α → β} {w r : List Char} {a : α} (hx : x.Reads w a r) :
    (do return f (← x)).Reads w (f a) r :=
  hx.bind_nil (reads_pure _ _)

/-- What would come behind a failure does not matter. -/
theorem FailsBy.bind {x : Scanner α} {cs : List Char} {failure : Position → Failure}
    (h : x.FailsBy cs failure) (f : α → Scanner β) : (x >>= f).FailsBy cs failure := by
  intro p
  obtain ⟨q, t, hx⟩ := h p
  exact ⟨q, t, run_bind_of_error hx⟩

/-- A failure behind what has been read is one at the place where that ends. -/
theorem Reads.fails {x : Scanner α} {f : α → Scanner β} {w r : List Char} {a : α}
    {failure : Position → Failure} (hx : x.Reads w a r) (hf : (f a).FailsBy r failure) :
    (x >>= f).FailsBy (w ++ r) failure := by
  intro p
  obtain ⟨q, t, h⟩ := hf (p.after w)
  exact ⟨q, t, by rw [run_bind_of_ok (hx p), h]⟩

/-- A sequence that succeeds does so in both parts. -/
theorem run_bind_ok {x : Scanner α} {f : α → Scanner β} {s t : Stream} {b : β}
    (h : (x >>= f).run s = .ok b t) : ∃ a u, x.run s = .ok a u ∧ (f a).run u = .ok b t := by
  cases hx : x.run s with
  | ok a u => exact ⟨a, u, rfl, by rw [← h, run_bind_of_ok hx]⟩
  | error e u => rw [run_bind_of_error hx] at h; cases h

/-- A sequence that fails does so in one of its parts. -/
theorem run_bind_error {x : Scanner α} {f : α → Scanner β} {s t : Stream} {e : Failure}
    (h : (x >>= f).run s = .error e t) :
    x.run s = .error e t ∨ ∃ a u, x.run s = .ok a u ∧ (f a).run u = .error e t := by
  cases hx : x.run s with
  | ok a u => exact .inr ⟨a, u, rfl, by rw [← h, run_bind_of_ok hx]⟩
  | error e' u => rw [run_bind_of_error hx] at h; cases h; exact .inl rfl

/-- To read is to run and to forget what is left. -/
theorem read_eq_ok {x : Scanner α} {s : Stream} {a : α} :
    x.read s = .ok a ↔ ∃ t, x.run s = .ok a t := by
  unfold read
  cases x.run s <;> simp

theorem read_eq_error {x : Scanner α} {s : Stream} {e : Failure} :
    x.read s = .error e ↔ ∃ t, x.run s = .error e t := by
  unfold read
  cases x.run s <;> simp

/-! ### The readers that look ahead -/

/-- To look ahead reads nothing. -/
theorem reads_peek (n : Nat) (r : List Char) : (peek n).Reads [] (r.take n) r := fun _ => rfl

theorem reads_peekChar (r : List Char) : peekChar.Reads [] r.head? r := by
  intro p
  cases r <;> rfl

/-- To look ahead changes nothing. -/
theorem run_peek_bind (n : Nat) (f : List Char → Scanner α) (p : Position) (r : List Char) :
    (peek n >>= f).run (.ofTextAt p r) = (f (r.take n)).run (.ofTextAt p r) := rfl

theorem run_peekChar_bind (f : Option Char → Scanner α) (p : Position) (r : List Char) :
    (peekChar >>= f).run (.ofTextAt p r) = (f r.head?).run (.ofTextAt p r) := by
  cases r <;> rfl

/-- To take as many characters as have been seen reads these. -/
theorem reads_take (w r : List Char) : (take w.length).Reads w w r := by
  intro p
  simp only [Scanner.take, Stream.peek_ofTextAt, Stream.advance_ofTextAt, List.take_left,
    List.drop_left]

theorem run_next_of_none {ahead : Nat} {choose : Char → List Char → Option (Nat × β)} {c : Char}
    {cs : List Char} (h : choose c (cs.take ahead) = none) (p : Position) :
    (next ahead choose).run (.ofTextAt p (c :: cs)) = .ok none (.ofTextAt p (c :: cs)) := by
  simp only [next, Stream.peek_ofTextAt, List.take_succ_cons, h]

theorem run_next_of_some {ahead : Nat} {choose : Char → List Char → Option (Nat × β)} {c : Char}
    {cs : List Char} {extra : Nat} {b : β} (h : choose c (cs.take ahead) = some (extra, b))
    (p : Position) :
    (next ahead choose).run (.ofTextAt p (c :: cs)) =
      .ok (some b) (.ofTextAt (p.after (c :: cs.take extra)) (cs.drop extra)) := by
  simp only [next, Stream.peek_ofTextAt, List.take_succ_cons, h]
  rfl

/-- A character that is wanted is read. -/
theorem reads_accept {wanted : Char → Bool} {c : Char} (h : wanted c = true) (r : List Char) :
    (accept wanted).Reads [c] (some c) r := by
  intro p
  exact run_next_of_some (show _ = some (0, c) from if_pos h) p

/-- A character that is not wanted stays where it is. -/
theorem reads_accept_none {wanted : Char → Bool} {r : List Char}
    (h : ∀ c ∈ r.head?, wanted c = false) : (accept wanted).Reads [] none r := by
  intro p
  cases r with
  | nil => rfl
  | cons c cs => exact run_next_of_none (by simp [h c rfl]) p

theorem reads_anyChar (c : Char) (r : List Char) : anyChar.Reads [c] (some c) r :=
  reads_accept rfl r

/-! ### Machines over characters -/

section Fold

variable {ahead : Nat} {move : σ → Char → List Char → Move σ} {a b : σ} {c : Char}
  {cs : List Char}

/-- At the end of the text a machine has the state it is in. -/
theorem foldFrom_nil (ahead : Nat) (move : σ → Char → List Char → Move σ) (a : σ) (p : Position) :
    foldFrom ahead move a (.ofTextAt p []) = .ok a (.ofTextAt p []) := by
  rw [foldFrom]
  split
  · next h => cases h
  · next h => cases h; rfl
  · next h => rw [Stream.peek_ofTextAt, List.take_nil] at h; cases h

/-- A machine stops in front of a character that it does not take. -/
theorem foldFrom_stop (h : move a c (cs.take ahead) = .stop) (p : Position) :
    foldFrom ahead move a (.ofTextAt p (c :: cs)) = .ok a (.ofTextAt p (c :: cs)) := by
  rw [foldFrom]
  split
  · next h' => cases h'
  · next h' => cases h'
  · next h' => cases h'; rw [h]; rfl

/-- The last step of a machine takes a character, and more of what it has seen. -/
theorem foldFrom_last {extra : Nat} (h : move a c (cs.take ahead) = .last extra b) (p : Position) :
    foldFrom ahead move a (.ofTextAt p (c :: cs)) =
      .ok b (.ofTextAt (p.after (c :: cs.take extra)) (cs.drop extra)) := by
  rw [foldFrom]
  split
  · next h' => cases h'
  · next h' => cases h'
  · next h' => cases h'; rw [h]; rfl

/-- Each other step goes on from the state that it leads to. -/
theorem foldFrom_step {extra : Nat} (h : move a c (cs.take ahead) = .step extra b) (p : Position) :
    foldFrom ahead move a (.ofTextAt p (c :: cs)) =
      foldFrom ahead move b (.ofTextAt (p.after (c :: cs.take extra)) (cs.drop extra)) := by
  rw [foldFrom]
  split
  · next h' => cases h'
  · next h' => cases h'
  · next h' => cases h'; rw [h]; rfl

/-- A machine comes to an end on every text. -/
theorem exists_run_fold (ahead : Nat) (move : σ → Char → List Char → Move σ) (a : σ) (p : Position)
    (cs : List Char) : ∃ b t, (fold ahead move a).run (.ofTextAt p cs) = .ok b t := by
  change ∃ b t, foldFrom ahead move a (.ofTextAt p cs) = .ok b t
  induction hn : cs.length using Nat.strong_induction_on generalizing a p cs with
  | _ n ih =>
    cases cs with
    | nil => exact ⟨a, _, foldFrom_nil ahead move a p⟩
    | cons c cs =>
        cases hm : move a c (cs.take ahead) with
        | stop => exact ⟨a, _, foldFrom_stop hm p⟩
        | last extra b => exact ⟨b, _, foldFrom_last hm p⟩
        | step extra b =>
            rw [foldFrom_step hm p]
            exact ih _ (by rw [← hn, List.length_drop, List.length_cons]; omega) _ _ _ rfl

/-- What each move keeps, the run keeps. -/
theorem fold_keeps {I : σ → Prop} (hI : ∀ {a b c cs extra}, I a →
      move a c cs = .step extra b ∨ move a c cs = .last extra b → I b) {s t : Stream} (ha : I a)
    (h : (fold ahead move a).run s = .ok b t) : I b := by
  change foldFrom ahead move a s = _ at h
  fun_induction foldFrom ahead move a s with
  | case1 => cases h
  | case2 => cases h; exact ha
  | case3 => cases h; exact ha
  | case4 a s c cs t hp extra next hm => cases h; exact hI ha (.inr hm)
  | case5 a s c cs t hp extra next hm ih => exact ih (hI ha (.inl hm)) h

theorem reads_fold_nil : (fold ahead move a).Reads [] a [] := foldFrom_nil ahead move a

theorem reads_fold_stop (h : move a c (cs.take ahead) = .stop) :
    (fold ahead move a).Reads [] a (c :: cs) := foldFrom_stop h

theorem reads_fold_last {w r : List Char} (h : move a c ((w ++ r).take ahead) = .last w.length b) :
    (fold ahead move a).Reads (c :: w) b r := by
  intro p
  refine (foldFrom_last h p).trans ?_
  rw [List.take_left, List.drop_left]

/-- What a machine reads in one step and in those that follow. -/
theorem reads_fold_step {w v r : List Char} {d : σ}
    (h : move a c ((w ++ (v ++ r)).take ahead) = .step w.length b)
    (hv : (fold ahead move b).Reads v d r) : (fold ahead move a).Reads (c :: (w ++ v)) d r := by
  intro p
  rw [List.cons_append, List.append_assoc]
  refine (foldFrom_step h p).trans ?_
  rw [List.take_left, List.drop_left]
  refine (hv _).trans ?_
  rw [← Position.after_append]
  rfl

/-- A move by one character, and the run that follows. -/
theorem reads_fold_step_zero {v r : List Char} {d : σ}
    (h : move a c ((v ++ r).take ahead) = .step 0 b) (hv : (fold ahead move b).Reads v d r) :
    (fold ahead move a).Reads (c :: v) d r :=
  reads_fold_step (w := []) h hv

end Fold

/-- The run over blanks and what comes behind them. -/
theorem reads_skipBlank {w r : List Char} (hw : ∀ c ∈ w, Text.isBlank c = true)
    (hr : ∀ c ∈ r.head?, Text.isBlank c = false) : skipBlank.Reads w w.length r := by
  -- The induction needs the count from anywhere.
  have run : ∀ n, (fold 0 (fun n c _ => if Text.isBlank c then .step 0 (n + 1) else .stop) n).Reads
      w (n + w.length) r := by
    induction w with
    | nil =>
        intro n
        cases r with
        | nil => exact reads_fold_nil
        | cons c cs => exact reads_fold_stop (by simp [hr c rfl])
    | cons c w ih =>
        intro n
        have hc : Text.isBlank c = true := hw c (by simp)
        have hv := ih (fun d hd => hw d (by simp [hd])) (n + 1)
        rw [List.length_cons, Nat.add_comm w.length, ← Nat.add_assoc]
        exact reads_fold_step_zero (by rw [if_pos hc]) hv
  have h := run 0
  rwa [Nat.zero_add] at h

/-- A text is its characters of one class in front and what comes behind them. -/
theorem exists_front (accepted : Char → Bool) (cs : List Char) :
    ∃ w r, cs = w ++ r ∧ (∀ c ∈ w, accepted c = true) ∧ ∀ c ∈ r.head?, accepted c = false := by
  refine ⟨cs.takeWhile accepted, cs.dropWhile accepted, List.takeWhile_append_dropWhile.symm,
    fun c hc => List.mem_takeWhile_imp hc, fun c hc => ?_⟩
  have h := List.head?_dropWhile_not accepted cs
  rw [Option.mem_def.mp hc] at h
  simpa using h

/-! ### Words -/

/-- A run of accepted characters is not prolonged by a text that begins with another one. -/
theorem takeWhile_append_of_stop {accepted : Char → Bool} (s : List Char) {r : List Char}
    (hr : ∀ c ∈ r.head?, accepted c = false) :
    (s ++ r).takeWhile accepted = s.takeWhile accepted := by
  induction s with
  | nil =>
      cases r with
      | nil => rfl
      | cons c r => simp [hr c rfl]
  | cons c s ih => rw [List.cons_append, List.takeWhile_cons, List.takeWhile_cons, ih]

/-- The length of a word is that of the run of accepted characters, up to the limit. -/
theorem take_acceptedLength (accepted : Char → Bool) (limit : Option Nat) (cs : List Char) :
    cs.take (acceptedLength accepted limit cs) =
      match limit with
      | none => cs.takeWhile accepted
      | some n => (cs.takeWhile accepted).take n := by
  obtain ⟨rest, h⟩ := List.takeWhile_prefix (p := accepted) (l := cs)
  have take_whole : ∀ n, n ≤ (cs.takeWhile accepted).length →
      cs.take n = (cs.takeWhile accepted).take n := by
    intro n hn
    conv_lhs => rw [← h]
    exact List.take_append_of_le_length hn
  cases limit with
  | none => rw [acceptedLength, take_whole _ le_rfl, List.take_length]
  | some n =>
      rw [acceptedLength, take_whole _ (Nat.min_le_left _ _), Nat.min_comm]
      exact List.take_eq_take_min.symm

/-- Looking for a word comes to its end with all that is accepted. -/
theorem peekWordFrom_ofTextAt (accepted : Char → Bool) (limit : Option Nat) (p : Position)
    (cs : List Char) (n : Nat) (hn : n ≤ acceptedLength accepted limit cs) :
    peekWordFrom accepted limit n (.ofTextAt p cs) =
      .ok (cs.take (acceptedLength accepted limit cs)) (.ofTextAt p cs) := by
  rw [peekWordFrom]
  split
  · next h =>
    have : acceptedLength accepted limit cs = n := by
      subst h; exact Nat.le_antisymm (Nat.min_le_right _ _) hn
    rw [this, Stream.peek_ofTextAt]
  · simp only [Stream.peek_ofTextAt]
    have hb : (Stream.ofTextAt p cs).buffer = cs := rfl
    split
    · next hlt =>
      -- All of the text is in the buffer already, so that the second look is the last.
      rw [hb] at hlt ⊢
      rw [peekWordFrom]
      split
      · simp
      · simp [hb]
    · next hlt =>
      rw [hb] at hlt
      rw [Nat.le_antisymm hn (Nat.le_of_not_lt hlt)]

theorem run_peekWord (accepted : Char → Bool) (limit : Option Nat) (p : Position)
    (cs : List Char) :
    (peekWord accepted limit).run (.ofTextAt p cs) =
      .ok (cs.take (acceptedLength accepted limit cs)) (.ofTextAt p cs) :=
  peekWordFrom_ofTextAt accepted limit p cs 0 (Nat.zero_le _)

/-- To look at a word reads nothing. -/
theorem reads_peekWord (accepted : Char → Bool) (limit : Nat) (cs : List Char) :
    (peekWord accepted (some limit)).Reads [] ((cs.takeWhile accepted).take limit) cs := by
  intro p
  have h := run_peekWord accepted (some limit) p cs
  rwa [take_acceptedLength] at h

/-- A word is read as far as its characters are accepted. -/
theorem reads_word {accepted : Char → Bool} {w r : List Char} (hw : ∀ c ∈ w, accepted c = true)
    (hr : ∀ c ∈ r.head?, accepted c = false) : (word accepted none).Reads w w r := by
  intro p
  have h : (w ++ r).take (acceptedLength accepted none (w ++ r)) = w := by
    rw [take_acceptedLength, List.takeWhile_append_of_pos hw]
    cases r with
    | nil => simp
    | cons c cs => simp [hr c rfl]
  refine (run_bind_of_ok (run_peekWord accepted none p (w ++ r))).trans ?_
  rw [h]
  exact reads_take w r p

/-! ### Repetitions -/

section Gather

variable {opening : Scanner (Option β)} {consumes : Consumes opening} {body : β → Scanner (α ⊕ τ)}
  {ended x : τ} {s t u v : Stream} {a : α} {as : List α} {b : β} {f : Failure}

/-- Repetition ends where nothing opens. -/
theorem gatherFrom_ended (h : opening.run s = .ok none t) :
    gatherFrom opening @consumes body ended s = .ok ([], ended) t := by
  rw [gatherFrom]
  split
  · next h' => rw [h] at h'; cases h'
  · next h' => rw [h] at h'; cases h'; rfl
  · next h' => rw [h] at h'; cases h'

theorem gatherFrom_error (h : opening.run s = .error f t) :
    gatherFrom opening @consumes body ended s = .error f t := by
  rw [gatherFrom]
  split
  · next h' => rw [h] at h'; cases h'; rfl
  · next h' => rw [h] at h'; cases h'
  · next h' => rw [h] at h'; cases h'

/-- What a repetition comes to behind an opening and a body. -/
theorem gatherFrom_some (h : opening.run s = .ok (some b) t) :
    gatherFrom opening @consumes body ended s =
      chain (body b).run (fun a u => match a with
        | .inr x => .ok ([], x) u
        | .inl a => chain (gatherFrom opening @consumes body ended)
            (fun rest v => .ok (a :: rest.1, rest.2) v) u) t := by
  rw [gatherFrom]
  split
  · next h' => rw [h] at h'; cases h'
  · next h' => rw [h] at h'; cases h'
  · next h' =>
    rw [h] at h'
    cases h'
    unfold chain
    split
    · next hb => rw [hb]
    · next hb => rw [hb]
    · next hb =>
      rw [hb]
      dsimp only
      split <;> next hr => rw [hr]

/-- Where nothing opens, nothing is gathered. -/
theorem reads_gather_nil {w r : List Char} (h : opening.Reads w none r) :
    (gather opening @consumes body ended).Reads w ([], ended) r := fun p =>
  gatherFrom_ended (h p)

/-- The body that closes the repetition ends it with what it says. -/
theorem reads_gather_last {w v r : List Char} (h : opening.Reads w (some b) (v ++ r))
    (hb : (body b).Reads v (.inr x) r) :
    (gather opening @consumes body ended).Reads (w ++ v) ([], x) r := by
  intro p
  rw [List.append_assoc]
  refine (gatherFrom_some (h p)).trans ?_
  rw [chain, hb, Position.after_append]

/-- Any other body adds to what is gathered behind it. -/
theorem reads_gather_cons {w v z r : List Char} (h : opening.Reads w (some b) (v ++ (z ++ r)))
    (hb : (body b).Reads v (.inl a) (z ++ r))
    (hz : (gather opening @consumes body ended).Reads z (as, x) r) :
    (gather opening @consumes body ended).Reads (w ++ (v ++ z)) (a :: as, x) r := by
  intro p
  rw [List.append_assoc, List.append_assoc]
  refine (gatherFrom_some (h p)).trans ?_
  have hz' := hz ((p.after w).after v)
  change gatherFrom opening @consumes body ended _ = _ at hz'
  simp only [chain, hb (p.after w), hz', Position.after_append]

/-- A failure in the first body is one of the repetition. -/
theorem fails_gather {failure : Position → Failure} {w cs : List Char}
    (h : opening.Reads w (some b) cs) (hb : (body b).FailsBy cs failure) :
    (gather opening @consumes body ended).FailsBy (w ++ cs) failure := by
  intro p
  obtain ⟨q, t, hb⟩ := hb (p.after w)
  exact ⟨q, t, (gatherFrom_some (h p)).trans (by rw [chain, hb])⟩

/-- So is one behind the first body. -/
theorem fails_gather_cons {cause : Cause} {w v cs : List Char}
    (h : opening.Reads w (some b) (v ++ cs)) (hb : (body b).Reads v (.inl a) cs)
    (hc : (gather opening @consumes body ended).Fails cs cause) :
    (gather opening @consumes body ended).Fails (w ++ (v ++ cs)) cause := by
  intro p
  obtain ⟨q, t, hc⟩ := hc ((p.after w).after v)
  change gatherFrom opening @consumes body ended _ = _ at hc
  refine ⟨q, t, (gatherFrom_some (h p)).trans ?_⟩
  simp only [chain, hb (p.after w), hc]

end Gather

section Collect

variable {opening : Scanner (Option β)} {consumes : Consumes opening} {body : β → Scanner α}
  {a : α} {as : List α} {b : β} {cause : Cause} {w v z r cs : List Char}

theorem reads_collect_nil (h : opening.Reads w none r) :
    (collect opening @consumes body).Reads w [] r :=
  (reads_gather_nil h).bind_nil (reads_pure _ _)

/-- What is collected is one thing, and what is collected behind it. -/
theorem reads_collect_cons (h : opening.Reads w (some b) (v ++ (z ++ r)))
    (hb : (body b).Reads v a (z ++ r)) (hz : (collect opening @consumes body).Reads z as r) :
    (collect opening @consumes body).Reads (w ++ (v ++ z)) (a :: as) r := by
  refine Reads.bind_nil (a := (a :: as, ())) (reads_gather_cons h hb.map fun p => ?_)
    (reads_pure _ _)
  obtain ⟨found, u, hg, hu⟩ := run_bind_ok (hz p)
  obtain ⟨as', ⟨⟩⟩ := found
  cases hu
  exact hg

theorem fails_collect (h : opening.Reads w (some b) cs) (hb : (body b).Fails cs cause) :
    (collect opening @consumes body).Fails (w ++ cs) cause :=
  (fails_gather h (hb.bind _)).bind _

theorem fails_collect_cons (h : opening.Reads w (some b) (v ++ cs)) (hb : (body b).Reads v a cs)
    (hc : (collect opening @consumes body).Fails cs cause) :
    (collect opening @consumes body).Fails (w ++ (v ++ cs)) cause := by
  refine (fails_gather_cons h hb.map fun p => ?_).bind _
  obtain ⟨q, t, hrun⟩ := hc p
  rcases run_bind_error hrun with hg | ⟨found, u, -, hu⟩
  · exact ⟨q, t, hg⟩
  · cases hu

end Collect

end Scanner

end Stencil
