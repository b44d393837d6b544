import Stencil.Proofs.Scanner.Locality

/-!
# Scanner — Stray signs

A number that starts with a point, a sign and a digit has no value, and to read it is a fault.  Of
a scanner that reads numbers among other things, the fault can be told without speaking of its
parts: if the text is cut off behind the point, the scanner ends there for want of a mantissa
(`Wants`).

`Strays x` says that the faults of `x` are those, neither more (`cut`) nor fewer (`grown`), but for
texts with too many decimal digits in a row (`LongRun`), which need not be read.  It is kept by
sequences (`Strays.bind`) and by repetition (`strays_gather`), and holds of every local
scanner that fails by other errors only (`Strays.of_regular`).  Locality is meant with respect to
texts that agree up to a point (`Pointed`), as what comes before the point is to be read in the same
way once the text is cut off.
-/

namespace Stencil.Scanner

variable {α β σ τ : Type}

/-- The two texts agree up to some point. -/
def Pointed (r r' : List Char) : Prop :=
  ∃ w s s', r = w ++ '.' :: s ∧ r' = w ++ '.' :: s'

/-- Texts that part behind a point are alike up to it. -/
theorem pointed (w s s' : List Char) : Pointed (w ++ '.' :: s) (w ++ '.' :: s') :=
  ⟨w, s, s', rfl, rfl⟩

namespace Pointed

theorem prefixClosed : PrefixClosed Pointed := by
  rintro r r' ⟨w, s, s', rfl, rfl⟩ v
  exact ⟨v ++ w, s, s', by simp, by simp⟩

/-- Both texts start with the same character. -/
theorem exists_cons {r r' : List Char} (h : Pointed r r') :
    ∃ c s s', r = c :: s ∧ r' = c :: s' := by
  obtain ⟨w, s, s', rfl, rfl⟩ := h
  cases w with
  | nil => exact ⟨'.', s, s', rfl, rfl⟩
  | cons c w => exact ⟨c, _, _, rfl, rfl⟩

theorem ne_nil {r r' : List Char} (h : Pointed r r') : r ≠ [] := by
  obtain ⟨c, s, s', rfl, -⟩ := h.exists_cons
  simp

/-- A word without points ends in front of the first one, so it is in both texts. -/
theorem takeWhile {accepted : Char → Bool} (hp : accepted '.' = false) {r r' : List Char}
    (h : Pointed r r') : r.takeWhile accepted = r'.takeWhile accepted := by
  obtain ⟨w, s, s', rfl, rfl⟩ := h
  have hstop : ∀ s : List Char, ∀ c ∈ ('.' :: s).head?, accepted c = false := by
    rintro s c ⟨⟩
    exact hp
  rw [takeWhile_append_of_stop w (hstop s), takeWhile_append_of_stop w (hstop s')]

end Pointed

/-- What is read does not depend on what comes behind a point that is left. -/
abbrev UpToPoints (x : Scanner α) : Prop :=
  Follows Pointed .flat 0 0 x x

/-- The text starts with a sign that a digit follows. -/
def StraySign (v : List Char) : Prop :=
  ∃ s d w, v = s :: d :: w ∧ Text.isSign s = true ∧ Text.isDigitOf 10 d = true

/-- Reading the text is a fault. -/
def Faults (x : Scanner α) (p : Position) (cs : List Char) : Prop :=
  ∃ f t, x.run (.ofTextAt p cs) = .error (.fault f) t

/-- The text ends where a mantissa is wanted. -/
def Wants (x : Scanner α) (p : Position) (cs : List Char) : Prop :=
  ∃ t, x.run (.ofTextAt p cs) = .error (.located .missingMantissa (p.after cs)) t

/-- The text has more decimal digits in a row than are read as an integer. -/
def LongRun (cs : List Char) : Prop :=
  ∃ ds, ds <:+: cs ∧ Numeral.digitLimit < ds.length ∧ ∀ c ∈ ds, Text.isDigitOf 10 c = true

/-- A long run of digits stays one behind other characters. -/
theorem LongRun.append_left {cs : List Char} (h : LongRun cs) (w : List Char) :
    LongRun (w ++ cs) := by
  obtain ⟨ds, hds, h⟩ := h
  exact ⟨ds, hds.trans (List.suffix_append w cs).isInfix, h⟩

/-- On this text, the faults of the scanner are the stray signs behind points where it wants for a
mantissa, or digits in too long a row. -/
structure StraysAt (x : Scanner α) (p : Position) (cs : List Char) : Prop where
  cut : ∀ {f t}, x.run (.ofTextAt p cs) = .error (.fault f) t →
    (∃ u v, cs = u ++ '.' :: v ∧ StraySign v ∧ x.Wants p (u ++ ['.'])) ∨
      (∃ n, f = .tooManyDigits n) ∧ LongRun cs
  grown : x.Wants p cs → ∃ u, cs = u ++ ['.'] ∧ ∀ v, StraySign v → x.Faults p (u ++ '.' :: v)

/-- The faults of a scanner are the stray signs behind points where it wants for a mantissa, or
digits in too long a row. -/
structure Strays (x : Scanner α) : Prop where
  upToPoints : UpToPoints x
  straysAt : ∀ p cs, x.StraysAt p cs

/-! ### Regular scanners -/

/-- All failures are errors, and none is for want of a mantissa. -/
def Regular (x : Scanner α) : Prop :=
  ∀ s f t, x.run s = .error f t → ∃ e : Error, f = .error e ∧ e.cause ≠ .missingMantissa

/-- A reader that does not fault, nor miss a mantissa, has no stray signs to tell of. -/
theorem Strays.of_regular {x : Scanner α} (hx : UpToPoints x) (h : Regular x) : Strays x := by
  refine ⟨hx, fun p cs => ⟨fun ht => ?_, ?_⟩⟩
  · obtain ⟨e, ⟨⟩, -⟩ := h _ _ _ ht
  · rintro ⟨t, ht⟩
    obtain ⟨e, ⟨⟩, he⟩ := h _ _ _ ht
    exact absurd rfl he

theorem regular_pure (a : α) : Regular (pure a : Scanner α) := by
  intro s f t h
  cases h

theorem regular_fail {cause : Cause} (h : cause ≠ .missingMantissa) :
    Regular (fail cause : Scanner α) := by
  rintro s f t ⟨⟩
  exact ⟨_, rfl, h⟩

/-- Sequences of regular readers are regular. -/
theorem Regular.bind {x : Scanner α} {f : α → Scanner β} (hx : Regular x)
    (hf : ∀ a, Regular (f a)) : Regular (x >>= f) := by
  intro s e t h
  rcases run_bind_error h with h | ⟨a, u, -, h⟩
  · exact hx _ _ _ h
  · exact hf a _ _ _ h

theorem Regular.map {x : Scanner α} (hx : Regular x) (f : α → β) :
    Regular (do return f (← x)) :=
  hx.bind fun a => regular_pure (f a)

theorem regular_peek (n : Nat) : Regular (peek n) := by
  intro s f t h
  change Stream.peek n s = _ at h
  unfold Stream.peek at h
  dsimp only at h
  split at h
  · cases h
  · split at h
    · cases h
    · cases h
      exact ⟨_, rfl, by simp⟩

theorem regular_take (n : Nat) : Regular (take n) := by
  intro s f t h
  simp only [take] at h
  split at h
  · cases h
  · next hp => cases h; exact regular_peek n _ _ _ hp

theorem regular_peekChar : Regular peekChar :=
  (regular_peek 1).map _

/-- To choose the next character is regular, whatever is chosen. -/
theorem regular_next (ahead : Nat) (choose : Char → List Char → Option (Nat × β)) :
    Regular (next ahead choose) := by
  intro s f t h
  simp only [next] at h
  split at h
  · next hp => cases h; exact regular_peek _ _ _ _ hp
  · cases h
  · split at h <;> cases h

theorem regular_accept (wanted : Char → Bool) : Regular (accept wanted) :=
  regular_next _ _

/-- Folds are regular, as their steps do not fail. -/
theorem regular_fold (ahead : Nat) (move : σ → Char → List Char → Move σ) (state : σ) :
    Regular (fold ahead move state) := by
  intro s f t h
  change foldFrom ahead move state s = _ at h
  fun_induction foldFrom ahead move state s with
  | case1 state s f' t' hp => cases h; exact regular_peek _ _ _ _ hp
  | case2 => cases h
  | case3 => cases h
  | case4 => cases h
  | case5 state s c cs t' hp extra next hm ih => exact ih h

theorem regular_skipBlank : Regular skipBlank :=
  regular_fold _ _ _

theorem regular_peekWord (accepted : Char → Bool) (limit : Option Nat) :
    Regular (peekWord accepted limit) := by
  intro s f t h
  change peekWordFrom accepted limit 0 s = _ at h
  generalize 0 = n at h
  fun_induction peekWordFrom accepted limit n s with
  | case1 n s => exact regular_peek _ _ _ _ h
  | case2 n s hn f' t' hp => cases h; exact regular_peek _ _ _ _ hp
  | case3 n s hn cs t' hp m hm ih => exact ih h
  | case4 n s hn cs t' hp m hm => exact regular_peek _ _ _ _ h

theorem regular_word (accepted : Char → Bool) (limit : Option Nat) :
    Regular (word accepted limit) :=
  (regular_peekWord accepted limit).bind fun _ => regular_take _

/-! ### Sequences -/

section Bind

variable {x : Scanner α} {f : α → Scanner β} {p : Position}

/-- The faults of two readings in a row are those of the first, and those of the second behind what
the first has read. -/
theorem StraysAt.bind {cs : List Char} (hx : UpToPoints x) (h : x.StraysAt p cs)
    (hf : ∀ a w r, cs = w ++ r → x.run (.ofTextAt p cs) = .ok a (.ofTextAt (p.after w) r) →
      (f a).StraysAt (p.after w) r) : (x >>= f).StraysAt p cs := by
  constructor
  · intro e t hrun
    -- A sequence ends in its first reader, or in its second behind what the first has read.
    rcases run_bind_error hrun with hrun | ⟨a, s, ha, hb⟩
    · refine (h.cut hrun).imp_left ?_
      rintro ⟨u, v, rfl, hv, t', hw⟩
      exact ⟨u, v, rfl, hv, t', run_bind_of_error hw⟩
    · obtain ⟨w, r, rfl, rfl, hread⟩ := (hx _ _ _ _ ha).reads le_rfl
      refine ((hf a w r rfl ha).cut hb).imp ?_ (And.imp_right (·.append_left w))
      rintro ⟨u, v, rfl, hv, t', hw⟩
      refine ⟨w ++ u, v, by simp, hv, t', ?_⟩
      have hr := hread (u ++ ['.']) (pointed u v []) p
      rw [List.append_assoc, run_bind_of_ok hr, hw]
      simp only [Position.after_append]
  · rintro ⟨t, hrun⟩
    rcases run_bind_error hrun with hrun | ⟨a, s, ha, hb⟩
    · obtain ⟨u, rfl, hu⟩ := h.grown ⟨t, hrun⟩
      refine ⟨u, rfl, fun v hv => ?_⟩
      obtain ⟨e, t', he⟩ := hu v hv
      exact ⟨e, t', run_bind_of_error he⟩
    · obtain ⟨w, r, rfl, rfl, hread⟩ := (hx _ _ _ _ ha).reads le_rfl
      rw [Position.after_append] at hb
      obtain ⟨u, rfl, hu⟩ := (hf a w r rfl ha).grown ⟨t, hb⟩
      refine ⟨w ++ u, by simp, fun v hv => ?_⟩
      obtain ⟨e, t', he⟩ := hu v hv
      refine ⟨e, t', ?_⟩
      rw [List.append_assoc, run_bind_of_ok (hread _ (pointed u [] v) p), he]

/-- The stray signs of a sequence are those of its readers, each behind what has been read. -/
theorem Strays.bind (hx : Strays x) (hf : ∀ a, Strays (f a)) : Strays (x >>= f) where
  upToPoints := hx.upToPoints.bind Pointed.prefixClosed fun a => (hf a).upToPoints
  straysAt p cs := (hx.straysAt p cs).bind hx.upToPoints fun a _ r _ _ => (hf a).straysAt _ r

theorem strays_pure (a : α) : Strays (pure a : Scanner α) :=
  .of_regular (follows_pure a) (regular_pure a)

theorem strays_fail {cause : Cause} (h : cause ≠ .missingMantissa) :
    Strays (fail cause : Scanner α) :=
  .of_regular (follows_fail cause _) (regular_fail h)

theorem strays_ite {c : Prop} [Decidable c] {y : Scanner α} (hx : Strays x) (hy : Strays y) :
    Strays (if c then x else y) := by
  split
  · exact hx
  · exact hy

theorem Strays.map (hx : Strays x) (g : α → β) : Strays (do return g (← x)) :=
  hx.bind fun a => strays_pure (g a)

end Bind

/-! ### Looking at the next characters -/

/-- What is read in view of the characters ahead has the faults of what they decide on, if texts
that agree up to a point decide alike. -/
theorem strays_peek {n : Nat} {g : List Char → Scanner α}
    (same : ∀ {cs s}, Pointed cs s → g (s.take n) = g (cs.take n))
    (upToPoints : ∀ cs, UpToPoints (g cs)) (straysAt : ∀ p cs, (g (cs.take n)).StraysAt p cs) :
    Strays (peek n >>= g) := by
  refine ⟨fun p cs a t h => (upToPoints _ _ _ _ _ h).peek Pointed.prefixClosed same,
    fun p cs => ⟨?_, ?_⟩⟩
  · intro f t hrun
    refine ((straysAt p cs).cut hrun).imp_left ?_
    rintro ⟨u, v, rfl, hv, t', hw⟩
    exact ⟨u, v, rfl, hv, t', by rw [run_peek_bind, same (pointed u v []), hw]⟩
  · rintro ⟨t, hrun⟩
    obtain ⟨u, rfl, hu⟩ := (straysAt p cs).grown ⟨t, hrun⟩
    refine ⟨u, rfl, fun v hv => ?_⟩
    obtain ⟨f, t', hf⟩ := hu v hv
    exact ⟨f, t', by rw [run_peek_bind, same (pointed u [] v), hf]⟩

/-- A machine that looks at one character at a time does not go beyond a point. -/
theorem upToPoints_fold {move : σ → Char → List Char → Move σ}
    (single : ∀ {a c extra b}, move a c [] = .step extra b ∨ move a c [] = .last extra b →
      extra = 0) (a : σ) : UpToPoints (fold 0 move a) := by
  refine follows_fold Pointed.prefixClosed (fun h hr => ?_) (fun _ _ _ => rfl) (fun h => ?_) a
  · obtain ⟨c, s, s', rfl, rfl⟩ := h.exists_cons
    rintro d ds ⟨⟩
    exact hr c s rfl
  · obtain rfl := single h
    exact ⟨Nat.zero_le _, rfl⟩

/-- What is taken up to a point does not depend on what is behind it. -/
theorem upToPoints_take (n : Nat) : UpToPoints (take n) := by
  intro p cs a t h
  by_cases hn : n ≤ cs.length
  · have hread : ∀ r, (take n).Reads (cs.take n) (cs.take n) r := by
      intro r
      have h := reads_take (cs.take n) r
      rwa [List.length_take_of_le hn] at h
    have hrun := hread (cs.drop n) p
    rw [List.take_append_drop, h] at hrun
    cases hrun
    exact ⟨_, _, 0, (List.take_append_drop n cs).symm, rfl, rfl, le_rfl, fun _ r' _ => hread r'⟩
  · -- All there is is taken, and no point is left.
    have hlen : cs.length ≤ n := Nat.le_of_not_le hn
    simp only [take, Stream.peek_ofTextAt, Stream.advance_ofTextAt, List.take_of_length_le hlen,
      List.take_length, List.drop_length] at h
    cases h
    exact ⟨cs, [], 0, (List.append_nil cs).symm, rfl, rfl, le_rfl, fun _ r' hr =>
      absurd rfl (Pointed.ne_nil hr)⟩

theorem strays_take (n : Nat) : Strays (take n) :=
  .of_regular (upToPoints_take n) (regular_take n)

theorem strays_peekWord {accepted : Char → Bool} (hp : accepted '.' = false) (limit : Nat) :
    Strays (peekWord accepted (some limit)) := by
  refine .of_regular (fun p cs a t h => ?_) (regular_peekWord _ _)
  have hread := reads_peekWord accepted limit cs p
  rw [List.nil_append, h] at hread
  cases hread
  refine .nil fun r' hr => ?_
  rw [Pointed.takeWhile hp hr]
  exact reads_peekWord accepted limit r'

/-- To look at the next character does not go beyond a point. -/
theorem upToPoints_next {choose : Char → List Char → Option (Nat × β)}
    (single : ∀ {c extra b}, choose c [] = some (extra, b) → extra = 0) :
    UpToPoints (next 0 choose) := by
  refine follows_next Pointed.prefixClosed (fun h hr => ?_) (fun _ _ => rfl) fun h => ?_
  · obtain ⟨c, s, s', rfl, rfl⟩ := h.exists_cons
    rintro d ds ⟨⟩
    exact hr c s rfl
  · obtain rfl := single h
    exact ⟨Nat.zero_le _, rfl⟩

theorem strays_accept (wanted : Char → Bool) : Strays (accept wanted) := by
  refine .of_regular (upToPoints_next fun h => ?_) (regular_accept wanted)
  split at h <;> cases h
  rfl

theorem strays_anyChar : Strays anyChar :=
  strays_accept _

/-! ### Repetitions -/

section Gather

variable {opening : Scanner (Option β)} {consumes : Consumes opening}
  {body : β → Scanner (α ⊕ τ)} {ended : τ}

/-- What comes behind an opening of a repetition, if it is one. -/
def turn (opening : Scanner (Option β)) (consumes : Consumes opening)
    (body : β → Scanner (α ⊕ τ)) (ended : τ) : Option β → Scanner (List α × τ)
  | none => pure ([], ended)
  | some b => do
    match ← body b with
    | .inr x => return ([], x)
    | .inl a =>
      let (as, x) ← gather opening @consumes body ended
      return (a :: as, x)

/-- A repetition is an opening and what comes behind it. -/
theorem gather_eq : gather opening @consumes body ended =
    opening >>= turn opening @consumes body ended := by
  refine ext_run fun s => ?_
  change gatherFrom opening @consumes body ended s = _
  cases ho : opening.run s with
  | error f t => rw [gatherFrom_error ho, run_bind_of_error ho]
  | ok o t =>
      rw [run_bind_of_ok ho]
      cases o with
      | none => rw [gatherFrom_ended ho]; rfl
      | some b =>
          rw [gatherFrom_some ho, turn, run_bind]
          congr 1
          funext z u
          cases z <;> rfl

/-- What a turn of a repetition leaves is shorter than the text before it. -/
theorem length_lt_of_turn {p q : Position} {cs w r : List Char} {b : β}
    (h : opening.run (.ofTextAt p cs) = .ok (some b) (.ofTextAt q (w ++ r)))
    (consumes : Consumes opening) : r.length < cs.length := by
  have h := consumes h
  simp only [Stream.size, Stream.unread, Stream.ofTextAt, List.flatten_nil, List.append_nil,
    List.length_append] at h
  omega

/-- What is gathered up to a point does not depend on what is behind it, if each turn does not. -/
theorem upToPoints_gather (ho : UpToPoints opening) (hb : ∀ b, UpToPoints (body b)) :
    UpToPoints (gather opening @consumes body ended) :=
  follows_gather Pointed.prefixClosed (ho _ _ _ _) (openSpan_of_follows Pointed.prefixClosed ho hb)

/-- A repetition has the faults of its openings and bodies. -/
theorem strays_gather (ho : Strays opening) (hb : ∀ b, Strays (body b)) :
    Strays (gather opening @consumes body ended) := by
  have hgather : UpToPoints (gather opening @consumes body ended) :=
    upToPoints_gather ho.upToPoints fun b => (hb b).upToPoints
  refine ⟨hgather, fun p cs => ?_⟩
  -- The induction is on the length of the text: a turn leaves a shorter one.
  induction hn : cs.length using Nat.strong_induction_on generalizing p cs with
  | _ n ih =>
    rw [gather_eq]
    refine (ho.straysAt p cs).bind ho.upToPoints fun o v r hcs hrun => ?_
    cases o with
    | none => exact (strays_pure _).straysAt _ r
    | some b =>
        refine ((hb b).straysAt _ r).bind (hb b).upToPoints fun z w r' hr _ => ?_
        cases z with
        | inr x => exact (strays_pure _).straysAt _ r'
        | inl a =>
            rw [hr] at hrun
            have hlt := hn ▸ length_lt_of_turn hrun consumes
            refine (ih _ hlt _ r' rfl).bind hgather fun found _ r'' _ _ => ?_
            exact (strays_pure _).straysAt _ r''

/-- The stray signs of a collection are those of its turns. -/
theorem strays_collect {body : β → Scanner α} (ho : Strays opening) (hb : ∀ b, Strays (body b)) :
    Strays (collect opening @consumes body) := by
  refine Strays.map (strays_gather ho fun b => ?_) Prod.fst
  exact (hb b).map Sum.inl

end Gather

end Stencil.Scanner
