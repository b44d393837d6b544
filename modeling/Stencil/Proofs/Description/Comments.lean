import Stencil.Proofs.Description.Composition

/-!
# Description — Comments

A text without its comments (`Region.uncomment`): a comment runs from a number sign outside strings
up to the end of its line, which is a line feed or a carriage return.  That is where a comment ends
for the reader of tokens.  Where a statement is cut out of a text, and where blanks and comments are
skipped in front of it, only a line feed ends one.  The two differ in what lies between a carriage
return in a comment and the next line feed.

If that is blanks and further comments only (`Region.tidy`), the two stay in step
(`Region.InStep`), and a text says the same without its comments (`loadText_uncomment`).  If it is
not, the text may say something else (`loadText_uncomment_carriageReturn`).
-/

namespace Stencil

namespace Description

open Text Scanner

namespace Region

/-- The region behind a character, where every end of a line ends a comment. -/
def step : Region → Char → Region
  | .comment, c => if endsLine c then .plain else .comment
  | region, c => region.next c

/-- The region behind some characters, where every end of a line ends a comment. -/
def behind (region : Region) (text : List Char) : Region :=
  text.foldl step region

/-- A text without its comments.  Its beginning lies in the region given. -/
def uncomment (region : Region) : List Char → List Char
  | [] => []
  | c :: cs =>
    if region.step c = .comment then (region.step c).uncomment cs
    else c :: (region.step c).uncomment cs

@[simp] theorem behind_nil (region : Region) : region.behind [] = region := rfl

@[simp] theorem behind_cons (region : Region) (c : Char) (cs : List Char) :
    region.behind (c :: cs) = (region.step c).behind cs := rfl

@[simp] theorem behind_append (region : Region) (v w : List Char) :
    region.behind (v ++ w) = (region.behind v).behind w :=
  List.foldl_append

theorem uncomment_append (region : Region) (v w : List Char) :
    region.uncomment (v ++ w) = region.uncomment v ++ (region.behind v).uncomment w := by
  induction v generalizing region with
  | nil => rfl
  | cons c v ih =>
      rw [List.cons_append, uncomment, uncomment, ih, behind_cons]
      split <;> rfl

theorem step_eq_next {region : Region} (h : region ≠ .comment) (c : Char) :
    region.step c = region.next c := by
  cases region <;> first | rfl | exact absurd rfl h

/-- What comes behind a comment ends its line. -/
theorem head_uncomment_comment (text : List Char) :
    ∀ c ∈ (comment.uncomment text).head?, endsLine c = true := by
  induction text with
  | nil => simp [uncomment]
  | cons c cs ih =>
      by_cases hc : endsLine c = true
      · simp [uncomment, step, hc]
      · simpa [uncomment, step, hc] using ih

/-- In front of the end of a line, or of the text, it makes no difference whether there is a
comment. -/
theorem comment_of_endsLine {r : List Char} (hr : ∀ c ∈ r.head?, endsLine c = true) :
    comment.uncomment r = plain.uncomment r ∧
      (comment.behind r).inString = (plain.behind r).inString := by
  cases r with
  | nil => exact ⟨rfl, rfl⟩
  | cons c r =>
      have hc := hr c rfl
      have hplain : plain.step c = .plain := by
        rcases endsLine_iff.mp hc with rfl | rfl <;> rfl
      have hcomment : comment.step c = .plain := by rw [step, if_pos hc]
      rw [uncomment, uncomment, behind_cons, behind_cons, hcomment, hplain]
      exact ⟨rfl, rfl⟩

end Region

/-! ### Lexemes -/

/-- Characters that are kept, and leave nothing open. -/
def Kept (region : Region) (w : List Char) : Prop :=
  region.uncomment w = w ∧ region.behind w = .plain

theorem Kept.uncomment {region : Region} {w : List Char} (h : Kept region w) (r : List Char) :
    region.uncomment (w ++ r) = w ++ Region.plain.uncomment r := by
  rw [Region.uncomment_append, h.1, h.2]

theorem kept_plain {w : List Char} (hw : ∀ c ∈ w, c ≠ '"' ∧ c ≠ '#') : Kept .plain w := by
  induction w with
  | nil => exact ⟨rfl, rfl⟩
  | cons c w ih =>
      obtain ⟨hq, hc⟩ := hw c List.mem_cons_self
      have hstep : Region.plain.step c = .plain := by simp [Region.step, Region.next, hq, hc]
      obtain ⟨hkept, hbehind⟩ := ih fun d hd => hw d (List.mem_cons_of_mem _ hd)
      exact ⟨by rw [Region.uncomment, hstep, if_neg (by decide), hkept],
        by rw [Region.behind_cons, hstep, hbehind]⟩

theorem kept_numeric {w : List Char} (hw : ∀ c ∈ w, isNumeric c = true) : Kept .plain w :=
  kept_plain fun c hc => ⟨isNumeric_ne (hw c hc) (by decide), isNumeric_ne (hw c hc) (by decide)⟩

theorem Closing.kept {w : List Char} (h : Closing w) : Kept .string w := by
  induction h with
  | quote => exact ⟨rfl, rfl⟩
  | escaped c h ih =>
      obtain ⟨hkept, hbehind⟩ := ih
      exact ⟨by simp [Region.uncomment, Region.step, Region.next, hkept],
        by simpa [Region.step, Region.next] using hbehind⟩
  | char hb hq h ih =>
      obtain ⟨hkept, hbehind⟩ := ih
      exact ⟨by simp [Region.uncomment, Region.step, Region.next, hb, hq, hkept],
        by simpa [Region.step, Region.next, hb, hq] using hbehind⟩

theorem Unclosed.behind {w : List Char} (h : Unclosed w) :
    (Region.string.behind w).inString = true := by
  induction h with
  | nil => rfl
  | backslash => rfl
  | escaped c h ih => simpa [Region.step, Region.next] using ih
  | char hb hq h ih => simpa [Region.step, Region.next, hb, hq] using ih

/-- The symbol or the number in front of a text stays. -/
theorem takeWhile_uncomment {accepted : Char → Bool}
    (haccepted : ∀ c, accepted c = true → isNumeric c = true) (text : List Char) :
    (Region.plain.uncomment text).takeWhile accepted = text.takeWhile accepted := by
  induction text with
  | nil => rfl
  | cons c text ih =>
      by_cases ha : accepted c = true
      · have hkept := kept_numeric (w := [c]) fun d hd => by
          obtain rfl := List.mem_singleton.mp hd
          exact haccepted d ha
        rw [← List.singleton_append, hkept.uncomment, List.singleton_append,
          List.singleton_append, List.takeWhile_cons_of_pos ha, List.takeWhile_cons_of_pos ha, ih]
      · rw [List.takeWhile_cons_of_neg ha, Region.uncomment]
        split
        · -- What comes behind the comment ends the line.
          next hstep =>
          have hhead := Region.head_uncomment_comment text
          rw [hstep]
          cases hu : Region.comment.uncomment text with
          | nil => rfl
          | cons d ds =>
              rw [hu] at hhead
              have hd := hhead d rfl
              refine List.takeWhile_cons_of_neg fun had => ?_
              have hne := haccepted d had
              rcases endsLine_iff.mp hd with rfl | rfl <;> cases hne
        · exact List.takeWhile_cons_of_neg ha

theorem numberLength?_uncomment {w : List Char} (hw : ∀ c ∈ w, c ≠ '"' ∧ c ≠ '#') (r : List Char) :
    numberLength? (w ++ Region.plain.uncomment r) = numberLength? (w ++ r) := by
  rw [← (kept_plain hw).uncomment, ← numberLength?_takeWhile,
    takeWhile_uncomment (fun _ h => h), numberLength?_takeWhile]

/-- A lexeme stays, unless it is a comment, and so does the token it is. -/
theorem Lexeme.uncomment {w r : List Char} {t : Option Token} (h : Lexeme w t r)
    (hquote : t ≠ some (.stray '"')) :
    (Kept .plain w ∧ Lexeme w t (Region.plain.uncomment r)) ∨
      t = none ∧ Region.plain.uncomment (w ++ r) = Region.plain.uncomment r ∧
        (Region.plain.behind (w ++ r)).inString = (Region.plain.behind r).inString := by
  -- A comment is erased as a whole; every other lexeme is kept as it is.
  cases h with
  | @blank c hb r =>
      refine .inl ⟨kept_plain fun d hd => ?_, .blank hb _⟩
      obtain rfl := List.mem_singleton.mp hd
      constructor <;> rintro rfl <;> cases hb
  | @comment w r hw hr =>
      refine .inr ⟨rfl, ?_⟩
      have hdrop : Region.comment.uncomment w = [] ∧ Region.comment.behind w = .comment := by
        induction w with
        | nil => exact ⟨rfl, rfl⟩
        | cons c w ih =>
            have hc : Region.comment.step c = .comment := by
              rw [Region.step, hw c List.mem_cons_self]
              rfl
            obtain ⟨h₁, h₂⟩ := ih fun d hd => hw d (List.mem_cons_of_mem _ hd)
            exact ⟨by rw [Region.uncomment, hc, if_pos rfl, h₁],
              by rw [Region.behind_cons, hc, h₂]⟩
      have hstart : Region.plain.step '#' = .comment := rfl
      obtain ⟨huncomment, hinString⟩ := Region.comment_of_endsLine hr
      rw [List.cons_append, Region.uncomment, Region.behind_cons, hstart, if_pos rfl,
        Region.uncomment_append, Region.behind_append, hdrop.1, hdrop.2, List.nil_append]
      exact ⟨huncomment, hinString⟩
  | @mark c t hm r =>
      refine .inl ⟨kept_plain fun d hd => ?_, .mark hm _⟩
      obtain rfl := List.mem_singleton.mp hd
      rcases eq_of_ofMark? hm with rfl | rfl | rfl | rfl | rfl <;> decide
  | @string w s hw hs r =>
      have hstep : Region.plain.step '"' = .string := rfl
      refine .inl ⟨⟨?_, ?_⟩, .string hw hs _⟩
      · rw [Region.uncomment, hstep, if_neg (by decide), hw.kept.1]
      · rw [Region.behind_cons, hstep, hw.kept.2]
  | quote hu => exact absurd rfl hquote
  | number hne hn =>
      have hw := isNumeric_of_number hn
      refine .inl ⟨kept_numeric hw, .number hne ?_⟩
      rw [numberLength?_uncomment fun c hc =>
        ⟨isNumeric_ne (hw c hc) (by decide), isNumeric_ne (hw c hc) (by decide)⟩, hn]
  | @stray c r hb hc hm hq hn =>
      have hplain : ∀ d ∈ [c], d ≠ '"' ∧ d ≠ '#' := fun d hd => by
        obtain rfl := List.mem_singleton.mp hd
        exact ⟨hq, hc⟩
      refine .inl ⟨kept_plain hplain, .stray hb hc hm hq ?_⟩
      exact (numberLength?_uncomment hplain r).trans hn

/-- **Comments are no tokens**: a text whose strings are closed has the same tokens without its
comments. -/
theorem kinds_uncomment {text : List Char} (h : (Region.plain.behind text).inString = false) :
    kinds (Region.plain.uncomment text) = kinds text := by
  induction text using lexeme_induction with
  | nil => rfl
  | cons w t r hw ih =>
      have hquote : t ≠ some (.stray '"') := by
        rintro rfl
        cases hw with
        | quote hu =>
            have hstep : Region.plain.step '"' = .string := rfl
            rw [List.singleton_append, Region.behind_cons, hstep, hu.behind] at h
            cases h
        | stray hb hc hm hq hn => exact hq rfl
        | mark hm r => rcases eq_of_ofMark? hm with rfl | rfl | rfl | rfl | rfl <;> cases hm
      rcases hw.uncomment hquote with ⟨hkept, hw'⟩ | ⟨rfl, huncomment, hbehind⟩
      · rw [Region.behind_append, hkept.2] at h
        rw [hkept.uncomment, kinds_lexeme hw', kinds_lexeme hw, ih h]
      · rw [hbehind] at h
        rw [huncomment, kinds_lexeme hw, ih h]
        rfl

/-! ### Comments that end with their line -/

/-- Up to the end of the line there are blanks only, or a comment. -/
def idle : List Char → Bool
  | [] => true
  | c :: cs => c == '\n' || c == '#' || (isBlank c && idle cs)

theorem idle_cons {c : Char} {cs : List Char} :
    idle (c :: cs) = true ↔ c = '\n' ∨ c = '#' ∨ isBlank c = true ∧ idle cs = true := by
  simp only [idle, Bool.or_eq_true, Bool.and_eq_true, beq_iff_eq, or_assoc]

namespace Region

/-- In each comment, a carriage return has only blanks and comments behind it, up to the next line
feed. -/
def tidy (region : Region) : List Char → Bool
  | [] => true
  | c :: cs => (!(region = .comment ∧ c = '\r') || idle cs) && (region.next c).tidy cs

theorem tidy_cons {region : Region} {c : Char} {cs : List Char} :
    region.tidy (c :: cs) = true ↔
      (region = .comment → c = '\r' → idle cs = true) ∧ (region.next c).tidy cs = true := by
  simp only [tidy, Bool.and_eq_true, Bool.or_eq_true, Bool.not_eq_true', decide_eq_false_iff_not,
    not_and, Classical.or_iff_not_imp_left, not_forall, not_not, exists_prop, and_imp]

/-- The two regions of a place: where only a line feed ends a comment, and where every end of a line
does.  They are the same, or the line goes on idly behind a carriage return. -/
inductive InStep : Region → Region → List Char → Prop where
  | same (region : Region) (text : List Char) : InStep region region text
  | idle {text : List Char} (h : idle text = true) : InStep .comment .plain text

theorem InStep.next {region region' : Region} {c : Char} {cs : List Char}
    (h : InStep region region' (c :: cs)) (htidy : region.tidy (c :: cs) = true) :
    InStep (region.next c) (region'.step c) cs := by
  cases h with
  | same =>
      -- The two part only at a carriage return in a comment, behind which the line is idle.
      by_cases hcomment : region = .comment
      · subst hcomment
        by_cases hlf : c = '\n'
        · subst hlf
          exact .same _ cs
        by_cases hcr : c = '\r'
        · subst hcr
          exact .idle ((tidy_cons.mp htidy).1 rfl rfl)
        · have hstep : comment.step c = comment.next c := by
            simp [step, Region.next, endsLine, hlf, hcr]
          rw [hstep]
          exact .same _ cs
      · rw [step_eq_next hcomment]
        exact .same _ cs
  | idle h =>
      rcases idle_cons.mp h with rfl | rfl | ⟨hb, h⟩
      · exact .same _ cs
      · exact .same _ cs
      · by_cases hlf : c = '\n'
        · subst hlf
          exact .same _ cs
        · have hq : c ≠ '"' := by rintro rfl; cases hb
          have hc : c ≠ '#' := by rintro rfl; cases hb
          have hnext : comment.next c = .comment := if_neg hlf
          have hstep : plain.step c = .plain := by simp [step, Region.next, hq, hc]
          rw [hnext, hstep]
          exact .idle h

theorem InStep.after {region region' : Region} {v r : List Char}
    (h : InStep region region' (v ++ r)) (htidy : region.tidy (v ++ r) = true) :
    InStep (region.after v) (region'.behind v) r ∧ (region.after v).tidy r = true := by
  induction v generalizing region region' with
  | nil => exact ⟨h, htidy⟩
  | cons c v ih => exact ih (h.next htidy) (tidy_cons.mp htidy).2

theorem InStep.inString {region region' : Region} {text : List Char}
    (h : InStep region region' text) : region.inString = region'.inString := by
  cases h <;> rfl

/-- The region of a place once the comments are gone. -/
def erased : Region → Region
  | .comment => .plain
  | region => region

theorem erased_eq_plain {region : Region} :
    region.erased = .plain ↔ region = .plain ∨ region = .comment := by
  cases region <;> decide

theorem erased_of_step {region : Region} {c : Char} (h : region.step c = .comment) :
    region.erased = .plain := by
  rw [erased_eq_plain]
  cases region with
  | plain => exact .inl rfl
  | comment => exact .inr rfl
  | string =>
      simp only [step, Region.next] at h
      split_ifs at h
  | escape => cases h

theorem erased_next {region : Region} {c : Char} (h : region.step c ≠ .comment) :
    region.erased.next c = (region.step c).erased := by
  cases region with
  | plain =>
      have hc : c ≠ '#' := by rintro rfl; exact h rfl
      simp only [step, Region.next, erased, if_neg hc]
      split_ifs <;> rfl
  | string =>
      simp only [step, Region.next, erased]
      split_ifs <;> rfl
  | escape => rfl
  | comment =>
      have hc : endsLine c = true := by
        by_contra hc
        exact h (if_neg hc)
      rcases endsLine_iff.mp hc with rfl | rfl <;> rfl

theorem inString_uncomment (region : Region) (v : List Char) :
    (region.erased.after (region.uncomment v)).inString = (region.behind v).inString := by
  induction v generalizing region with
  | nil => cases region <;> rfl
  | cons c v ih =>
      rw [uncomment, behind_cons, ← ih]
      split
      · next h => rw [erased_of_step h, h]; rfl
      · next h => rw [after_cons, erased_next h]

/-- A statement ends at the same semicolon without its comments. -/
theorem divide_uncomment {region region' : Region} {text : List Char}
    (h : InStep region region' text) (htidy : region.tidy text = true) :
    region'.erased.divide (region'.uncomment text) =
      (region'.uncomment (region.divide text).1, plain.uncomment (region.divide text).2) := by
  -- By the recursion of `divide`, which meets the same semicolon in the erased text.
  fun_induction divide region text generalizing region' with
  | case1 => rfl
  | case2 region c cs hend =>
    obtain ⟨rfl, rfl⟩ := hend
    cases h
    rfl
  | case3 region c cs hend ih =>
    have hrest := ih (h.next htidy) (tidy_cons.mp htidy).2
    rw [uncomment, uncomment]
    split
    · next hstep =>
      rw [hstep] at hrest ⊢
      rw [erased_of_step hstep]
      exact hrest
    · next hstep =>
      have hne : ¬(region'.erased = .plain ∧ c = ';') := by
        rintro ⟨hplain, rfl⟩
        cases h with
        | same =>
            rcases erased_eq_plain.mp hplain with rfl | rfl
            · exact hend ⟨rfl, rfl⟩
            · exact hstep rfl
        | idle h => cases h
      rw [divide, if_neg hne, erased_next hstep, hrest]

end Region

/-- The region of a place in front of a statement. -/
def ignoredRegion (inComment : Bool) : Region :=
  if inComment then .comment else .plain

theorem next_comment (c : Char) : Region.comment.next c = ignoredRegion (c != '\n') := by
  by_cases hc : c = '\n' <;> simp [Region.next, ignoredRegion, hc]

/-- What is kept of a comment, or of an idle line, is blank. -/
theorem isBlank_of_inStep {region : Region} {c : Char} {cs : List Char}
    (h : Region.InStep .comment region (c :: cs)) (hstep : region.step c ≠ .comment) :
    isBlank c = true := by
  cases h with
  | same =>
      have hc : endsLine c = true := by
        by_contra hc
        exact hstep (if_neg hc)
      rcases endsLine_iff.mp hc with rfl | rfl <;> rfl
  | idle h =>
      rcases idle_cons.mp h with rfl | rfl | ⟨hb, -⟩
      · rfl
      · exact absurd rfl hstep
      · exact hb

theorem divideIgnored_blank {c : Char} (h : isBlank c = true) (cs : List Char) :
    (divideIgnored false (c :: cs)).2 = (divideIgnored false cs).2 := by
  rw [divideIgnored, if_neg (by decide), if_pos h]

theorem divideIgnored_inStep {inComment : Bool} {region : Region} {text : List Char}
    (h : Region.InStep (ignoredRegion inComment) region text)
    (htidy : (ignoredRegion inComment).tidy text = true) :
    (divideIgnored false (region.uncomment text)).2 =
      Region.plain.uncomment (divideIgnored inComment text).2 ∧
    Region.plain.tidy (divideIgnored inComment text).2 = true := by
  -- By the recursion of `divideIgnored`: inside a comment, at a blank, at the start of a comment,
  -- or where nothing more is ignored.
  fun_induction divideIgnored inComment text generalizing region with
  | case1 => exact ⟨rfl, rfl⟩
  | case2 c cs ih =>
    have hnext := h.next htidy
    have htidy' := (Region.tidy_cons.mp htidy).2
    rw [ignoredRegion, if_pos rfl, next_comment] at hnext htidy'
    obtain ⟨hrest, hidle⟩ := ih hnext htidy'
    refine ⟨?_, hidle⟩
    rw [Region.uncomment, ← hrest]
    split
    · rfl
    · next hstep => rw [divideIgnored_blank (isBlank_of_inStep h hstep)]
  | case3 inComment c cs hopen hblank ih =>
    obtain rfl : inComment = false := by simpa using hopen
    cases h
    have hnext : Region.plain.next c = .plain := after_blank hblank
    have hstep : Region.plain.step c = .plain := hnext
    have htidy' := (Region.tidy_cons.mp htidy).2
    rw [ignoredRegion, if_neg (by decide), hnext] at htidy'
    obtain ⟨hrest, hidle⟩ := ih (.same .plain cs) htidy'
    refine ⟨?_, hidle⟩
    rw [ignoredRegion, if_neg (by decide), Region.uncomment, hstep, if_neg (by decide),
      divideIgnored_blank hblank, hrest]
  | case4 inComment cs hopen hblank ih =>
    obtain rfl : inComment = false := by simpa using hopen
    cases h
    exact ih (.same .comment cs) (Region.tidy_cons.mp htidy).2
  | case5 inComment c cs hopen hblank hc =>
    obtain rfl : inComment = false := by simpa using hopen
    cases h
    refine ⟨?_, htidy⟩
    have hstep : Region.plain.step c ≠ .comment := by
      simp only [Region.step, Region.next]
      split_ifs <;> simp
    rw [ignoredRegion, if_neg (by decide), Region.uncomment, if_neg hstep, divideIgnored,
      if_neg (by decide), if_neg hblank, if_neg hc]

/-- A statement starts at the same character without the comments in front of it. -/
theorem divideIgnored_uncomment {text : List Char} (htidy : Region.plain.tidy text = true) :
    (divideIgnored false (Region.plain.uncomment text)).2 =
      Region.plain.uncomment (divideIgnored false text).2 ∧
    Region.plain.tidy (divideIgnored false text).2 = true :=
  divideIgnored_inStep (.same .plain text) htidy

/-! ### Statements -/

/-- **A statement says the same** without its comments, wherever it stands. -/
theorem unplaced_result_uncomment (p q : Position) {v : List Char}
    (htidy : Region.plain.tidy v = true) :
    (Statement.result p v).mapError Failure.unplaced =
      (Statement.result q (Region.plain.uncomment v)).mapError Failure.unplaced := by
  have hv := List.takeWhile_append_dropWhile (p := isSymbol) (l := v)
  have hkept := kept_numeric (w := v.takeWhile isSymbol) fun c hc =>
    isNumeric_of_isSymbol (List.mem_takeWhile_imp hc)
  have htake := takeWhile_uncomment (fun c => isNumeric_of_isSymbol) v
  have hdrop : (Region.plain.uncomment v).dropWhile isSymbol =
      Region.plain.uncomment (v.dropWhile isSymbol) := by
    have happend := List.takeWhile_append_dropWhile (p := isSymbol) (l := Region.plain.uncomment v)
    rw [htake] at happend
    conv_rhs at happend => rw [← hv, hkept.uncomment]
    exact List.append_cancel_left happend
  -- Both regions of the end of the statement lie in a string, or neither does.
  have hend : (Region.plain.after v).inString = (Region.plain.behind v).inString := by
    have hstep := Region.InStep.same .plain (v ++ [])
    exact (hstep.after (by rwa [List.append_nil])).1.inString
  refine unplaced_result p q ?_ htake.symm fun hclosed => ?_
  · rw [hend]
    exact (Region.inString_uncomment .plain v).symm
  · rw [hdrop]
    refine (kinds_uncomment ?_).symm
    rw [hend, ← hv, Region.behind_append, hkept.2] at hclosed
    exact hclosed

theorem tidy_of_append {region : Region} {v r : List Char} (h : region.tidy (v ++ r) = true) :
    region.tidy v = true := by
  have idle_of_append : ∀ v : List Char, idle (v ++ r) = true → idle v = true := by
    intro v h
    induction v with
    | nil => rfl
    | cons c v ih =>
        exact idle_cons.mpr ((idle_cons.mp h).imp_right (Or.imp_right (And.imp_right ih)))
  induction v generalizing region with
  | nil => rfl
  | cons c v ih =>
      obtain ⟨hidle, hrest⟩ := Region.tidy_cons.mp h
      exact Region.tidy_cons.mpr
        ⟨fun hregion hc => idle_of_append v (hidle hregion hc), ih hrest⟩

/-- A statement of a tidy text is tidy, and so is what comes behind it. -/
theorem tidy_divide {text : List Char} (htidy : Region.plain.tidy text = true) :
    Region.plain.tidy (Region.plain.divide text).1 = true ∧
      Region.plain.tidy (Region.plain.divide text).2 = true := by
  rcases Region.divide_cases .plain text with ⟨-, hcut⟩ | ⟨u, r, rfl, -, hafter, hcut⟩
  · rw [hcut]
    exact ⟨htidy, rfl⟩
  · rw [hcut]
    rw [List.append_cons] at htidy
    have hrest := ((Region.InStep.same .plain _).after htidy).2
    rw [Region.after_append, hafter] at hrest
    exact ⟨tidy_of_append htidy, hrest⟩

/-- What the statements of a text say is the same without its comments. -/
theorem sameUpToPlaces_uncomment (p q : Position) {text : List Char}
    (htidy : Region.plain.tidy text = true) :
    SameUpToPlaces (results p text) (results q (Region.plain.uncomment text)) := by
  induction p, text using statements_induction generalizing q with
  | nil p text hnil =>
      have hskip := (divideIgnored_uncomment htidy).1
      rw [hnil] at hskip
      rw [results_of_nil hnil, results_of_nil hskip]
      rfl
  | cons p text c cs hcons ih =>
      obtain ⟨hskip, htidy'⟩ := divideIgnored_uncomment htidy
      rw [hcons] at hskip htidy'
      have hcut : Region.plain.divide (Region.plain.uncomment (c :: cs)) = _ :=
        Region.divide_uncomment (.same .plain (c :: cs)) htidy'
      obtain ⟨hstatement, hothers⟩ := tidy_divide htidy'
      -- The statement starts with the same character.
      have hstep : Region.plain.step c ≠ .comment := by
        have hc := (head_divideIgnored false text c (by rw [hcons]; rfl)).2
        simp only [Region.step, Region.next, if_neg hc]
        split_ifs <;> simp
      have hfront : Region.plain.uncomment (c :: cs) = c :: (Region.plain.step c).uncomment cs :=
        if_neg hstep
      rw [hfront] at hskip hcut
      rw [results_of_cons hcons, results_of_cons hskip, hcut]
      exact congrArg₂ List.cons (unplaced_result_uncomment _ _ hstatement) (ih _ hothers)

end Description

namespace Environment

open Description

/-- **Comments carry no meaning** in a text in which a carriage return in a comment has only blanks
and comments behind it, up to the next line feed: without its comments the text leaves the same
environment, and fails just when it does and for the same cause. -/
theorem loadText_uncomment (env : Environment) {text : List Char}
    (htidy : Region.plain.tidy text = true) :
    (env.loadText (Region.plain.uncomment text)).1 = (env.loadText text).1 ∧
      (env.loadText (Region.plain.uncomment text)).2.map Failure.unplaced =
        (env.loadText text).2.map Failure.unplaced := by
  have hsame := (sameUpToPlaces_uncomment (.start streamName) (.start streamName) htidy).untilError
  rw [loadText_eq, loadText_eq, hsame.1, hsame.2]
  exact ⟨rfl, rfl⟩

/-- A comment between tokens that holds a quote and a semicolon, one that a carriage return ends in
front of a line feed, and a string that holds a number sign. -/
theorem loadText_uncomment_of_quotes :
    let text := "a#\";\r\n=\"#\";".toList
    Region.plain.tidy text = true ∧ Region.plain.uncomment text = "a\r\n=\"#\";".toList ∧
      (Environment.empty.loadText (Region.plain.uncomment text)).1 =
        (Environment.empty.loadText text).1 ∧
      (Environment.empty.loadText (Region.plain.uncomment text)).2.map Failure.unplaced =
        (Environment.empty.loadText text).2.map Failure.unplaced := by
  intro text
  have htidy : Region.plain.tidy text = true := by decide
  exact ⟨htidy, by decide, loadText_uncomment _ htidy⟩

/-- A carriage return ends the comment for the reader of tokens, but the statement behind it is
skipped with the comment. -/
theorem loadText_uncomment_carriageReturn :
    let text := "# note\rx=1;".toList
    Region.plain.uncomment text = "\rx=1;".toList ∧
      ((Environment.empty.loadText (Region.plain.uncomment text)).1.stack "x").length = 1 ∧
      ((Environment.empty.loadText text).1.stack "x").length = 0 := by
  intro text
  have huncomment : Region.plain.uncomment text = "\rx=1;".toList := by decide
  rw [huncomment]
  exact ⟨rfl, by with_unfolding_all rfl, by with_unfolding_all rfl⟩

end Environment

end Stencil
