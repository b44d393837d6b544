import Stencil.Proofs.Description.Printing
import Stencil.Proofs.Expr.Evaluation
import Stencil.Proofs.Expr.Printing
import Stencil.Proofs.Template.Rows
import Stencil.Proofs.Template.Resumption
import Stencil.Value.Conversion

/-!
# Numeral — Integers

Whatever reads integers reads back the text that is shown of an integer (`integer_readBack`): the
reader of numbers, the conversion of strings, the reader of expressions, descriptions, and
templates.  If the integer is not one of 64 bits, all of them find it out of range, unless it has
too many digits, which none of them reads.

The texts have no mark of a base and, but for zero itself, no zero in front (`head_decimal`).  So
the conversion of strings, which takes a leading zero for the sign of an octal number, takes them
for decimal ones, and so does the machine for numbers.
-/

namespace Stencil

open Scanner Text

namespace Numeral

/-! ### Conversion of strings -/

/-- A number that is not zero is written without a leading zero. -/
theorem head_decimal {n : Nat} (h : 0 < n) : ∀ c ∈ (decimal n).head?, c ≠ '0' := by
  fun_induction decimal n with
  | case1 n hn =>
    rintro _ ⟨⟩ hc
    have hdigit := digit?_digitChar hn
    rw [hc] at hdigit
    cases hdigit
    exact Nat.lt_irrefl 0 h
  | case2 n hn ih =>
    rw [List.head?_append_of_ne_nil _ (decimal_ne_nil _)]
    exact ih (by omega)

theorem allDigits?_decimal (n : Nat) : allDigits? 10 (decimal n) =
    if overlong 10 (decimal n) then .error (.tooManyDigits (decimal n).length)
    else .ok (some n) := by
  have hall : (decimal n).all (isDigitOf 10) = true :=
    List.all_eq_true.mpr (Expr.isDigitOf_of_mem_decimal n)
  rw [allDigits?, if_pos (by simp [hall, decimal_ne_nil]), valueOf_decimal]

theorem magnitude?_decimal (n : Nat) : magnitude? (decimal n) =
    if overlong 10 (decimal n) then .error (.tooManyDigits (decimal n).length)
    else .ok (some n) := by
  rcases Nat.eq_zero_or_pos n with rfl | hn
  · rw [decimal]
    rfl
  · have hhead := head_decimal hn
    have hdigits := allDigits?_decimal n
    obtain ⟨c, ds, hcs⟩ := List.exists_cons_of_ne_nil (decimal_ne_nil n)
    rw [hcs] at hhead hdigits ⊢
    rw [magnitude?_cons (hhead c rfl), hdigits]

/-- A string that is the text of an integer converts to it, if it is in range. -/
theorem readInteger_integerText (n : Int) : readInteger (integerText n).toList =
    if overlong 10 (decimal n.natAbs) then .error (.tooManyDigits (decimal n.natAbs).length)
    else .ok (if inRange n then some n else none) := by
  have hspace : (integerText n).toList.dropWhile isSpace = (integerText n).toList := by
    obtain ⟨c, ds, htext, hfront⟩ := Expr.integerText_front n
    have hc : isSpace c = false := by
      rcases hfront with ⟨rfl, -⟩ | hc
      · rfl
      · exact Expr.isSpace_of_isDigitOf hc
    rw [htext, List.dropWhile_cons_of_neg (by simp [hc])]
  have hsplit : splitSign (integerText n).toList =
      (if n < 0 then some '-' else none, decimal n.natAbs) := by
    rw [integerText, String.toList_ofList]
    split
    · rfl
    · exact Description.splitSign_digits (Expr.isDigitOf_of_mem_decimal _)
  have hvalue : (if (if n < 0 then some '-' else none) = some '-' then -(n.natAbs : Int)
      else n.natAbs) = n := by
    by_cases hn : n < 0
    · rw [if_pos (if_pos hn)]
      omega
    · rw [if_neg (by simp [hn])]
      omega
  simp only [readInteger, hspace, hsplit, magnitude?_decimal]
  cases overlong 10 (decimal n.natAbs) with
  | true => rfl
  | false => simp only [Bool.false_eq_true, if_false, hvalue]

end Numeral

open Numeral

variable {n : Int}

/-! ### Expressions -/

namespace Expr

theorem ofText_integerText (hn : inRange n = true) :
    ofText (integerText n).toList = .ok (.literal (.integer n) []) := by
  have hoperand : (operand (inside nestingLimit) .missingFirstOperand).Reads
      ((integerText n).toList ++ []) ((Expr.literal (.integer n) []).withIndices []) [] :=
    reads_operand (reads_integerText (s := []) (fun c hc => by cases hc) hn apart_nil)
      (reads_indexList_nil (w := []) (fun c hc => by cases hc) (fun c hc => by cases hc)
        fun c hc => by cases hc)
  have hscan : scanner.Reads ((integerText n).toList ++ []) (.literal (.integer n) []) [] := by
    rw [scanner, nested_eq_chain]
    exact reads_chain_one hoperand closes_nil
  have h := ofText_of_reads hscan fun c hc => by cases hc
  rwa [List.append_nil, List.append_nil] at h

theorem fails_scanner_integerText (hn : inRange n = false) {r : List Char} (hr : Apart r) :
    scanner.FailsBy ((integerText n).toList ++ r) (integerFailure n) := by
  rw [scanner, nested_eq_chain]
  exact ((fails_integerText hn hr).bind _).bind _

theorem ofText_integerText_outOfRange (hn : inRange n = false) :
    ∃ p, ofText (integerText n).toList = .error (integerFailure n p) := by
  have hscan := fails_scanner_integerText hn apart_nil
  obtain ⟨p, t, hrun⟩ := (hscan.bind _) (.start streamName)
  rw [List.append_nil] at hrun
  exact ⟨p, read_eq_error.mpr ⟨t, hrun⟩⟩

end Expr

/-! ### Descriptions -/

namespace Description

/-- What an integer out of range fails by, where it stands in a description. -/
def integerFailure (n : Int) (p : Position) : Failure :=
  if overlong 10 (decimal n.natAbs) then
    .fault (.inDescription (.tooManyDigits (decimal n.natAbs).length))
  else .located (.numberOutOfRange (integerText n).toList) p

theorem numberOf_integerText_outOfRange (p : Position) (hn : inRange n = false) :
    numberOf p (integerText n).toList = .error (integerFailure n (shifted p)) := by
  have hrun := Expr.run_number_integerText hn Expr.apart_nil (.start Stream.defaultName)
  rw [List.append_nil] at hrun
  change number.run (.ofText Stream.defaultName _) = _ at hrun
  rw [numberOf, hrun, Expr.integerFailure, integerFailure]
  cases overlong 10 (decimal n.natAbs) <;> rfl

/-- The statement that assigns the number with these characters to `x`. -/
def numberStatement (chars : List Char) : List Char :=
  'x' :: ' ' :: '=' :: ' ' :: (chars ++ [';'])

theorem tokens_numberStatement (p : Position) (n : Int) : ∃ q₁ q₂ q₃,
    tokens p (' ' :: '=' :: ' ' :: ((integerText n).toList ++ [';'])) =
      [(q₁, .equals), (q₂, .number (integerText n).toList), (q₃, .semicolon)] := by
  have hblank : ∀ p r, tokens p (' ' :: r) = tokens (p.after [' ']) r := fun p r =>
    tokens_lexeme (w := [' ']) (.blank rfl r) p
  have hequals : ∀ p r, tokens p ('=' :: r) = (p, .equals) :: tokens (p.after ['=']) r :=
    fun p r => tokens_lexeme (w := ['=']) (.mark rfl r) p
  have hsemicolon : ∀ p, tokens p [';'] = [(p, .semicolon)] := fun p => by
    have h := tokens_lexeme (w := [';']) (.mark rfl []) p
    rwa [tokens_nil] at h
  have hnumber : Lexeme (integerText n).toList (some (.number (integerText n).toList)) [';'] := by
    refine .number ?_ (numberLength?_integerText n fun c hc => by cases hc; rfl)
    obtain ⟨c, ds, htext, -⟩ := Expr.integerText_front n
    rw [htext]
    exact List.cons_ne_nil c ds
  rw [hblank, hequals, hblank, tokens_lexeme hnumber, hsemicolon]
  exact ⟨_, _, _, rfl⟩

theorem assignment_numberStatement (p : Position) (n : Int) :
    ∃ q, assignment p (numberStatement (integerText n).toList) =
      (numberOf q (integerText n).toList).map (Prod.mk "x") := by
  obtain ⟨q₁, q₂, q₃, htokens⟩ := tokens_numberStatement (p.after ['x']) n
  refine ⟨q₂, ?_⟩
  rw [assignment]
  change (if ['x'].isEmpty then _ else
    (assigned p (tokens (p.after ['x']) (' ' :: '=' :: ' ' :: _))).mapError .error >>=
      fun d => d.toValue p arrayLimit >>= fun v => .ok (String.ofList ['x'], v)) = _
  rw [if_neg (by decide), htokens]
  change (numberOf q₂ (integerText n).toList >>= fun v => .ok (String.ofList ['x'], v)) = _
  cases numberOf q₂ (integerText n).toList <;> rfl

theorem results_numberStatement (p : Position) (n : Int) :
    ∃ q, results p (numberStatement (integerText n).toList) =
      [(numberOf q (integerText n).toList).map (Prod.mk "x")] := by
  obtain ⟨q, hq⟩ := assignment_numberStatement p n
  have hplain : ∀ c ∈ ['x', ' ', '=', ' '], c ≠ ';' ∧ c ≠ '"' ∧ c ≠ '#' := by simp
  have hquiet : Quiet ('x' :: ' ' :: '=' :: ' ' :: (integerText n).toList) :=
    (quiet_of_plain hplain).append (quiet_numeric (isNumeric_of_mem_integerText n))
  have h := results_statement (g := []) .nil ⟨'x', _, rfl, rfl⟩ hquiet [] p
  have hend : ∀ p, results p [] = [] := fun p => results_of_nil rfl
  rw [hend] at h
  exact ⟨q, h.trans (congrArg (· :: []) hq)⟩

end Description

namespace Environment

open Description

theorem loadText_numberStatement (env : Environment) (hn : inRange n = true) :
    env.loadText (numberStatement (integerText n).toList) = (env.push "x" (.integer n), none) := by
  obtain ⟨q, hq⟩ := results_numberStatement (.start streamName) n
  rw [loadText_eq, hq, numberOf_integerText q hn]
  rfl

theorem loadText_numberStatement_outOfRange (env : Environment) (hn : inRange n = false) :
    ∃ p, env.loadText (numberStatement (integerText n).toList) =
      (env, some (integerFailure n p)) := by
  obtain ⟨q, hq⟩ := results_numberStatement (.start streamName) n
  rw [loadText_eq, hq, numberOf_integerText_outOfRange q hn]
  exact ⟨_, rfl⟩

end Environment

/-! ### Templates -/

namespace Template

open Render

/-- A text that starts with that of an integer does not start with a keyword. -/
theorem keyword?_integerText (n : Int) (r : List Char) :
    keyword? (((integerText n).toList ++ r).takeWhile isSymbol) = none := by
  obtain ⟨c, ds, htext, hfront⟩ := Expr.integerText_front n
  rw [htext, List.cons_append]
  rcases hfront with ⟨rfl, -⟩ | hc
  · rfl
  · rw [List.takeWhile_cons_of_pos (Expr.isSymbol_of_isDigitOf hc)]
    refine List.find?_eq_none.mpr fun k _ hk => ?_
    -- The first letter of a keyword is no digit.
    have hhead := congrArg List.head? (eq_of_beq hk)
    cases k <;> cases hhead <;> cases hc

theorem frontWord_integerText (n : Int) :
    frontWord (integerText n).toList = ((integerText n).toList ++ []).takeWhile isSymbol := by
  have hblank : ∀ c ∈ (integerText n).toList.head?, isBlank c = false := by
    have h := (Expr.operandAhead_integerText n (Expr.inside 0) .missingOperand []).2
    rwa [List.append_nil] at h
  rw [frontWord, List.append_nil]
  cases htext : (integerText n).toList with
  | nil => rfl
  | cons c cs =>
    rw [List.dropWhile_cons_of_neg (by simp [hblank c (by rw [htext]; rfl)])]

theorem ofText_integerText (name : String) (hn : inRange n = true) :
    ofText name ('{' :: ((integerText n).toList ++ ['}'])) =
      .ok ⟨[.insert (.literal (.integer n) [])]⟩ := by
  have hrow : Row (innerAt blockLimit) .outermost
      ('{' :: ((integerText n).toList ++ ['}'] ++ [])) [.insert (.literal (.integer n) [])]
      .endOfText :=
    .statement (reads_insert ⟨_, _, Expr.ofText_integerText hn⟩
      (frontWord_integerText n ▸ keyword?_integerText n [])) .ended
  rw [List.append_nil] at hrow
  exact ofText_iff_row.mpr ⟨_, hrow, rfl⟩

theorem ofText_integerText_outOfRange (name : String) (hn : inRange n = false) :
    ∃ p, ofText name ('{' :: ((integerText n).toList ++ ['}'])) =
      .error (Expr.integerFailure n p) := by
  have hscan := Expr.fails_scanner_integerText hn (r := ['}']) fun c hc => by
    cases hc
    exact ⟨rfl, by decide⟩
  have hblank : ∀ c ∈ ((integerText n).toList ++ ['}']).head?, isBlank c = false :=
    (Expr.operandAhead_integerText n (Expr.inside 0) .missingOperand ['}']).2
  have hstatement : (statement (innerAt blockLimit) .outermost).FailsBy
      ((integerText n).toList ++ ['}']) (Expr.integerFailure n) := by
    refine fails_statement hblank ?_
    rw [keyword?_integerText]
    exact hscan.bind _
  obtain ⟨p, t, hrun⟩ := ((fails_siblings_statement hstatement).bind _) (.start name)
  exact ⟨p, read_eq_error.mpr ⟨t, hrun⟩⟩

/-- The lines of the evaluation of an integer are not too deep. -/
theorem short_integer (n : Int) (level : Nat) (env : Environment) :
    Short ((Expr.literal (.integer n) []).evaluate level env.lookup).lines := by
  intro line hline
  have hlines : ((Expr.literal (.integer n) []).evaluate level env.lookup).lines =
      [] ++ ([] ++ ((Traced.note level Expr.traceLevel fun _ =>
        ⟨"eval " ++ (Expr.literal (.integer n) []).text ++ " -> " ++ (Value.integer n).text,
          2⟩).lines ++ [])) := rfl
  rw [hlines, List.nil_append, List.nil_append, List.append_nil, Traced.note] at hline
  split at hline
  · rw [List.mem_singleton.mp hline]
    exact of_decide_eq_true rfl
  · cases hline

theorem writes_integer (n : Int) (level : Nat) (env : Environment) :
    Template.writes ⟨[.insert (.literal (.integer n) [])]⟩ level env =
      ⟨(Value.integer n).text, none⟩ := by
  have hdepth : Template.outlineDepth ⟨[.insert (.literal (.integer n) [])]⟩ = 2 := rfl
  have hvalue : ((Expr.literal (.integer n) []).evaluate level env.lookup).result =
      .ok (.integer n) := by
    rw [Expr.evaluate, Expr.evaluationLimit, Expr.result_evaluateTo]
    rfl
  have heval : ∃ trace, evaluate level (.literal (.integer n) []) ⟨env, .unlimited, []⟩ =
      .ok (.integer n) ⟨env, .unlimited, trace⟩ := by
    have h := perform_of_short (short_integer n level env) ⟨env, .unlimited, []⟩
    rw [hvalue] at h
    exact ⟨_, h⟩
  obtain ⟨trace, heval⟩ := heval
  have hrender := (bind_of_ok (g := writeValue) heval).trans
    (write_of_free (s := ⟨env, .unlimited, trace⟩) ⟨[], rfl⟩ (Value.integer n).text)
  rw [writes_eq_writtenBy env fun h => absurd h.2 (by rw [hdepth]; decide), Node.writtenBy,
    Node.renderAll_cons, Node.render, bind_of_ok hrender]
  change Written.mk (String.join [(Value.integer n).text]) none = _
  rw [String.join_cons, String.join_nil, String.append_empty]

end Template

/-! ### All readers -/

namespace Numeral

/-- The text is read as an integer by whatever reads integers. -/
structure ReadBack (text : String) (n : Int) : Prop where
  number : ∀ p, number.run (.ofTextAt p text.toList) =
    .ok (.integer n) (.ofTextAt (p.after text.toList) [])
  digits : readInteger text.toList = .ok (some n)
  conversion : (Value.string text).convert? .integer = .ok (some (.integer n))
  expression : Expr.ofText text.toList = .ok (.literal (.integer n) [])
  description : ∀ env : Environment,
    env.loadText (Description.numberStatement text.toList) = (env.push "x" (.integer n), none)
  template : ∀ name, ∃ t, Template.ofText name ('{' :: (text.toList ++ ['}'])) = .ok t ∧
    ∀ level env, t.writes level env = ⟨text, none⟩

/-- The text is a number that is out of range, or no number, to whatever reads integers. -/
structure OutOfRange (text : String) : Prop where
  number : ∀ p, ∃ q t, number.run (.ofTextAt p text.toList) =
    .error (.located (.numberOutOfRange text.toList) q) t
  digits : readInteger text.toList = .ok none
  expression : ∃ p, Expr.ofText text.toList = .error (.located (.numberOutOfRange text.toList) p)
  description : ∀ env : Environment, ∃ p,
    env.loadText (Description.numberStatement text.toList) =
      (env, some (.located (.numberOutOfRange text.toList) p))
  template : ∀ name, ∃ p, Template.ofText name ('{' :: (text.toList ++ ['}'])) =
    .error (.located (.numberOutOfRange text.toList) p)

/-- The text has so many digits that whatever reads integers ends by a fault. -/
structure Unread (text : String) (count : Nat) : Prop where
  number : ∀ p, ∃ t, number.run (.ofTextAt p text.toList) =
    .error (.fault (.tooManyDigits count)) t
  digits : readInteger text.toList = .error (.tooManyDigits count)
  expression : Expr.ofText text.toList = .error (.fault (.tooManyDigits count))
  description : ∀ env : Environment, env.loadText (Description.numberStatement text.toList) =
    (env, some (.fault (.inDescription (.tooManyDigits count))))
  template : ∀ name, Template.ofText name ('{' :: (text.toList ++ ['}'])) =
    .error (.fault (.tooManyDigits count))

/-- The text of an integer of 64 bits is read back. -/
theorem readBack_integerText {n : Int} (hn : inRange n = true) : ReadBack (integerText n) n := by
  have hdigits := readInteger_integerText n
  rw [if_neg (by simp [Expr.overlong_decimal hn]), if_pos hn] at hdigits
  refine ⟨fun p => ?_, hdigits, ?_, Expr.ofText_integerText hn,
    fun env => env.loadText_numberStatement hn,
    fun name => ⟨_, Template.ofText_integerText name hn, fun level env => ?_⟩⟩
  · have h := Expr.reads_number_integerText hn Expr.apart_nil p
    rwa [List.append_nil] at h
  · change (readInteger (integerText n).toList >>= fun m => pure (m.map Value.integer)) = _
    rw [hdigits]
    rfl
  · rw [Template.writes_integer, Value.text]

/-- The text of another integer, if it has no more digits than are read, is out of range. -/
theorem outOfRange_integerText {n : Int} (hn : inRange n = false)
    (hshort : ¬overlong 10 (decimal n.natAbs) = true) : OutOfRange (integerText n) := by
  have hdigits := readInteger_integerText n
  rw [if_neg hshort, if_neg (by simp [hn])] at hdigits
  have hfailure : Expr.integerFailure n =
      Failure.located (.numberOutOfRange (integerText n).toList) := by
    funext p
    exact if_neg hshort
  have hdescribed : Description.integerFailure n =
      Failure.located (.numberOutOfRange (integerText n).toList) := by
    funext p
    exact if_neg hshort
  refine ⟨fun p => ?_, hdigits, hfailure ▸ Expr.ofText_integerText_outOfRange hn,
    fun env => hdescribed ▸ env.loadText_numberStatement_outOfRange hn,
    fun name => hfailure ▸ Template.ofText_integerText_outOfRange name hn⟩
  have h := Expr.run_number_integerText hn Expr.apart_nil p
  rw [List.append_nil, hfailure] at h
  exact ⟨_, _, h⟩

/-- The text of an integer of more digits than are read is a fault. -/
theorem unread_integerText {n : Int} (hlong : overlong 10 (decimal n.natAbs) = true) :
    Unread (integerText n) (decimal n.natAbs).length := by
  -- An integer of 64 bits has too few digits for that.
  have hn : inRange n = false := by
    by_contra h
    rw [Expr.overlong_decimal (by simpa using h)] at hlong
    cases hlong
  have hdigits := readInteger_integerText n
  rw [if_pos hlong] at hdigits
  have hfailure : ∀ p, Expr.integerFailure n p = .fault (.tooManyDigits _) := fun p => if_pos hlong
  have hdescribed : ∀ p, Description.integerFailure n p =
      .fault (.inDescription (.tooManyDigits _)) := fun p => if_pos hlong
  refine ⟨fun p => ?_, hdigits, ?_, fun env => ?_, fun name => ?_⟩
  · have h := Expr.run_number_integerText hn Expr.apart_nil p
    rw [List.append_nil, hfailure] at h
    exact ⟨_, h⟩
  · obtain ⟨p, h⟩ := Expr.ofText_integerText_outOfRange hn
    rw [h, hfailure]
  · obtain ⟨p, h⟩ := env.loadText_numberStatement_outOfRange hn
    rw [h, hdescribed]
  · obtain ⟨p, h⟩ := Template.ofText_integerText_outOfRange name hn
    rw [h, hfailure]

/-- **Whatever reads integers reads back what is shown of them**, which is also what they convert to
as strings.  Of integers that are not of 64 bits, the text is out of range, as long as it has no
more digits than are read. -/
theorem integer_readBack (n : Int) :
    (Value.integer n).convert? .string = .ok (some (.string (Value.integer n).text)) ∧
      (leastInt ≤ n ∧ n ≤ greatestInt → ReadBack (Value.integer n).text n) ∧
      (n < leastInt ∨ greatestInt < n → (decimal n.natAbs).length ≤ digitLimit →
        OutOfRange (Value.integer n).text) ∧
      (digitLimit < (decimal n.natAbs).length →
        Unread (Value.integer n).text (decimal n.natAbs).length) := by
  have htext : (Value.integer n).text = integerText n := by rw [Value.text]
  rw [htext]
  refine ⟨by rw [← htext]; rfl, fun hn => ?_, fun hn hshort => ?_, fun hlong => ?_⟩
  · exact readBack_integerText (by simpa [inRange] using hn)
  · refine outOfRange_integerText ?_ (by simpa [overlong] using hshort)
    rw [inRange]
    rcases hn with hn | hn <;> simp [hn]
  · exact unread_integerText (by simpa [overlong] using hlong)

/-- The least integer of 64 bits is read back, and the first behind the greatest is out of range. -/
theorem integer_readBack_bounds :
    ReadBack "-9223372036854775808" (-9223372036854775808) ∧ OutOfRange "9223372036854775808" := by
  have hleast : (Value.integer (-9223372036854775808)).text = "-9223372036854775808" := by
    with_unfolding_all rfl
  have hbehind : (Value.integer 9223372036854775808).text = "9223372036854775808" := by
    with_unfolding_all rfl
  have hshort : (decimal (9223372036854775808 : Int).natAbs).length ≤ digitLimit :=
    (length_decimal_le (k := 18) (by decide)).trans (by decide)
  exact ⟨hleast ▸ (integer_readBack _).2.1 (by decide),
    hbehind ▸ (integer_readBack _).2.2.1 (by decide) hshort⟩

end Numeral

end Stencil
