import Stencil.Proofs.Expr.Chunks

/-!
# Stream — Requests

Everything that can be asked of a stream, and sessions in which one thing is asked after another,
also after a failure.  A text that arrives in chunks answers a whole session as if it arrived in one
piece, with the same failures at the same places (`session_chunks`).  What is only looked at is not
consumed (`Request.still`), and what is fetched as a whole is consumed as a whole or not at all
(`Request.wholly`).
-/

namespace Stencil

open Scanner

/-- The value or the failure that reading comes to. -/
def Outcome.result {α : Type} : Outcome α → Except Failure α
  | .ok a _ => .ok a
  | .error f _ => .error f

/-- Two readings come to the same value or the same failure, at the same place, with the same
characters left. -/
structure Outcome.Agrees {α : Type} (o o' : Outcome α) : Prop where
  result : o.result = o'.result
  position : o.rest.position = o'.rest.position
  unread : o.rest.unread = o'.rest.unread

/-- What can be asked of a stream. -/
inductive Request where
  | peek (n : Nat)
  | read (n : Nat)
  | skip (n : Nat)
  | peekChar
  | readChar
  | atEnd
  | skipBlank
  | peekWord (accepted : Char → Bool) (limit : Option Nat)
  | readWord (accepted : Char → Bool) (limit : Option Nat)
  | peekSymbol (limit : Option Nat)
  | readSymbol (limit : Option Nat)
  | stringLiteral
  | number
  | expr (whole : Bool)

/-- What a stream answers. -/
inductive Answer where
  | chars (cs : List Char)
  | char (c : Option Char)
  | count (n : Nat)
  | flag (b : Bool)
  | string (s : String)
  | value (v : Value)
  | expr (e : Expr)

namespace Request

/-- The reader that answers a request. -/
def scanner : Request → Scanner Answer
  | .peek n => do return .chars (← Scanner.peek n)
  | .read n => do return .chars (← take n)
  | .skip n => do return .count (← take n).length
  | .peekChar => do return .char (← Scanner.peekChar)
  | .readChar => do return .char (← anyChar)
  | .atEnd => do return .flag (← Scanner.atEnd)
  | .skipBlank => do return .count (← Scanner.skipBlank)
  | .peekWord accepted limit => do return .chars (← Scanner.peekWord accepted limit)
  | .readWord accepted limit => do return .chars (← word accepted limit)
  | .peekSymbol limit => do return .chars (← Scanner.peekWord Text.isSymbol limit)
  | .readSymbol limit => do return .chars (← word Text.isSymbol limit)
  | .stringLiteral => do return .string (← Scanner.stringLiteral)
  | .number => do return .value (← Scanner.number)
  | .expr true => do return .expr (← Expr.wholeScanner)
  | .expr false => do return .expr (← Expr.scanner)

/-- Nothing but a look at what comes next is asked for. -/
def looks : Request → Bool
  | .peek _ | .peekChar | .atEnd | .peekWord _ _ | .peekSymbol _ => true
  | _ => false

/-- Characters are asked for that are looked at as a whole before any of them is consumed. -/
def fetches : Request → Bool
  | .read _ | .skip _ | .readChar | .readWord _ _ | .readSymbol _ => true
  | r => r.looks

/-- What the stream answers to some requests, one after another, and where it is after each. -/
def session : List Request → Stream → List (Outcome Answer)
  | [], _ => []
  | r :: rs, s =>
    let o := r.scanner.run s
    o :: session rs o.rest

/-! ### Chunks do not show -/

theorem seamless : ∀ r : Request, Seamless r.scanner
  | .peek n => (seamless_peek n).map _
  | .read n => (seamless_take n).map _
  | .skip n => (seamless_take n).map fun cs => Answer.count cs.length
  | .peekChar => seamless_peekChar.map _
  | .readChar => seamless_anyChar.map _
  | .atEnd => seamless_atEnd.map _
  | .skipBlank => seamless_skipBlank.map _
  | .peekWord _ _ => seamless_peekWord.map _
  | .readWord _ _ => seamless_word.map _
  | .peekSymbol _ => seamless_peekWord.map _
  | .readSymbol _ => seamless_word.map _
  | .stringLiteral => Expr.seamless_stringLiteral.map _
  | .number => Expr.seamless_number.map _
  | .expr true => Expr.seamless_wholeScanner.map _
  | .expr false => Expr.seamless_scanner.map _

/-- A session is the same on two streams that differ in nothing but in how much has arrived. -/
theorem session_same (rs : List Request) {s t : Stream} (h : s.Same t) :
    List.Forall₂ Outcome.Agrees (session rs s) (session rs t) := by
  induction rs generalizing s t with
  | nil => exact .nil
  | cons r rs ih =>
      have hend := r.seamless s t h
      simp only [session]
      generalize r.scanner.run s = o at hend ⊢
      generalize r.scanner.run t = o' at hend ⊢
      cases hend with
      | ok hs ht =>
          have hrest := h.same hs ht
          exact .cons ⟨rfl, hrest.position.symm, hrest.unread⟩ (ih hrest)
      | error hs ht =>
          have hrest := h.same hs ht
          exact .cons ⟨rfl, hrest.position.symm, hrest.unread⟩ (ih hrest)

/-- Each request of a session consumes characters from the front of what is left. -/
theorem reaches_of_mem_session {rs : List Request} {s : Stream} {o : Outcome Answer}
    (h : o ∈ session rs s) : ∃ w, s.Reaches w o.rest := by
  induction rs generalizing s with
  | nil => cases h
  | cons r rs ih =>
      have hr : ∃ w, s.Reaches w (r.scanner.run s).rest := by
        have hend := r.seamless s s (.refl s)
        generalize r.scanner.run s = o at hend ⊢
        cases hend with
        | ok hs _ => exact ⟨_, hs⟩
        | error hs _ => exact ⟨_, hs⟩
      rcases List.mem_cons.mp h with rfl | h
      · exact hr
      · obtain ⟨w, hw⟩ := hr
        obtain ⟨v, hv⟩ := ih h
        exact ⟨w ++ v, hw.trans hv⟩

/-! ### What is not consumed -/

theorem still : ∀ r : Request, r.looks = true → Still r.scanner
  | .peek n, _ => (still_peek n).map _
  | .peekChar, _ => still_peekChar.map _
  | .atEnd, _ => still_atEnd.map _
  | .peekWord accepted limit, _ => (still_peekWord accepted limit).map _
  | .peekSymbol limit, _ => (still_peekWord Text.isSymbol limit).map _

theorem wholly : ∀ r : Request, r.fetches = true → Wholly r.scanner
  | .read n, _ => (wholly_take n).map _
  | .skip n, _ => (wholly_take n).map fun cs => Answer.count cs.length
  | .readChar, _ => wholly_anyChar.map _
  | .readWord accepted limit, _ => (wholly_word accepted limit).map _
  | .readSymbol limit, _ => (wholly_word Text.isSymbol limit).map _
  | .peek n, h => (still (.peek n) h).wholly
  | .peekChar, h => (still .peekChar h).wholly
  | .atEnd, h => (still .atEnd h).wholly
  | .peekWord accepted limit, h => (still (.peekWord accepted limit) h).wholly
  | .peekSymbol limit, h => (still (.peekSymbol limit) h).wholly

end Request

namespace Stream

/-- A text that arrives in one piece.  A piece without characters would be the end of it. -/
def ofOneChunk (name : String) (text : List Char) (failure : Option String) : Stream :=
  ofChunks name (if text.isEmpty then [] else [text]) failure

/-- No chunk without characters: all of them arrive. -/
theorem ofChunks_eq (name : String) {chunks : List (List Char)} (failure : Option String)
    (h : ∀ c ∈ chunks, c ≠ []) :
    ofChunks name chunks failure = ⟨.start name, [], chunks, failure⟩ := by
  have hnone : chunks.any List.isEmpty = false := by
    rw [List.any_eq_false]
    intro c hc
    simpa using h c hc
  have hall : chunks.takeWhile (fun c => !c.isEmpty) = chunks := by
    rw [List.takeWhile_eq_self_iff]
    intro c hc
    simpa using h c hc
  rw [ofChunks, hall, hnone]
  rfl

/-- In chunks or in one piece, the same text arrives. -/
theorem same_ofOneChunk (name : String) {chunks : List (List Char)} (failure : Option String)
    (h : ∀ c ∈ chunks, c ≠ []) :
    (ofChunks name chunks failure).Same (ofOneChunk name chunks.flatten failure) := by
  have hone : ∀ text : List Char, ∀ c ∈ if text.isEmpty then [] else [text], c ≠ [] := by
    intro text c hc
    cases text with
    | nil => cases hc
    | cons d ds =>
        obtain rfl : c = d :: ds := by simpa using hc
        simp
  rw [ofChunks_eq name failure h, ofOneChunk, ofChunks_eq name failure (hone _)]
  refine ⟨?_, rfl, rfl⟩
  cases htext : chunks.flatten with
  | nil => exact htext
  | cons d ds => simp [unread, htext]

end Stream

/-- **Where a text is cut into chunks does not show.**  Whatever is asked of a stream, one request
after another, the answers, the failures, the places and the rests of the text are those of the text
in one piece, also if the source breaks off behind it.  After each request, what has been consumed
and what is left are the text, and the place is told by what has been consumed.  A request that only
looks consumes nothing, and one that fetches characters consumes nothing when it fails. -/
theorem session_chunks (name : String) {chunks : List (List Char)} (failure : Option String)
    (requests : List Request) (h : ∀ c ∈ chunks, c ≠ []) :
    List.Forall₂ Outcome.Agrees
      (Request.session requests (.ofChunks name chunks failure))
      (Request.session requests (.ofOneChunk name chunks.flatten failure)) ∧
    (∀ o ∈ Request.session requests (.ofChunks name chunks failure), ∃ consumed,
      consumed ++ o.rest.unread = chunks.flatten ∧
      o.rest.position.offset = consumed.length ∧
      o.rest.position.line = 1 + consumed.count '\n' ∧
      o.rest.position.column = (consumed.reverse.takeWhile (· != '\n')).length) ∧
    (∀ (r : Request) (s : Stream), r.looks = true →
      (r.scanner.run s).rest.position = s.position ∧ (r.scanner.run s).rest.unread = s.unread) ∧
    (∀ (r : Request) (s t : Stream) (f : Failure), r.fetches = true →
      r.scanner.run s = .error f t → t.position = s.position ∧ t.unread = s.unread) := by
  refine ⟨Request.session_same requests (Stream.same_ofOneChunk name failure h), ?_, ?_, ?_⟩
  · intro o ho
    obtain ⟨w, hw⟩ := Request.reaches_of_mem_session ho
    have hposition : o.rest.position = (Position.start name).after w := hw.position
    rw [Position.after_start] at hposition
    refine ⟨w, ?_, ?_⟩
    · rw [← hw.unread, Stream.ofChunks_eq name failure h]
      rfl
    · rw [hposition]
      exact ⟨rfl, rfl, rfl⟩
  · intro r s hr
    have hs := r.still hr s
    exact ⟨hs.position, hs.unread.symm⟩
  · intro r s t f hr hrun
    have hs := r.wholly hr s hrun
    exact ⟨hs.position, hs.unread.symm⟩

/-- A session in which a number, an operator, an escape, a name and an expression lie across the
ends of chunks, and the source breaks off in the expression. -/
theorem session_chunks_across_ends :
    let chunks := ["1", "2 <", "= \"a\\", "\"\"\n(na", "me[0", "])"].map String.toList
    let text := "12 <= \"a\\\"\"\n(name[0])".toList
    let requests : List Request :=
      [.number, .skipBlank, .peek 2, .read 2, .skipBlank, .stringLiteral, .expr false,
        .peekWord Text.isSymbol (some 5), .skip 3, .atEnd]
    (∀ c ∈ chunks, c ≠ []) ∧
      (Request.session requests (.ofChunks "t" chunks (some "gone"))).map
        (fun o => o.rest.position.offset) = [2, 3, 3, 5, 6, 11, 19, 19, 19, 19] ∧
      List.Forall₂ Outcome.Agrees
        (Request.session requests (.ofChunks "t" chunks (some "gone")))
        (Request.session requests (.ofOneChunk "t" text (some "gone"))) := by
  refine ⟨by decide, by with_unfolding_all rfl, ?_⟩
  exact (session_chunks "t" (some "gone") _ (by decide)).1

end Stencil
