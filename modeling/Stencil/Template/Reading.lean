import Stencil.Expr.Reading
import Stencil.Template.Basic

/-!
# Template — Reading

The reader of templates.  Text outside braces is data, in which a backslash makes a brace or a
backslash stand for itself; braces enclose the statements.  The siblings inside a block are read
up to the statement that ends them or the end of the text (`Closing`), and it is for the block to
say whether it may end so.  Blocks nest up to a limit, so the reader is defined by recursion on
the levels that are left.
-/

namespace Stencil.Template

open Scanner Text

/-- How deep blocks nest. -/
def blockLimit : Nat := 64

/-- What ends a list of siblings: the end of the text, or the statement `else` or `end`. -/
inductive Closing where
  | endOfText
  | elseStatement
  | endStatement
deriving DecidableEq, Repr

/-- Where a list of siblings stands: outside all blocks, in the first branch of an `if`, in its
second branch, or in the body of a `for`. -/
inductive Context where
  | outermost
  | firstBranch
  | secondBranch
  | loopBody
deriving DecidableEq, Repr

/-- The statement that a word starts. -/
def keyword? (word : List Char) : Option Keyword :=
  [Keyword.ifWord, .forWord, .elseWord, .endWord].find? (fun k => k.text.toList == word)

/-- How much of a word decides whether it is a keyword: one character more than the longest of
them has. -/
def keywordWindow : Nat := 5

/-- Data as far as they are read: their characters, latest first, whether a backslash stands just
before the next character, and whether a closing brace has been met, which ends them. -/
structure DataState where
  taken : List Char
  escaped : Bool
  stray : Bool

namespace DataState

/-- Data of which nothing is read. -/
def empty : DataState := ⟨[], false, false⟩

/-- A backslash makes this character stand for itself. -/
def isSpecial (c : Char) : Bool :=
  c == '{' || c == '}' || c == '\\'

/-- The next character of data.  Before a character that stands for itself anyway, a backslash is
kept. -/
def move (s : DataState) (c : Char) (_ : List Char) : Scanner.Move DataState :=
  if s.escaped then
    let kept := if isSpecial c then s.taken else '\\' :: s.taken
    .step 0 { s with taken := c :: kept, escaped := false }
  else if c = '{' then .stop
  else if c = '}' then .last 0 { s with stray := true }
  else if c = '\\' then .step 0 { s with escaped := true }
  else .step 0 { s with taken := c :: s.taken }

/-- The first character of data.  An opening brace, if it is the first, starts a statement. -/
def first (c : Char) : Scanner.Move DataState :=
  move empty c []

/-- The characters of data.  A backslash at the end is kept. -/
def chars (s : DataState) : List Char :=
  (if s.escaped then '\\' :: s.taken else s.taken).reverse

end DataState

/-- The first character of a sibling, and, unless it opens a statement, the data it starts. -/
def opening : Scanner (Option (Option DataState)) :=
  next 0 fun c _ =>
    match DataState.first c with
    | .stop => some (0, none)
    | .last _ s => some (0, some s)
    | .step _ s => some (0, some s)

theorem consumes_opening : Consumes opening :=
  consumes_next _ _

/-- Reads the rest of data. -/
def dataRest (started : DataState) : Scanner Node := do
  let s ← if started.stray then pure started else fold 0 DataState.move started
  if s.stray then fail .strayBrace else return .data (String.ofList s.chars)

/-- Reads the closing brace of a statement behind blanks. -/
def endOfStatement (statement : Option Keyword) : Scanner Unit := do
  let _ ← skipBlank
  let c ← anyChar
  if c = some '}' then return () else fail (.badStatementEnd c statement)

/-- The readers of siblings one level further in, unless no more blocks may nest. -/
abbrev Inner := Option (Context → Scanner (List Node × Closing))

/-- The readers of the siblings in a block that starts here. -/
def enter (inner : Inner) : Scanner (Context → Scanner (List Node × Closing)) :=
  match inner with
  | some readers => return readers
  | none => fail (.blocksTooDeep blockLimit)

/-- Reads an `if` block behind its keyword. -/
def ifBlock (inner : Inner) : Scanner Node := do
  let condition ← Expr.scanner
  endOfStatement (some .ifWord)
  let reader ← enter inner
  let (holds, closing) ← reader .firstBranch
  match closing with
  | .endStatement => return .choose condition holds []
  | .endOfText => fail .unclosedIf
  | .elseStatement =>
    let (fails, closing) ← reader .secondBranch
    if closing = .endStatement then return .choose condition holds fails else fail .unclosedIf

/-- Reads a `for` block behind its keyword. -/
def forBlock (inner : Inner) : Scanner Node := do
  let _ ← skipBlank
  let name ← word isSymbol none
  if name.isEmpty then fail .missingIterator
  else
    let _ ← skipBlank
    if (← word isSymbol none) = "in".toList then
      let items ← Expr.scanner
      endOfStatement (some .forWord)
      let reader ← enter inner
      let (body, closing) ← reader .loopBody
      if closing = .endStatement then return .loop (String.ofList name) items body
      else fail .unclosedFor
    else fail .missingIn

/-- Reads a statement behind its opening brace: a sibling, or the end of the siblings. -/
def statement (inner : Inner) (context : Context) : Scanner (Node ⊕ Closing) := do
  let _ ← skipBlank
  match keyword? (← peekWord isSymbol (some keywordWindow)) with
  | some .ifWord =>
    let _ ← take Keyword.ifWord.text.length
    return .inl (← ifBlock inner)
  | some .forWord =>
    let _ ← take Keyword.forWord.text.length
    return .inl (← forBlock inner)
  | some .elseWord =>
    let _ ← take Keyword.elseWord.text.length
    endOfStatement (some .elseWord)
    if context = .firstBranch then return .inr .elseStatement else fail .unmatchedElse
  | some .endWord =>
    let _ ← take Keyword.endWord.text.length
    endOfStatement (some .endWord)
    if context = .outermost then fail .unmatchedEnd else return .inr .endStatement
  | none =>
    let e ← Expr.scanner
    endOfStatement none
    return .inl (.insert e)

/-- Reads the siblings of a block, and what ends them. -/
def siblings (inner : Inner) (context : Context) : Scanner (List Node × Closing) :=
  gather opening consumes_opening (fun started =>
    match started with
    | none => statement inner context
    | some s => do return .inl (← dataRest s)) .endOfText

/-- Reads siblings inside of which blocks nest by `levels`. -/
def nested : Nat → Context → Scanner (List Node × Closing)
  | 0 => siblings none
  | levels + 1 => siblings (some (nested levels))

/-- Reads a template, which takes up all the rest.  An empty text is a template of empty data. -/
def scanner : Scanner Template := do
  let (body, _) ← nested blockLimit .outermost
  return ⟨if body.isEmpty then [.data ""] else body⟩

/-- The template that a text stands for. -/
def ofText (name : String) (text : List Char) : Except Failure Template :=
  scanner.read (.ofText name text)

end Stencil.Template
