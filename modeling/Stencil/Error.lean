import Stencil.Position
import Stencil.Value.Conversion
import Stencil.Value.Plain

/-!
# Error

The errors of the engine.  An error is a cause, and where the cause lies in a text, the place.
The kind, the code and the words of a cause are each given in one function, so that a reader of a
report can tell causes apart by code and a writer of the engine never writes words.
-/

namespace Stencil

/-- The families of errors: input and output, malformed texts, evaluation, numbers without
representation. -/
inductive ErrorKind where
  | io
  | malformed
  | evaluation
  | range
deriving DecidableEq, Repr

/-- The statements of templates that a closing brace ends. -/
inductive Keyword where
  | ifWord
  | forWord
  | elseWord
  | endWord
deriving DecidableEq, Repr

/-- The word of a statement. -/
def Keyword.text : Keyword → String
  | .ifWord => "if"
  | .forWord => "for"
  | .elseWord => "else"
  | .endWord => "end"

/-- What a failure consists in. -/
inductive Cause where
  | openFailed (path reason : String)
  | openForWritingFailed (path reason : String)
  | standardOutputFailed (reason : String)
  | readFailed (reason : String)
  | writeFailed (name reason : String)
  | flushFailed (name reason : String)
  | missingDelimiter
  | endInString
  | missingMantissa
  | numberOutOfRange (digits : List Char)
  | trailingGarbage (c : Char)
  | missingFirstOperand
  | missingOperand
  | missingParenthesis
  | missingBracket
  | gluedNumber
  | expressionTooDeep (limit : Nat)
  | strayBrace
  | badStatementEnd (found : Option Char) (statement : Option Keyword)
  | unclosedIf
  | unclosedFor
  | unmatchedElse
  | unmatchedEnd
  | missingIterator
  | missingIn
  | blocksTooDeep (limit : Nat)
  | missingEquals
  | missingSemicolon
  | missingComma
  | missingSymbol
  | missingValue
  | badNumber (token : List Char)
  | arrayTooDeep
  | evaluationTooDeep
  | lineTooDeep
  | symbolNotFound (name : String)
  | notIterable (v : Value)
  | notIndexable (v : Value)
  | badIndex (v : Value)
  | indexOutOfRange (v : Value) (index : Int)
  | invalidOperands (operation : String) (a b : Value)
  | unsuitedOperands (a b : Kind)
  | multipliedArray
  | multipliedByNonNumber
  | multipliedByNonInteger (count : Value)
  | incomparable (a b : Value)
  | divisionByZero
  | moduloByZero
  | resultOutOfRange (operation : String) (a b : Value)
  | repeatedTooOften (length : Nat) (times : Int)
  | unknownOperator (symbol : String)
  | notAFilter (v : Value)
  | undecodable (v : Value) (reason : String)
  | badFilterResult (name : String) (obstacle : Plain.Obstacle)

namespace Cause

/-- The family of a cause. -/
def kind : Cause → ErrorKind
  | .openFailed .. | .openForWritingFailed .. | .standardOutputFailed .. | .readFailed ..
  | .writeFailed .. | .flushFailed .. => .io
  | .missingDelimiter | .endInString | .missingMantissa | .trailingGarbage _
  | .missingFirstOperand | .missingOperand | .missingParenthesis | .missingBracket | .gluedNumber
  | .expressionTooDeep _ | .strayBrace | .badStatementEnd .. | .unclosedIf | .unclosedFor
  | .unmatchedElse | .unmatchedEnd | .missingIterator | .missingIn | .blocksTooDeep _
  | .missingEquals | .missingSemicolon | .missingComma | .missingSymbol | .missingValue
  | .badNumber _ | .arrayTooDeep => .malformed
  | .numberOutOfRange _ | .resultOutOfRange .. | .repeatedTooOften .. => .range
  | .evaluationTooDeep | .lineTooDeep | .symbolNotFound _ | .notIterable _ | .notIndexable _
  | .badIndex _ | .indexOutOfRange .. | .invalidOperands .. | .unsuitedOperands ..
  | .multipliedArray | .multipliedByNonNumber | .multipliedByNonInteger _ | .incomparable ..
  | .divisionByZero | .moduloByZero | .unknownOperator _ | .notAFilter _ | .undecodable ..
  | .badFilterResult .. => .evaluation

/-- The stable code of a cause. -/
def code : Cause → String
  | .openFailed .. | .openForWritingFailed .. | .standardOutputFailed .. => "open-failed"
  | .readFailed .. => "read-failed"
  | .writeFailed .. | .flushFailed .. => "write-failed"
  | .missingDelimiter => "missing-delimiter"
  | .endInString => "eof-in-string"
  | .missingMantissa => "missing-mantissa"
  | .numberOutOfRange _ | .resultOutOfRange .. | .repeatedTooOften .. => "out-of-range"
  | .trailingGarbage _ => "trailing-garbage"
  | .missingFirstOperand | .missingOperand => "missing-operand"
  | .missingParenthesis => "missing-parenthesis"
  | .missingBracket => "missing-bracket"
  | .gluedNumber | .badNumber _ => "invalid-number"
  | .expressionTooDeep _ | .blocksTooDeep _ | .arrayTooDeep | .evaluationTooDeep
  | .lineTooDeep => "nesting-too-deep"
  | .strayBrace | .badStatementEnd .. => "unexpected-character"
  | .unclosedIf | .unclosedFor => "unclosed-block"
  | .unmatchedElse => "unmatched-else"
  | .unmatchedEnd => "unmatched-end"
  | .missingIterator => "missing-iterator"
  | .missingIn => "missing-keyword"
  | .missingEquals | .missingSemicolon | .missingComma => "missing-separator"
  | .missingSymbol => "missing-symbol"
  | .missingValue => "invalid-value"
  | .symbolNotFound _ => "symbol-not-found"
  | .notIterable _ => "not-iterable"
  | .notIndexable _ => "not-indexable"
  | .badIndex _ => "invalid-index"
  | .indexOutOfRange .. => "index-out-of-range"
  | .invalidOperands .. | .unsuitedOperands .. | .multipliedArray | .multipliedByNonNumber
  | .multipliedByNonInteger _ | .incomparable .. => "invalid-operands"
  | .divisionByZero | .moduloByZero => "division-by-zero"
  | .unknownOperator _ => "unknown-operator"
  | .notAFilter _ => "not-a-filter"
  | .undecodable .. => "filter-failed"
  | .badFilterResult .. => "invalid-filter-result"

/-- A text between single quotes, as messages name things. -/
def name (text : String) : String :=
  "'" ++ text ++ "'"

/-- A value with its kind, as messages about operands name it. -/
def operand (v : Value) : String :=
  v.kind.name ++ " " ++ name v.text

/-- What was found where a statement should end. -/
def found : Option Char → String
  | none => "EOF"
  | some c => name (String.singleton c)

/-- The words of a cause. -/
def message : Cause → String
  | .openFailed path reason => "Failed to open " ++ name path ++ ": " ++ reason
  | .openForWritingFailed path reason =>
    "Failed to open " ++ name path ++ " for writing: " ++ reason
  | .standardOutputFailed reason => "Failed to open standard output: " ++ reason
  | .readFailed reason => "Failed to read from stream: " ++ reason
  | .writeFailed sink reason => "Failed to write to " ++ sink ++ ": " ++ reason
  | .flushFailed sink reason => "Failed to flush " ++ sink ++ ": " ++ reason
  | .missingDelimiter => "Missing string delimiter"
  | .endInString => "Unexpected EOF inside string constant"
  | .missingMantissa => "Missing mantissa in numeric constant"
  | .numberOutOfRange digits => "Value " ++ name (String.ofList digits) ++ " is out of range"
  | .trailingGarbage c => "Unexpected character " ++ found (some c) ++ " after expression"
  | .missingFirstOperand => "No valid operand at start of expression"
  | .missingOperand => "Missing operand"
  | .missingParenthesis => "Missing closing parenthesis"
  | .missingBracket => "Missing closing bracket"
  | .gluedNumber => "Invalid numeric constant"
  | .expressionTooDeep limit =>
    "Expression nested deeper than " ++ Numeral.integerText limit ++ " levels"
  | .strayBrace => "Unexpected character '\x7d' inside data block"
  | .badStatementEnd c none => "Unexpected character " ++ found c ++ " before end of statement"
  | .badStatementEnd c (some keyword) =>
    "Unexpected character " ++ found c ++ " before end of " ++ name keyword.text ++ " statement"
  | .unclosedIf => "Unclosed 'if/else' block"
  | .unclosedFor => "Unclosed 'for' block"
  | .unmatchedElse => "Unmatching 'else' statement (needs an 'if' before)"
  | .unmatchedEnd => "Unmatching 'end' statement (needs an 'if' or 'for' before)"
  | .missingIterator => "No iterator identifier for 'for' statement"
  | .missingIn => "Missing 'in' keyword after iterator name of 'for' statement"
  | .blocksTooDeep limit => "Blocks nested deeper than " ++ Numeral.integerText limit ++ " levels"
  | .missingEquals => "Missing '=' separator"
  | .missingSemicolon => "Missing ';' separator"
  | .missingComma => "Missing ',' separator between array values"
  | .missingSymbol => "Missing symbol"
  | .missingValue => "No valid value can be read"
  | .badNumber token => "Invalid numeric constant " ++ name (String.ofList token)
  | .arrayTooDeep => "Array nested too deeply"
  | .evaluationTooDeep | .lineTooDeep =>
    "Expression or template nested too deeply to evaluate"
  | .symbolNotFound symbol => "Symbol " ++ name symbol ++ " not found in the environment"
  | .notIterable v => "Cannot iterate over value " ++ name v.text
  | .notIndexable v => "Value " ++ name v.text ++ " cannot be indexed"
  | .badIndex v => "Cannot convert index of value " ++ name v.text ++ " to integer"
  | .indexOutOfRange v index =>
    "Cannot index value " ++ name v.text ++ " at " ++ Numeral.integerText index
  | .invalidOperands operation a b =>
    "Invalid operands for operator " ++ name operation ++ ": " ++ operand a ++ " and " ++ operand b
  | .unsuitedOperands a b => "Operator '+' cannot be used with " ++ a.name ++ " and " ++ b.name
  | .multipliedArray => "Cannot multiply arrays"
  | .multipliedByNonNumber => "Cannot multiply a string by something not a number"
  | .multipliedByNonInteger count =>
    "Cannot multiply a string by non-integer value " ++ name count.text
  | .incomparable a b => "Cannot compare " ++ operand a ++ " with " ++ operand b
  | .divisionByZero => "Division by zero"
  | .moduloByZero => "Division by zero through modulo"
  | .resultOutOfRange operation a b =>
    "Result of " ++ name (a.text ++ " " ++ operation ++ " " ++ b.text) ++
      " does not fit an Integer"
  | .repeatedTooOften length times =>
    "Cannot repeat a string of length " ++ Numeral.integerText length ++ " " ++
      Numeral.integerText times ++ " times"
  | .unknownOperator symbol => "Unknown operator " ++ name symbol
  | .notAFilter v => "Value " ++ name v.text ++ " is not a filter"
  | .undecodable v reason => "base64decode: invalid input " ++ name v.text ++ ": " ++ reason
  | .badFilterResult filter obstacle =>
    "Filter " ++ name filter ++ " returned an invalid value: " ++ obstacle.message

end Cause

/-- An error: a cause, and the place it was found at, if it lies in a text. -/
structure Error where
  cause : Cause
  position : Option Position

/-- The full message of an error: its place, if any, and the words of its cause. -/
def Error.message (e : Error) : String :=
  match e.position with
  | some p => p.text ++ ": " ++ e.cause.message
  | none => e.cause.message

/-- A failure: an error that the engine reports, or a fault outside its errors. -/
inductive Failure where
  | error (e : Error)
  | fault (f : Fault)

/-- The failure by a cause that lies in no text. -/
def Failure.of (cause : Cause) : Failure :=
  .error ⟨cause, none⟩

/-- The failure by a cause at a place. -/
def Failure.located (cause : Cause) (position : Position) : Failure :=
  .error ⟨cause, some position⟩

end Stencil
