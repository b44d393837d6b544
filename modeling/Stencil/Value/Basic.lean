import Stencil.Numeral.General

/-!
# Value — Basic

The values of templates: integers, floating point numbers, strings, arrays of values, and filters.
An integer value may be any integer; that the engine itself only makes integers of 64 bits is a
property of its operations.  A filter is one of the stock filters, or one that the program around
the engine gives under a name, which answers whatever it sees of a value with a plain object.  Plain
objects are what values are made from by a program that fills an environment, and what it gets back.
-/

namespace Stencil

/-- The kinds of values. -/
inductive Kind where
  | integer
  | float
  | string
  | array
  | filter
deriving DecidableEq, Repr

/-- The name of a kind, as messages give it. -/
def Kind.name : Kind → String
  | .integer => "Integer"
  | .float => "Float"
  | .string => "String"
  | .array => "Array"
  | .filter => "Filter"

/-- The stock filters. -/
inductive StockFilter where
  | xmlentities
  | urlencode
  | base64encode
  | base64decode
  | upper
  | lower
  | length
deriving DecidableEq, Repr

namespace StockFilter

/-- The name of a stock filter, under which templates use it. -/
def name : StockFilter → String
  | .xmlentities => "xmlentities"
  | .urlencode => "urlencode"
  | .base64encode => "base64encode"
  | .base64decode => "base64decode"
  | .upper => "upper"
  | .lower => "lower"
  | .length => "length"

/-- All stock filters, in the order in which they enter an environment. -/
def all : List StockFilter :=
  [.xmlentities, .urlencode, .base64encode, .base64decode, .upper, .lower, .length]

/-- The stock filter of that name. -/
def ofName? (name : String) : Option StockFilter :=
  all.find? (fun f => f.name == name)

theorem mem_all (f : StockFilter) : f ∈ all := by
  cases f <;> decide

theorem ofName?_name (f : StockFilter) : ofName? f.name = some f := by
  cases f <;> decide

end StockFilter

/-- What a filter that is given sees of the value it is applied to: of a filter in it, the name. -/
inductive Argument where
  | integer (n : Int)
  | float (x : Binary64)
  | string (s : String)
  | array (items : List Argument)
  | filter (name : String)

mutual

/-- A value of a template. -/
inductive Value where
  | integer (n : Int)
  | float (x : Binary64)
  | string (s : String)
  | array (items : List Value)
  | filter (f : Filter)

/-- A filter, applied to a value by the operator `|`. -/
inductive Filter where
  | stock (f : StockFilter)
  | given (name : String) (answer : Argument → Plain)

/-- An object of the program around the engine.  A value among such objects stands for itself;
some objects have no value. -/
inductive Plain where
  | integer (n : Int)
  | boolean (b : Bool)
  | float (x : Binary64)
  | string (s : String)
  | list (items : List Plain)
  | tuple (items : List Plain)
  | value (v : Value)
  | filter (f : Filter)
  | unsupported (typeName : String)

end

instance : Inhabited Value := ⟨.integer 0⟩

/-- The name of a filter. -/
def Filter.name : Filter → String
  | .stock f => f.name
  | .given name _ => name

namespace Value

/-- The kind of a value. -/
def kind : Value → Kind
  | .integer _ => .integer
  | .float _ => .float
  | .string _ => .string
  | .array _ => .array
  | .filter _ => .filter

/-- What a filter that is given sees of a value. -/
def argument : Value → Argument
  | .integer n => .integer n
  | .float x => .float x
  | .string s => .string s
  | .array items => .array (arguments items)
  | .filter f => .filter f.name
where
  /-- What a filter sees of the items of an array. -/
  arguments : List Value → List Argument
    | [] => []
    | v :: vs => v.argument :: arguments vs

/-- The text of a value, which is what a template shows of it.  A string is its own text. -/
def text : Value → String
  | .integer n => Numeral.integerText n
  | .float x => x.text
  | .string s => s
  | .array items => "[" ++ ", ".intercalate (texts items) ++ "]"
  | .filter f => "<filter " ++ f.name ++ ">"
where
  /-- The texts of the items of an array. -/
  texts : List Value → List String
    | [] => []
    | v :: vs => v.text :: texts vs

/-- The depth of the recursion that makes the text of a value: three calls for an array. -/
def textDepth : Value → Nat
  | .array items => depths items + 3
  | _ => 1
where
  /-- The greatest depth of the recursions that make the texts of some values. -/
  depths : List Value → Nat
    | [] => 0
    | v :: vs => max v.textDepth (depths vs)

/-- A value that is a number of either kind. -/
def isNumber (v : Value) : Bool :=
  v.kind == .integer || v.kind == .float

/-- A condition holds for every value but zero, the empty string and the empty array. -/
def isTruthy : Value → Bool
  | .integer n => n != 0
  | .float x => !x.same (.zero false)
  | .string s => !s.isEmpty
  | .array items => !items.isEmpty
  | .filter _ => true

/-- The items of an array. -/
def items? : Value → Option (List Value)
  | .array items => some items
  | _ => none

/-- The item of a list at an index that may be any integer. -/
def itemAt? (items : List Value) (index : Int) : Option Value :=
  if index < 0 then none else items[index.toNat]?

/-- Two values of one kind with equal contents.  The two zeros are equal, not-a-number is equal to
nothing, and a filter is told by its name. -/
def agrees : Value → Value → Bool
  | .integer n, .integer m => n == m
  | .float x, .float y => x.beq y
  | .string s, .string t => s == t
  | .array vs, .array ws => agreeAll vs ws
  | .filter f, .filter g => f.name == g.name
  | _, _ => false
where
  /-- Two lists of equal length agree item by item. -/
  agreeAll : List Value → List Value → Bool
    | [], [] => true
    | v :: vs, w :: ws => v.agrees w && agreeAll vs ws
    | _, _ => false

@[simp] theorem texts_eq_map (vs : List Value) : text.texts vs = vs.map text := by
  induction vs with
  | nil => rfl
  | cons v vs ih => simp [text.texts, ih]

end Value

end Stencil
