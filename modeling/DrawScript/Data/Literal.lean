import DrawScript.Data.Value
import DrawScript.Error

/-!
Literals of data. Blanks do not count anywhere in a literal. A number is a numeral with a finite
value, a vector is a tuple of numbers in parentheses, and a list holds numbers or tuples between
brackets. A list of tuples is divided at the text `),(` between two of them.
-/

namespace DrawScript.Literal

open Text

def between? (opening closing : Char) : List Char → Option (List Char)
  | [] => none
  | c :: cs => if c = opening ∧ cs.getLast? = some closing then some cs.dropLast else none

def number? (cs : List Char) : Option Binary64 := Binary64.parse? (compact cs)

def number (text : List Char) (span : Span) : Except CompileError Binary64 :=
  match number? text with
  | some x => .ok x
  | none => .error (.invalidLiteral (String.ofList text) "num" span)

def tuple? (cs : List Char) : Option (List Binary64) :=
  (between? '(' ')' cs).bind fun inner => (splitOn (· == ',') inner).mapM number?

def vectorOf? : ElementType → List Binary64 → Option Value
  | .vec2, [x, y] => some (.vec2 x y)
  | .vec3, [x, y, z] => some (.vec3 x y z)
  | _, _ => none

def vector? (cs : List Char) (type : ElementType) : Option Value :=
  (tuple? (compact cs)).bind (vectorOf? type)

def vector (text : List Char) (type : ElementType) (span : Span) : Except CompileError Value :=
  match vector? text type with
  | some v => .ok v
  | none => .error (.invalidLiteral (String.ofList text) type.text span)

def value (text : List Char) (type : ElementType) (span : Span) : Except CompileError Value :=
  match type with
  | .num => (number text span).map .num
  | .vec2 | .vec3 => vector text type span

def splitTuples : List Char → List (List Char)
  | [] => [[]]
  | ')' :: ',' :: '(' :: cs => [] :: splitTuples cs
  | c :: cs =>
    match splitTuples cs with
    | [] => [[c]]
    | run :: runs => (c :: run) :: runs

def dropOpening : List Char → List Char
  | '(' :: cs => cs
  | cs => cs

def dropClosing (cs : List Char) : List Char :=
  if cs.getLast? = some ')' then cs.dropLast else cs

def tuples (inner : List Char) : List (List Char) :=
  (splitTuples (dropClosing (dropOpening inner))).map fun run => '(' :: run ++ [')']

def elements (type : ElementType) (inner : List Char) : List (List Char) :=
  if inner.isEmpty then []
  else match type with
    | .num => splitOn (· == ',') inner
    | .vec2 | .vec3 => tuples inner

/-- A list of values of the given type. The first element that is wrong makes the error. -/
def list (text : List Char) (type : ElementType) (span : Span) : Except CompileError (List Value) :=
  match between? '[' ']' (compact text) with
  | none => .error (.invalidLiteral (String.ofList text) (type.text ++ "[]") span)
  | some inner => (elements type inner).mapM fun piece => value piece type span

end DrawScript.Literal
