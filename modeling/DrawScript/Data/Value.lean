import DrawScript.Data.Type
import DrawScript.Datum

/-!
Values and the variables that hold them. The text of a value is the literal that reads back as the
same value.
-/

namespace DrawScript

inductive Value where
  | num (x : Binary64)
  | vec2 (x y : Binary64)
  | vec3 (x y z : Binary64)
  deriving DecidableEq, Repr

namespace Value

def type : Value → ElementType
  | .num _ => .num
  | .vec2 _ _ => .vec2
  | .vec3 _ _ _ => .vec3

def components : Value → List Binary64
  | .num x => [x]
  | .vec2 x y => [x, y]
  | .vec3 x y z => [x, y, z]

theorem length_components (v : Value) : v.components.length = v.type.width := by
  cases v <;> rfl

def ofComponents? : List Binary64 → Option Value
  | [x] => some (.num x)
  | [x, y] => some (.vec2 x y)
  | [x, y, z] => some (.vec3 x y z)
  | _ => none

theorem ofComponents?_components (v : Value) : ofComponents? v.components = some v := by
  cases v <;> rfl

def text : Value → String
  | .num x => x.text
  | .vec2 x y => "(" ++ x.text ++ "," ++ y.text ++ ")"
  | .vec3 x y z => "(" ++ x.text ++ "," ++ y.text ++ "," ++ z.text ++ ")"

def datum : Value → Datum
  | .num x => .real x
  | .vec2 x y => .list [.real x, .real y]
  | .vec3 x y z => .list [.real x, .real y, .real z]

def listText (vs : List Value) : String := "[" ++ ",".intercalate (vs.map text) ++ "]"

end Value

inductive Variable where
  | singlet (name : String) (value : Value)
  | list (name : String) (element : ElementType) (values : List Value)
  deriving DecidableEq, Repr

namespace Variable

def name : Variable → String
  | .singlet name _ => name
  | .list name _ _ => name

def operandType : Variable → OperandType
  | .singlet _ value => .singlet value.type
  | .list _ element _ => .list element

def valueText : Variable → String
  | .singlet _ value => value.text
  | .list _ _ values => Value.listText values

def text (v : Variable) : String := v.operandType.text ++ " " ++ v.name ++ " = " ++ v.valueText

end Variable

end DrawScript
