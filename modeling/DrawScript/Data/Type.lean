import DrawScript.Text.Blank

/-!
Types of data. Numbers and vectors of two or three components are the concrete types; the templates
`any` and `vecn` stand for several of them and cannot type a value. An operand is one value or a list
of values of a concrete type. Type names are read in letters of either case.
-/

namespace DrawScript

inductive ElementType where
  | num
  | vec2
  | vec3
  deriving DecidableEq, Repr

namespace ElementType

def all : List ElementType := [.num, .vec2, .vec3]

def text : ElementType → String
  | .num => "num"
  | .vec2 => "vec2"
  | .vec3 => "vec3"

def width : ElementType → Nat
  | .num => 1
  | .vec2 => 2
  | .vec3 => 3

def ofText? (s : String) : Option ElementType := all.find? fun t => t.text == s

theorem ofText?_text (t : ElementType) : ofText? t.text = some t := by
  cases t <;> decide

end ElementType

inductive Template where
  | any
  | vecn
  deriving DecidableEq, Repr

namespace Template

def all : List Template := [.any, .vecn]

def text : Template → String
  | .any => "any"
  | .vecn => "vecn"

end Template

/-- A type name, before it is known whether it may stand where it was written. -/
inductive TypeName where
  | concrete (type : ElementType)
  | template (template : Template)
  deriving DecidableEq, Repr

namespace TypeName

def text : TypeName → String
  | .concrete t => t.text
  | .template t => t.text

def isTemplate : TypeName → Bool
  | .concrete _ => false
  | .template _ => true

def all : List TypeName := ElementType.all.map .concrete ++ Template.all.map .template

def ofText? (word : String) : Option TypeName := all.find? fun t => t.text == word.toLower

end TypeName

def dropListMark (word : String) : String × Bool :=
  match word.toList.reverse with
  | ']' :: '[' :: rest => (String.ofList rest.reverse, true)
  | _ => (word, false)

inductive OperandType where
  | singlet (type : ElementType)
  | list (type : ElementType)
  deriving DecidableEq, Repr

namespace OperandType

def element : OperandType → ElementType
  | .singlet t => t
  | .list t => t

def isList : OperandType → Bool
  | .singlet _ => false
  | .list _ => true

def text : OperandType → String
  | .singlet t => t.text
  | .list t => t.text ++ "[]"

def ofText? (word : String) : Option OperandType :=
  match TypeName.ofText? (dropListMark word).1 with
  | some (.concrete t) => some (if (dropListMark word).2 then .list t else .singlet t)
  | _ => none

end OperandType

end DrawScript
