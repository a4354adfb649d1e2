import DrawScript.Span

/-!
The tree of a script. A script is a list of statements; functions hold blocks, and blocks hold
statements again. Every expression and statement carries the position it is reported at: that of
its operator, of its opening symbol, or of the name it declares.
-/

namespace DrawScript

inductive BaseType where
  | float
  | int
  | vec2
  | vec3
  | any
  deriving DecidableEq, Repr

namespace BaseType

def all : List BaseType := [.float, .int, .vec2, .vec3, .any]

def text : BaseType → String
  | .float => "float"
  | .int => "int"
  | .vec2 => "vec2"
  | .vec3 => "vec3"
  | .any => "any"

def ofText? (word : String) : Option BaseType := all.find? fun t => t.text == word.toLower

/-- Whether the type stands for any other type. -/
def isTemplate : BaseType → Bool
  | .any => true
  | _ => false

end BaseType

structure TypeSpec where
  base : BaseType
  isList : Bool
  deriving DecidableEq, Repr

def TypeSpec.text (t : TypeSpec) : String := if t.isList then t.base.text ++ "[]" else t.base.text

structure Param where
  type : TypeSpec
  name : String
  span : Span
  deriving DecidableEq, Repr

inductive DrawCommand where
  | triangle
  | polygon
  deriving DecidableEq, Repr

namespace DrawCommand

def all : List DrawCommand := [.triangle, .polygon]

def text : DrawCommand → String
  | .triangle => "triangle"
  | .polygon => "polygon"

def ofText? (word : String) : Option DrawCommand := all.find? fun c => c.text == word.toLower

end DrawCommand

inductive BinaryOp where
  | or
  | xor
  | lt
  | gt
  | ne
  | add
  | sub
  | mul
  | div
  | mod
  deriving DecidableEq, Repr

def BinaryOp.symbol : BinaryOp → String
  | .or => "|"
  | .xor => "^"
  | .lt => "<"
  | .gt => ">"
  | .ne => "!"
  | .add => "+"
  | .sub => "-"
  | .mul => "*"
  | .div => "/"
  | .mod => "%"

inductive UnaryOp where
  | neg
  | not
  deriving DecidableEq, Repr

def UnaryOp.symbol : UnaryOp → String
  | .neg => "-"
  | .not => "!"

mutual

inductive Expr where
  | assign (target value : Expr) (span : Span)
  | binary (op : BinaryOp) (left right : Expr) (span : Span)
  | unary (op : UnaryOp) (operand : Expr) (span : Span)
  | call (name : String) (arguments : List Expr) (span : Span)
  | name (text : String) (isNumber : Bool) (span : Span)
  | member (object : Expr) (property : String) (span : Span)
  | index (object subscript : Expr) (span : Span)
  | vector (elements : List Expr) (span : Span)
  | list (elements : List Expr) (span : Span)
  | range (first last : Expr) (span : Span)
  | loop (iterators : List Iterator) (body : Block) (span : Span)
  | cases (branches : List Branch) (span : Span)

inductive Iterator where
  | mk (name : String) (range : Expr)

inductive Branch where
  | tested (test result : Expr)
  | otherwise (result : Expr)

inductive Block where
  | mk (statements : List Statement) (span : Span)

inductive Statement where
  | function (returns : TypeSpec) (name : String) (params : List Param) (body : Block)
      (span : Span)
  | binding (type : TypeSpec) (name : String) (value : Option Expr) (span : Span)
  | uniform (type : TypeSpec) (name : String) (value : Option Expr) (span : Span)
  | directive (name value : String) (span : Span)
  | draw (command : DrawCommand) (arguments : List Expr) (span : Span)
  | ret (value : Expr) (span : Span)
  | expression (value : Expr) (span : Span)

end

namespace Expr

def span : Expr → Span
  | .assign _ _ span
  | .binary _ _ _ span
  | .unary _ _ span
  | .call _ _ span
  | .name _ _ span
  | .member _ _ span
  | .index _ _ span
  | .vector _ span
  | .list _ span
  | .range _ _ span
  | .loop _ _ span
  | .cases _ span => span

def identifier? : Expr → Option String
  | .name text false _ => some text
  | _ => none

def operator? : Expr → Option BinaryOp
  | .binary op _ _ _ => some op
  | _ => none

end Expr

namespace Branch

def isDefault : Branch → Bool
  | .tested .. => false
  | .otherwise _ => true

end Branch

namespace Statement

def span : Statement → Span
  | .function _ _ _ _ span
  | .binding _ _ _ span
  | .uniform _ _ _ span
  | .directive _ _ span
  | .draw _ _ span
  | .ret _ span
  | .expression _ span => span

def type? : Statement → Option TypeSpec
  | .function returns _ _ _ _ => some returns
  | .binding type _ _ _ => some type
  | .uniform type _ _ _ => some type
  | _ => none

def initializer? : Statement → Option Expr
  | .binding _ _ value _ => value
  | .uniform _ _ value _ => value
  | _ => none

end Statement

structure Script where
  body : List Statement

end DrawScript
