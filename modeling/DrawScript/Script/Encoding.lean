import DrawScript.Datum
import DrawScript.Script.Tree

/-!
The tree of a script as a tree of data. Statements and expressions are tables that name their form
under `type` first and give their position under `span` last; absent parts are null.
-/

namespace DrawScript

def Span.datum (s : Span) : Datum :=
  .table [("line", .ofNat s.line), ("column", .ofNat s.column)]

def TypeSpec.datum (t : TypeSpec) : Datum :=
  .table [("base", .text t.base.text), ("is_list", .flag t.isList)]

def Param.datum (p : Param) : Datum :=
  .table [("ty", p.type.datum), ("name", .text p.name), ("span", p.span.datum)]

def Datum.form (type : String) (parts : List (String × Datum)) (span : Span) : Datum :=
  .table (("type", .text type) :: (parts ++ [("span", span.datum)]))

mutual

def Expr.datum : Expr → Datum
  | .assign target value span =>
    .form "Assignment" [("target", target.datum), ("value", value.datum)] span
  | .binary op left right span =>
    .form "Binary" [("op", .text op.symbol), ("left", left.datum), ("right", right.datum)] span
  | .unary op operand span =>
    .form "Unary" [("op", .text op.symbol), ("operand", operand.datum)] span
  | .call name arguments span =>
    .form "FunctionCall" [("name", .text name), ("arguments", .list (exprData arguments))] span
  | .name text isNumber span =>
    .form "Identifier" [("name", .text text), ("is_number", .flag isNumber)] span
  | .member object property span =>
    .form "MemberAccess" [("object", object.datum), ("property", .text property)] span
  | .index object subscript span =>
    .form "IndexAccess" [("object", object.datum), ("index", subscript.datum)] span
  | .vector elements span => .form "VectorLiteral" [("elements", .list (exprData elements))] span
  | .list elements span => .form "ListLiteral" [("elements", .list (exprData elements))] span
  | .range first last span =>
    .form "Range" [("start", first.datum), ("end", last.datum)] span
  | .loop iterators body span =>
    .form "For" [("iterators", .list (iteratorData iterators)), ("body", body.datum)] span
  | .cases branches span => .form "Piecewise" [("cases", .list (branchData branches))] span

def exprData : List Expr → List Datum
  | [] => []
  | e :: es => e.datum :: exprData es

def Iterator.datum : Iterator → Datum
  | .mk name range => .table [("variable", .text name), ("range", range.datum)]

def iteratorData : List Iterator → List Datum
  | [] => []
  | i :: is => i.datum :: iteratorData is

def Branch.datum : Branch → Datum
  | .tested test result => .table [("test", test.datum), ("consequent", result.datum)]
  | .otherwise result => .table [("test", .null), ("consequent", result.datum)]

def branchData : List Branch → List Datum
  | [] => []
  | b :: bs => b.datum :: branchData bs

def Block.datum : Block → Datum
  | .mk statements span =>
    .table [("statements", .list (statementData statements)), ("span", span.datum)]

def Statement.datum : Statement → Datum
  | .function returns name params body span =>
    .form "FunctionDeclaration"
      [("return_type", returns.datum), ("name", .text name),
       ("params", .list (params.map Param.datum)), ("body", body.datum)] span
  | .binding type name value span =>
    .form "VariableDeclaration"
      [("ty", type.datum), ("name", .text name), ("value", optionDatum value)] span
  | .uniform type name value span =>
    .form "UniformDeclaration"
      [("ty", type.datum), ("name", .text name), ("value", optionDatum value)] span
  | .directive name value span =>
    .form "FormattingDirective" [("name", .text name), ("value", .text value)] span
  | .draw command arguments span =>
    .form "DrawCall"
      [("command", .text command.text), ("arguments", .list (exprData arguments))] span
  | .ret value span => .form "ReturnStatement" [("value", value.datum)] span
  | .expression value span => .form "ExpressionStatement" [("expression", value.datum)] span

def statementData : List Statement → List Datum
  | [] => []
  | s :: ss => s.datum :: statementData ss

def optionDatum : Option Expr → Datum
  | none => .null
  | some e => e.datum

end

def Script.datum (s : Script) : Datum := .table [("body", .list (statementData s.body))]

end DrawScript
