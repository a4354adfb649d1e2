import DrawScript.Data.Literal
import DrawScript.Module.Section

/-!
Declarations of data: a type, a name, an equals sign and a value. The parts are checked in the order
number of words, equals sign, name, type, value, and the first that is wrong makes the error. All of
them are reported at the start of the line.
-/

namespace DrawScript.Declaration

def isName : List Char → Bool
  | [] => false
  | c :: cs => (c.isAlpha || c == '_') && cs.all fun d => d.isAlphanum || d == '_'

def inQuotes (cs : List Char) : String := "'" ++ String.ofList cs ++ "'"

def operandType (typeWord name : List Char) (span : Span) : Except CompileError OperandType :=
  let (base, isList) := dropListMark (String.ofList typeWord)
  match TypeName.ofText? base with
  | some (.concrete t) => .ok (if isList then .list t else .singlet t)
  | some (.template _) =>
    .error (.templateMisuse (String.ofList typeWord) (String.ofList name) span)
  | none => .error (.expected "a data type (num, vec2, vec3)" (inQuotes typeWord) span)

def variableOf (type : OperandType) (name text : List Char) (span : Span) :
    Except CompileError Variable :=
  match type with
  | .singlet t => (Literal.value text t span).map (.singlet (String.ofList name))
  | .list t => (Literal.list text t span).map (.list (String.ofList name) t)

def parse (line : Line) : Except CompileError Variable :=
  match Text.words line.text with
  | typeWord :: name :: mark :: value₁ :: values =>
    if mark ≠ ['='] then .error (.expected "'='" (inQuotes mark) line.span)
    else if !isName name then .error (.expected "a variable name" (inQuotes name) line.span)
    else do
      let type ← operandType typeWord name line.span
      variableOf type name (value₁ ++ values.flatten) line.span
  | _ => .error (.incompleteDeclaration (String.ofList line.text) line.span)

end DrawScript.Declaration
