import DrawScript.Span

/-!
Compile errors. Each cause is one constructor; `message` is the only place that words them for a
reader. The errors about instructions have no position.
-/

namespace DrawScript

inductive CompileError where
  | unrepresentable (message : String) (span : Span)
  | expected (wanted found : String) (span : Span)
  | unexpected (found message : String) (span : Span)
  | sectionOrder (message : String) (span : Span)
  | incompleteDeclaration (text : String) (span : Span)
  | invalidLiteral (literal type : String) (span : Span)
  | redeclaration (name : String) (span : Span)
  | templateMisuse (typeName name : String) (span : Span)
  | unknownInstruction (name : String)
  | typeMismatch (instruction : String) (operands : List String)
  | broadcast (instruction message : String)
  deriving DecidableEq, Repr

namespace CompileError

def tag : CompileError → String
  | .unrepresentable .. => "Lex"
  | .expected .. => "Syntax"
  | .unexpected .. => "UnexpectedToken"
  | .sectionOrder .. => "SectionOrder"
  | .incompleteDeclaration .. => "IncompleteDeclaration"
  | .invalidLiteral .. => "InvalidLiteral"
  | .redeclaration .. => "Redeclaration"
  | .templateMisuse .. => "TemplateMisuse"
  | .unknownInstruction .. => "UnknownInstruction"
  | .typeMismatch .. => "TypeMismatch"
  | .broadcast .. => "Broadcast"

def span? : CompileError → Option Span
  | .unrepresentable _ span
  | .expected _ _ span
  | .unexpected _ _ span
  | .sectionOrder _ span
  | .incompleteDeclaration _ span
  | .invalidLiteral _ _ span
  | .redeclaration _ span
  | .templateMisuse _ _ span => some span
  | .unknownInstruction _
  | .typeMismatch _ _
  | .broadcast _ _ => none

def message : CompileError → String
  | .unrepresentable message span => s!"unrepresentable input at {span.text}: {message}"
  | .expected wanted found span =>
    s!"syntax error at {span.text}: expected {wanted}, found {found}"
  | .unexpected found message span => s!"unexpected {found} at {span.text}: {message}"
  | .sectionOrder message span => s!"section order error at {span.text}: {message}"
  | .incompleteDeclaration text span => s!"incomplete declaration at {span.text}: '{text}'"
  | .invalidLiteral literal type span => s!"invalid {type} literal '{literal}' at {span.text}"
  | .redeclaration name span => s!"redeclaration of '{name}' at {span.text}"
  | .templateMisuse typeName name span =>
    s!"template type '{typeName}' cannot declare the concrete value '{name}' at {span.text}"
  | .unknownInstruction name => s!"unknown instruction '{name}'"
  | .typeMismatch instruction operands =>
    let types := ", ".intercalate operands
    s!"type mismatch: '{instruction}' has no signature taking ({types})"
  | .broadcast instruction message => s!"broadcast error in '{instruction}': {message}"

end CompileError

end DrawScript
