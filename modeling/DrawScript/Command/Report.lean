import DrawScript.Error
import DrawScript.Instruction.Schema
import DrawScript.Text.Quoted

/-!
Failures of a command and the one-line reports of them: the kind of the failure with its fields by
name, texts in quotation marks.
-/

namespace DrawScript

namespace Report

def fields (name : String) (parts : List (String × String)) : String :=
  name ++ " \x7b " ++ ", ".intercalate (parts.map fun p => p.1 ++ ": " ++ p.2) ++ " \x7d"

def single (name part : String) : String := name ++ "(" ++ part ++ ")"

def list (parts : List String) : String := "[" ++ ", ".intercalate parts ++ "]"

end Report

open Report Text

def Span.report (s : Span) : String :=
  fields "Span" [("line", toString s.line), ("column", toString s.column)]

def CompileError.report (e : CompileError) : String :=
  match e with
  | .unrepresentable message span =>
    fields e.tag [("message", quoted message), ("span", span.report)]
  | .expected wanted found span =>
    fields e.tag [("expected", quoted wanted), ("found", quoted found), ("span", span.report)]
  | .unexpected found message span =>
    fields e.tag [("found", quoted found), ("message", quoted message), ("span", span.report)]
  | .sectionOrder message span =>
    fields e.tag [("message", quoted message), ("span", span.report)]
  | .incompleteDeclaration text span =>
    fields e.tag [("text", quoted text), ("span", span.report)]
  | .invalidLiteral literal type span =>
    fields e.tag [("literal", quoted literal), ("expected", quoted type), ("span", span.report)]
  | .redeclaration name span => fields e.tag [("name", quoted name), ("span", span.report)]
  | .templateMisuse typeName name span =>
    fields e.tag [("type_name", quoted typeName), ("name", quoted name), ("span", span.report)]
  | .unknownInstruction name => single e.tag (quoted name)
  | .typeMismatch instruction operands =>
    fields e.tag [("instruction", quoted instruction), ("operands", list (operands.map quoted))]
  | .broadcast instruction message =>
    fields e.tag [("instruction", quoted instruction), ("message", quoted message)]

def SchemaError.report (e : SchemaError) : String :=
  match e with
  | .malformed | .unwritable => e.tag
  | .noInteractions name => single e.tag (quoted name)
  | .duplicateInteraction instruction inputs =>
    fields e.tag [("instruction", quoted instruction), ("inputs", quoted inputs)]
  | .duplicateInstruction name => single e.tag (quoted name)

inductive Failure where
  | file
  | compile (error : CompileError)
  | schema (error : SchemaError)
  | operandType (word : String)
  deriving DecidableEq, Repr

def Failure.report : Failure → String
  | .file => "Io"
  | .compile e => e.report
  | .schema e => e.report
  | .operandType word => quoted ("unknown operand type '" ++ word ++ "'")

end DrawScript
