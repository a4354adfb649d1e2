import DrawScript.Command.Arguments
import DrawScript.Command.Disk
import DrawScript.Command.Report
import DrawScript.Datum
import DrawScript.Instruction.Builtin
import DrawScript.Log
import DrawScript.Script.Encoding
import DrawScript.Toml.Writer

/-!
What the commands do. A command reads one text at most, from a file or from the standard input, and
results in a failure or in something to print, after a file is written if there is one to write.
-/

namespace DrawScript

inductive Source where
  | nothing
  | input
  | file (path : String)
  deriving DecidableEq, Repr

structure Output where
  text : String
  saved : Option (String × String)
  deriving DecidableEq, Repr

namespace Destination

def pathFor (dest : Destination) (file : String) : String :=
  match dest.path with
  | some path => path
  | none => if file = "-" then "output.json" else Path.withExtension file "json"

def deliver (dest : Destination) (file text : String) : Output :=
  if dest.toOutput then ⟨text ++ "\n", none⟩
  else ⟨"Wrote: " ++ dest.pathFor file ++ "\n", some (dest.pathFor file, text)⟩

end Destination

namespace Command

def sourceOfFile (file : String) : Source := if file = "-" then .input else .file file

def sourceOfSchema : Option String → Source
  | some path => .file path
  | none => .nothing

def source : Command → Source
  | .compile file _ => sourceOfFile file
  | .data file _ _ => sourceOfFile file
  | .resolve _ _ schema => sourceOfSchema schema
  | .instructions schema _ => sourceOfSchema schema

def registryOf (schema : Option String) (text : String) : Except Failure Registry :=
  match schema with
  | none => .ok Builtin.registry
  | some _ => (Registry.ofToml text).mapError .schema

def operandsOf : List String → Except Failure (List OperandType)
  | [] => .ok []
  | word :: words =>
    match OperandType.ofText? word with
    | none => .error (.operandType word)
    | some t => (operandsOf words).map (t :: ·)

def respond (command : Command) (text : String) : Except Failure Output :=
  match command with
  | .compile file dest => do
    let script ← (Script.parse text).mapError .compile
    return dest.deliver file (Json.pretty script.datum)
  | .data file dest _ => do
    let module ← (Module.compile text).mapError .compile
    return dest.deliver file (Json.pretty module.data.datum)
  | .resolve name types schema => do
    let registry ← registryOf schema text
    let operands ← operandsOf types
    match ← (registry.resolveOperands name operands).mapError .compile with
    | some t => return ⟨t.text ++ "\n", none⟩
    | none => return ⟨"none\n", none⟩
  | .instructions schema format => do
    let registry ← registryOf schema text
    match format with
    | .toml => return ⟨(← (registry.textIn Toml.format).mapError .schema) ++ "\n", none⟩
    | .json => return ⟨Json.pretty (Schema.ofRegistry registry).datum ++ "\n", none⟩

end Command

namespace Invocation

def capabilities? (i : Invocation) : Option Capabilities :=
  if i.simd || i.relaxedSimd then some ⟨i.simd, i.relaxedSimd⟩ else none

def events (i : Invocation) (text : String) : List Event :=
  match i.command with
  | .compile .. => ((Context.new ⟨false, i.capabilities?⟩).compileScript text).2.log
  | .data _ _ dumpData => ((Context.new ⟨dumpData, i.capabilities?⟩).compileModule text).2.log
  | .resolve .. | .instructions .. => []

end Invocation

end DrawScript
