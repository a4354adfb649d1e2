import DrawScript.Datum
import DrawScript.Instruction.Registry

/-!
Schemas: registries as they are stored. A schema is a row of signatures in any order. It makes a
registry if the names differ, every instruction has an interaction, and no instruction lists the same
operand types twice; otherwise the first instruction at fault is reported. What text a schema is kept
as is left to a format.

Schemas are read from trees of data. A record is a table of its fields, of which unknown ones are
ignored, or a list of its fields in their order.
-/

namespace DrawScript

inductive SchemaError where
  | malformed
  | unwritable
  | noInteractions (name : String)
  | duplicateInteraction (instruction inputs : String)
  | duplicateInstruction (name : String)
  deriving DecidableEq, Repr

namespace SchemaError

def tag : SchemaError → String
  | .malformed => "Parse"
  | .unwritable => "Serialize"
  | .noInteractions _ => "NoInteractions"
  | .duplicateInteraction _ _ => "DuplicateInteraction"
  | .duplicateInstruction _ => "DuplicateInstruction"

def message : SchemaError → String
  | .malformed => "invalid schema"
  | .unwritable => "failed to write schema"
  | .noInteractions name => s!"instruction '{name}' has no type interactions"
  | .duplicateInteraction instruction inputs =>
    s!"instruction '{instruction}' lists the input tuple ({inputs}) more than once"
  | .duplicateInstruction name => s!"instruction '{name}' is declared more than once"

end SchemaError

structure Schema where
  instructions : List Signature
  deriving DecidableEq, Repr

namespace Schema

def repeatedInputs? (seen : List (List ElementType)) : List Interaction → Option (List ElementType)
  | [] => none
  | i :: is => if seen.contains i.inputs then some i.inputs else repeatedInputs? (i.inputs :: seen) is

def fault? (sig : Signature) : Option SchemaError :=
  if sig.interactions.isEmpty then some (.noInteractions sig.name)
  else (repeatedInputs? [] sig.interactions).map fun inputs =>
    .duplicateInteraction sig.name (", ".intercalate (inputs.map ElementType.text))

def firstFault? (seen : List String) : List Signature → Option SchemaError
  | [] => none
  | sig :: sigs =>
    if seen.contains sig.name then some (.duplicateInstruction sig.name)
    else match fault? sig with
      | some e => some e
      | none => firstFault? (sig.name :: seen) sigs

def toRegistry (s : Schema) : Except SchemaError Registry :=
  match firstFault? [] s.instructions with
  | some e => .error e
  | none => .ok (Registry.ofList s.instructions)

def ofRegistry (r : Registry) : Schema := ⟨r.signatures⟩

def accept : Option Schema → Except SchemaError Registry
  | some s => s.toRegistry
  | none => .error .malformed

structure Dialect where
  /-- Whether a list that stands for a record may go on after its last field. -/
  allowsSurplus : Bool
  /-- Whether a datum can stand for nothing, beside the name of a choice. -/
  isNothing : Datum → Bool

namespace Dialect

def json : Dialect where
  allowsSurplus := false
  isNothing := fun
    | .null => true
    | _ => false

def toml : Dialect where
  allowsSurplus := true
  isNothing := fun
    | .list [] => true
    | .table [] => true
    | _ => false

def fields? (dialect : Dialect) (names : List String) : Datum → Option (List (Option Datum))
  | .table entries => some (names.map fun name => Datum.entry? name entries)
  | .list items =>
    if items.length ≤ names.length || dialect.allowsSurplus then
      some ((List.range names.length).map fun i => items[i]?)
    else none
  | _ => none

/-- The name of a choice: a text, or the key of a table that holds nothing else. -/
def choice? (dialect : Dialect) : Datum → Option String
  | .text name => some name
  | .table [(name, payload)] => if dialect.isNothing payload then some name else none
  | _ => none

end Dialect

def text? : Datum → Option String
  | .text s => some s
  | _ => none

def list? {α : Type} (f : Datum → Option α) : Datum → Option (List α)
  | .list items => items.mapM f
  | _ => none

def elementType? (dialect : Dialect) (d : Datum) : Option ElementType :=
  (dialect.choice? d).bind ElementType.ofText?

def returns? (dialect : Dialect) : Option Datum → Option (Option ElementType)
  | none => some none
  | some .null => some none
  | some d => (elementType? dialect d).map some

def interaction? (dialect : Dialect) (d : Datum) : Option Interaction := do
  match ← dialect.fields? ["inputs", "returns"] d with
  | [some inputs, returns] =>
    return ⟨← list? (elementType? dialect) inputs, ← returns? dialect returns⟩
  | _ => none

def signature? (dialect : Dialect) (d : Datum) : Option Signature := do
  match ← dialect.fields? ["name", "broadcast", "interactions"] d with
  | [some name, some broadcast, some interactions] =>
    return ⟨← text? name, ← (dialect.choice? broadcast).bind Broadcast.ofText?,
      ← list? (interaction? dialect) interactions⟩
  | _ => none

def ofDatum? (dialect : Dialect) (d : Datum) : Option Schema := do
  match ← dialect.fields? ["instruction"] d with
  | [some instructions] => return ⟨← list? (signature? dialect) instructions⟩
  | [none] => return ⟨[]⟩
  | _ => none

def load (dialect : Dialect) (d : Datum) : Except SchemaError Registry := accept (ofDatum? dialect d)

end Schema

structure TextFormat where
  read? : String → Option Schema
  write? : Schema → Option String

namespace Registry

def ofText (format : TextFormat) (text : String) : Except SchemaError Registry :=
  Schema.accept (format.read? text)

def textIn (format : TextFormat) (r : Registry) : Except SchemaError String :=
  match format.write? (Schema.ofRegistry r) with
  | some text => .ok text
  | none => .error .unwritable

end Registry

def Interaction.datum (i : Interaction) : Datum :=
  let inputs := ("inputs", Datum.list (i.inputs.map fun t => .text t.text))
  match i.returns with
  | some t => .table [inputs, ("returns", .text t.text)]
  | none => .table [inputs]

def Signature.datum (sig : Signature) : Datum :=
  .table [("name", .text sig.name), ("broadcast", .text sig.broadcast.text),
    ("interactions", .list (sig.interactions.map Interaction.datum))]

def Schema.datum (s : Schema) : Datum :=
  .table [("instruction", .list (s.instructions.map Signature.datum))]

end DrawScript
