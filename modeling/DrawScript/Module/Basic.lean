import DrawScript.Data.Table
import DrawScript.Module.Declaration

/-!
Modules: declared data and the lines of two sections that are kept for later. A module's text is read
line by line; the first error ends the reading.
-/

namespace DrawScript

structure KeptLine where
  number : Nat
  text : String
  deriving DecidableEq, Repr

structure Module where
  dumpData : Bool
  data : Table
  functions : List KeptLine
  program : List KeptLine

namespace Module

def empty : Module := ⟨false, Table.empty, [], []⟩

structure State where
  current : Section
  directiveSeen : Bool
  module : Module

namespace State

def start : State := ⟨.start, false, Module.empty⟩

def enter (s : State) (cs : List Char) (span : Span) : Except CompileError State :=
  let name := headerName cs
  match s.current.next? with
  | none =>
    .error (.sectionOrder ("unexpected section '@" ++ name ++ "' after '@program'") span)
  | some next =>
    if name = next.header then .ok { s with current := next }
    else
      .error (.sectionOrder
        ("unknown section '@" ++ name ++ "', expected '@" ++ next.header ++ "'") span)

/-- Reads a line of the part before the first section: one directive line at most. -/
def direct (s : State) (line : Line) : Except CompileError State :=
  if line.text.head? = some '#' ∧ s.directiveSeen = false then
    .ok { s with
      directiveSeen := true
      module := { s.module with dumpData := asksForDump line.text } }
  else
    .error (.sectionOrder
      ("'" ++ String.ofList line.text ++ "' before any section, must begin with '@data'") line.span)

def declare (s : State) (line : Line) : Except CompileError State := do
  let v ← Declaration.parse line
  let data ← s.module.data.declare v line.span
  return { s with module := { s.module with data := data } }

def keep (line : Line) : KeptLine := ⟨line.span.line, String.ofList line.text⟩

def step (s : State) (line : Line) : Except CompileError State :=
  match line.text with
  | '@' :: cs => s.enter cs line.span
  | _ =>
    match s.current with
    | .start => s.direct line
    | .data => s.declare line
    | .functions =>
      .ok { s with module := { s.module with functions := s.module.functions ++ [keep line] } }
    | .program =>
      .ok { s with module := { s.module with program := s.module.program ++ [keep line] } }

/-- Reads lines up to the first error; gives the state before it and the error. -/
def run (s : State) : List Line → State × Option CompileError
  | [] => (s, none)
  | line :: lines =>
    match s.step line with
    | .ok s' => s'.run lines
    | .error e => (s, some e)

end State

def read (source : String) : State × Option CompileError := State.start.run (Line.ofSource source)

def outcome (r : State × Option CompileError) : Except CompileError Module :=
  match r.2 with
  | some e => .error e
  | none => .ok r.1.module

def compile (source : String) : Except CompileError Module := outcome (read source)

end Module

end DrawScript
