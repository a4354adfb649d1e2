import DrawScript.Command.Run

/-!
The command line: reads what a command asks for, logs to the standard error output, writes and prints
what the command results in.
-/

namespace DrawScript.Main

def usage : String :=
  "Usage: drawscript [--simd] [--relaxed-simd] [-v]... <COMMAND>\n\n" ++
  "Commands:\n" ++
  "  compile <FILE> [-o <OUT>] [--stdout]\n" ++
  "  data <FILE> [-o <OUT>] [--stdout] [--dump-data]\n" ++
  "  resolve <NAME> [TYPES]... [--schema <SCHEMA>]\n" ++
  "  instructions [--schema <SCHEMA>] [--format <toml|json>]"

def readSource : Source → IO (Option String)
  | .nothing => return some ""
  | .input => do
    try
      return some (← (← IO.getStdin).readToEnd)
    catch _ => return none
  | .file path => do
    try
      return some (← IO.FS.readFile path)
    catch _ => return none

def save : Option (String × String) → IO Bool
  | none => return true
  | some (path, text) => do
    try
      IO.FS.writeFile path text
      return true
    catch _ => return false

def fail (failure : Failure) : IO UInt32 := do
  IO.eprintln ("Error: " ++ failure.report)
  return 1

def run (i : Invocation) : IO UInt32 := do
  let begun ← IO.monoMsNow
  match ← readSource i.command.source with
  | none => fail .file
  | some text =>
    let result := i.command.respond text
    let now ← IO.monoMsNow
    for e in i.events text do
      IO.eprintln (e.text ⟨toString now, toString (now - begun)⟩)
    match result with
    | .error failure => fail failure
    | .ok output =>
      if ← save output.saved then
        IO.print output.text
        return 0
      else fail .file

end DrawScript.Main

def main (arguments : List String) : IO UInt32 := do
  match DrawScript.Invocation.ofArguments? arguments with
  | none =>
    IO.eprintln DrawScript.Main.usage
    return 2
  | some i => DrawScript.Main.run i
