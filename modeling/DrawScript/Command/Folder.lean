import DrawScript.Command.Run

/-!
Commands on a disk. A command reads a file, a device or the standard input; its outcome is an exit
code, what is printed, the files that are new or changed, and the report of a failure. A folder of
text files is the working directory of a disk that holds nothing else but the devices.
-/

namespace DrawScript

structure Outcome (α : Type) where
  exit : Nat
  printed : String
  written : List (α × String)
  failure : Option String
  deriving DecidableEq, Repr

namespace Outcome

variable {α : Type}

def misuse : Outcome α := ⟨2, "", [], none⟩

def failed (f : Failure) : Outcome α := ⟨1, "", [], some f.report⟩

end Outcome

namespace Command

def textOn (command : Command) (disk : Disk) (input : String) : Option String :=
  match command.source with
  | .nothing => some ""
  | .input => some input
  | .file path => disk.read? input path

def respondTo (command : Command) : Option String → Except Failure Output
  | none => .error .file
  | some text => command.respond text

def save (disk : Disk) (place : List String) (text printed : String) : Outcome (List String) :=
  match disk.entryAt place with
  | some .directory => .failed .file
  | some (.device .null) => ⟨0, printed, [], none⟩
  | some (.device .input) => .failed .file
  | some (.device .output) => ⟨0, text ++ printed, [], none⟩
  | some (.file old) => ⟨0, printed, if old = some text then [] else [(place, text)], none⟩
  | none => ⟨0, printed, [(place, text)], none⟩

def finish (disk : Disk) (output : Output) : Outcome (List String) :=
  match output.saved with
  | none => ⟨0, output.text, [], none⟩
  | some (path, text) =>
    match disk.locate path with
    | none => .failed .file
    | some place => save disk place text output.text

def runOn (command : Command) (disk : Disk) (input : String) : Outcome (List String) :=
  match command.respondTo (command.textOn disk input) with
  | .error f => .failed f
  | .ok output => finish disk output

end Command

def Disk.run (disk : Disk) (arguments : List String) (input : String) : Outcome (List String) :=
  match Invocation.ofArguments? arguments with
  | none => .misuse
  | some i => i.command.runOn disk input

structure Folder where
  files : List (String × String)
  deriving DecidableEq, Repr

namespace Folder

def devices : List (List String × Entry) :=
  [(["dev", "null"], .device .null), (["dev", "stdin"], .device .input),
   (["dev", "stdout"], .device .output)]

def place : List String := ["folder"]

def disk (f : Folder) : Disk :=
  let leaves := devices ++ f.files.map fun e => (place ++ Path.names e.1, .file (some e.2))
  let above := leaves.flatMap fun e =>
    (List.range e.1.length).map fun n => (e.1.take n, .directory)
  ⟨leaves ++ (place, .directory) :: above, place⟩

def pathTo? (names : List String) : Option String :=
  if place.isPrefixOf names then some ("/".intercalate (names.drop place.length)) else none

end Folder

/-- Runs the command that arguments ask for in a folder; files that are written elsewhere do not show
in the outcome. -/
def runArguments (arguments : List String) (folder : Folder) (input : String) : Outcome String :=
  let o := folder.disk.run arguments input
  ⟨o.exit, o.printed, o.written.filterMap fun e => (Folder.pathTo? e.1).map (·, e.2), o.failure⟩

end DrawScript
