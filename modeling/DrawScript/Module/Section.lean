import DrawScript.Span
import DrawScript.Text.Blank
import DrawScript.Text.LowerCase

/-!
The lines and sections of a module's text. Lines are read without the blanks around them; empty lines
and comments are left out, and every other line keeps its position. The sections follow one another
in a fixed order, each opened by a header line `@name`.
-/

namespace DrawScript

structure Line where
  span : Span
  text : List Char
  deriving DecidableEq, Repr

namespace Line

/-- The `number`-th line of a text, unless it is empty or a comment. -/
def ofRaw? (number : Nat) (raw : List Char) : Option Line :=
  match Text.trim raw with
  | [] => none
  | '/' :: '/' :: _ => none
  | text => some ⟨⟨number, Text.indentation raw + 1⟩, text⟩

def numbered (number : Nat) : List (List Char) → List Line
  | [] => []
  | raw :: raws =>
    match ofRaw? number raw with
    | some line => line :: numbered (number + 1) raws
    | none => numbered (number + 1) raws

def ofSource (source : String) : List Line := numbered 1 (Text.lines source.toList)

end Line

inductive Section where
  | start
  | data
  | functions
  | program
  deriving DecidableEq, Repr

namespace Section

def all : List Section := [.start, .data, .functions, .program]

def header : Section → String
  | .start => "start"
  | .data => "data"
  | .functions => "functions"
  | .program => "program"

def next? : Section → Option Section
  | .start => some .data
  | .data => some .functions
  | .functions => some .program
  | .program => none

end Section

def headerName (cs : List Char) : String :=
  match Text.words cs with
  | [] => ""
  | word :: _ => String.ofList (Text.lowerCase word)

def directiveWords (cs : List Char) : List String :=
  (Text.words (cs.dropWhile (· == '#'))).map fun word => String.ofList (Text.lowerCase word)

def asksForDump (cs : List Char) : Bool :=
  (directiveWords cs).any fun word => word == "dd" || word == "dumpdata"

end DrawScript
