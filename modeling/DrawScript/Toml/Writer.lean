import DrawScript.Instruction.Schema
import DrawScript.Toml.Reader

/-!
Writing schemas as TOML texts, and reading them. A text that needs no escapes is written between
quotation marks, and else, if possible, between apostrophes, which know no escapes; texts of several
lines and texts with both kinds of marks use three marks on either side.
-/

namespace DrawScript.Toml

def longestRun (c : Char) : List Char → Nat → Nat → Nat
  | [], run, best => max run best
  | d :: ds, run, best => if d = c then longestRun c ds (run + 1) best else longestRun c ds 0 (max run best)

def isControl (c : Char) : Bool :=
  (c.toNat < 0x20 && c != '\t' && c != '\n') || c.toNat == 0x7F

def fourDigits (n : Nat) : List Char :=
  let ds := (Nat.toDigits 16 n).map Char.toUpper
  List.replicate (4 - ds.length) '0' ++ ds

def escapedChar (c : Char) : List Char :=
  if c = '\x08' then ['\\', 'b']
  else if c = '\t' then ['\\', 't']
  else if c = '\n' then ['\\', 'n']
  else if c = '\x0c' then ['\\', 'f']
  else if c = '\r' then ['\\', 'r']
  else if c = '"' then ['\\', '"']
  else if c = '\\' then ['\\', '\\']
  else if isControl c then '\\' :: 'u' :: fourDigits c.toNat
  else [c]

/-- The inside of a text of several lines: line breaks stand as they are, and so do up to two
quotation marks in a row. -/
def escapedLines (marks : Nat) : List Char → List Char
  | [] => []
  | c :: cs =>
    if c = '"' ∧ marks < 2 then c :: escapedLines (marks + 1) cs
    else if c = '\n' then c :: escapedLines 0 cs
    else escapedChar c ++ escapedLines 0 cs

def stringText (s : String) : String :=
  let cs := s.toList
  let lines := cs.contains '\n'
  let backslash := cs.contains '\\'
  let control := cs.any isControl
  let marks := longestRun '"' cs 0 0
  let apostrophes := longestRun '\x27' cs 0 0
  let opening := if lines then "\n" else ""
  let basic := "\"" ++ String.ofList (cs.flatMap escapedChar) ++ "\""
  let basicLines := "\"\"\"" ++ opening ++ String.ofList (escapedLines 0 cs) ++ "\"\"\""
  if !control && !backslash && marks = 0 && !lines then basic
  else if !control && apostrophes = 0 && !lines then "'" ++ s ++ "'"
  else if !control && !backslash && marks ≤ 2 then basicLines
  else if !control && apostrophes ≤ 2 then "'''" ++ opening ++ s ++ "'''"
  else if lines then basicLines
  else basic

def arrayText (items : List String) : String :=
  match items with
  | [] => "[]"
  | [item] => "[" ++ stringText item ++ "]"
  | _ => "[\n" ++ String.join (items.map fun item => "    " ++ stringText item ++ ",\n") ++ "]"

end DrawScript.Toml

namespace DrawScript

def Interaction.toml (i : Interaction) : String :=
  "\n[[instruction.interactions]]\ninputs = " ++
    Toml.arrayText (i.inputs.map ElementType.text) ++ "\n" ++
    match i.returns with
    | some t => "returns = " ++ Toml.stringText t.text ++ "\n"
    | none => ""

def Signature.toml (sig : Signature) : String :=
  "[[instruction]]\nname = " ++ Toml.stringText sig.name ++ "\nbroadcast = " ++
    Toml.stringText sig.broadcast.text ++ "\n" ++ String.join (sig.interactions.map Interaction.toml)

def Schema.toml (s : Schema) : String :=
  if s.instructions.isEmpty then "instruction = []\n"
  else "\n".intercalate (s.instructions.map Signature.toml)

def Toml.format : TextFormat where
  read? text := (Toml.parse? text).bind (Schema.ofDatum? .toml)
  write? s := some s.toml

def Registry.ofToml (text : String) : Except SchemaError Registry := Registry.ofText Toml.format text

def Registry.toml (r : Registry) : String := (Schema.ofRegistry r).toml

end DrawScript
