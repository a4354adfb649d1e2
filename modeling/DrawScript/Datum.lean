import DrawScript.Number.Layout

/-!
Trees of data, as JSON and TOML texts hold them, and their JSON texts. A table keeps its entries in
the order in which they were written. The JSON text is on one line, or has every item on a line of its
own, indented by two blanks for each level. Quotation marks, backslashes and control characters are
escaped, and all other characters stand as they are.
-/

namespace DrawScript

inductive Datum where
  | null
  | flag (value : Bool)
  | whole (value : Int)
  | real (value : Binary64)
  | moment (text : String)
  | text (value : String)
  | list (items : List Datum)
  | table (entries : List (String × Datum))

namespace Datum

def ofNat (n : Nat) : Datum := .whole n

def entry? (key : String) (entries : List (String × Datum)) : Option Datum :=
  (entries.find? fun e => e.1 == key).map Prod.snd

end Datum

namespace Json

def hexDigit (n : Nat) : Char := Nat.digitChar (n % 16)

def escapeChar (c : Char) : List Char :=
  if c = '"' then ['\\', '"']
  else if c = '\\' then ['\\', '\\']
  else if c = '\n' then ['\\', 'n']
  else if c = '\r' then ['\\', 'r']
  else if c = '\t' then ['\\', 't']
  else if c = '\x08' then ['\\', 'b']
  else if c = '\x0c' then ['\\', 'f']
  else if c.toNat < 0x20 then
    ['\\', 'u', '0', '0', hexDigit (c.toNat / 16), hexDigit c.toNat]
  else [c]

def quote (s : String) : String := "\"" ++ String.ofList (s.toList.flatMap escapeChar) ++ "\""

def leaf : Datum → String
  | .flag true => "true"
  | .flag false => "false"
  | .whole n => toString n
  | .real x => NumberLayout.json.text x
  | .moment text => quote text
  | .text value => quote value
  | _ => "null"

mutual

def compact : Datum → String
  | .list items => "[" ++ ",".intercalate (compactItems items) ++ "]"
  | .table entries => "\x7b" ++ ",".intercalate (compactEntries entries) ++ "\x7d"
  | d => leaf d

def compactItems : List Datum → List String
  | [] => []
  | d :: ds => compact d :: compactItems ds

def compactEntries : List (String × Datum) → List String
  | [] => []
  | (key, d) :: es => (quote key ++ ":" ++ compact d) :: compactEntries es

end

def lineBreak (level : Nat) : String := "\n" ++ String.ofList (List.replicate (2 * level) ' ')

def enclose (opening closing : String) (level : Nat) (items : List String) : String :=
  if items.isEmpty then opening ++ closing
  else
    let separator := "," ++ lineBreak (level + 1)
    opening ++ lineBreak (level + 1) ++ separator.intercalate items ++ lineBreak level ++ closing

mutual

def prettyAt (level : Nat) : Datum → String
  | .list items => enclose "[" "]" level (prettyItems (level + 1) items)
  | .table entries => enclose "\x7b" "\x7d" level (prettyEntries (level + 1) entries)
  | d => leaf d

def prettyItems (level : Nat) : List Datum → List String
  | [] => []
  | d :: ds => prettyAt level d :: prettyItems level ds

def prettyEntries (level : Nat) : List (String × Datum) → List String
  | [] => []
  | (key, d) :: es => (quote key ++ ": " ++ prettyAt level d) :: prettyEntries level es

end

def pretty (d : Datum) : String := prettyAt 0 d

end Json

end DrawScript
