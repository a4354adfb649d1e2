import DrawScript.Toml.Node
import DrawScript.Toml.Scan

/-!
Reading TOML texts into trees of data. A text is a row of lines, each a header, an entry or nothing;
arrays may run over several lines, and tables within a line may not.
-/

namespace DrawScript.Toml

def inlineTable : List (List String × Datum) → OpenTable → Option OpenTable
  | [], t => some t
  | (path, value) :: es, t => (t.insert path value).bind (inlineTable es)

mutual

def value (depth : Nat) (cs : List Char) : Option (Scan Datum cs.length) :=
  match cs with
  | [] => none
  | c :: cs₁ =>
    if c = '"' || c = '\x27' then do
      let s ← string? true (c :: cs₁)
      return ⟨.text s.value, s.rest, s.lt_bound⟩
    else if c = '[' then
      match depth with
      | 0 => none
      | depth + 1 => do
        let s ← items depth cs₁
        return ⟨.list s.value, s.rest, Nat.lt_succ_of_lt s.lt_bound⟩
    else if c = '\x7b' then
      match depth with
      | 0 => none
      | depth + 1 => do
        let s ← entries depth cs₁
        let t ← inlineTable s.value OpenTable.empty
        return ⟨t.datum, s.rest, Nat.lt_succ_of_lt s.lt_bound⟩
    else (plainValue (c :: cs₁)).bind (Scan.ofPair? _)
termination_by 3 * cs.length + 0

def items (depth : Nat) (cs : List Char) : Option (Scan (List Datum) cs.length) := do
  let ⟨_, cs₁, h₁⟩ ← (skipVoid false cs).bind fun rest => Scan.ofPair? (cs.length + 1) ((), rest)
  match symbol ']' cs₁ with
  | some ⟨_, cs₂, h₂⟩ => return ⟨[], cs₂, by omega⟩
  | none =>
    let ⟨item, cs₂, h₂⟩ ← value depth cs₁
    let ⟨_, cs₃, h₃⟩ ←
      (skipVoid false cs₂).bind fun rest => Scan.ofPair? (cs₂.length + 1) ((), rest)
    match symbol ',' cs₃ with
    | some ⟨_, cs₄, h₄⟩ =>
      let ⟨rest, cs₅, h₅⟩ ← items depth cs₄
      return ⟨item :: rest, cs₅, by omega⟩
    | none =>
      let ⟨_, cs₄, h₄⟩ ← symbol ']' cs₃
      return ⟨[item], cs₄, by omega⟩
termination_by 3 * cs.length + 1

def entries (depth : Nat) (cs : List Char) :
    Option (Scan (List (List String × Datum)) cs.length) := do
  have h₀ := length_skipSpaces_le cs
  match symbol '\x7d' (skipSpaces cs) with
  | some ⟨_, cs₁, h₁⟩ => return ⟨[], cs₁, by omega⟩
  | none => moreEntries depth cs
termination_by 3 * cs.length + 2

def moreEntries (depth : Nat) (cs : List Char) :
    Option (Scan (List (List String × Datum)) cs.length) := do
  let ⟨path, cs₁, h₁⟩ ← keyPath cs
  let ⟨_, cs₂, h₂⟩ ← symbol '=' cs₁
  have h₃ := length_skipSpaces_le cs₂
  let ⟨d, cs₄, h₄⟩ ← value depth (skipSpaces cs₂)
  have h₅ := length_skipSpaces_le cs₄
  match symbol ',' (skipSpaces cs₄) with
  | some ⟨_, cs₆, h₆⟩ =>
    let ⟨rest, cs₇, h₇⟩ ← moreEntries depth cs₆
    return ⟨(path, d) :: rest, cs₇, by omega⟩
  | none =>
    let ⟨_, cs₆, h₆⟩ ← symbol '\x7d' (skipSpaces cs₄)
    return ⟨[(path, d)], cs₆, by omega⟩
termination_by 3 * cs.length + 1

end

inductive Row where
  | empty
  | header (path : List String)
  | nextHeader (path : List String)
  | entry (path : List String) (value : Datum)

def rowStart (cs : List Char) : Option (Row × List Char) :=
  match cs with
  | '[' :: '[' :: cs₁ => do
    let ⟨path, cs₂, _⟩ ← keyPath cs₁
    let ⟨_, cs₃, _⟩ ← symbol ']' cs₂
    let ⟨_, cs₄, _⟩ ← symbol ']' cs₃
    return (.nextHeader path, cs₄)
  | '[' :: cs₁ => do
    let ⟨path, cs₂, _⟩ ← keyPath cs₁
    let ⟨_, cs₃, _⟩ ← symbol ']' cs₂
    return (.header path, cs₃)
  | _ => do
    let ⟨path, cs₁, _⟩ ← keyPath cs
    let ⟨_, cs₂, _⟩ ← symbol '=' cs₁
    let ⟨d, cs₃, _⟩ ← value (nestingLimit - 1) (skipSpaces cs₂)
    return (.entry path d, cs₃)

def row (cs : List Char) : Option (Row × List Char) :=
  match lineEnd? cs with
  | some rest => some (.empty, rest)
  | none => do
    let (r, rest) ← rowStart (skipSpaces cs)
    return (r, ← lineEnd? rest)

def rows (cs : List Char) : Option (List Row) :=
  if cs.isEmpty then some []
  else do
    let ⟨r, rest, _⟩ ← (row cs).bind (Scan.ofPair? cs.length)
    let rs ← rows rest
    return r :: rs
termination_by cs.length

/-- The table of a row of lines, where `path` leads to the table that entries are added to. -/
def build (path : List String) : List Row → OpenTable → Option OpenTable
  | [], t => some t
  | .empty :: rs, t => build path rs t
  | .header p :: rs, t => (t.define p).bind (build p rs)
  | .nextHeader p :: rs, t => (t.defineNext p).bind (build p rs)
  | .entry p value :: rs, t =>
    (t.update false (fun c => c.insert p value) path).bind (build path rs)

def dropByteOrderMark : List Char → List Char
  | [] => []
  | c :: cs => if c.toNat = 0xFEFF then cs else c :: cs

def parse? (text : String) : Option Datum := do
  let rs ← rows (dropByteOrderMark text.toList)
  let t ← build [] rs OpenTable.empty
  return t.datum

end DrawScript.Toml
