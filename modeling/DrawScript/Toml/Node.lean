import DrawScript.Datum

/-!
Tables of a TOML text while it is being read. A table is defined once: by a header, by keys with dots,
or in passing as the parent of another table. Only a table that was made in passing can still be
defined, and only dotted keys can add to a table that dotted keys made.
-/

namespace DrawScript.Toml

mutual

inductive Node where
  | leaf (value : Datum)
  | table (value : OpenTable)
  | tables (values : List OpenTable)

inductive OpenTable where
  | mk (implicit dotted : Bool) (entries : List (String × Node))

end

namespace OpenTable

def implicit : OpenTable → Bool
  | .mk implicit _ _ => implicit

def dotted : OpenTable → Bool
  | .mk _ dotted _ => dotted

def entries : OpenTable → List (String × Node)
  | .mk _ _ entries => entries

def empty : OpenTable := .mk false false []

def lookup (t : OpenTable) (key : String) : Option Node := t.entries.lookup key

def put (t : OpenTable) (key : String) (node : Node) : OpenTable :=
  let replaced := t.entries.map fun e => if e.1 == key then (key, node) else e
  .mk t.implicit t.dotted (if (t.lookup key).isSome then replaced else t.entries ++ [(key, node)])

/-- Changes the table at the end of a path. Tables on the way are made where they are missing, a row
of tables stands for its last one, and keys with dots do not enter a table with a definition of its
own. -/
def update (byDots : Bool) (change : OpenTable → Option OpenTable) :
    List String → OpenTable → Option OpenTable
  | [], t => change t
  | key :: path, t =>
    match t.lookup key with
    | none => (update byDots change path (.mk true byDots [])).map fun c => t.put key (.table c)
    | some (.leaf _) => none
    | some (.table c) =>
      if byDots && !c.implicit then none
      else (update byDots change path c).map fun c => t.put key (.table c)
    | some (.tables cs) =>
      match cs.getLast? with
      | none => none
      | some c => (update byDots change path c).map fun c => t.put key (.tables (cs.dropLast ++ [c]))

def insert (path : List String) (value : Datum) (t : OpenTable) : Option OpenTable :=
  match path.getLast? with
  | none => none
  | some key =>
    update true (fun c =>
      if c.dotted = path.dropLast.isEmpty || (c.lookup key).isSome then none
      else some (c.put key (.leaf value))) path.dropLast t

def define (path : List String) (t : OpenTable) : Option OpenTable :=
  match path.getLast? with
  | none => none
  | some key =>
    update false (fun parent =>
      match parent.lookup key with
      | none => some (parent.put key (.table empty))
      | some (.table (.mk true false entries)) =>
        some (parent.put key (.table (.mk false false entries)))
      | some _ => none) path.dropLast t

def defineNext (path : List String) (t : OpenTable) : Option OpenTable :=
  match path.getLast? with
  | none => none
  | some key =>
    update false (fun parent =>
      match parent.lookup key with
      | none => some (parent.put key (.tables [empty]))
      | some (.tables cs) => some (parent.put key (.tables (cs ++ [empty])))
      | some _ => none) path.dropLast t

end OpenTable

mutual

def Node.datum : Node → Datum
  | .leaf value => value
  | .table value => value.datum
  | .tables values => .list (tableData values)

def OpenTable.datum : OpenTable → Datum
  | .mk _ _ entries => .table (entryData entries)

def tableData : List OpenTable → List Datum
  | [] => []
  | t :: ts => t.datum :: tableData ts

def entryData : List (String × Node) → List (String × Datum)
  | [] => []
  | (key, node) :: es => (key, node.datum) :: entryData es

end

end DrawScript.Toml
