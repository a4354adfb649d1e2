import DrawScript.Proofs.Data.Literal
import DrawScript.Proofs.Toml.Rows

/-!
A written schema is read back. Its lines make up a table of instructions, each with a table for every
interaction, and this table is the datum of the schema.
-/

namespace DrawScript

open Toml

namespace Interaction

def inputsDatum (i : Interaction) : Datum := .list (i.inputs.map fun t => .text t.text)

def returnsRows (i : Interaction) : List Row :=
  match i.returns with
  | some t => [.entry ["returns"] (.text t.text)]
  | none => []

def rows (i : Interaction) : List Row :=
  .empty :: .nextHeader ["instruction", "interactions"] :: .entry ["inputs"] i.inputsDatum ::
    i.returnsRows

end Interaction

theorem readsAs_textEntry (name : String) (hname : isBareKey name.toList = true) (s : String) :
    ReadsAs (name.toList ++ " = ".toList ++ (stringText s).toList ++ ['\n']) [.entry [name] (.text s)] :=
  .entry hname (startsVisibly_stringText s) fun rest =>
    value_stringText _ s (ended_cons (by decide) (by decide) rest)

theorem startsVisibly_arrayText (texts : List String) (rest : List Char) :
    startsVisibly ((arrayText texts).toList ++ rest) = true := by
  match texts with
  | [] => rfl
  | [text] => simp [arrayText, startsVisibly, isSpace]
  | first :: second :: texts => simp [arrayText, startsVisibly, isSpace]

theorem readsAs_arrayEntry (name : String) (hname : isBareKey name.toList = true)
    (texts : List String) :
    ReadsAs (name.toList ++ " = ".toList ++ (arrayText texts).toList ++ ['\n'])
      [.entry [name] (.list (texts.map .text))] :=
  .entry hname (startsVisibly_arrayText texts) fun _ => value_arrayText _ texts _

theorem Interaction.readsAs_returns (i : Interaction) :
    ReadsAs (match i.returns with
      | some t => "returns = " ++ stringText t.text ++ "\n"
      | none => "").toList i.returnsRows := by
  unfold Interaction.returnsRows
  cases i.returns with
  | none => exact .nil
  | some t =>
    have hline : ("returns = " ++ stringText t.text ++ "\n").toList =
        "returns".toList ++ " = ".toList ++ (stringText t.text).toList ++ ['\n'] := by
      have hkey : "returns = ".toList = "returns".toList ++ " = ".toList := by decide
      rw [String.toList_append, String.toList_append, hkey]
      rfl
    dsimp only
    rw [hline]
    exact readsAs_textEntry "returns" (by decide) t.text

theorem Interaction.readsAs (i : Interaction) : ReadsAs i.toml.toList i.rows := by
  have hstart : "\n[[instruction.interactions]]\ninputs = ".toList =
      ['\n'] ++ "[[instruction.interactions]]\n".toList ++ ("inputs".toList ++ " = ".toList) := by
    decide
  have htext : i.toml.toList = ['\n'] ++ "[[instruction.interactions]]\n".toList ++
      ("inputs".toList ++ " = ".toList ++ (arrayText (i.inputs.map ElementType.text)).toList ++ ['\n']) ++
      (match i.returns with
        | some t => "returns = " ++ stringText t.text ++ "\n"
        | none => "").toList := by
    unfold Interaction.toml
    simp only [String.toList_append, hstart, List.append_assoc]
    rfl
  have hinputs := readsAs_arrayEntry "inputs" (by decide) (i.inputs.map ElementType.text)
  rw [List.map_map] at hinputs
  rw [htext]
  exact ((ReadsAs.blank.append readsAs_interactions).append hinputs).append i.readsAs_returns

def Signature.rows (sig : Signature) : List Row :=
  .nextHeader ["instruction"] :: .entry ["name"] (.text sig.name) ::
    .entry ["broadcast"] (.text sig.broadcast.text) :: sig.interactions.flatMap Interaction.rows

theorem readsAs_flatMap {α : Type} {text : α → List Char} {rs : α → List Row} (xs : List α)
    (h : ∀ x ∈ xs, ReadsAs (text x) (rs x)) : ReadsAs (xs.flatMap text) (xs.flatMap rs) := by
  induction xs with
  | nil => exact .nil
  | cons x xs ih =>
    obtain ⟨hx, hxs⟩ := List.forall_mem_cons.mp h
    exact hx.append (ih hxs)

theorem Signature.readsAs (sig : Signature) : ReadsAs sig.toml.toList sig.rows := by
  have hstart : "[[instruction]]\nname = ".toList =
      "[[instruction]]\n".toList ++ ("name".toList ++ " = ".toList) := by
    decide
  have hmiddle : "\nbroadcast = ".toList = ['\n'] ++ ("broadcast".toList ++ " = ".toList) := by
    decide
  have htext : sig.toml.toList = "[[instruction]]\n".toList ++
      ("name".toList ++ " = ".toList ++ (stringText sig.name).toList ++ ['\n']) ++
      ("broadcast".toList ++ " = ".toList ++ (stringText sig.broadcast.text).toList ++ ['\n']) ++
      sig.interactions.flatMap fun i => i.toml.toList := by
    unfold Signature.toml
    simp only [String.toList_append, String.toList_join, List.flatMap_map, hstart, hmiddle,
      List.append_assoc]
    rfl
  have hname := readsAs_textEntry "name" (by decide) sig.name
  have hbroadcast := readsAs_textEntry "broadcast" (by decide) sig.broadcast.text
  have hinteractions := readsAs_flatMap sig.interactions fun i _ => i.readsAs
  rw [htext]
  exact ((readsAs_instruction.append hname).append hbroadcast).append hinteractions

def ownTable (entries : List (String × Toml.Node)) : OpenTable := .mk false false entries

namespace Interaction

def returnsEntries (i : Interaction) : List (String × Toml.Node) :=
  match i.returns with
  | some t => [("returns", .leaf (.text t.text))]
  | none => []

def table (i : Interaction) : OpenTable :=
  ownTable (("inputs", .leaf i.inputsDatum) :: i.returnsEntries)

end Interaction

def Signature.tableWith (sig : Signature) (interactions : List OpenTable) : OpenTable :=
  ownTable (("name", .leaf (.text sig.name)) :: ("broadcast", .leaf (.text sig.broadcast.text)) ::
    if interactions.isEmpty then [] else [("interactions", .tables interactions)])

def instructionTable (instructions : List OpenTable) : OpenTable :=
  ownTable [("instruction", .tables instructions)]

section Build

variable {t c : OpenTable} {ts is : List OpenTable} {sig : Signature} {rs : List Row}

/-- A path leads through the last of a row of tables. -/
theorem update_last {key : String} (hkey : t.lookup key = some (.tables (ts ++ [c])))
    (change : OpenTable → Option OpenTable) (path : List String) :
    t.update false change (key :: path) =
      (c.update false change path).map fun c => t.put key (.tables (ts ++ [c])) := by
  rw [OpenTable.update, hkey]
  simp

theorem lookup_instruction : (instructionTable ts).lookup "instruction" = some (.tables ts) := by
  simp [instructionTable, ownTable, OpenTable.lookup, OpenTable.entries]

theorem put_instruction (node : Toml.Node) :
    (instructionTable ts).put "instruction" node = ownTable [("instruction", node)] := by
  simp [instructionTable, ownTable, OpenTable.put, OpenTable.lookup, OpenTable.entries, OpenTable.implicit,
    OpenTable.dotted]

theorem lookup_interactions :
    (sig.tableWith is).lookup "interactions" = if is.isEmpty then none else some (.tables is) := by
  by_cases his : is.isEmpty <;>
    simp [Signature.tableWith, ownTable, OpenTable.lookup, OpenTable.entries, List.lookup, his]

theorem put_interactions {js : List OpenTable} (hjs : js.isEmpty = false) :
    (sig.tableWith is).put "interactions" (.tables js) = sig.tableWith js := by
  unfold OpenTable.put
  rw [lookup_interactions]
  by_cases his : is.isEmpty <;>
    simp [Signature.tableWith, ownTable, OpenTable.entries, OpenTable.implicit, OpenTable.dotted, his, hjs]

theorem insert_key {key : String} {value : Datum} {entries : List (String × Toml.Node)}
    (h : entries.lookup key = none) :
    (ownTable entries).insert [key] value = some (ownTable (entries ++ [(key, .leaf value)])) := by
  simp [ownTable, OpenTable.insert, OpenTable.update, OpenTable.lookup, OpenTable.put, OpenTable.entries,
    OpenTable.implicit, OpenTable.dotted, h]

theorem update_instruction (change : OpenTable → Option OpenTable) (path : List String) :
    (instructionTable (ts ++ [c])).update false change ("instruction" :: path) =
      (c.update false change path).map fun c => instructionTable (ts ++ [c]) := by
  simp only [update_last lookup_instruction, put_instruction]
  rfl

theorem update_interactions (change : OpenTable → Option OpenTable) :
    (sig.tableWith (is ++ [c])).update false change ["interactions"] =
      (change c).map fun c => sig.tableWith (is ++ [c]) := by
  have hlookup : (sig.tableWith (is ++ [c])).lookup "interactions" = some (.tables (is ++ [c])) := by
    simp [lookup_interactions]
  have hput (c' : OpenTable) : (sig.tableWith (is ++ [c])).put "interactions" (.tables (is ++ [c'])) =
      sig.tableWith (is ++ [c']) := put_interactions (by simp)
  rw [update_last hlookup, OpenTable.update]
  simp only [hput]

theorem defineNext_instruction :
    (instructionTable ts).defineNext ["instruction"] = some (instructionTable (ts ++ [.empty])) := by
  simp [OpenTable.defineNext, OpenTable.update, lookup_instruction, put_instruction]
  rfl

theorem defineNext_interactions :
    (instructionTable (ts ++ [sig.tableWith is])).defineNext ["instruction", "interactions"] =
      some (instructionTable (ts ++ [sig.tableWith (is ++ [.empty])])) := by
  simp only [OpenTable.defineNext, List.getLast?_cons_cons, List.getLast?_singleton, List.dropLast,
    update_instruction, OpenTable.update]
  rw [lookup_interactions]
  by_cases his : is.isEmpty
  · obtain rfl : is = [] := by simpa using his
    simp [put_interactions]
  · simp [his, put_interactions]

theorem update_interaction_entry {key : String} {entries : List (String × Toml.Node)} (value : Datum)
    (h : entries.lookup key = none) :
    (instructionTable (ts ++ [sig.tableWith (is ++ [ownTable entries])])).update false
        (fun c => c.insert [key] value) ["instruction", "interactions"] =
      some (instructionTable (ts ++
        [sig.tableWith (is ++ [ownTable (entries ++ [(key, .leaf value)])])])) := by
  rw [update_instruction, update_interactions, insert_key h]
  rfl

theorem update_instruction_entry {key : String} {entries : List (String × Toml.Node)} (value : Datum)
    (h : entries.lookup key = none) :
    (instructionTable (ts ++ [ownTable entries])).update false
        (fun c => c.insert [key] value) ["instruction"] =
      some (instructionTable (ts ++ [ownTable (entries ++ [(key, .leaf value)])])) := by
  rw [update_instruction, OpenTable.update, insert_key h]
  rfl

theorem build_interaction (path : List String) (i : Interaction) :
    build path (i.rows ++ rs) (instructionTable (ts ++ [sig.tableWith is])) =
      build ["instruction", "interactions"] rs
        (instructionTable (ts ++ [sig.tableWith (is ++ [i.table])])) := by
  have hinputs : (instructionTable (ts ++ [sig.tableWith (is ++ [.empty])])).update false
      (fun c => c.insert ["inputs"] i.inputsDatum) ["instruction", "interactions"] =
        some (instructionTable (ts ++ [sig.tableWith (is ++
          [ownTable [("inputs", .leaf i.inputsDatum)]])])) :=
    update_interaction_entry i.inputsDatum rfl
  have hreturns : build ["instruction", "interactions"] (i.returnsRows ++ rs)
      (instructionTable (ts ++ [sig.tableWith (is ++
        [ownTable [("inputs", .leaf i.inputsDatum)]])])) =
      build ["instruction", "interactions"] rs
        (instructionTable (ts ++ [sig.tableWith (is ++ [i.table])])) := by
    unfold Interaction.returnsRows Interaction.table Interaction.returnsEntries
    cases i.returns with
    | none => rfl
    | some t =>
      have hentry : (instructionTable (ts ++ [sig.tableWith (is ++
          [ownTable [("inputs", .leaf i.inputsDatum)]])])).update false
            (fun c => c.insert ["returns"] (.text t.text)) ["instruction", "interactions"] = _ :=
        update_interaction_entry (.text t.text) rfl
      rw [List.singleton_append, build, hentry]
      rfl
  simp only [Interaction.rows, List.cons_append, build, defineNext_interactions, Option.bind_some, hinputs]
  exact hreturns

theorem build_interactions (path : List String) (interactions : List Interaction) :
    ∃ path', build path (interactions.flatMap Interaction.rows ++ rs)
        (instructionTable (ts ++ [sig.tableWith is])) =
      build path' rs
        (instructionTable (ts ++ [sig.tableWith (is ++ interactions.map Interaction.table)])) := by
  induction interactions generalizing path is with
  | nil => exact ⟨path, by simp⟩
  | cons i interactions ih =>
    rw [List.flatMap_cons, List.append_assoc, build_interaction, List.map_cons,
      List.append_cons is i.table (interactions.map Interaction.table)]
    exact ih ["instruction", "interactions"]

def Signature.table (sig : Signature) : OpenTable :=
  sig.tableWith (sig.interactions.map Interaction.table)

theorem build_signature (path : List String) (sig : Signature) {t : OpenTable}
    (ht : t.defineNext ["instruction"] = some (instructionTable (ts ++ [.empty]))) :
    ∃ path', build path (sig.rows ++ rs) t = build path' rs (instructionTable (ts ++ [sig.table])) := by
  have hname : (instructionTable (ts ++ [.empty])).update false
      (fun c => c.insert ["name"] (.text sig.name)) ["instruction"] =
        some (instructionTable (ts ++ [ownTable [("name", .leaf (.text sig.name))]])) :=
    update_instruction_entry (.text sig.name) rfl
  have hbroadcast : (instructionTable (ts ++ [ownTable [("name", .leaf (.text sig.name))]])).update
      false (fun c => c.insert ["broadcast"] (.text sig.broadcast.text)) ["instruction"] =
        some (instructionTable (ts ++ [sig.tableWith []])) :=
    update_instruction_entry (.text sig.broadcast.text) rfl
  simp only [Signature.rows, List.cons_append, build, ht, Option.bind_some, hname, hbroadcast]
  exact build_interactions ["instruction"] sig.interactions

theorem build_signatures (path : List String) (sigs : List Signature) :
    build path (sigs.flatMap fun sig => .empty :: sig.rows) (instructionTable ts) =
      some (instructionTable (ts ++ sigs.map Signature.table)) := by
  induction sigs generalizing path ts with
  | nil => simp [build]
  | cons sig sigs ih =>
    obtain ⟨path', hbuild⟩ := build_signature path sig defineNext_instruction
    rw [List.flatMap_cons, List.cons_append, build, hbuild, ih, List.map_cons, ← List.append_cons]

end Build

theorem tableData_eq_map (ts : List OpenTable) : tableData ts = ts.map OpenTable.datum := by
  induction ts with
  | nil => rfl
  | cons t ts ih => rw [tableData, ih, List.map_cons]

theorem Interaction.datum_table (i : Interaction) : i.table.datum = i.datum := by
  unfold Interaction.table Interaction.returnsEntries Interaction.datum
  cases i.returns with
  | none => rfl
  | some t => rfl

theorem Signature.datum_table {sig : Signature} (h : sig.interactions ≠ []) :
    sig.table.datum = sig.datum := by
  have hne : (sig.interactions.map Interaction.table).isEmpty = false := by simpa using h
  have hdata : (sig.interactions.map Interaction.table).map OpenTable.datum =
      sig.interactions.map Interaction.datum := by
    rw [List.map_map]
    exact List.map_congr_left fun i _ => i.datum_table
  unfold Signature.table Signature.tableWith
  rw [hne]
  simp only [ownTable, OpenTable.datum, entryData, Toml.Node.datum, tableData_eq_map, hdata,
    Bool.false_eq_true, if_false]
  rfl

theorem datum_instructionTable {sigs : List Signature} (h : ∀ sig ∈ sigs, sig.interactions ≠ []) :
    (instructionTable (sigs.map Signature.table)).datum = Schema.datum ⟨sigs⟩ := by
  have hdata : (sigs.map Signature.table).map OpenTable.datum = sigs.map Signature.datum := by
    rw [List.map_map]
    exact List.map_congr_left fun sig hsig => Signature.datum_table (h sig hsig)
  simp only [instructionTable, ownTable, OpenTable.datum, entryData, Toml.Node.datum, tableData_eq_map, hdata]
  rfl

namespace Schema

theorem toList_toml_cons (sig : Signature) (sigs : List Signature) :
    (Schema.toml ⟨sig :: sigs⟩).toList =
      sig.toml.toList ++ sigs.flatMap fun sig => '\n' :: sig.toml.toList := by
  have htoml : Schema.toml ⟨sig :: sigs⟩ = "\n".intercalate ((sig :: sigs).map Signature.toml) := rfl
  rw [htoml]
  induction sigs generalizing sig with
  | nil => simp
  | cons next sigs ih =>
    rw [List.map_cons, List.map_cons, String.intercalate_cons_cons, String.toList_append,
      String.toList_append, ← List.map_cons, ih next rfl, List.flatMap_cons]
    simp

theorem readsAs_toml (sig : Signature) (sigs : List Signature) :
    ReadsAs (Schema.toml ⟨sig :: sigs⟩).toList
      (sig.rows ++ sigs.flatMap fun sig => .empty :: sig.rows) := by
  rw [toList_toml_cons]
  exact sig.readsAs.append (readsAs_flatMap sigs fun sig _ => ReadsAs.blank.append sig.readsAs)

theorem dropByteOrderMark_eq {cs : List Char} (h : ∀ c ∈ cs.head?, c.toNat ≠ 0xFEFF) :
    dropByteOrderMark cs = cs := by
  cases cs with
  | nil => rfl
  | cons c cs => exact if_neg (h c rfl)

theorem head?_toml (sig : Signature) : sig.toml.toList.head? = some '[' := by
  have hstart : "[[instruction]]\nname = ".toList.head? = some '[' := by
    decide
  unfold Signature.toml
  simp only [String.toList_append, List.head?_append]
  rw [hstart]
  simp only [Option.some_or]

theorem parse?_toml_cons (sig : Signature) (sigs : List Signature) :
    parse? (Schema.toml ⟨sig :: sigs⟩) =
      some (instructionTable ((sig :: sigs).map Signature.table)).datum := by
  have hmark : dropByteOrderMark (Schema.toml ⟨sig :: sigs⟩).toList =
      (Schema.toml ⟨sig :: sigs⟩).toList := by
    refine dropByteOrderMark_eq fun c hc => ?_
    rw [toList_toml_cons, List.head?_append, head?_toml] at hc
    cases hc
    decide
  have hfirst : OpenTable.empty.defineNext ["instruction"] =
      some (instructionTable ([] ++ [.empty])) := rfl
  obtain ⟨path, hbuild⟩ := build_signature [] sig hfirst
  rw [parse?, hmark, (readsAs_toml sig sigs).rows_eq]
  simp only [Option.bind_eq_bind, Option.bind_some]
  rw [hbuild, build_signatures]
  rfl

theorem elementType?_text (dialect : Dialect) (t : ElementType) :
    elementType? dialect (.text t.text) = some t :=
  ElementType.ofText?_text t

theorem interaction?_datum (dialect : Dialect) (i : Interaction) :
    interaction? dialect i.datum = some i := by
  have hinputs : list? (elementType? dialect) (.list (i.inputs.map fun t => .text t.text)) =
      some i.inputs :=
    Literal.mapM_map_eq_pure fun t _ => elementType?_text dialect t
  obtain ⟨inputs, returns⟩ := i
  cases returns with
  | none => simp [interaction?, Interaction.datum, Dialect.fields?, Datum.entry?, hinputs, returns?]
  | some t =>
    simp [interaction?, Interaction.datum, Dialect.fields?, Datum.entry?, hinputs, returns?,
      elementType?_text]

theorem signature?_datum (dialect : Dialect) (sig : Signature) :
    signature? dialect sig.datum = some sig := by
  have hinteractions : list? (interaction? dialect) (.list (sig.interactions.map Interaction.datum)) =
      some sig.interactions :=
    Literal.mapM_map_eq_pure fun i _ => interaction?_datum dialect i
  have hbroadcast : (dialect.choice? (.text sig.broadcast.text)).bind Broadcast.ofText? =
      some sig.broadcast :=
    Broadcast.ofText?_text sig.broadcast
  simp [signature?, Signature.datum, Dialect.fields?, Datum.entry?, text?, hinteractions, hbroadcast]

theorem ofDatum?_datum (dialect : Dialect) (s : Schema) : ofDatum? dialect s.datum = some s := by
  have hinstructions : list? (signature? dialect) (.list (s.instructions.map Signature.datum)) =
      some s.instructions :=
    Literal.mapM_map_eq_pure fun sig _ => signature?_datum dialect sig
  simp [ofDatum?, Schema.datum, Dialect.fields?, Datum.entry?, hinstructions]

theorem parse?_toml_nil : parse? (Schema.toml ⟨[]⟩) = some (Schema.datum ⟨[]⟩) := by
  have hline : (Schema.toml ⟨[]⟩).toList =
      "instruction".toList ++ " = ".toList ++ (arrayText []).toList ++ ['\n'] := by
    decide
  have hmark : dropByteOrderMark (Schema.toml ⟨[]⟩).toList = (Schema.toml ⟨[]⟩).toList := by
    decide
  have hrows := (readsAs_arrayEntry "instruction" (by decide) []).rows_eq
  rw [parse?, hmark, hline, hrows]
  rfl

theorem parse?_toml {s : Schema} (h : ∀ sig ∈ s.instructions, sig.interactions ≠ []) :
    parse? s.toml = some s.datum := by
  obtain ⟨_ | ⟨sig, sigs⟩⟩ := s
  · exact parse?_toml_nil
  · rw [parse?_toml_cons, datum_instructionTable h]

end Schema

end DrawScript
