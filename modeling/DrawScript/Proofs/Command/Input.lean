import DrawScript.Command.Folder
import DrawScript.Proofs.Module.FirstError
import DrawScript.Proofs.Script.Outcome
import DrawScript.Proofs.Text.Splitting
import Mathlib.Tactic.SplitIfs

/-!
What a command does to the file that it reads, if it compiles and is not told where to write. The result
goes next to the file, to its name with the extension `json` in place of its own. All names of a path but
the last lead to a directory, so the two files have the same directory and are told apart by their last
names (`locate_withExtension`): they are one file exactly if the name that was read has the extension
already. No result is the text it was made of, since it starts with a brace and no source that compiles
does. A file that is named as a result and holds a source is therefore lost (`script_overwritten`), and
`run_input` says that nothing else is.
-/

namespace DrawScript

namespace Path

theorem splitName_cases (path : List Char) :
    ∃ directory name, splitName path = (directory, name) ∧ path = directory ++ name ∧ '/' ∉ name ∧
      (directory = [] ∨ ∃ above, directory = above ++ ['/']) := by
  refine ⟨_, _, rfl, ?_, ?_, ?_⟩
  · rw [← List.reverse_append, List.takeWhile_append_dropWhile, List.reverse_reverse]
  · intro hmem
    simpa using List.mem_takeWhile_imp (List.mem_reverse.mp hmem)
  · cases hdrop : path.reverse.dropWhile (· != '/') with
    | nil => exact .inl rfl
    | cons c cs =>
      have hhead := List.head?_dropWhile_not (· != '/') path.reverse
      rw [hdrop] at hhead
      obtain rfl : c = '/' := by simpa using hhead
      exact .inr ⟨cs.reverse, List.reverse_cons⟩

theorem mem_of_mem_stem {name : List Char} {c : Char} (h : c ∈ stem name) : c ∈ name := by
  unfold stem at h
  split at h
  next d ds hdrop =>
    have hmem : c ∈ name.reverse.dropWhile (· != '.') := hdrop ▸ .tail _ (List.mem_reverse.mp h)
    exact List.mem_reverse.mp (List.dropWhile_subset _ hmem)
  next => exact h

theorem stem_ne_nil {name : List Char} (h : name ≠ []) : stem name ≠ [] := by
  unfold stem
  split
  · simp
  · exact h

theorem stem_append_iff {name extension : List Char} (hname : name ≠ []) (hext : '.' ∉ extension) :
    stem name ++ '.' :: extension = name ↔ ∃ s, s ≠ [] ∧ name = s ++ '.' :: extension := by
  constructor
  · intro h
    exact ⟨stem name, stem_ne_nil hname, h.symm⟩
  · rintro ⟨s, hs, rfl⟩
    have hdrop : (s ++ '.' :: extension).reverse.dropWhile (· != '.') = '.' :: s.reverse := by
      rw [List.reverse_append, List.reverse_cons, List.append_assoc,
        List.dropWhile_append_of_pos (by simpa using fun c hc => ne_of_mem_of_not_mem hc hext)]
      exact List.dropWhile_cons_of_neg (by simp)
    unfold stem
    rw [hdrop]
    cases hrev : s.reverse with
    | nil => exact absurd (List.reverse_eq_nil_iff.mp hrev) hs
    | cons c cs =>
      dsimp only
      rw [← hrev, List.reverse_reverse]

end Path

namespace Path

theorem exists_names_append {directory : List Char}
    (h : directory = [] ∨ ∃ above, directory = above ++ ['/']) :
    ∃ ns, ∀ name : List Char, '/' ∉ name →
      names (String.ofList (directory ++ name)) = ns ++ [String.ofList name] := by
  have hsingle : ∀ name : List Char, '/' ∉ name → name.splitOnP (· == '/') = [name] := by
    intro name hname
    exact List.splitOnP_eq_singleton (by simpa using fun c hc => ne_of_mem_of_not_mem hc hname)
  rcases h with rfl | ⟨above, rfl⟩
  · refine ⟨[], fun name hname => ?_⟩
    rw [names, String.toList_ofList, Text.splitOn_eq_splitOnP, List.nil_append, hsingle name hname]
    rfl
  · refine ⟨(above.splitOnP (· == '/')).map String.ofList, fun name hname => ?_⟩
    rw [names, String.toList_ofList, Text.splitOn_eq_splitOnP, List.append_assoc, List.singleton_append,
      List.splitOnP_append_cons above name (by rfl), hsingle name hname, List.map_append]
    rfl

theorem isAbsolute_append (directory : List Char) {name : List Char} (h : '/' ∉ name) :
    isAbsolute (String.ofList (directory ++ name)) = (directory.head? == some '/') := by
  rw [isAbsolute, String.toList_ofList]
  cases directory with
  | nil =>
    rw [List.nil_append, List.head?_nil, Option.none_beq_some, beq_eq_false_iff_ne]
    exact fun hhead => h (List.mem_of_head? hhead)
  | cons c cs => rfl

end Path

namespace Disk

variable {d : Disk} {path : String} {place : List String}

theorem placeIn_eq_some_iff {name : String} {directory : List String} :
    placeIn name directory = some place ↔ name ∉ ["", ".", ".."] ∧ place = directory ++ [name] := by
  by_cases hspecial : name ∈ ["", ".", ".."]
  · rw [placeIn, if_pos (List.contains_iff_mem.mpr hspecial)]
    simp [hspecial]
  · rw [placeIn, if_neg (mt List.contains_iff_mem.mp hspecial), Option.some.injEq]
    exact ⟨fun h => ⟨hspecial, h.symm⟩, fun h => h.2.symm⟩

theorem exists_locate_append (d : Disk) {directory : List Char}
    (h : directory = [] ∨ ∃ above, directory = above ++ ['/']) :
    ∃ above : Option (List String), ∀ name : List Char, '/' ∉ name →
      d.locate (String.ofList (directory ++ name)) = above.bind (placeIn (String.ofList name)) := by
  obtain ⟨names, hnames⟩ := Path.exists_names_append h
  refine ⟨d.walk (if directory.head? == some '/' then [] else d.current) names, fun name hname => ?_⟩
  rw [locate, hnames name hname, Path.isAbsolute_append directory hname, List.dropLast_concat,
    List.getLastD_concat]

theorem locate_sibling (h : d.locate path = some place) :
    ∃ above directory name, place = above ++ [String.ofList name] ∧
      Path.splitName path.toList = (directory, name) ∧ name ≠ [] ∧ '/' ∉ name ∧
      ∀ other : List Char, '/' ∉ other → String.ofList other ∉ ["", ".", ".."] →
        d.locate (String.ofList (directory ++ other)) = some (above ++ [String.ofList other]) := by
  obtain ⟨directory, name, hsplit, hpath, hname, hdirectory⟩ := Path.splitName_cases path.toList
  obtain ⟨walked, hlocate⟩ := exists_locate_append d hdirectory
  rw [← String.ofList_toList (s := path), hpath, hlocate name hname, Option.bind_eq_some_iff] at h
  obtain ⟨above, rfl, hplace⟩ := h
  obtain ⟨hordinary, rfl⟩ := placeIn_eq_some_iff.mp hplace
  refine ⟨above, directory, name, rfl, hsplit, ?_, hname, fun other hother hordinary => ?_⟩
  · rintro rfl
    exact hordinary (.head _)
  · rw [hlocate other hother]
    exact placeIn_eq_some_iff.mpr ⟨hordinary, rfl⟩

theorem json_ordinary (s : List Char) : String.ofList (s ++ ".json".toList) ∉ ["", ".", ".."] := by
  intro hmem
  have hlength : (String.ofList (s ++ ".json".toList)).length ≤ 2 := by
    simp only [List.mem_cons, List.not_mem_nil, or_false] at hmem
    rcases hmem with h | h | h <;> rw [h] <;> decide
  have hjson : ".json".length = 5 := by decide
  simp only [String.length_ofList, List.length_append, String.length_toList, hjson] at hlength
  omega

/-- The file that a result goes to stands next to the one that was read, and is another one unless that
has the extension already. -/
theorem locate_withExtension (h : d.locate path = some place) :
    ∃ above name target, place = above ++ [name] ∧
      d.locate (Path.withExtension path "json") = some (above ++ [target]) ∧
      (target = name ↔ ∃ stem, stem ≠ "" ∧ name = stem ++ ".json") := by
  obtain ⟨above, directory, name, rfl, hsplit, hne, hname, hother⟩ := locate_sibling h
  refine ⟨above, _, String.ofList (Path.stem name ++ ".json".toList), rfl, ?_, ?_⟩
  · rw [Path.withExtension, hsplit]
    dsimp only
    rw [List.append_assoc]
    refine hother _ ?_ (json_ordinary (Path.stem name))
    rw [List.mem_append, not_or]
    exact ⟨fun hmem => hname (Path.mem_of_mem_stem hmem), by decide⟩
  · rw [String.ofList_inj, show ".json".toList = '.' :: "json".toList from rfl,
      Path.stem_append_iff hne (by decide)]
    constructor
    · rintro ⟨s, hs, rfl⟩
      exact ⟨String.ofList s, by simpa using hs, by rw [String.ofList_append]; rfl⟩
    · rintro ⟨s, hs, hname⟩
      refine ⟨s.toList, by simpa using hs, ?_⟩
      simpa using congrArg String.toList hname

/-- A path leads to a file, which stands at the given place and holds the given text, if any. -/
structure Holds (d : Disk) (path : String) (place : List String) (text : Option String) : Prop where
  located : d.locate path = some place
  content : d.entryAt place = some (.file text)

end Disk

theorem Json.head?_pretty_table (entries : List (String × Datum)) :
    (Json.pretty (.table entries)).toList.head? = some '\x7b' := by
  rw [pretty, prettyAt, enclose]
  split_ifs <;> simp [String.append_assoc]

theorem Script.parse_of_brace {text : String} (h : text.toList.head? = some '\x7b') :
    ∃ e, Script.parse text = .error e := by
  obtain ⟨cs, hcs⟩ := List.head?_eq_some_iff.mp h
  have hfirst : Piece.first '\x7b' cs = (.symbol .leftBrace ['\x7b'], cs) := rfl
  have htokens : ∃ t ts, Token.tokenize text = t :: ts ∧ t.kind = .leftBrace := by
    rw [Token.tokenize, hcs, Piece.split, hfirst]
    exact ⟨_, _, rfl, rfl⟩
  obtain ⟨⟨kind, word, span⟩, ts, htokens, rfl⟩ := htokens
  have hscript : ∀ stop, ∃ stuck, Parser.script stop (⟨.leftBrace, word, span⟩ :: ts) = .error stuck := by
    intro stop
    rw [Parser.script]
    exact ⟨_, rfl⟩
  rw [Script.parse, htokens, Script.ofTokens, Reader.script, Reader.rest_ofTokens]
  obtain ⟨stuck, hstuck⟩ := hscript (Reader.ofTokens (⟨.leftBrace, word, span⟩ :: ts)).stop
  rw [hstuck]
  exact ⟨_, rfl⟩

theorem Module.compile_of_brace {text : String} (h : text.toList.head? = some '\x7b') :
    ∃ e, Module.compile text = .error e := by
  obtain ⟨cs, hcs⟩ := List.head?_eq_some_iff.mp h
  have hline : ∃ line lines cs, Line.ofSource text = line :: lines ∧ line.text = '\x7b' :: cs := by
    rw [Line.ofSource, hcs, Text.lines_cons (by decide), Line.numbered, Line.ofRaw?, Text.trim_cons rfl]
    exact ⟨_, _, _, rfl, rfl⟩
  obtain ⟨⟨span, content⟩, lines, cs, hlines, rfl⟩ := hline
  rw [Module.compile, Module.read, hlines]
  exact ⟨_, rfl⟩

theorem Destination.deliver_eq {dest : Destination} {file : String} (hdest : dest.path = none)
    (hfile : file ≠ "-") (houtput : dest.toOutput = false) (json : String) :
    dest.deliver file json =
      ⟨"Wrote: " ++ Path.withExtension file "json" ++ "\n",
        some (Path.withExtension file "json", json)⟩ := by
  have hpath : dest.pathFor file = Path.withExtension file "json" := by
    rw [Destination.pathFor, hdest]
    exact if_neg hfile
  rw [Destination.deliver, houtput, hpath]
  rfl

namespace Command

inductive Compiles (file : String) (dest : Destination) : Command → Prop
  | script : Compiles file dest (.compile file dest)
  | module (dumpData : Bool) : Compiles file dest (.data file dest dumpData)

variable {command : Command} {file text json printed : String} {content : Option String}
  {dest : Destination} {disk : Disk} {place : List String}

theorem Compiles.respond_cases (h : command.Compiles file dest) (text : String) :
    (∃ f, command.respond text = .error f) ∨
      ∃ json, command.respond text = .ok (dest.deliver file json) ∧ json ≠ text := by
  cases h with
  | script =>
    cases hparse : Script.parse text with
    | error e => exact .inl ⟨.compile e, by rw [respond, hparse]; rfl⟩
    | ok script =>
      refine .inr ⟨Json.pretty script.datum, by rw [respond, hparse]; rfl, ?_⟩
      rintro rfl
      obtain ⟨e, he⟩ := Script.parse_of_brace (Json.head?_pretty_table _)
      cases he.symm.trans hparse
  | module dumpData =>
    cases hcompile : Module.compile text with
    | error e => exact .inl ⟨.compile e, by rw [respond, hcompile]; rfl⟩
    | ok module =>
      refine .inr ⟨Json.pretty module.data.datum, by rw [respond, hcompile]; rfl, ?_⟩
      rintro rfl
      obtain ⟨e, he⟩ := Module.compile_of_brace (Json.head?_pretty_table _)
      cases he.symm.trans hcompile

theorem Compiles.respondTo_cases (h : command.Compiles file dest) (content : Option String) :
    (∃ f, command.respondTo content = .error f) ∨
      ∃ json, command.respondTo content = .ok (dest.deliver file json) ∧ content ≠ some json := by
  cases content with
  | none => exact .inl ⟨.file, rfl⟩
  | some text =>
    rcases h.respond_cases text with hfail | ⟨json, hok, hjson⟩
    · exact .inl hfail
    · exact .inr ⟨json, hok, fun hsame => hjson (Option.some.inj hsame).symm⟩

theorem Compiles.textOn (h : command.Compiles file dest) (hfile : file ≠ "-")
    (hheld : disk.Holds file place content) (input : String) : command.textOn disk input = content := by
  have hsource : command.source = .file file := by
    cases h <;> exact if_neg hfile
  rw [Command.textOn, hsource]
  dsimp only
  rw [Disk.read?, hheld.located, Option.bind_some, hheld.content]

theorem save_of_file (h : disk.entryAt place = some (.file content)) (hjson : content ≠ some json) :
    save disk place json printed = ⟨0, printed, [(place, json)], none⟩ := by
  rw [save, h]
  dsimp only
  rw [if_neg hjson]

theorem written_save (disk : Disk) (place : List String) (json printed : String) :
    (save disk place json printed).written = [] ∨
      (save disk place json printed).written = [(place, json)] := by
  unfold save
  split
  · exact .inl rfl
  · exact .inl rfl
  · exact .inl rfl
  · exact .inl rfl
  · split_ifs
    · exact .inl rfl
    · exact .inr rfl
  · exact .inr rfl

theorem eq_of_mem_save {written : List String}
    (h : written ∈ (save disk place json printed).written.map Prod.fst) : written = place := by
  rcases written_save disk place json printed with hnone | hone
  · rw [hnone] at h
    cases h
  · rw [hone] at h
    exact List.mem_singleton.mp h

theorem length_finish_le (output : Output) : (finish disk output).written.length ≤ 1 := by
  unfold finish
  split
  next => exact Nat.zero_le 1
  next path text hsaved =>
    split
    next => exact Nat.zero_le 1
    next place hplace =>
      rcases written_save disk place text output.text with hnone | hone
      · exact hnone ▸ Nat.zero_le 1
      · exact hone ▸ Nat.le_refl 1

theorem finish_saved {path : String} {target : List String} (h : disk.locate path = some target) :
    finish disk ⟨printed, some (path, json)⟩ = save disk target json printed := by
  rw [finish]
  dsimp only
  rw [h]

theorem mem_finish_iff (hdest : dest.path = none) (hfile : file ≠ "-")
    (hheld : disk.Holds file place content) (hjson : content ≠ some json) :
    place ∈ (finish disk (dest.deliver file json)).written.map Prod.fst ↔
      dest.toOutput = false ∧ ∃ above stem, stem ≠ "" ∧ place = above ++ [stem ++ ".json"] := by
  cases houtput : dest.toOutput with
  | true => simp [Destination.deliver, finish, houtput]
  | false =>
    obtain ⟨above, name, target, rfl, htarget, hsame⟩ := Disk.locate_withExtension hheld.located
    rw [Destination.deliver_eq hdest hfile houtput, finish_saved htarget]
    by_cases heq : target = name
    · obtain ⟨stem, hstem, hname⟩ := hsame.mp heq
      rw [heq, save_of_file hheld.content hjson]
      exact iff_of_true (.head _) ⟨rfl, above, stem, hstem, hname ▸ rfl⟩
    · refine iff_of_false (fun hmem => ?_) ?_
      · obtain ⟨-, hname⟩ := List.append_inj' (eq_of_mem_save hmem) rfl
        exact heq (List.singleton_inj.mp hname).symm
      · rintro ⟨-, above', stem, hstem, hplace⟩
        obtain ⟨-, hname⟩ := List.append_inj' hplace rfl
        exact heq (hsame.mpr ⟨stem, hstem, List.singleton_inj.mp hname⟩)

end Command

/-- A command that compiles a file and is not told where to write leaves all files as they are if it
fails, and otherwise writes one file at most. That file is the input exactly if the input is a JSON file
by its name and the result is not printed. -/
theorem Disk.run_input {arguments : List String} {i : Invocation} {file : String} {dest : Destination}
    {disk : Disk} {place : List String} {content : Option String}
    (harguments : Invocation.ofArguments? arguments = some i) (hcommand : i.command.Compiles file dest)
    (hdest : dest.path = none) (hfile : file ≠ "-") (hheld : disk.Holds file place content)
    (input : String) :
    (∀ f, i.command.respondTo content = .error f →
      (disk.run arguments input).exit = 1 ∧ (disk.run arguments input).printed = "" ∧
        (disk.run arguments input).written = []) ∧
    ∀ output, i.command.respondTo content = .ok output →
      (disk.run arguments input).written.length ≤ 1 ∧
        (place ∈ (disk.run arguments input).written.map Prod.fst ↔
          dest.toOutput = false ∧ ∃ above stem, stem ≠ "" ∧ place = above ++ [stem ++ ".json"]) := by
  have hrun : disk.run arguments input = i.command.runOn disk input := by
    rw [Disk.run, harguments]
  rw [hrun, Command.runOn, hcommand.textOn hfile hheld]
  rcases hcommand.respondTo_cases content with ⟨f, hf⟩ | ⟨json, hok, hjson⟩
  · rw [hf]
    refine ⟨fun _ _ => ⟨rfl, rfl, rfl⟩, fun output houtput => ?_⟩
    cases houtput
  · rw [hok]
    refine ⟨fun f hf => ?_, fun _ _ => ?_⟩
    · cases hf
    · exact ⟨Command.length_finish_le _, Command.mem_finish_iff hdest hfile hheld hjson⟩

def Disk.sketches : Disk :=
  ⟨[(["home"], .directory), (["home", "art"], .directory),
    (["home", "art", "shape.smd"], .file (some "float x;")),
    (["home", "art", "shape.json"], .file (some "float x;")), (["home", "photo"], .file none)],
   ["home", "art"]⟩

theorem Disk.sketches_holds_smd :
    sketches.Holds "/home/art/shape.smd" ["home", "art", "shape.smd"] (some "float x;") :=
  ⟨by decide +kernel, by decide +kernel⟩

theorem Disk.sketches_holds_json :
    sketches.Holds "../art/shape.json" ["home", "art", "shape.json"] (some "float x;") :=
  ⟨by decide +kernel, by decide +kernel⟩

theorem Disk.sketches_holds_photo : sketches.Holds "../photo" ["home", "photo"] none :=
  ⟨by decide +kernel, by decide +kernel⟩

theorem Script.exists_parse_declaration : ∃ script, Script.parse "float x;" = .ok script := by
  have htokens : Token.tokenize "float x;" =
      [⟨.type, "float", ⟨1, 1⟩⟩, ⟨.text, "x", ⟨1, 7⟩⟩, ⟨.semicolon, ";", ⟨1, 8⟩⟩] := by decide +kernel
  have hbase : BaseType.ofText? "float" = some .float := by decide +kernel
  have hword : Parser.isNumeric "x" = false := by decide +kernel
  have htop : ∀ stop, ∃ s, (Parser.topLevel stop
      [⟨.type, "float", ⟨1, 1⟩⟩, ⟨.text, "x", ⟨1, 7⟩⟩, ⟨.semicolon, ";", ⟨1, 8⟩⟩]).outcome = .ok (s, []) := by
    intro stop
    rw [Parser.outcome_topLevel]
    dsimp only
    rw [Parser.outcome_declaration, Parser.outcome_typeSpec, Parser.outcome_take]
    simp only [if_true, Parser.Outcome.andThen_ok, hbase]
    rw [Parser.skipListMark, if_neg (by decide), Parser.outcome_takeName]
    simp only [if_true, Parser.Outcome.andThen_ok, hword, and_self]
    rw [if_neg (by decide), Parser.outcome_initializer, if_neg (by decide), Parser.outcome_take]
    exact ⟨_, rfl⟩
  rw [Script.parse, htokens, Script.ofTokens_eq, Parser.script_cons, if_neg (by decide)]
  obtain ⟨s, hs⟩ := htop (Reader.ofTokens
    [⟨.type, "float", ⟨1, 1⟩⟩, ⟨.text, "x", ⟨1, 7⟩⟩, ⟨.semicolon, ";", ⟨1, 8⟩⟩]).stop
  rw [hs]
  dsimp only
  rw [Parser.script_nil]
  exact ⟨_, rfl⟩

theorem Command.exists_respond_declaration (file : String) (dest : Destination) :
    ∃ output, (compile file dest).respondTo (some "float x;") = .ok output := by
  obtain ⟨script, hparse⟩ := Script.exists_parse_declaration
  rw [respondTo, respond, hparse]
  exact ⟨_, rfl⟩

theorem Disk.run_input_sketches :
    ["home", "art", "shape.smd"] ∉
        (sketches.run ["compile", "/home/art/shape.smd"] "").written.map Prod.fst ∧
      ["home", "art", "shape.json"] ∈
        (sketches.run ["compile", "../art/shape.json"] "").written.map Prod.fst ∧
      (sketches.run ["data", "../photo"] "").exit = 1 ∧
      (sketches.run ["data", "../photo"] "").written = [] := by
  have hsmd : Invocation.ofArguments? ["compile", "/home/art/shape.smd"] =
      some ⟨false, false, .compile "/home/art/shape.smd" ⟨none, false⟩⟩ := by decide +kernel
  have hjson : Invocation.ofArguments? ["compile", "../art/shape.json"] =
      some ⟨false, false, .compile "../art/shape.json" ⟨none, false⟩⟩ := by decide +kernel
  have hdata : Invocation.ofArguments? ["data", "../photo"] =
      some ⟨false, false, .data "../photo" ⟨none, false⟩ false⟩ := by decide +kernel
  obtain ⟨_, hkept⟩ := Command.exists_respond_declaration "/home/art/shape.smd" ⟨none, false⟩
  obtain ⟨_, hlost⟩ := Command.exists_respond_declaration "../art/shape.json" ⟨none, false⟩
  refine ⟨fun hmem => ?_, ?_, ?_⟩
  · obtain ⟨-, above, stem, -, hplace⟩ :=
      ((run_input hsmd .script rfl (by decide) sketches_holds_smd "").2 _ hkept).2.mp hmem
    have hplace : ["home", "art"] ++ ["shape.smd"] = above ++ [stem ++ ".json"] := hplace
    obtain ⟨-, hname⟩ := List.append_inj' hplace rfl
    have hlast := congrArg (fun name => name.toList.getLast?) (List.singleton_inj.mp hname)
    simp at hlast
  · exact ((run_input hjson .script rfl (by decide) sketches_holds_json "").2 _ hlost).2.mpr
      ⟨rfl, ["home", "art"], "shape", by decide, by decide +kernel⟩
  · obtain ⟨hexit, -, hwritten⟩ :=
      (run_input hdata (.module false) rfl (by decide) sketches_holds_photo "").1 _ rfl
    exact ⟨hexit, hwritten⟩

/-- A script under the name of a JSON file is lost when it is compiled. -/
theorem script_overwritten :
    ∃ json, json ≠ "float x;" ∧
      runArguments ["compile", "shape.json"] ⟨[("shape.json", "float x;")]⟩ "" =
        ⟨0, "Wrote: shape.json\n", [("shape.json", json)], none⟩ := by
  have harguments : Invocation.ofArguments? ["compile", "shape.json"] =
      some ⟨false, false, .compile "shape.json" ⟨none, false⟩⟩ := by decide +kernel
  have hpath : Path.withExtension "shape.json" "json" = "shape.json" := by decide +kernel
  have hheld : (Folder.disk ⟨[("shape.json", "float x;")]⟩).Holds "shape.json" ["folder", "shape.json"]
      (some "float x;") := ⟨by decide +kernel, by decide +kernel⟩
  obtain ⟨output, houtput⟩ := Command.exists_respond_declaration "shape.json" ⟨none, false⟩
  rcases Command.Compiles.script.respondTo_cases (some "float x;") with ⟨f, hf⟩ | ⟨json, hok, hjson⟩
  · cases hf.symm.trans houtput
  · have hrun : (Folder.disk ⟨[("shape.json", "float x;")]⟩).run ["compile", "shape.json"] "" =
        ⟨0, "Wrote: shape.json\n", [(["folder", "shape.json"], json)], none⟩ := by
      rw [Disk.run, harguments]
      dsimp only
      rw [Command.runOn, Command.Compiles.script.textOn (by decide) hheld, hok]
      dsimp only
      rw [Destination.deliver_eq rfl (by decide) rfl, hpath, Command.finish_saved hheld.located,
        Command.save_of_file hheld.content hjson]
      rfl
    refine ⟨json, fun hsame => hjson (congrArg some hsame.symm), ?_⟩
    rw [runArguments, hrun]
    rfl

end DrawScript
