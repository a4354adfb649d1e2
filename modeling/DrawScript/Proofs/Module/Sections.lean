import DrawScript.Proofs.Module.Dump

/-!
The texts that are modules. Reading line by line accepts exactly the texts whose lines are at most one
directive and then sections in their order, each with its header, where the lines of the data section
declare variables of different names; what is read are these variables and the lines of the other
sections.
-/

namespace DrawScript

open Text

namespace Line

def counted (source : String) : List Line :=
  (((lines source.toList).zipIdx 1).map fun r => ⟨⟨r.2, indentation r.1 + 1⟩, trim r.1⟩).filter
    fun line => line.text ≠ [] ∧ ¬ ['/', '/'] <+: line.text

theorem numbered_eq (number : Nat) (raws : List (List Char)) :
    numbered number raws =
      ((raws.zipIdx number).map fun r => (⟨⟨r.2, indentation r.1 + 1⟩, trim r.1⟩ : Line)).filter
        fun line => line.text ≠ [] ∧ ¬ ['/', '/'] <+: line.text := by
  induction raws generalizing number with
  | nil => rfl
  | cons raw raws ih =>
    rw [numbered, ofRaw?, ih, List.zipIdx_cons, List.map_cons]
    split
    next line hline =>
      split at hline
      next => cases hline
      next => cases hline
      next text hnil hslash =>
        cases hline
        have hcomment : ¬ ['/', '/'] <+: trim raw := by
          rintro ⟨rest, hrest⟩
          exact hslash rest hrest.symm
        rw [List.filter_cons_of_pos]
        exact decide_eq_true (And.intro hnil hcomment)
    next hline =>
      split at hline
      next hnil => exact (List.filter_cons_of_neg (by simp [hnil])).symm
      next rest hslash => exact (List.filter_cons_of_neg (by simp [hslash])).symm
      next => cases hline

theorem ofSource_eq_counted (source : String) : ofSource source = counted source :=
  numbered_eq 1 _

def Plain (line : Line) : Prop := line.text.head? ≠ some '@'

theorem Plain.text_ne {line : Line} (h : line.Plain) (cs : List Char) : line.text ≠ '@' :: cs := by
  intro htext
  exact h (by rw [htext]; rfl)

def Opens (line : Line) (s : Section) : Prop :=
  ∃ cs word rest, line.text = '@' :: cs ∧ words cs = word :: rest ∧
    String.ofList (lowerCase word) = s.header

theorem Opens.not_plain {line : Line} {s : Section} (h : line.Opens s) : ¬ line.Plain := by
  obtain ⟨cs, -, -, htext, -, -⟩ := h
  exact fun hplain => hplain.text_ne cs htext

def AsksForDump (line : Line) : Prop :=
  ∃ word ∈ words (line.text.dropWhile (· == '#')),
    String.ofList (lowerCase word) = "dd" ∨ String.ofList (lowerCase word) = "dumpdata"

theorem asksForDump_eq_true_iff {line : Line} : asksForDump line.text = true ↔ line.AsksForDump := by
  simp [asksForDump, directiveWords, AsksForDump]

theorem exists_plain_append (lines : List Line) :
    ∃ body rest, lines = body ++ rest ∧ (∀ line ∈ body, line.Plain) ∧
      (rest = [] ∨ ∃ header rest', rest = header :: rest' ∧ ¬ header.Plain) := by
  induction lines with
  | nil => exact ⟨[], [], rfl, List.forall_mem_nil _, .inl rfl⟩
  | cons line lines ih =>
    by_cases hline : line.Plain
    · obtain ⟨body, rest, rfl, hbody, hrest⟩ := ih
      exact ⟨line :: body, rest, rfl, List.forall_mem_cons.mpr ⟨hline, hbody⟩, hrest⟩
    · exact ⟨[], line :: lines, rfl, List.forall_mem_nil _, .inr ⟨line, lines, rfl, hline⟩⟩

end Line

theorem headerName_eq_header_iff {cs : List Char} {s : Section} :
    headerName cs = s.header ↔
      ∃ word rest, words cs = word :: rest ∧ String.ofList (lowerCase word) = s.header := by
  unfold headerName
  cases words cs with
  | nil =>
    have hne : "" ≠ s.header := by cases s <;> decide
    simp [hne]
  | cons word rest => simp

theorem TypeName.ofText?_eq_concrete_iff {word : String} {t : ElementType} :
    TypeName.ofText? word = some (.concrete t) ↔ word.toLower = t.text := by
  constructor
  · intro h
    have htext := List.find?_some h
    exact (beq_iff_eq.mp htext).symm
  · intro h
    unfold ofText?
    rw [h]
    cases t <;> decide

theorem dropListMark_append (base : List Char) :
    dropListMark (String.ofList (base ++ ['[', ']'])) = (String.ofList base, true) := by
  simp [dropListMark]

theorem dropListMark_of_not_suffix {word : List Char} (h : ¬ ['[', ']'] <:+ word) :
    dropListMark (String.ofList word) = (String.ofList word, false) := by
  unfold dropListMark
  split
  next rest hrest =>
    refine absurd ⟨rest.reverse, ?_⟩ h
    rw [String.toList_ofList, List.reverse_eq_iff] at hrest
    simp [hrest]
  next => rfl

theorem not_suffix_of_toLower {word : List Char} {t : ElementType}
    (h : (String.ofList word).toLower = t.text) : ¬ ['[', ']'] <:+ word := by
  rintro ⟨base, rfl⟩
  have hlist := congrArg String.toList h
  have hmem : ']' ∈ t.text.toList := by
    rw [← hlist]
    change ']' ∈ (String.map Char.toLower _).toList
    rw [String.toList_map]
    exact List.mem_map.mpr ⟨']', by simp, by decide⟩
  cases t <;> exact absurd hmem (by decide)

namespace Declaration

/-- The variable that a line declares: a type, a new name, an equals sign and a value that may be
divided by blanks. A list is marked by brackets after its type. -/
inductive Declares (line : Line) : Variable → Prop
  | singlet (t : ElementType) (type name value : List Char) (values : List (List Char)) (w : Value)
      (hwords : words line.text = type :: name :: ['='] :: value :: values)
      (hname : isName name = true) (htype : (String.ofList type).toLower = t.text)
      (hvalue : Literal.value (value ++ values.flatten) t line.span = .ok w) :
      Declares line (.singlet (String.ofList name) w)
  | list (t : ElementType) (type name value : List Char) (values : List (List Char))
      (ws : List Value)
      (hwords : words line.text = (type ++ ['[', ']']) :: name :: ['='] :: value :: values)
      (hname : isName name = true) (htype : (String.ofList type).toLower = t.text)
      (hvalue : Literal.list (value ++ values.flatten) t line.span = .ok ws) :
      Declares line (.list (String.ofList name) t ws)

variable {word name : List Char} {span : Span}

theorem operandType_eq_ok_iff {type : OperandType} :
    operandType word name span = .ok type ↔
      ∃ base, word = base ++ (if type.isList then ['[', ']'] else []) ∧
        (String.ofList base).toLower = type.element.text := by
  constructor
  · intro h
    unfold operandType at h
    by_cases hmark : ['[', ']'] <:+ word
    · obtain ⟨base, rfl⟩ := hmark
      rw [dropListMark_append] at h
      dsimp only at h
      split at h
      next t ht =>
        cases h
        exact ⟨base, rfl, TypeName.ofText?_eq_concrete_iff.mp ht⟩
      next => cases h
      next => cases h
    · rw [dropListMark_of_not_suffix hmark] at h
      dsimp only at h
      split at h
      next t ht =>
        cases h
        exact ⟨word, (List.append_nil word).symm, TypeName.ofText?_eq_concrete_iff.mp ht⟩
      next => cases h
      next => cases h
  · rintro ⟨base, rfl, h⟩
    unfold operandType
    cases type with
    | singlet t =>
      have hmark : (if (OperandType.singlet t).isList then ['[', ']'] else []) = [] := rfl
      rw [hmark, List.append_nil, dropListMark_of_not_suffix (not_suffix_of_toLower h)]
      dsimp only
      rw [TypeName.ofText?_eq_concrete_iff.mpr h]
      rfl
    | list t =>
      have hmark : (if (OperandType.list t).isList then ['[', ']'] else []) = ['[', ']'] := rfl
      rw [hmark, dropListMark_append]
      dsimp only
      rw [TypeName.ofText?_eq_concrete_iff.mpr h]
      rfl

theorem exists_of_map_eq_ok {ε α β : Type} {x : Except ε α} {f : α → β} {b : β}
    (h : x.map f = .ok b) : ∃ a, x = .ok a ∧ f a = b := by
  cases x with
  | error => cases h
  | ok a => exact ⟨a, rfl, Except.ok.inj h⟩

theorem declares_of_parse {line : Line} {v : Variable} (h : parse line = .ok v) :
    Declares line v := by
  unfold parse at h
  split at h
  next type name mark value values hwords =>
    split_ifs at h with hmark hname
    rw [not_not] at hmark
    subst hmark
    obtain ⟨operand, hoperand, hvariable⟩ := exists_of_bind_eq_ok h
    have hname : isName name = true := by simpa using hname
    obtain ⟨base, rfl, hbase⟩ := operandType_eq_ok_iff.mp hoperand
    cases operand with
    | singlet t =>
      obtain ⟨w, hw, rfl⟩ := exists_of_map_eq_ok hvariable
      have hwords : words line.text = base :: name :: ['='] :: value :: values := by
        rw [hwords]
        exact congrArg (· :: _) (List.append_nil base)
      exact .singlet t base name value values w hwords hname hbase hw
    | list t =>
      obtain ⟨ws, hws, rfl⟩ := exists_of_map_eq_ok hvariable
      exact .list t base name value values ws hwords hname hbase hws
  next => cases h

theorem parse_of_declares {line : Line} {v : Variable} (h : Declares line v) :
    parse line = .ok v := by
  unfold parse
  cases h with
  | singlet t type name value values w hwords hname htype hvalue =>
    have hoperand : operandType type name line.span = .ok (.singlet t) :=
      operandType_eq_ok_iff.mpr ⟨type, (List.append_nil type).symm, htype⟩
    rw [hwords]
    simp [hname, hoperand, variableOf, hvalue, Except.map, bind, Except.bind]
  | list t type name value values ws hwords hname htype hvalue =>
    have hoperand : operandType (type ++ ['[', ']']) name line.span = .ok (.list t) :=
      operandType_eq_ok_iff.mpr ⟨type, rfl, htype⟩
    rw [hwords]
    simp [hname, hoperand, variableOf, hvalue, Except.map, bind, Except.bind]

theorem parse_eq_ok_iff {line : Line} {v : Variable} : parse line = .ok v ↔ Declares line v :=
  ⟨declares_of_parse, parse_of_declares⟩

end Declaration

/-- What stands before the first section, and whether it asks for the declared data. -/
inductive Directive : List Line → Bool → Prop
  | none : Directive [] false
  | line (line : Line) (dump : Bool) (hmark : line.text.head? = some '#')
      (hdump : dump = true ↔ line.AsksForDump) : Directive [line] dump

theorem Directive.plain {lines : List Line} {dump : Bool} (h : Directive lines dump) :
    ∀ line ∈ lines, line.Plain := by
  cases h with
  | none => exact List.forall_mem_nil _
  | line line dump hmark => simp [Line.Plain, hmark]

/-- Sections that follow one another in the given order, each with the lines after its header. The
last ones may be missing. -/
inductive Sections : List Section → List Line → List (List Line) → Prop
  | none (order : List Section) : Sections order [] []
  | cons {s : Section} {order : List Section} {header : Line} {body rest : List Line}
      {bodies : List (List Line)} (hheader : header.Opens s) (hbody : ∀ line ∈ body, line.Plain)
      (hrest : Sections order rest bodies) :
      Sections (s :: order) (header :: (body ++ rest)) (body :: bodies)

theorem sections_nil_iff {lines : List Line} {bodies : List (List Line)} :
    Sections [] lines bodies ↔ lines = [] ∧ bodies = [] := by
  constructor
  · rintro ⟨⟩
    exact ⟨rfl, rfl⟩
  · rintro ⟨rfl, rfl⟩
    exact .none []

theorem sections_cons_iff {s : Section} {order : List Section} {lines : List Line}
    {bodies : List (List Line)} :
    Sections (s :: order) lines bodies ↔
      lines = [] ∧ bodies = [] ∨
        ∃ header body rest bodies', lines = header :: (body ++ rest) ∧ bodies = body :: bodies' ∧
          header.Opens s ∧ (∀ line ∈ body, line.Plain) ∧ Sections order rest bodies' := by
  constructor
  · rintro (_ | ⟨hheader, hbody, hrest⟩)
    · exact .inl ⟨rfl, rfl⟩
    · exact .inr ⟨_, _, _, _, rfl, rfl, hheader, hbody, hrest⟩
  · rintro (⟨rfl, rfl⟩ | ⟨header, body, rest, bodies', rfl, rfl, hheader, hbody, hrest⟩)
    · exact .none _
    · exact .cons hheader hbody hrest

namespace Module

namespace State

variable {s t : State} {m : Module}

theorem run_cons_eq_iff {line : Line} {lines : List Line} :
    s.run (line :: lines) = (t, none) ↔ ∃ s', Step s line s' ∧ s'.run lines = (t, none) := by
  rw [run]
  constructor
  · intro h
    split at h
    next s' hs' => exact ⟨s', Step.of_step hs', h⟩
    next => cases h
  · rintro ⟨s', hs', h⟩
    rw [hs'.step_eq]
    exact h

theorem run_append_eq_iff {xs ys : List Line} :
    s.run (xs ++ ys) = (t, none) ↔ ∃ s', s.run xs = (s', none) ∧ s'.run ys = (t, none) := by
  induction xs generalizing s with
  | nil => simp [run]
  | cons line xs ih =>
    rw [List.cons_append, run_cons_eq_iff]
    constructor
    · rintro ⟨s', hs', h⟩
      obtain ⟨s'', h₁, h₂⟩ := ih.mp h
      exact ⟨s'', run_cons_eq_iff.mpr ⟨s', hs', h₁⟩, h₂⟩
    · rintro ⟨s'', h₁, h₂⟩
      obtain ⟨s', hs', h₁⟩ := run_cons_eq_iff.mp h₁
      exact ⟨s', hs', ih.mpr ⟨s'', h₁, h₂⟩⟩

theorem run_append_of_ok {xs ys : List Line} (h : s.run xs = (t, none)) :
    s.run (xs ++ ys) = t.run ys := by
  induction xs generalizing s with
  | nil =>
    cases h
    rfl
  | cons line xs ih =>
    obtain ⟨s', hs', h⟩ := run_cons_eq_iff.mp h
    rw [List.cons_append, run, hs'.step_eq]
    exact ih h

theorem outcome_run_eq_iff {lines : List Line} :
    outcome (s.run lines) = .ok m ↔ ∃ t, s.run lines = (t, none) ∧ t.module = m := by
  cases h : s.run lines with
  | mk t error => cases error <;> simp [outcome]

theorem step_header_iff {header : Line} (h : ¬ header.Plain) :
    Step s header t ↔
      ∃ next, s.current.next? = some next ∧ header.Opens next ∧ t = { s with current := next } := by
  have hat : header.text.head? = some '@' := not_not.mp h
  constructor
  · rintro (⟨cs, next, htext, hnext, hname⟩ | ⟨-, hmark, -⟩ | ⟨-, -, hplain, -, -, -⟩ | ⟨hplain, -⟩ |
      ⟨hplain, -⟩)
    · obtain ⟨word, rest, hwords, hword⟩ := headerName_eq_header_iff.mp hname
      exact ⟨next, hnext, ⟨cs, word, rest, htext, hwords, hword⟩, rfl⟩
    · simp [hat] at hmark
    all_goals exact absurd hat hplain
  · rintro ⟨next, hnext, ⟨cs, word, rest, htext, hwords, hword⟩, rfl⟩
    exact .enter cs next htext hnext (headerName_eq_header_iff.mpr ⟨word, rest, hwords, hword⟩)

theorem Step.current_of_plain {line : Line} (h : Step s line t) (hline : line.Plain) :
    t.current = s.current := by
  cases h with
  | enter cs next htext => exact absurd htext (hline.text_ne cs)
  | direct | declare | keepFunction | keepProgram => rfl

theorem current_of_run_plain {body : List Line} (hbody : ∀ line ∈ body, line.Plain)
    (h : s.run body = (t, none)) : t.current = s.current := by
  induction body generalizing s with
  | nil =>
    cases h
    rfl
  | cons line body ih =>
    obtain ⟨hline, hbody⟩ := List.forall_mem_cons.mp hbody
    obtain ⟨s', hs', h⟩ := run_cons_eq_iff.mp h
    rw [ih hbody h, hs'.current_of_plain hline]

theorem outcome_run_iff_body {lines : List Line} :
    outcome (s.run lines) = .ok m ↔
      ∃ body rest s', lines = body ++ rest ∧ (∀ line ∈ body, line.Plain) ∧
        s.run body = (s', none) ∧
        (rest = [] ∧ s'.module = m ∨
          ∃ header lines' next, rest = header :: lines' ∧ s.current.next? = some next ∧
            header.Opens next ∧ outcome (State.run { s' with current := next } lines') = .ok m) := by
  constructor
  · intro h
    obtain ⟨t, hrun, rfl⟩ := outcome_run_eq_iff.mp h
    obtain ⟨body, rest, rfl, hbody, hrest⟩ := Line.exists_plain_append lines
    obtain ⟨s', hs', hrun⟩ := run_append_eq_iff.mp hrun
    refine ⟨body, rest, s', rfl, hbody, hs', ?_⟩
    rcases hrest with rfl | ⟨header, lines', rfl, hheader⟩
    · cases hrun
      exact .inl ⟨rfl, rfl⟩
    · obtain ⟨s'', hs'', hrun⟩ := run_cons_eq_iff.mp hrun
      obtain ⟨next, hnext, hopens, rfl⟩ := (step_header_iff hheader).mp hs''
      rw [current_of_run_plain hbody hs'] at hnext
      exact .inr ⟨header, lines', next, rfl, hnext, hopens, outcome_run_eq_iff.mpr ⟨t, hrun, rfl⟩⟩
  · rintro ⟨body, rest, s', rfl, hbody, hs', hrest⟩
    rw [outcome_run_eq_iff]
    rcases hrest with ⟨rfl, rfl⟩ | ⟨header, lines', next, rfl, hnext, hopens, hrest⟩
    · exact ⟨s', by rwa [List.append_nil], rfl⟩
    · obtain ⟨t, hrun, rfl⟩ := outcome_run_eq_iff.mp hrest
      rw [← current_of_run_plain hbody hs'] at hnext
      refine ⟨t, run_append_eq_iff.mpr ⟨s', hs', run_cons_eq_iff.mpr ⟨_, ?_, hrun⟩⟩, rfl⟩
      exact (step_header_iff hopens.not_plain).mpr ⟨next, hnext, hopens, rfl⟩

variable {body : List Line}

theorem step_start_iff {line : Line} {seen : Bool} (hline : line.Plain) :
    Step ⟨.start, seen, m⟩ line t ↔
      line.text.head? = some '#' ∧ seen = false ∧
        t = ⟨.start, true, { m with dumpData := asksForDump line.text }⟩ := by
  constructor
  · intro h
    cases h with
    | enter cs next htext => exact absurd htext (hline.text_ne cs)
    | declare _ _ _ hcurrent | keepFunction _ hcurrent | keepProgram _ hcurrent => cases hcurrent
    | direct _ hmark hseen => exact ⟨hmark, hseen, rfl⟩
  · rintro ⟨hmark, rfl, rfl⟩
    exact .direct rfl hmark rfl

theorem run_start_iff (hbody : ∀ line ∈ body, line.Plain) :
    start.run body = (t, none) ↔
      ∃ dump, Directive body dump ∧
        t = ⟨.start, !body.isEmpty, { Module.empty with dumpData := dump }⟩ := by
  constructor
  · intro h
    match body with
    | [] =>
      cases h
      exact ⟨false, .none, rfl⟩
    | [line] =>
      obtain ⟨s', hs', h⟩ := run_cons_eq_iff.mp h
      obtain ⟨hmark, -, rfl⟩ := (step_start_iff (hbody line (by simp))).mp hs'
      cases h
      exact ⟨_, .line line _ hmark Line.asksForDump_eq_true_iff, rfl⟩
    | line :: second :: rest =>
      -- The second line finds the directive already read.
      obtain ⟨s', hs', h⟩ := run_cons_eq_iff.mp h
      obtain ⟨-, -, rfl⟩ := (step_start_iff (hbody line (by simp))).mp hs'
      obtain ⟨s'', hs'', -⟩ := run_cons_eq_iff.mp h
      obtain ⟨-, hseen, -⟩ := (step_start_iff (hbody second (by simp))).mp hs''
      cases hseen
  · rintro ⟨dump, hdirective, rfl⟩
    cases hdirective with
    | none => rfl
    | line line dump hmark hdump =>
      obtain rfl : asksForDump line.text = dump :=
        Bool.eq_iff_iff.mpr (Line.asksForDump_eq_true_iff.trans hdump.symm)
      exact run_cons_eq_iff.mpr ⟨_, .direct rfl hmark rfl, rfl⟩

variable {seen dump : Bool} {data : Table} {functions program : List KeptLine}

theorem step_data_iff {line : Line} (hline : line.Plain) :
    Step ⟨.data, seen, ⟨dump, data, functions, program⟩⟩ line t ↔
      ∃ v data', Declaration.Declares line v ∧ data.declare v line.span = .ok data' ∧
        t = ⟨.data, seen, ⟨dump, data', functions, program⟩⟩ := by
  constructor
  · intro h
    cases h with
    | enter cs next htext => exact absurd htext (hline.text_ne cs)
    | direct hcurrent | keepFunction _ hcurrent | keepProgram _ hcurrent => cases hcurrent
    | declare v data' _ _ hv hdata => exact ⟨v, data', Declaration.parse_eq_ok_iff.mp hv, hdata, rfl⟩
  · rintro ⟨v, data', hv, hdata, rfl⟩
    exact .declare v data' hline rfl (Declaration.parse_eq_ok_iff.mpr hv) hdata

theorem run_data_iff (hbody : ∀ line ∈ body, line.Plain) :
    State.run ⟨.data, seen, ⟨dump, data, functions, program⟩⟩ body = (t, none) ↔
      ∃ vs data', List.Forall₂ Declaration.Declares body vs ∧ data'.entries = data.entries ++ vs ∧
        t = ⟨.data, seen, ⟨dump, data', functions, program⟩⟩ := by
  induction body generalizing data with
  | nil =>
    constructor
    · intro h
      cases h
      exact ⟨[], data, .nil, (List.append_nil _).symm, rfl⟩
    · rintro ⟨vs, data', hvs, hdata, rfl⟩
      cases hvs
      rw [Table.eq_of_entries (hdata.trans (List.append_nil _))]
      rfl
  | cons line body ih =>
    obtain ⟨hline, hbody⟩ := List.forall_mem_cons.mp hbody
    rw [run_cons_eq_iff]
    constructor
    · rintro ⟨s', hs', h⟩
      obtain ⟨v, data₁, hv, hdata₁, rfl⟩ := (step_data_iff hline).mp hs'
      obtain ⟨vs, data', hvs, hdata', rfl⟩ := (ih hbody).mp h
      refine ⟨v :: vs, data', .cons hv hvs, ?_, rfl⟩
      rw [hdata', (Table.declare_eq_ok_iff.mp hdata₁).2, List.append_assoc]
      rfl
    · rintro ⟨_, data', hlines, hdata', rfl⟩
      obtain ⟨v, vs, hv, hvs, rfl⟩ := List.forall₂_cons_left_iff.mp hlines
      have hname : v.name ∉ data.names := Table.not_mem_names_of_nodup (hdata' ▸ data'.distinct)
      obtain ⟨data₁, hdata₁⟩ := Table.exists_declare hname line.span
      refine ⟨_, (step_data_iff hline).mpr ⟨v, data₁, hv, hdata₁, rfl⟩, (ih hbody).mpr ?_⟩
      refine ⟨vs, data', hvs, ?_, rfl⟩
      rw [hdata', (Table.declare_eq_ok_iff.mp hdata₁).2, List.append_assoc]
      rfl

theorem run_functions (hbody : ∀ line ∈ body, line.Plain) :
    State.run ⟨.functions, seen, ⟨dump, data, functions, program⟩⟩ body =
      (⟨.functions, seen, ⟨dump, data, functions ++ body.map keep, program⟩⟩, none) := by
  induction body generalizing functions with
  | nil => simp [run]
  | cons line body ih =>
    obtain ⟨hline, hbody⟩ := List.forall_mem_cons.mp hbody
    rw [List.map_cons, List.append_cons]
    exact run_cons_eq_iff.mpr ⟨_, .keepFunction hline rfl, ih hbody⟩

theorem run_program (hbody : ∀ line ∈ body, line.Plain) :
    State.run ⟨.program, seen, ⟨dump, data, functions, program⟩⟩ body =
      (⟨.program, seen, ⟨dump, data, functions, program ++ body.map keep⟩⟩, none) := by
  induction body generalizing program with
  | nil => simp [run]
  | cons line body ih =>
    obtain ⟨hline, hbody⟩ := List.forall_mem_cons.mp hbody
    rw [List.map_cons, List.append_cons]
    exact run_cons_eq_iff.mpr ⟨_, .keepProgram hline rfl, ih hbody⟩

theorem outcome_program_iff {lines : List Line} :
    outcome (State.run ⟨.program, seen, ⟨dump, data, functions, program⟩⟩ lines) = .ok m ↔
      (∀ line ∈ lines, line.Plain) ∧ m = ⟨dump, data, functions, program ++ lines.map keep⟩ := by
  rw [outcome_run_iff_body]
  constructor
  · rintro ⟨body, rest, s', rfl, hbody, hs', ⟨rfl, rfl⟩ | ⟨header, lines', next, -, hnext, -, -⟩⟩
    · rw [run_program hbody] at hs'
      cases hs'
      simpa using hbody
    · cases hnext
  · rintro ⟨hlines, rfl⟩
    exact ⟨lines, [], _, (List.append_nil _).symm, hlines, run_program hlines, .inl ⟨rfl, rfl⟩⟩

theorem outcome_functions_iff {lines : List Line} :
    outcome (State.run ⟨.functions, seen, ⟨dump, data, functions, []⟩⟩ lines) = .ok m ↔
      ∃ body rest bodies, lines = body ++ rest ∧ (∀ line ∈ body, line.Plain) ∧
        Sections [.program] rest bodies ∧
        m = ⟨dump, data, functions ++ body.map keep, (bodies.getD 0 []).map keep⟩ := by
  rw [outcome_run_iff_body]
  constructor
  · rintro ⟨body, rest, s', rfl, hbody, hs', hrest⟩
    rw [run_functions hbody] at hs'
    cases hs'
    rcases hrest with ⟨rfl, rfl⟩ | ⟨header, lines', next, rfl, hnext, hopens, hrest⟩
    · exact ⟨body, [], [], rfl, hbody, .none _, rfl⟩
    · cases hnext
      obtain ⟨hlines', rfl⟩ := outcome_program_iff.mp hrest
      refine ⟨body, _, [lines'], rfl, hbody, ?_, rfl⟩
      exact sections_cons_iff.mpr (.inr ⟨header, lines', [], [], by simp, rfl, hopens, hlines',
        .none _⟩)
  · rintro ⟨body, rest, bodies, rfl, hbody, hrest, rfl⟩
    refine ⟨body, rest, _, rfl, hbody, run_functions hbody, ?_⟩
    rcases sections_cons_iff.mp hrest with
      ⟨rfl, rfl⟩ | ⟨header, lines', rest', bodies', rfl, rfl, hopens, hlines', hrest'⟩
    · exact .inl ⟨rfl, rfl⟩
    · obtain ⟨rfl, rfl⟩ := sections_nil_iff.mp hrest'
      rw [List.append_nil]
      exact .inr ⟨header, lines', .program, rfl, rfl, hopens,
        outcome_program_iff.mpr ⟨hlines', rfl⟩⟩

theorem outcome_data_iff {lines : List Line} :
    outcome (State.run ⟨.data, seen, ⟨dump, .empty, [], []⟩⟩ lines) = .ok m ↔
      ∃ body rest bodies, lines = body ++ rest ∧ (∀ line ∈ body, line.Plain) ∧
        Sections [.functions, .program] rest bodies ∧
        List.Forall₂ Declaration.Declares body m.data.entries ∧ m.dumpData = dump ∧
        m.functions = (bodies.getD 0 []).map keep ∧ m.program = (bodies.getD 1 []).map keep := by
  rw [outcome_run_iff_body]
  constructor
  · rintro ⟨body, rest, s', rfl, hbody, hs', hrest⟩
    obtain ⟨vs, data, hvs, hdata, rfl⟩ := (run_data_iff hbody).mp hs'
    have hvs : List.Forall₂ Declaration.Declares body data.entries := by
      rw [hdata]
      exact hvs
    rcases hrest with ⟨rfl, rfl⟩ | ⟨header, lines', next, rfl, hnext, hopens, hrest⟩
    · exact ⟨body, [], [], rfl, hbody, .none _, hvs, rfl, rfl, rfl⟩
    · cases hnext
      obtain ⟨body', rest, bodies, rfl, hbody', hsections, rfl⟩ := outcome_functions_iff.mp hrest
      exact ⟨body, _, body' :: bodies, rfl, hbody, .cons hopens hbody' hsections, hvs, rfl, rfl,
        rfl⟩
  · obtain ⟨dump', data, functions, program⟩ := m
    rintro ⟨body, rest, bodies, rfl, hbody, hrest, hvs, rfl, rfl, rfl⟩
    refine ⟨body, rest, _, rfl, hbody, (run_data_iff hbody).mpr ⟨_, data, hvs, rfl, rfl⟩, ?_⟩
    rcases sections_cons_iff.mp hrest with
      ⟨rfl, rfl⟩ | ⟨header, body', rest', bodies', rfl, rfl, hopens, hbody', hrest'⟩
    · exact .inl ⟨rfl, rfl⟩
    · exact .inr ⟨header, _, .functions, rfl, rfl, hopens,
        outcome_functions_iff.mpr ⟨body', rest', bodies', rfl, hbody', hrest', rfl⟩⟩

theorem outcome_start_iff {lines : List Line} :
    outcome (start.run lines) = .ok m ↔
      ∃ directive rest bodies, lines = directive ++ rest ∧ Directive directive m.dumpData ∧
        Sections [.data, .functions, .program] rest bodies ∧
        List.Forall₂ Declaration.Declares (bodies.getD 0 []) m.data.entries ∧
        m.functions = (bodies.getD 1 []).map keep ∧ m.program = (bodies.getD 2 []).map keep := by
  rw [outcome_run_iff_body]
  constructor
  · rintro ⟨directive, rest, s', rfl, hdirective, hs', hrest⟩
    obtain ⟨dump, hdump, rfl⟩ := (run_start_iff hdirective).mp hs'
    rcases hrest with ⟨rfl, rfl⟩ | ⟨header, lines', next, rfl, hnext, hopens, hrest⟩
    · exact ⟨directive, [], [], rfl, hdump, .none _, .nil, rfl, rfl⟩
    · cases hnext
      obtain ⟨body, rest, bodies, rfl, hbody, hsections, hvs, rfl, hkept⟩ :=
        outcome_data_iff.mp hrest
      exact ⟨directive, _, body :: bodies, rfl, hdump, .cons hopens hbody hsections, hvs, hkept⟩
  · rintro ⟨directive, rest, bodies, rfl, hdump, hrest, hvs, hfunctions, hprogram⟩
    refine ⟨directive, rest, _, rfl, hdump.plain, (run_start_iff hdump.plain).mpr ⟨_, hdump, rfl⟩, ?_⟩
    rcases sections_cons_iff.mp hrest with
      ⟨rfl, rfl⟩ | ⟨header, body, rest', bodies', rfl, rfl, hopens, hbody, hrest'⟩
    · obtain ⟨dump, data, functions, program⟩ := m
      have hdata : data = .empty := Table.eq_of_entries (List.forall₂_nil_left_iff.mp hvs)
      subst hdata hfunctions hprogram
      exact .inl ⟨rfl, rfl⟩
    · exact .inr ⟨header, _, .data, rfl, rfl, hopens, outcome_data_iff.mpr
        ⟨body, rest', bodies', rfl, hbody, hrest', hvs, rfl, hfunctions, hprogram⟩⟩

end State

/-- A text is a module exactly if its lines are at most one directive and then sections in their
order, and the lines of the data section declare variables of different names. These variables are its
data, and the lines of the other sections are kept with their numbers. -/
theorem compile_eq_ok_iff (source : String) (m : Module) :
    compile source = .ok m ↔
      ∃ directive rest bodies vs, Line.counted source = directive ++ rest ∧
        Directive directive m.dumpData ∧
        Sections [.data, .functions, .program] rest bodies ∧
        List.Forall₂ Declaration.Declares (bodies.getD 0 []) vs ∧ (vs.map Variable.name).Nodup ∧
        m.data.entries = vs ∧
        m.data.singlets.map (fun s => .singlet s.1 s.2) = vs.filter (!·.operandType.isList) ∧
        m.data.lists.map (fun l => .list l.1 l.2.1 l.2.2) = vs.filter (·.operandType.isList) ∧
        m.functions = (bodies.getD 1 []).map (fun line => ⟨line.span.line, String.ofList line.text⟩) ∧
        m.program =
          (bodies.getD 2 []).map (fun line => ⟨line.span.line, String.ofList line.text⟩) := by
  rw [compile, read, Line.ofSource_eq_counted, State.outcome_start_iff]
  constructor
  · rintro ⟨directive, rest, bodies, hlines, hdirective, hrest, hvs, hfunctions, hprogram⟩
    exact ⟨directive, rest, bodies, _, hlines, hdirective, hrest, hvs, m.data.distinct, rfl,
      m.data.map_singlets, m.data.map_lists, hfunctions, hprogram⟩
  · rintro ⟨directive, rest, bodies, _, hlines, hdirective, hrest, hvs, -, rfl, -, -, hkept⟩
    exact ⟨directive, rest, bodies, hlines, hdirective, hrest, hvs, hkept⟩

end Module

end DrawScript
