import DrawScript.Proofs.Module.Sections

/-!
Compiled data is well typed. What a module declares has finite components, values of its type and a
valid name. No line of the data section is lost on the way: its first word stands for an operand type,
and its second word names a variable of that type.
-/

namespace DrawScript

open Text

theorem Section.header_injective {s s' : Section} (h : s.header = s'.header) : s = s' := by
  cases s <;> cases s' <;> first | rfl | exact absurd h (by decide)

namespace Line

/-- A line of the data section: it opens no section, and the last line before it that does opens the
data section. -/
def InData (line : Line) (source : String) : Prop :=
  ∃ before header body after, counted source = before ++ header :: (body ++ line :: after) ∧
    header.Opens .data ∧ (∀ other ∈ body, other.Plain) ∧ line.Plain

theorem Opens.unique {line : Line} {s s' : Section} (h : line.Opens s) (h' : line.Opens s') : s = s' := by
  obtain ⟨cs, word, rest, htext, hwords, hword⟩ := h
  obtain ⟨cs', word', rest', htext', hwords', hword'⟩ := h'
  cases htext.symm.trans htext'
  cases hwords.symm.trans hwords'
  exact Section.header_injective (hword.symm.trans hword')

end Line

namespace Declaration

theorem operandType_eq_ok_iff_ofText? {word name : List Char} {span : Span} {type : OperandType} :
    operandType word name span = .ok type ↔ OperandType.ofText? (String.ofList word) = some type := by
  unfold operandType OperandType.ofText?
  dsimp only
  cases TypeName.ofText? (dropListMark (String.ofList word)).1 with
  | none => simp
  | some typeName => cases typeName <;> simp

theorem Declares.exists_words {line : Line} {v : Variable} (h : Declares line v) :
    ∃ word name value values, words line.text = word :: name :: ['='] :: value :: values ∧
      v.name = String.ofList name ∧ OperandType.ofText? (String.ofList word) = some v.operandType := by
  cases h with
  | singlet t type name value values w hwords hname htype hvalue =>
    have hoperand : operandType type name line.span = .ok (.singlet w.type) := by
      rw [(Literal.value_eq_ok hvalue).1]
      exact operandType_eq_ok_iff.mpr ⟨type, (List.append_nil type).symm, htype⟩
    exact ⟨type, name, value, values, hwords, rfl, operandType_eq_ok_iff_ofText?.mp hoperand⟩
  | list t type name value values ws hwords hname htype hvalue =>
    have hoperand : operandType (type ++ ['[', ']']) name line.span = .ok (.list t) :=
      operandType_eq_ok_iff.mpr ⟨type, rfl, htype⟩
    exact ⟨_, name, value, values, hwords, rfl, operandType_eq_ok_iff_ofText?.mp hoperand⟩

theorem isName_iff {name : List Char} :
    isName name = true ↔ ∃ c cs, name = c :: cs ∧ (c.isAlpha = true ∨ c = '_') ∧
      ∀ d ∈ cs, d.isAlphanum = true ∨ d = '_' := by
  cases name with
  | nil => simp [isName]
  | cons c cs => simp [isName]

end Declaration

namespace Module

namespace State

variable {s t : State} {line : Line}

theorem Step.entries_prefix (h : Step s line t) : s.module.data.entries <+: t.module.data.entries := by
  cases h with
  | enter | direct | keepFunction | keepProgram => exact List.prefix_rfl
  | declare v data hat hcurrent hv hdata =>
    exact ⟨[v], (Table.declare_eq_ok_iff.mp hdata).2.symm⟩

theorem entries_prefix_of_run {lines : List Line} (h : s.run lines = (t, none)) :
    s.module.data.entries <+: t.module.data.entries := by
  induction lines generalizing s with
  | nil =>
    cases h
    exact List.prefix_rfl
  | cons line lines ih =>
    obtain ⟨s', hs', h⟩ := run_cons_eq_iff.mp h
    exact hs'.entries_prefix.trans (ih h)

theorem Step.current_of_opens {next : Section} (h : Step s line t) (hopens : line.Opens next) :
    t.current = next := by
  obtain ⟨next', -, hopens', rfl⟩ := (step_header_iff hopens.not_plain).mp h
  exact hopens'.unique hopens

theorem Step.exists_declares (h : Step s line t) (hline : line.Plain) (hcurrent : s.current = .data) :
    ∃ v ∈ t.module.data.entries, Declaration.Declares line v := by
  obtain ⟨current, seen, dump, data, functions, program⟩ := s
  obtain rfl : current = .data := hcurrent
  obtain ⟨v, data', hv, hdata, rfl⟩ := (step_data_iff hline).mp h
  have hentries : data'.entries = data.entries ++ [v] := (Table.declare_eq_ok_iff.mp hdata).2
  refine ⟨v, ?_, hv⟩
  rw [hentries]
  exact List.mem_append_right _ List.mem_cons_self

end State

variable {source : String} {m : Module} {line : Line}

theorem exists_declares_of_inData (h : compile source = .ok m) (hline : line.InData source) :
    ∃ v ∈ m.data.entries, Declaration.Declares line v := by
  obtain ⟨before, header, body, after, hlines, hheader, hbody, hplain⟩ := hline
  rw [compile, read, Line.ofSource_eq_counted, hlines] at h
  obtain ⟨t, hrun, rfl⟩ := State.outcome_run_eq_iff.mp h
  -- The states before and after the header, and before and after the line.
  obtain ⟨s₁, -, hrun₁⟩ := State.run_append_eq_iff.mp hrun
  obtain ⟨s₂, hs₂, hrun₂⟩ := State.run_cons_eq_iff.mp hrun₁
  obtain ⟨s₃, hs₃, hrun₃⟩ := State.run_append_eq_iff.mp hrun₂
  obtain ⟨s₄, hs₄, hrun₄⟩ := State.run_cons_eq_iff.mp hrun₃
  have hcurrent : s₃.current = .data := by
    rw [State.current_of_run_plain hbody hs₃]
    exact hs₂.current_of_opens hheader
  obtain ⟨v, hv, hdeclares⟩ := hs₄.exists_declares hplain hcurrent
  exact ⟨v, (State.entries_prefix_of_run hrun₄).subset hv, hdeclares⟩

theorem exists_variable_of_inData (h : compile source = .ok m) (hline : line.InData source) :
    ∃ word name value values v, words line.text = word :: name :: ['='] :: value :: values ∧
      OperandType.ofText? (String.ofList word) = some v.operandType ∧
      m.data.get? (String.ofList name) = some v := by
  obtain ⟨v, hv, hdeclares⟩ := exists_declares_of_inData h hline
  obtain ⟨word, name, value, values, hwords, hname, htype⟩ := hdeclares.exists_words
  exact ⟨word, name, value, values, v, hwords, htype, Table.get?_eq_some_iff.mpr ⟨hv, hname⟩⟩

/-- A module's values have finite components, and those of a list have its type. Its names are made of
letters, digits and underscores and start with no digit. Every line of the data section declares a
variable of the type that its first word stands for, so a module has no line there whose first word
stands for none. -/
theorem compile_typed (h : compile source = .ok m) :
    (∀ s ∈ m.data.singlets, ∀ x ∈ s.2.components, x.isFinite = true) ∧
    (∀ l ∈ m.data.lists, ∀ w ∈ l.2.2,
      w.type = l.2.1 ∧ ∀ x ∈ w.components, x.isFinite = true) ∧
    (∀ name ∈ m.data.names, ∃ c cs, name.toList = c :: cs ∧ (c.isAlpha = true ∨ c = '_') ∧
      ∀ d ∈ cs, d.isAlphanum = true ∨ d = '_') ∧
    (∀ line : Line, line.InData source →
      ∃ word name value values v, words line.text = word :: name :: ['='] :: value :: values ∧
        OperandType.ofText? (String.ofList word) = some v.operandType ∧
        m.data.get? (String.ofList name) = some v) ∧
    ∀ (line : Line) (word : List Char), (words line.text).head? = some word →
      OperandType.ofText? (String.ofList word) = none → ¬ line.InData source := by
  have htyped := wellTyped_of_compile h
  refine ⟨?_, ?_, ?_, fun line => exists_variable_of_inData h, ?_⟩
  · rintro ⟨name, w⟩ hmem
    exact (htyped _ (Table.mem_singlets_iff.mp hmem)).finite w List.mem_cons_self
  · rintro ⟨name, t, ws⟩ hmem w hw
    have hlist := htyped _ (Table.mem_lists_iff.mp hmem)
    exact ⟨hlist.types w hw, hlist.finite w hw⟩
  · intro name hmem
    obtain ⟨v, hv, rfl⟩ := List.mem_map.mp hmem
    exact Declaration.isName_iff.mp (htyped v hv).name
  · intro line word hword hnone hline
    obtain ⟨word', name, value, values, v, hwords, htype, -⟩ := exists_variable_of_inData h hline
    rw [hwords] at hword
    cases hword
    rw [hnone] at htype
    cases htype

def twoVariables : String := "@data\nnum _x1 = 1\nVec2[] path = [(1, -0)]\n"

theorem compile_typed_twoVariables : ∃ m, compile twoVariables = .ok m ∧
    (∀ l ∈ m.data.lists, ∀ w ∈ l.2.2, w.type = l.2.1 ∧ ∀ x ∈ w.components, x.isFinite = true) ∧
    Line.InData ⟨⟨3, 1⟩, "Vec2[] path = [(1, -0)]".toList⟩ twoVariables ∧
    OperandType.ofText? "Vec2[]" = some (.list .vec2) ∧
    ∃ v, m.data.get? "path" = some v ∧ v.operandType = .list .vec2 := by
  have hok : (compile twoVariables).isOk = true := by decide +kernel
  have hline : Line.InData ⟨⟨3, 1⟩, "Vec2[] path = [(1, -0)]".toList⟩ twoVariables := by
    refine ⟨[], ⟨⟨1, 1⟩, "@data".toList⟩, [⟨⟨2, 1⟩, "num _x1 = 1".toList⟩], [], by decide +kernel,
      ⟨"data".toList, "data".toList, [], ?_⟩, ?_, ?_⟩
    · decide +kernel
    · simp [Line.Plain]
    · simp [Line.Plain]
  have hwords : words "Vec2[] path = [(1, -0)]".toList =
      ["Vec2[]".toList, "path".toList, ['='], "[(1,".toList, "-0)]".toList] := by
    decide +kernel
  cases hm : compile twoVariables with
  | error e =>
    rw [hm] at hok
    cases hok
  | ok m =>
    obtain ⟨-, hlists, -, hlines, -⟩ := compile_typed hm
    obtain ⟨word, name, value, values, v, heq, htype, hget⟩ := hlines _ hline
    cases hwords.symm.trans heq
    have hlist : OperandType.ofText? "Vec2[]" = some (.list .vec2) := by decide +kernel
    exact ⟨m, rfl, hlists, hline, hlist, v, hget, Option.some.inj (htype.symm.trans hlist)⟩

end Module

end DrawScript
