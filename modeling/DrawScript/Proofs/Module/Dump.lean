import DrawScript.Proofs.Data.Table
import DrawScript.Proofs.Module.Reading

/-!
The dump of declared data reads back. A dump has one declaration a line, those of one value before
the lists. The words of each line are those of the declaration it was made from, and after a header
line the whole dump reads as a module with the same data.
-/

namespace DrawScript

open Text

theorem dropListMark_text (type : OperandType) :
    dropListMark type.text = (type.element.text, type.isList) := by
  cases type with
  | singlet t => cases t <;> decide
  | list t => cases t <;> decide

theorem TypeName.ofText?_text (t : ElementType) : TypeName.ofText? t.text = some (.concrete t) := by
  cases t <;> decide +kernel

theorem unbroken_type (type : OperandType) : Unbroken type.text.toList := by
  cases type with
  | singlet t => cases t <;> exact .of_all (by decide)
  | list t => cases t <;> exact .of_all (by decide)

theorem unbroken_name {name : List Char} (h : Declaration.isName name = true) : Unbroken name := by
  rcases name with _ | ⟨c, cs⟩
  · cases h
  · obtain ⟨hc, hcs⟩ := Bool.and_eq_true_iff.mp h
    refine ⟨List.cons_ne_nil c cs, List.forall_mem_cons.mpr ⟨isBlank_of_isAlphanum ?_, ?_⟩⟩
    · change (c.isAlpha || c.isDigit || c == '_') = true
      simp only [Bool.or_eq_true] at hc ⊢
      tauto
    · exact fun d hd => isBlank_of_isAlphanum (List.all_eq_true.mp hcs d hd)

namespace Variable

def parts (v : Variable) : List (List Char) :=
  [v.operandType.text.toList, v.name.toList, ['='], v.valueText.toList]

theorem toList_text (v : Variable) : v.text.toList = [' '].intercalate v.parts := by
  simp [text, parts]

variable {v : Variable}

theorem WellTyped.unbroken_valueText (h : v.WellTyped) : Unbroken v.valueText.toList := by
  cases v with
  | singlet name w =>
    have hw := h.finite w (List.mem_singleton_self w)
    exact ⟨hw.toList_text_ne_nil, fun _ => hw.isBlank_text⟩
  | list name t ws =>
    refine ⟨?_, fun _ => Value.isBlank_listText h.finite⟩
    simp [valueText, Value.toList_listText]

theorem WellTyped.unbroken_parts (h : v.WellTyped) : ∀ part ∈ v.parts, Unbroken part := by
  simp only [parts, List.forall_mem_cons]
  exact ⟨unbroken_type _, unbroken_name h.name, .of_all rfl, h.unbroken_valueText,
    List.forall_mem_nil _⟩

end Variable

namespace Declaration

theorem operandType_text (type : OperandType) (name : List Char) (span : Span) :
    operandType type.text.toList name span = .ok type := by
  unfold operandType
  rw [String.ofList_toList, dropListMark_text]
  dsimp only
  rw [TypeName.ofText?_text]
  cases type <;> rfl

theorem variableOf_valueText {v : Variable} (h : v.WellTyped) (span : Span) :
    variableOf v.operandType v.name.toList v.valueText.toList span = .ok v := by
  cases v with
  | singlet name w =>
    have hvalue := Literal.value_text (h.finite w (List.mem_singleton_self w)) span
    simp only [Variable.operandType, Variable.valueText, Variable.name, variableOf, hvalue,
      Except.map, String.ofList_toList]
  | list name t ws =>
    have hlist : Literal.list (Value.listText ws).toList t span = .ok ws :=
      Literal.list_listText h.finite h.types span
    simp only [Variable.operandType, Variable.valueText, Variable.name, variableOf, hlist,
      Except.map, String.ofList_toList]

theorem parse_text {v : Variable} (h : v.WellTyped) {line : Line} (hline : line.text = v.text.toList) :
    parse line = .ok v := by
  unfold parse
  rw [hline, Variable.toList_text, words_intercalate (by decide) h.unbroken_parts, Variable.parts]
  dsimp only
  rw [if_neg (by simp), if_neg (by simp [h.name]), operandType_text]
  change variableOf _ _ (_ ++ [].flatten) _ = _
  rw [List.flatten_nil, List.append_nil]
  exact variableOf_valueText h line.span

end Declaration

/-- A line that is read as it stands: no blanks at its ends, and not a comment. -/
structure Line.Tidy (raw : List Char) : Prop where
  trim : trim raw = raw
  ne_nil : raw ≠ []
  not_slash : raw.head? ≠ some '/'
  no_break : '\n' ∉ raw

namespace Line

theorem Tidy.ofRaw? {raw : List Char} (h : Tidy raw) (number : Nat) :
    ∃ span, Line.ofRaw? number raw = some ⟨span, raw⟩ := by
  unfold Line.ofRaw?
  rw [h.trim]
  split
  next => exact absurd rfl h.ne_nil
  next => exact absurd rfl h.not_slash
  next => exact ⟨_, rfl⟩

theorem map_text_numbered {raws : List (List Char)} (h : ∀ raw ∈ raws, Tidy raw) (number : Nat) :
    (numbered number raws).map Line.text = raws := by
  induction raws generalizing number with
  | nil => rfl
  | cons raw raws ih =>
    obtain ⟨hraw, hraws⟩ := List.forall_mem_cons.mp h
    obtain ⟨span, hspan⟩ := hraw.ofRaw? number
    rw [numbered, hspan]
    exact congrArg (raw :: ·) (ih hraws (number + 1))

theorem map_text_ofSource {texts : List String} (hne : texts ≠ [])
    (h : ∀ text ∈ texts, Tidy text.toList) :
    (ofSource ("\n".intercalate texts)).map Line.text = texts.map String.toList := by
  have htidy : ∀ raw ∈ texts.map String.toList, Tidy raw := List.forall_mem_map.mpr h
  rw [ofSource, String.toList_intercalate]
  change (numbered 1 (lines (['\n'].intercalate _))).map Line.text = _
  rw [lines_intercalate (fun raw hraw => (htidy raw hraw).no_break)
    (fun raw hraw => (htidy raw hraw).ne_nil) (by simpa using hne)]
  exact map_text_numbered htidy 1

end Line

namespace Variable

variable {v : Variable}

theorem head?_text (v : Variable) : v.text.toList.head? = some 'n' ∨ v.text.toList.head? = some 'v' := by
  rw [toList_text, parts]
  generalize v.operandType = type
  cases type with
  | singlet t => cases t <;> simp [OperandType.text, ElementType.text]
  | list t => cases t <;> simp [OperandType.text, ElementType.text]

theorem WellTyped.tidy_text (h : v.WellTyped) : Line.Tidy v.text.toList where
  trim := by
    apply trim_eq_self
    · intro c hc
      rcases head?_text v with hhead | hhead <;> rw [hhead] at hc <;> cases hc <;> rfl
    · intro c hc
      rw [text, String.toList_append,
        List.getLast?_append_of_ne_nil _ h.unbroken_valueText.ne_nil] at hc
      exact h.unbroken_valueText.isBlank c (List.mem_of_getLast? hc)
  ne_nil := by
    intro hnil
    rcases head?_text v with hhead | hhead <;> simp [hnil] at hhead
  not_slash := by
    rcases head?_text v with hhead | hhead <;> simp [hhead]
  no_break := by
    rw [toList_text]
    intro hmem
    have hchars := forall_mem_intercalate (p := fun c => c = ' ' ∨ isBlank c = false) (.inl rfl)
      (fun part hpart c hc => .inr ((h.unbroken_parts part hpart).isBlank c hc)) '\n' hmem
    rcases hchars with hchars | hchars <;> cases hchars

end Variable

namespace Module

namespace State

theorem run_declarations {vs : List Variable} {lines : List Line} {s : State}
    (hcurrent : s.current = .data) (hlines : lines.map Line.text = vs.map fun v => v.text.toList)
    (hvs : ∀ v ∈ vs, v.WellTyped)
    (hnew : ((s.module.data.entries ++ vs).map Variable.name).Nodup) :
    ∃ s', s.run lines = (s', none) ∧ s'.module.data.entries = s.module.data.entries ++ vs := by
  -- The state stays general: each declaration moves one name from the lines to the table.
  induction vs generalizing lines s with
  | nil =>
    rw [List.map_nil, List.map_eq_nil_iff] at hlines
    subst hlines
    exact ⟨s, rfl, (List.append_nil _).symm⟩
  | cons v vs ih =>
    obtain ⟨line, rest, rfl, hline, hrest⟩ := List.map_eq_cons_iff.mp hlines
    obtain ⟨hv, hvs⟩ := List.forall_mem_cons.mp hvs
    obtain ⟨data, hdata⟩ := Table.exists_declare (Table.not_mem_names_of_nodup hnew) line.span
    have hat : line.text.head? ≠ some '@' := by
      rw [hline]
      rcases v.head?_text with hhead | hhead <;> simp [hhead]
    have hstep := (Step.declare v data hat hcurrent (Declaration.parse_text hv hline) hdata).step_eq
    have hentries := (Table.declare_eq_ok_iff.mp hdata).2
    rw [List.append_cons, ← hentries] at hnew ⊢
    obtain ⟨s', hrun, hs'⟩ := ih (s := { s with module := { s.module with data := data } })
      hcurrent hrest hvs hnew
    exact ⟨s', by rw [run, hstep]; exact hrun, hs'⟩

theorem enter_data {span : Span} : Step start ⟨span, "@data".toList⟩ { start with current := .data } :=
  .enter "data".toList .data rfl rfl (by decide)

end State

theorem tidy_header : Line.Tidy "@data".toList :=
  ⟨by decide, by decide, by decide, by decide⟩

/-- The dump of a module's data, after a header line, reads as a module with the same data. -/
theorem compile_dump {source : String} {m : Module} (h : compile source = .ok m) :
    ∃ m', compile ("\n".intercalate ("@data" :: m.data.dump)) = .ok m' ∧
      m'.data.singlets = m.data.singlets ∧ m'.data.lists = m.data.lists ∧
      ∀ name, m'.data.contains name = m.data.contains name := by
  have hvs : ∀ v ∈ m.data.inDumpOrder, v.WellTyped :=
    fun v hv => wellTyped_of_compile h v (m.data.perm_inDumpOrder.mem_iff.mp hv)
  have htexts : ∀ text ∈ "@data" :: m.data.dump, Line.Tidy text.toList := by
    rw [Table.dump_eq, List.forall_mem_cons, List.forall_mem_map]
    exact ⟨tidy_header, fun v hv => (hvs v hv).tidy_text⟩
  have hlines := Line.map_text_ofSource (List.cons_ne_nil _ _) htexts
  rw [List.map_cons, Table.dump_eq, List.map_map] at hlines
  -- The first line opens the data section, and the others are declarations.
  obtain ⟨⟨span, text⟩, rest, hsource, hheader, hrest⟩ := List.map_eq_cons_iff.mp hlines
  obtain rfl : text = "@data".toList := hheader
  obtain ⟨s, hrun, hentries⟩ := State.run_declarations
    (s := { State.start with current := .data }) rfl hrest hvs m.data.nodup_names_inDumpOrder
  refine ⟨s.module, ?_, Table.singlets_of_inDumpOrder hentries, Table.lists_of_inDumpOrder hentries,
    Table.contains_of_inDumpOrder hentries⟩
  rw [compile, read, Table.dump_eq, hsource, State.run, State.enter_data.step_eq]
  dsimp only
  rw [hrun]
  rfl

def shapes : String :=
  "# dd\n// shapes\n@DATA\nVec2[] path = [(1, -0), (0.1,2e1)]\nnum z = - 0\nvec3[] none = [ ]\n" ++
  "  vec3 unit = (1, 0, .5)\n@functions\nf\n@program\n"

theorem compile_dump_shapes : ∃ m m', compile shapes = .ok m ∧
    m.data.dump = ["num z = -0", "vec3 unit = (1,0,0.5)", "vec2[] path = [(1,-0),(0.1,20)]",
      "vec3[] none = []"] ∧
    compile ("\n".intercalate ("@data" :: m.data.dump)) = .ok m' ∧
    m'.data.singlets = m.data.singlets ∧ m'.data.lists = m.data.lists ∧
    ∀ name, m'.data.contains name = m.data.contains name := by
  have hdump : (compile shapes).toOption.map (fun m => m.data.dump) =
      some ["num z = -0", "vec3 unit = (1,0,0.5)", "vec2[] path = [(1,-0),(0.1,20)]",
        "vec3[] none = []"] := by
    decide +kernel
  cases hm : compile shapes with
  | error e =>
    rw [hm] at hdump
    cases hdump
  | ok m =>
    rw [hm] at hdump
    obtain ⟨m', hm', htables⟩ := compile_dump hm
    exact ⟨m, m', rfl, Option.some.inj hdump, hm', htables⟩

end Module

end DrawScript
