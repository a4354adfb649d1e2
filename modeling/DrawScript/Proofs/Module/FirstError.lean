import DrawScript.Proofs.Module.Sections

/-!
The first error of a module's text. An error is found on one line: it names the position of that line,
and it is the same whatever follows the line. The lines before it are a module by themselves. Blanks at
the end of a line never count, so a line break may be written with or without a carriage return.
-/

namespace DrawScript

open Text

inductive CompileError.OfLine (span : Span) : CompileError → Prop
  | sectionOrder (message : String) : OfLine span (.sectionOrder message span)
  | incomplete (text : String) : OfLine span (.incompleteDeclaration text span)
  | expected (wanted found : String) : OfLine span (.expected wanted found span)
  | literal (text type : String) : OfLine span (.invalidLiteral text type span)
  | redeclared (name : String) : OfLine span (.redeclaration name span)
  | template (typeName name : String) : OfLine span (.templateMisuse typeName name span)

namespace CompileError.OfLine

variable {span : Span} {e : CompileError}

theorem span?_eq (h : e.OfLine span) : e.span? = some span := by
  cases h <;> rfl

theorem tag_mem (h : e.OfLine span) :
    e.tag ∈ ["SectionOrder", "IncompleteDeclaration", "Syntax", "InvalidLiteral", "Redeclaration",
      "TemplateMisuse"] := by
  cases h <;> simp [tag]

end CompileError.OfLine

/-- A computation about the line at the given position: it fails with an error of that line only. -/
def FailsAt {α : Type} (x : Except CompileError α) (span : Span) : Prop :=
  ∀ e, x = .error e → e.OfLine span

namespace FailsAt

variable {α β : Type} {span : Span} {x : Except CompileError α}

theorem ok (a : α) : FailsAt (.ok a) span := by
  intro e h
  cases h

theorem error {e : CompileError} (h : e.OfLine span) : FailsAt (.error e : Except CompileError α) span := by
  intro e' h'
  cases h'
  exact h

theorem bind {f : α → Except CompileError β} (hx : FailsAt x span) (hf : ∀ a, FailsAt (f a) span) :
    FailsAt (x >>= f) span := by
  cases x with
  | error e => exact .error (hx e rfl)
  | ok a => exact hf a

theorem map {f : α → β} (hx : FailsAt x span) : FailsAt (x.map f) span := by
  cases x with
  | error e => exact .error (hx e rfl)
  | ok a => exact .ok (f a)

theorem mapM {f : α → Except CompileError β} (hf : ∀ a, FailsAt (f a) span) (as : List α) :
    FailsAt (as.mapM f) span := by
  induction as with
  | nil => exact .ok []
  | cons a as ih =>
    rw [List.mapM_cons]
    exact (hf a).bind fun b => ih.bind fun bs => .ok (b :: bs)

end FailsAt

namespace Literal

theorem number_failsAt (text : List Char) (span : Span) : FailsAt (number text span) span := by
  unfold number
  split
  · exact .ok _
  · exact .error (.literal ..)

theorem vector_failsAt (text : List Char) (type : ElementType) (span : Span) :
    FailsAt (vector text type span) span := by
  unfold vector
  split
  · exact .ok _
  · exact .error (.literal ..)

theorem value_failsAt (text : List Char) (type : ElementType) (span : Span) :
    FailsAt (value text type span) span := by
  cases type with
  | num => exact (number_failsAt text span).map
  | vec2 => exact vector_failsAt text .vec2 span
  | vec3 => exact vector_failsAt text .vec3 span

theorem list_failsAt (text : List Char) (type : ElementType) (span : Span) :
    FailsAt (list text type span) span := by
  unfold list
  split
  · exact .error (.literal ..)
  · exact .mapM (fun piece => value_failsAt piece type span) _

end Literal

namespace Declaration

theorem operandType_failsAt (typeWord name : List Char) (span : Span) :
    FailsAt (operandType typeWord name span) span := by
  unfold operandType
  dsimp only
  split
  · exact .ok _
  · exact .error (.template ..)
  · exact .error (.expected ..)

theorem variableOf_failsAt (type : OperandType) (name text : List Char) (span : Span) :
    FailsAt (variableOf type name text span) span := by
  cases type with
  | singlet t => exact (Literal.value_failsAt text t span).map
  | list t => exact (Literal.list_failsAt text t span).map

theorem parse_failsAt (line : Line) : FailsAt (parse line) line.span := by
  unfold parse
  split
  · split_ifs
    · exact .error (.expected ..)
    · exact .error (.expected ..)
    · exact (operandType_failsAt _ _ line.span).bind fun type => variableOf_failsAt type _ _ line.span
  · exact .error (.incomplete ..)

end Declaration

theorem Table.declare_failsAt (t : Table) (v : Variable) (span : Span) :
    FailsAt (t.declare v span) span := by
  unfold Table.declare
  split
  · exact .error (.redeclared ..)
  · exact .ok _

namespace Module.State

variable {s t : State} {lines : List Line} {e : CompileError}

theorem enter_failsAt (s : State) (cs : List Char) (span : Span) : FailsAt (s.enter cs span) span := by
  unfold enter
  dsimp only
  split
  · exact .error (.sectionOrder ..)
  · split_ifs
    · exact .ok _
    · exact .error (.sectionOrder ..)

theorem direct_failsAt (s : State) (line : Line) : FailsAt (s.direct line) line.span := by
  unfold direct
  split_ifs
  · exact .ok _
  · exact .error (.sectionOrder ..)

theorem declare_failsAt (s : State) (line : Line) : FailsAt (s.declare line) line.span :=
  (Declaration.parse_failsAt line).bind fun v =>
    (s.module.data.declare_failsAt v line.span).bind fun _ => .ok _

theorem step_failsAt (s : State) (line : Line) : FailsAt (s.step line) line.span := by
  unfold step
  split
  · exact enter_failsAt s _ line.span
  · split
    · exact direct_failsAt s line
    · exact declare_failsAt s line
    · exact .ok _
    · exact .ok _

theorem exists_of_run_eq_error (h : s.run lines = (t, some e)) :
    ∃ before line after, lines = before ++ line :: after ∧ s.run before = (t, none) ∧
      t.step line = .error e := by
  induction lines generalizing s with
  | nil => cases h
  | cons line lines ih =>
    rw [run] at h
    split at h
    next s' hs' =>
      obtain ⟨before, failing, after, rfl, hbefore, hfailing⟩ := ih h
      refine ⟨line :: before, failing, after, rfl, ?_, hfailing⟩
      exact run_cons_eq_iff.mpr ⟨s', .of_step hs', hbefore⟩
    next e' he' =>
      cases h
      exact ⟨[], line, lines, rfl, rfl, he'⟩

theorem run_eq_error {before after : List Line} {line : Line} (hbefore : s.run before = (t, none))
    (hline : t.step line = .error e) : s.run (before ++ line :: after) = (t, some e) := by
  rw [run_append_of_ok hbefore, run, hline]

end Module.State

namespace Text

def rows (source : String) : List (List Char) := (lines source.toList).map trimEnd

theorem exists_trimEnd_append (cs : List Char) :
    ∃ blanks, cs = trimEnd cs ++ blanks ∧ ∀ c ∈ blanks, isBlank c = true := by
  refine ⟨(cs.reverse.takeWhile isBlank).reverse, ?_, ?_⟩
  · rw [trimEnd, skipBlanks, ← List.reverse_append, List.takeWhile_append_dropWhile,
      List.reverse_reverse]
  · intro c hc
    exact List.mem_takeWhile_imp (List.mem_reverse.mp hc)

theorem skipBlanks_append_of_blank {blanks cs : List Char} (h : ∀ c ∈ blanks, isBlank c = true) :
    skipBlanks (blanks ++ cs) = skipBlanks cs :=
  List.dropWhile_append_of_pos h

theorem skipBlanks_eq_nil {blanks : List Char} (h : ∀ c ∈ blanks, isBlank c = true) :
    skipBlanks blanks = [] :=
  List.dropWhile_eq_nil_iff.mpr h

theorem trim_append_of_blank {blanks : List Char} (cs : List Char)
    (h : ∀ c ∈ blanks, isBlank c = true) : trim (cs ++ blanks) = trim cs := by
  have hreverse : ∀ c ∈ blanks.reverse, isBlank c = true :=
    fun c hc => h c (List.mem_reverse.mp hc)
  unfold trim trimEnd
  by_cases hcs : ∀ c ∈ cs, isBlank c = true
  · rw [skipBlanks_append_of_blank hcs, skipBlanks_eq_nil h, skipBlanks_eq_nil hcs]
  · have hskip : skipBlanks (cs ++ blanks) = skipBlanks cs ++ blanks := by
      rw [skipBlanks, List.dropWhile_append, if_neg]
      · rfl
      · simpa [List.dropWhile_eq_nil_iff] using hcs
    rw [hskip, List.reverse_append, skipBlanks_append_of_blank hreverse]

theorem indentation_append {cs : List Char} (blanks : List Char) (h : trim cs ≠ []) :
    indentation (cs ++ blanks) = indentation cs := by
  have hcs : ¬ ∀ c ∈ cs, isBlank c = true := by
    intro hblank
    exact h (by rw [trim, skipBlanks_eq_nil hblank]; rfl)
  unfold indentation
  rw [List.takeWhile_append, if_neg]
  intro hlength
  exact hcs (List.takeWhile_eq_self_iff.mp ((List.takeWhile_prefix isBlank).eq_of_length hlength))

def takeLines : Nat → List Char → List Char
  | 0, _ => []
  | _ + 1, [] => []
  | n + 1, c :: cs => c :: takeLines (if c = '\n' then n else n + 1) cs

theorem lines_break (cs : List Char) : lines ('\n' :: cs) = [] :: lines cs := by
  have hruns : splitOn (· == '\n') ('\n' :: cs) = [] :: splitOn (· == '\n') cs := by
    simp [splitOn]
  unfold lines
  rw [hruns]
  obtain ⟨run, runs, hcs⟩ := List.exists_cons_of_ne_nil (splitOn_ne_nil (· == '\n') cs)
  rw [hcs]
  dsimp only
  rw [List.getLast?_cons_cons]
  split_ifs <;> rfl

theorem lines_cons {c : Char} (hc : c ≠ '\n') (cs : List Char) :
    lines (c :: cs) = (c :: (lines cs).head?.getD []) :: (lines cs).tail := by
  obtain ⟨run, runs, hcs⟩ := List.exists_cons_of_ne_nil (splitOn_ne_nil (· == '\n') cs)
  have hruns : splitOn (· == '\n') (c :: cs) = (c :: run) :: runs := by
    simp [splitOn, hc, hcs]
  unfold lines
  rw [hruns, hcs]
  dsimp only
  -- The last run is dropped from both texts or from neither, unless it is the one that `c` starts.
  rcases runs with _ | ⟨next, runs⟩
  · cases run <;> simp
  · rw [List.getLast?_cons_cons, List.getLast?_cons_cons]
    split_ifs <;> rfl

theorem lines_takeLines (n : Nat) (cs : List Char) : lines (takeLines n cs) = (lines cs).take n := by
  induction cs generalizing n with
  | nil => cases n <;> rfl
  | cons c cs ih =>
    cases n with
    | zero => rfl
    | succ n =>
      rw [takeLines]
      split_ifs with hc
      · rw [hc, lines_break, lines_break, ih, List.take_succ_cons]
      · rw [lines_cons hc, lines_cons hc, ih]
        cases lines cs <;> simp

end Text

namespace Line

theorem ofRaw?_trimEnd (number : Nat) (raw : List Char) :
    ofRaw? number (trimEnd raw) = ofRaw? number raw := by
  obtain ⟨blanks, hraw, hblanks⟩ := exists_trimEnd_append raw
  have htrim : trim raw = trim (trimEnd raw) := by
    conv_lhs => rw [hraw]
    exact trim_append_of_blank _ hblanks
  unfold ofRaw?
  rw [htrim]
  split
  next => rfl
  next => rfl
  next text hne _ =>
    have hindentation : indentation raw = indentation (trimEnd raw) := by
      conv_lhs => rw [hraw]
      exact indentation_append _ hne
    rw [hindentation]

theorem span_of_ofRaw? {number : Nat} {raw : List Char} {line : Line}
    (h : ofRaw? number raw = some line) : line.span = ⟨number, indentation raw + 1⟩ := by
  unfold ofRaw? at h
  split at h
  next => cases h
  next => cases h
  next =>
    cases h
    rfl

theorem numbered_append (number : Nat) (front back : List (List Char)) :
    numbered number (front ++ back) =
      numbered number front ++ numbered (number + front.length) back := by
  induction front generalizing number with
  | nil => rfl
  | cons raw front ih =>
    rw [List.cons_append, numbered, numbered, ih, List.length_cons]
    have hnumber : number + 1 + front.length = number + (front.length + 1) := by omega
    rw [hnumber]
    cases ofRaw? number raw <;> rfl

theorem numbered_map_trimEnd (number : Nat) (raws : List (List Char)) :
    numbered number (raws.map trimEnd) = numbered number raws := by
  induction raws generalizing number with
  | nil => rfl
  | cons raw raws ih => rw [List.map_cons, numbered, numbered, ofRaw?_trimEnd, ih]

theorem ofSource_eq_rows (source : String) : ofSource source = numbered 1 (rows source) :=
  (numbered_map_trimEnd 1 _).symm

theorem exists_ofSource_eq_append {source : String} {raws : List (List Char)} {n : Nat}
    (h : (rows source).take n = raws.map trimEnd) :
    ∃ rest, ofSource source = numbered 1 raws ++ rest := by
  rw [ofSource_eq_rows, ← List.take_append_drop n (rows source), h, numbered_append,
    numbered_map_trimEnd]
  exact ⟨_, rfl⟩

theorem exists_of_numbered_eq {number : Nat} {raws : List (List Char)} {before after : List Line}
    {line : Line} (h : numbered number raws = before ++ line :: after) :
    ∃ front raw back, raws = front ++ raw :: back ∧ numbered number front = before ∧
      ofRaw? (number + front.length) raw = some line := by
  induction raws generalizing number before with
  | nil => exact absurd h.symm (by simp [numbered])
  | cons first raws ih =>
    rw [numbered] at h
    cases hfirst : ofRaw? number first with
    | none =>
      rw [hfirst] at h
      obtain ⟨front, raw, back, rfl, hfront, hraw⟩ := ih h
      rw [Nat.add_assoc, Nat.add_comm 1] at hraw
      refine ⟨first :: front, raw, back, rfl, ?_, hraw⟩
      rw [numbered, hfirst]
      exact hfront
    | some line' =>
      rw [hfirst] at h
      rcases before with _ | ⟨line'', before⟩
      · obtain ⟨rfl, -⟩ := List.cons_eq_cons.mp h
        exact ⟨[], first, raws, rfl, rfl, hfirst⟩
      · obtain ⟨rfl, htail⟩ := List.cons_eq_cons.mp h
        obtain ⟨front, raw, back, rfl, hfront, hraw⟩ := ih htail
        rw [Nat.add_assoc, Nat.add_comm 1] at hraw
        refine ⟨first :: front, raw, back, rfl, ?_, hraw⟩
        rw [numbered, hfirst, ← hfront]

end Line

namespace Module

theorem exists_run_of_compile {source : String} {e : CompileError}
    (h : compile source = .error e) : ∃ t, State.start.run (Line.ofSource source) = (t, some e) := by
  unfold compile outcome at h
  split at h
  next e' he' =>
    cases h
    exact ⟨(read source).1, Prod.ext rfl he'⟩
  next => cases h

theorem compile_of_run {source : String} {t : State}
    (h : State.start.run (Line.ofSource source) = (t, none)) : compile source = .ok t.module := by
  rw [compile, read, h]
  rfl

theorem compile_of_run_error {source : String} {t : State} {e : CompileError}
    (h : State.start.run (Line.ofSource source) = (t, some e)) : compile source = .error e := by
  rw [compile, read, h]
  rfl

/-- The first error of a text is found on one of its lines, at the first character that is not blank.
The lines before it are a module, and the error is the same whatever comes after it. -/
theorem compile_first_error {source : String} {e : CompileError} (h : compile source = .error e) :
    ∃ k raw, e.span? = some ⟨k, 1 + indentation raw⟩ ∧ 1 ≤ k ∧ k ≤ (lines source.toList).length ∧
      (lines source.toList)[k - 1]? = some raw ∧
      (∃ m, compile (String.ofList (takeLines (k - 1) source.toList)) = .ok m) ∧
      (∀ other, rows other = (rows source).take (k - 1) → ∃ m, compile other = .ok m) ∧
      (∀ other, (rows other).take k = (rows source).take k → compile other = .error e) ∧
      e.tag ∈ ["SectionOrder", "IncompleteDeclaration", "Syntax", "InvalidLiteral", "Redeclaration",
        "TemplateMisuse"] := by
  obtain ⟨t, hrun⟩ := exists_run_of_compile h
  obtain ⟨before, line, after, hlines, hbefore, hline⟩ := State.exists_of_run_eq_error hrun
  obtain ⟨front, raw, back, hsource, hfront, hraw⟩ := Line.exists_of_numbered_eq hlines
  have hspan : line.span = ⟨front.length + 1, 1 + indentation raw⟩ := by
    rw [Line.span_of_ofRaw? hraw, Nat.add_comm 1, Nat.add_comm 1]
  have hat : e.OfLine ⟨front.length + 1, 1 + indentation raw⟩ :=
    hspan ▸ State.step_failsAt t line e hline
  have hok : ∀ other, rows other = (rows source).take front.length → ∃ m, compile other = .ok m := by
    intro other hother
    refine ⟨t.module, compile_of_run ?_⟩
    rw [Line.ofSource_eq_rows, hother, rows, hsource, ← List.map_take, List.take_left,
      Line.numbered_map_trimEnd, hfront, hbefore]
  have herror : ∀ other, (rows other).take (front.length + 1) =
      (rows source).take (front.length + 1) → compile other = .error e := by
    intro other hother
    have htake : (rows source).take (front.length + 1) = (front ++ [raw]).map trimEnd := by
      rw [rows, hsource, ← List.map_take, List.take_length_add_append, List.take_one]
      rfl
    have hnumbered : Line.numbered 1 (front ++ [raw]) = before ++ [line] := by
      rw [Line.numbered_append, hfront, Line.numbered, hraw]
      rfl
    obtain ⟨rest, hrest⟩ := Line.exists_ofSource_eq_append (hother.trans htake)
    refine compile_of_run_error (t := t) ?_
    rw [hrest, hnumbered, List.append_assoc]
    exact State.run_eq_error hbefore hline
  refine ⟨front.length + 1, raw, hat.span?_eq, ?_, ?_, ?_, ?_, hok, herror, hat.tag_mem⟩
  · omega
  · simp [hsource]
  · simp [hsource]
  · refine hok _ ?_
    rw [rows, String.toList_ofList, lines_takeLines, List.map_take]
    rfl

def redeclared : String := "#dd\n@data\n\nnum[] x = [1, 2]\r\n \tvec2 x = (0, .5)\n@program\n"

theorem compile_redeclared : compile redeclared = .error (.redeclaration "x" ⟨5, 3⟩) ∧
    (∃ m, compile "#dd\n@data\n\nnum[] x = [1, 2]\r\n" = .ok m) ∧
    ∀ other, (rows other).take 5 = (rows redeclared).take 5 →
      compile other = .error (.redeclaration "x" ⟨5, 3⟩) := by
  have herror : compile redeclared = .error (.redeclaration "x" ⟨5, 3⟩) := by
    have hread : (read redeclared).2 = some (.redeclaration "x" ⟨5, 3⟩) := by decide +kernel
    rw [compile, outcome, hread]
  obtain ⟨k, raw, hspan, -, -, -, hok, -, hall, -⟩ := compile_first_error herror
  obtain rfl : 5 = k := congrArg Span.line (Option.some.inj hspan)
  have hfront : String.ofList (takeLines (5 - 1) redeclared.toList) =
      "#dd\n@data\n\nnum[] x = [1, 2]\r\n" := by
    decide +kernel
  exact ⟨herror, hfront ▸ hok, hall⟩

end Module

end DrawScript
