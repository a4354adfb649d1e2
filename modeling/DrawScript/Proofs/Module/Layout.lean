import DrawScript.Proofs.Module.FirstError
import DrawScript.Proofs.Script.Relabel

/-!
The layout of a module's text does not matter. Lines that do not count may be added anywhere, and the
blanks around a line may be changed. The lines that count keep their texts and their order and only
change their positions. No step of the reading looks at a position: what it stores or reports is the
position of its own line, so the module has the same data and the same lines with other numbers, and an
error is the same at another place.
-/

namespace DrawScript

open Text

def Line.relocate (move : Span → Span) (line : Line) : Line := ⟨move line.span, line.text⟩

def KeptLine.renumber (number : Nat → Nat) (line : KeptLine) : KeptLine :=
  ⟨number line.number, line.text⟩

def Module.renumber (number : Nat → Nat) (m : Module) : Module :=
  { m with
    functions := m.functions.map (KeptLine.renumber number)
    program := m.program.map (KeptLine.renumber number) }

/-- A computation about a line carries its position along: at another position it gives the same value,
or the same error at that position. -/
def Carries {α : Type} (move : Span → Span) (x : Span → Except CompileError α) : Prop :=
  ∀ span, x (move span) = (x span).mapError (CompileError.relabel move)

namespace Carries

variable {α β : Type} {move : Span → Span} {x : Span → Except CompileError α}

theorem ok (a : α) : Carries move fun _ => .ok a := fun _ => rfl

theorem bind {f : α → Span → Except CompileError β} (hx : Carries move x)
    (hf : ∀ a, Carries move (f a)) : Carries move fun span => x span >>= fun a => f a span := by
  intro span
  dsimp only
  rw [hx span]
  cases x span with
  | error e => rfl
  | ok a => exact hf a span

theorem map {f : α → β} (hx : Carries move x) : Carries move fun span => (x span).map f := by
  intro span
  dsimp only
  rw [hx span]
  cases x span <;> rfl

theorem mapM {f : α → Span → Except CompileError β} (hf : ∀ a, Carries move (f a)) (as : List α) :
    Carries move fun span => as.mapM fun a => f a span := by
  induction as with
  | nil => exact .ok []
  | cons a as ih =>
    simp only [List.mapM_cons]
    exact (hf a).bind fun b => ih.bind fun bs => .ok (b :: bs)

end Carries

variable (move : Span → Span)

namespace Literal

theorem number_carries (text : List Char) : Carries move (number text) := by
  intro span
  unfold number
  cases number? text <;> rfl

theorem vector_carries (text : List Char) (type : ElementType) : Carries move (vector text type) := by
  intro span
  unfold vector
  cases vector? text type <;> rfl

theorem value_carries (text : List Char) (type : ElementType) : Carries move (value text type) := by
  cases type with
  | num => exact (number_carries move text).map
  | vec2 => exact vector_carries move text .vec2
  | vec3 => exact vector_carries move text .vec3

theorem list_carries (text : List Char) (type : ElementType) : Carries move (list text type) := by
  intro span
  unfold list
  cases between? '[' ']' (compact text) with
  | none => rfl
  | some inner => exact Carries.mapM (fun piece => value_carries move piece type) _ span

end Literal

namespace Declaration

theorem operandType_carries (typeWord name : List Char) :
    Carries move (operandType typeWord name) := by
  intro span
  unfold operandType
  dsimp only
  match TypeName.ofText? (dropListMark (String.ofList typeWord)).1 with
  | some (.concrete _) => rfl
  | some (.template _) => rfl
  | none => rfl

theorem variableOf_carries (type : OperandType) (name text : List Char) :
    Carries move (variableOf type name text) := by
  cases type with
  | singlet t => exact (Literal.value_carries move text t).map
  | list t => exact (Literal.list_carries move text t).map

theorem parse_carries (text : List Char) : Carries move fun span => parse ⟨span, text⟩ := by
  intro span
  unfold parse
  dsimp only
  split
  · split_ifs
    · rfl
    · rfl
    · exact (operandType_carries move _ _).bind (fun type => variableOf_carries move type _ _) span
  · rfl

end Declaration

theorem Table.declare_carries (t : Table) (v : Variable) : Carries move (t.declare v) := by
  intro span
  unfold Table.declare
  split <;> rfl

namespace Module.State

def renumber (number : Nat → Nat) (s : State) : State := { s with module := s.module.renumber number }

variable {move} {number : Nat → Nat} (hnumber : ∀ span, (move span).line = number span.line)

theorem enter_renumber (s : State) (cs : List Char) (span : Span) :
    (s.renumber number).enter cs (move span) =
      ((s.enter cs span).mapError (CompileError.relabel move)).map (renumber number) := by
  unfold enter
  dsimp only [renumber]
  cases s.current.next? with
  | none => rfl
  | some next =>
    dsimp only
    split_ifs <;> rfl

theorem direct_renumber (s : State) (line : Line) :
    (s.renumber number).direct (line.relocate move) =
      ((s.direct line).mapError (CompileError.relabel move)).map (renumber number) := by
  unfold direct
  by_cases hdirective : line.text.head? = some '#' ∧ s.directiveSeen = false
  · rw [if_pos hdirective]
    exact if_pos hdirective
  · rw [if_neg hdirective]
    exact if_neg hdirective

theorem declare_eq (s : State) (line : Line) :
    s.declare line =
      (Declaration.parse line >>= fun v => s.module.data.declare v line.span).map fun data =>
        { s with module := { s.module with data := data } } := by
  unfold declare
  cases Declaration.parse line with
  | error e => rfl
  | ok v =>
    change (s.module.data.declare v line.span >>= _) = (s.module.data.declare v line.span).map _
    cases s.module.data.declare v line.span <;> rfl

theorem declare_renumber (s : State) (line : Line) :
    (s.renumber number).declare (line.relocate move) =
      ((s.declare line).mapError (CompileError.relabel move)).map (renumber number) := by
  have hdata := ((Declaration.parse_carries move line.text).bind fun v =>
    s.module.data.declare_carries move v) line.span
  rw [declare_eq, declare_eq]
  change Except.map _ (Declaration.parse ⟨move line.span, line.text⟩ >>= fun v =>
    s.module.data.declare v (move line.span)) = _
  dsimp only at hdata
  rw [hdata]
  cases Declaration.parse ⟨line.span, line.text⟩ >>= fun v => s.module.data.declare v line.span <;> rfl

include hnumber in
theorem step_renumber (s : State) (line : Line) :
    (s.renumber number).step (line.relocate move) =
      ((s.step line).mapError (CompileError.relabel move)).map (renumber number) := by
  by_cases hat : line.text.head? = some '@'
  · obtain ⟨cs, hcs⟩ := List.head?_eq_some_iff.mp hat
    obtain ⟨span, text⟩ := line
    cases hcs
    exact enter_renumber s cs span
  · have hat' : (line.relocate move).text.head? ≠ some '@' := hat
    rw [step_of_head?_ne hat, step_of_head?_ne hat']
    obtain ⟨current, seen, m⟩ := s
    have hkeep : keep (line.relocate move) = (keep line).renumber number := by
      change KeptLine.mk (move line.span).line _ = ⟨number line.span.line, _⟩
      rw [hnumber]
      rfl
    cases current with
    | start => exact direct_renumber _ line
    | data => exact declare_renumber _ line
    | functions => simp [renumber, Module.renumber, hkeep, Except.mapError, Except.map]
    | program => simp [renumber, Module.renumber, hkeep, Except.mapError, Except.map]

include hnumber in
theorem run_renumber (s : State) (lines : List Line) :
    (s.renumber number).run (lines.map (Line.relocate move)) =
      ((s.run lines).1.renumber number, (s.run lines).2.map (CompileError.relabel move)) := by
  induction lines generalizing s with
  | nil => rfl
  | cons line lines ih =>
    rw [List.map_cons, run, run, step_renumber hnumber]
    cases s.step line with
    | error e => rfl
    | ok t => exact ih t

end Module.State

namespace Line

def IsVoid (raw : List Char) : Prop :=
  ∃ blanks rest, raw = blanks ++ rest ∧ (∀ c ∈ blanks, isBlank c = true) ∧
    (rest = [] ∨ ['/', '/'] <+: rest)

def SameText (raw raw' : List Char) : Prop :=
  ∃ text before after before' after', raw = before ++ text ++ after ∧ raw' = before' ++ text ++ after' ∧
    ∀ c ∈ before ++ after ++ (before' ++ after'), isBlank c = true

/-- The lines `raws'` are the lines `raws` laid out anew: the line at index `i` stands at index
`place i` with any blanks around it, in the same order, and all other lines do not count. -/
structure Relaid (place : Nat → Nat) (raws raws' : List (List Char)) : Prop where
  unbroken : ∀ raw ∈ raws ++ raws', '\n' ∉ raw
  ordered : ∀ i j, i < j → j < raws.length → place i < place j
  kept : ∀ i raw, raws[i]? = some raw → ∃ raw', raws'[place i]? = some raw' ∧ SameText raw raw'
  added : ∀ j raw', raws'[j]? = some raw' → (∀ i < raws.length, place i ≠ j) → IsVoid raw'

variable {place : Nat → Nat} {raw raw' : List Char} {raws raws' : List (List Char)}

theorem ofRaw?_of_isVoid (h : IsVoid raw) (number : Nat) : ofRaw? number raw = none := by
  obtain ⟨blanks, rest, rfl, hblanks, hrest⟩ := h
  have htrim : trim (blanks ++ rest) = trim rest := by
    rw [trim, skipBlanks_append_of_blank hblanks, trim]
  rw [ofRaw?, htrim]
  rcases hrest with rfl | ⟨comment, rfl⟩
  · rfl
  · have hslash : isBlank '/' = false := by decide
    rw [List.cons_append, List.cons_append, List.nil_append, trim_cons hslash, trimEnd_cons hslash]
    rfl

theorem SameText.trim_eq (h : SameText raw raw') : trim raw' = trim raw := by
  obtain ⟨text, before, after, before', after', rfl, rfl, hblank⟩ := h
  simp only [List.mem_append, or_imp, forall_and] at hblank
  obtain ⟨⟨hbefore, hafter⟩, hbefore', hafter'⟩ := hblank
  rw [trim_append_of_blank _ hafter, trim_append_of_blank _ hafter', trim, trim,
    skipBlanks_append_of_blank hbefore, skipBlanks_append_of_blank hbefore']

theorem SameText.ofRaw?_eq (h : SameText raw raw') (number number' : Nat) :
    ofRaw? number' raw' =
      (ofRaw? number raw).map fun line => ⟨⟨number', indentation raw' + 1⟩, line.text⟩ := by
  rw [ofRaw?, ofRaw?, h.trim_eq]
  split <;> rfl

def relaidNumber (place : Nat → Nat) (number : Nat) : Nat := place (number - 1) + 1

def relaidSpan (place : Nat → Nat) (raws' : List (List Char)) (span : Span) : Span :=
  ⟨relaidNumber place span.line, indentation (raws'.getD (place (span.line - 1)) []) + 1⟩

namespace Relaid

theorem ofRaw?_place (h : Relaid place raws raws') {i : Nat} (hraw : raws[i]? = some raw)
    (hraw' : raws'[place i]? = some raw') :
    ofRaw? (place i + 1) raw' =
      (ofRaw? (i + 1) raw).map (Line.relocate (relaidSpan place raws')) := by
  obtain ⟨_, hplace, hsame⟩ := h.kept i raw hraw
  obtain rfl := Option.some.inj (hplace.symm.trans hraw')
  rw [hsame.ofRaw?_eq (i + 1)]
  refine Option.map_congr fun line hline => ?_
  rw [Line.relocate, span_of_ofRaw? hline, relaidSpan, relaidNumber, Nat.add_sub_cancel, List.getD,
    hplace]
  rfl

/-- The first `i` lines stand among the first `j` lines of the new layout, and all others after these. -/
structure Apart (place : Nat → Nat) (raws : List (List Char)) (i j : Nat) : Prop where
  before : ∀ k < i, place k < j
  after : ∀ k, i ≤ k → k < raws.length → j ≤ place k

section

variable (h : Relaid place raws raws') {i j : Nat}
include h

theorem apart_kept (hi : i < raws.length) (hapart : Apart place raws i (place i)) :
    Apart place raws (i + 1) (place i + 1) := by
  refine ⟨fun k hk => ?_, fun k hk hlen => h.ordered i k hk hlen⟩
  rcases Nat.lt_succ_iff_lt_or_eq.mp hk with hlt | rfl
  · exact Nat.lt_succ_of_lt (hapart.before k hlt)
  · exact Nat.lt_succ_self _

theorem apart_added (hapart : Apart place raws i j) (hi : ¬ (i < raws.length ∧ place i = j)) :
    Apart place raws i (j + 1) := by
  refine ⟨fun k hk => Nat.lt_succ_of_lt (hapart.before k hk), fun k hk hlen => ?_⟩
  rcases Nat.eq_or_lt_of_le hk with rfl | hlt
  · exact Nat.lt_of_le_of_ne (hapart.after i hk hlen) fun heq => hi ⟨hlen, heq.symm⟩
  · have hle := hapart.after i (Nat.le_refl i) (Nat.lt_trans hlt hlen)
    exact Nat.lt_of_le_of_lt hle (h.ordered i k hlt hlen)

theorem isVoid_added (hapart : Apart place raws i (j + 1)) (hbefore : ∀ k < i, place k < j)
    (hraw' : raws'[j]? = some raw') : IsVoid raw' := by
  refine h.added j raw' hraw' fun k hlen => ?_
  rcases Nat.lt_or_ge k i with hlt | hge
  · exact Nat.ne_of_lt (hbefore k hlt)
  · exact Nat.ne_of_gt (hapart.after k hge hlen)

theorem length_le_of_apart (hapart : Apart place raws i j) (hj : raws'.length ≤ j) :
    raws.length ≤ i := by
  by_contra hlt
  have hlt : i < raws.length := Nat.lt_of_not_le hlt
  obtain ⟨_, hplace, -⟩ := h.kept i _ (List.getElem?_eq_getElem hlt)
  have hlt' := (List.getElem?_eq_some_iff.mp hplace).1
  have hle := hapart.after i (Nat.le_refl i) hlt
  omega

theorem numbered_drop (i j : Nat) (hapart : Apart place raws i j) :
    numbered (j + 1) (raws'.drop j) =
      (numbered (i + 1) (raws.drop i)).map (Line.relocate (relaidSpan place raws')) := by
  by_cases hj : j < raws'.length
  · rw [List.drop_eq_getElem_cons hj]
    by_cases hi : i < raws.length ∧ place i = j
    · obtain ⟨hlt, rfl⟩ := hi
      have ih := numbered_drop (i + 1) (place i + 1) (h.apart_kept hlt hapart)
      rw [List.drop_eq_getElem_cons hlt, numbered, numbered, ih,
        h.ofRaw?_place (List.getElem?_eq_getElem hlt) (List.getElem?_eq_getElem hj)]
      cases ofRaw? (i + 1) raws[i] <;> rfl
    · have hadded := h.apart_added hapart hi
      have ih := numbered_drop i (j + 1) hadded
      have hvoid := h.isVoid_added hadded hapart.before (List.getElem?_eq_getElem hj)
      rw [numbered, ofRaw?_of_isVoid hvoid, ih]
  · have hj := Nat.le_of_not_lt hj
    rw [List.drop_of_length_le hj, List.drop_of_length_le (h.length_le_of_apart hapart hj)]
    rfl
termination_by raws'.length - j

theorem numbered_eq_map :
    numbered 1 raws' = (numbered 1 raws).map (Line.relocate (relaidSpan place raws')) :=
  h.numbered_drop 0 0 ⟨fun k hk => absurd hk (Nat.not_lt_zero k), fun k _ _ => Nat.zero_le (place k)⟩

end

end Relaid

end Line

def Text.ofLines (raws : List (List Char)) : String := String.ofList (['\n'].intercalate raws)

theorem Line.ofSource_ofLines {raws : List (List Char)} (h : ∀ raw ∈ raws, '\n' ∉ raw) :
    Line.ofSource (ofLines raws) = Line.numbered 1 raws := by
  rcases List.eq_nil_or_concat raws with rfl | ⟨front, last, rfl⟩
  · rfl
  · rw [List.concat_eq_append] at h ⊢
    rw [Line.ofSource, ofLines, String.toList_ofList, lines, splitOn_intercalate (by simp) h,
      List.getLast?_concat, List.dropLast_concat]
    -- A last line that is empty is left out, but it would not count either.
    split_ifs with hlast
    · rw [Line.numbered_append, Option.some.inj hlast, Line.numbered, Line.numbered]
      exact (List.append_nil _).symm
    · rfl

namespace Module

/-- A new layout changes the numbers of the kept lines, or the position of the error, and nothing
else. -/
theorem compile_relaid {place : Nat → Nat} {raws raws' : List (List Char)}
    (h : Line.Relaid place raws raws') :
    compile (ofLines raws') =
      ((compile (ofLines raws)).mapError (CompileError.relabel (Line.relaidSpan place raws'))).map
        (Module.renumber (Line.relaidNumber place)) := by
  have hnew : ∀ raw ∈ raws', '\n' ∉ raw := fun raw hraw => h.unbroken raw (List.mem_append_right _ hraw)
  have hold : ∀ raw ∈ raws, '\n' ∉ raw := fun raw hraw => h.unbroken raw (List.mem_append_left _ hraw)
  have hnumber : ∀ span, (Line.relaidSpan place raws' span).line = Line.relaidNumber place span.line :=
    fun _ => rfl
  rw [compile, read, Line.ofSource_ofLines hnew, h.numbered_eq_map, compile, read,
    Line.ofSource_ofLines hold]
  change outcome ((State.start.renumber (Line.relaidNumber place)).run _) = _
  rw [State.run_renumber hnumber, outcome, outcome]
  cases (State.start.run (Line.numbered 1 raws)).2 <;> rfl

def misspelled : List (List Char) := ["@data".toList, "num x = y".toList]

def misspelledRelaid : List (List Char) :=
  ["// values".toList, "  @data".toList, [], "\tnum x = y ".toList]

theorem compile_relaid_misspelled : Line.Relaid (2 * · + 1) misspelled misspelledRelaid ∧
    compile (ofLines misspelled) = .error (.invalidLiteral "y" "num" ⟨2, 1⟩) ∧
    compile (ofLines misspelledRelaid) = .error (.invalidLiteral "y" "num" ⟨4, 2⟩) := by
  have hrelaid : Line.Relaid (2 * · + 1) misspelled misspelledRelaid := by
    refine ⟨by decide +kernel, fun i j hij _ => by omega, ?_, ?_⟩
    · rintro (_ | _ | i) raw hraw
      · exact ⟨_, rfl, "@data".toList, [], [], "  ".toList, [],
          by simpa [misspelled] using hraw.symm, rfl, List.all_eq_true.mp (by decide +kernel)⟩
      · exact ⟨_, rfl, "num x = y".toList, [], [], ['\t'], [' '],
          by simpa [misspelled] using hraw.symm, rfl, List.all_eq_true.mp (by decide +kernel)⟩
      · simp [misspelled] at hraw
    · rintro (_ | _ | _ | _ | j) raw hraw hplace
      · exact ⟨[], _, rfl, List.forall_mem_nil _,
          .inr ⟨" values".toList, by simpa [misspelledRelaid] using hraw⟩⟩
      · exact absurd rfl (hplace 0 (by decide))
      · exact ⟨[], raw, rfl, List.forall_mem_nil _, .inl (by simpa [misspelledRelaid] using hraw.symm)⟩
      · exact absurd rfl (hplace 1 (by decide))
      · simp [misspelledRelaid] at hraw
  have herror : compile (ofLines misspelled) = .error (.invalidLiteral "y" "num" ⟨2, 1⟩) := by
    have hread : (read (ofLines misspelled)).2 = some (.invalidLiteral "y" "num" ⟨2, 1⟩) := by
      decide +kernel
    rw [compile, outcome, hread]
  refine ⟨hrelaid, herror, ?_⟩
  rw [compile_relaid hrelaid, herror]
  rfl

end Module

end DrawScript
