import DrawScript.Proofs.Data.Literal

/-!
Lists of vectors, as they are read. The text between the brackets is divided at `),(` once an opening
parenthesis has been dropped from its start and a closing one from its end, and each run between is put
in parentheses again. What was dropped is put back even where nothing was: a list is accepted exactly
if it is rows of components joined by `),(`, and the first and the last parenthesis may be missing.
-/

namespace DrawScript

open Text

namespace Numeral

def isSymbol (c : Char) : Bool := c == '+' || c == '-' || c == '.' || c == 'e' || c == 'E'

variable {c : Char} {cs : List Char}

theorem mem_takeSign (h : c ∈ cs) : isSymbol c = true ∨ c ∈ (takeSign cs).2 := by
  unfold takeSign
  split
  next =>
    rcases List.mem_cons.mp h with rfl | h
    · exact .inl rfl
    · exact .inr h
  next =>
    rcases List.mem_cons.mp h with rfl | h
    · exact .inl rfl
    · exact .inr h
  next => exact .inr h

theorem mem_digits (h : c ∈ cs) : c.isDigit = true ∨ c ∈ cs.dropWhile Char.isDigit := by
  rw [← List.takeWhile_append_dropWhile (p := Char.isDigit) (l := cs)] at h
  rcases List.mem_append.mp h with h | h
  · exact .inl (List.mem_takeWhile_imp h)
  · exact .inr h

theorem mem_takeFraction (h : c ∈ cs) :
    c.isDigit = true ∨ isSymbol c = true ∨ c ∈ (takeFraction cs).2 := by
  unfold takeFraction
  split
  next =>
    rcases List.mem_cons.mp h with rfl | h
    · exact .inr (.inl rfl)
    · exact (mem_digits h).imp_right .inr
  next => exact .inr (.inr h)

theorem mem_of_exponent? {e : Int} (he : exponent? cs = some e) (h : c ∈ cs) :
    c.isDigit = true ∨ isSymbol c = true := by
  unfold exponent? at he
  split at he
  next => cases h
  next d ds =>
    split at he
    next hmark =>
      dsimp only at he
      split at he
      next => cases he
      next hdigits =>
        rw [Bool.or_eq_true, not_or] at hdigits
        have hall : (takeSign ds).2.all Char.isDigit = true := by simpa using hdigits.2
        rcases List.mem_cons.mp h with rfl | h
        · rcases hmark with rfl | rfl <;> exact .inr rfl
        · rcases mem_takeSign h with h | h
          · exact .inr h
          · exact .inl (List.all_eq_true.mp hall c h)
    next => cases he

theorem mem_of_parse? {n : Numeral} (hn : parse? cs = some n) (h : c ∈ cs) :
    c.isDigit = true ∨ isSymbol c = true := by
  unfold parse? at hn
  dsimp only at hn
  split at hn
  next => cases hn
  next =>
    obtain ⟨e, he, -⟩ := Option.map_eq_some_iff.mp hn
    rcases mem_takeSign h with h | h
    · exact .inr h
    rcases mem_digits h with h | h
    · exact .inl h
    rcases mem_takeFraction h with h | h | h
    · exact .inl h
    · exact .inr h
    · exact mem_of_exponent? he h

end Numeral

namespace Literal

theorem mem_of_number? {cs : List Char} {x : Binary64} (hx : number? cs = some x) {c : Char}
    (h : c ∈ compact cs) : c.isDigit = true ∨ Numeral.isSymbol c = true := by
  unfold number? Binary64.parse? at hx
  split at hx
  next n hn => exact Numeral.mem_of_parse? hn h
  next => cases hx

structure IsRow (row : List Char) : Prop where
  ne_nil : row ≠ []
  no_opening : '(' ∉ row
  no_closing : ')' ∉ row

variable {row text : List Char} {t : ElementType} {span : Span} {v : Value} {vs : List Value}

theorem mem_compact_of_not_isBlank {c : Char} (hc : isBlank c = false) (h : c ∈ row) : c ∈ compact row :=
  List.mem_filter.mpr ⟨h, by simp [hc]⟩

theorem not_parenthesis_of_number? {run : List Char} {x : Binary64} (hx : number? run = some x) {c : Char}
    (h : c ∈ run) : c ≠ '(' ∧ c ≠ ')' := by
  cases hblank : isBlank c with
  | true => constructor <;> rintro rfl <;> cases hblank
  | false =>
    constructor <;> rintro rfl <;>
      rcases mem_of_number? hx (mem_compact_of_not_isBlank hblank h) with h | h <;> cases h

theorem isRow_of_vector (h : vector ('(' :: row ++ [')']) t span = .ok v) : IsRow row := by
  unfold vector at h
  split at h
  next w hw =>
    have hcompact : compact ('(' :: row ++ [')']) = '(' :: compact row ++ [')'] := by
      rw [compact_append]
      rfl
    rw [vector?, hcompact] at hw
    obtain ⟨xs, hxs, -⟩ := Option.bind_eq_some_iff.mp hw
    rw [tuple?, between?_cons_append, Option.bind_some] at hxs
    have hpieces : ∀ run ∈ splitOn (· == ',') (compact row), ∃ x, number? run = some x :=
      forall_mem_left_of_forall₂ (mapM_eq_some_iff.mp hxs) fun run x hx => ⟨x, hx⟩
    have hchars : ∀ c ∈ compact row, c ≠ '(' ∧ c ≠ ')' := by
      have hjoin : [','].intercalate (splitOn (· == ',') (compact row)) = compact row := by
        rw [splitOn_eq_splitOnP]
        exact List.intercalate_splitOn ','
      rw [← hjoin]
      refine forall_mem_intercalate (by decide) fun run hrun c hc => ?_
      obtain ⟨x, hx⟩ := hpieces run hrun
      exact not_parenthesis_of_number? hx hc
    refine ⟨?_, fun h => (hchars _ (mem_compact_of_not_isBlank rfl h)).1 rfl,
      fun h => (hchars _ (mem_compact_of_not_isBlank rfl h)).2 rfl⟩
    rintro rfl
    obtain ⟨x, hx⟩ := hpieces [] (List.mem_singleton_self _)
    cases hx
  next => cases h

theorem splitTuples_ne_nil (cs : List Char) : splitTuples cs ≠ [] := by
  fun_induction splitTuples cs <;> simp_all

theorem intercalate_splitTuples (cs : List Char) :
    [')', ',', '('].intercalate (splitTuples cs) = cs := by
  fun_induction splitTuples cs with
  | case1 => rfl
  | case2 cs ih =>
    obtain ⟨run, runs, hruns⟩ := List.exists_cons_of_ne_nil (splitTuples_ne_nil cs)
    rw [hruns] at ih ⊢
    rw [List.intercalate_cons_cons, ih]
    rfl
  | case3 c cs _ hnil ih => exact absurd hnil (splitTuples_ne_nil cs)
  | case4 c cs _ run runs hruns ih =>
    rw [hruns] at ih
    cases runs with
    | nil => simpa using ih
    | cons next runs =>
      rw [List.intercalate_cons_cons] at ih ⊢
      rw [List.cons_append, List.cons_append, ih]

theorem exists_dropped (inner : List Char) :
    ∃ opening ∈ [[], ['(']], ∃ closing ∈ [[], [')']],
      inner = opening ++ dropClosing (dropOpening inner) ++ closing := by
  have hclosing (cs : List Char) : ∃ closing ∈ [[], [')']], cs = dropClosing cs ++ closing := by
    unfold dropClosing
    split
    next hlast =>
      refine ⟨[')'], by decide, ?_⟩
      obtain ⟨ds, rfl⟩ := List.getLast?_eq_some_iff.mp hlast
      rw [List.dropLast_concat]
    next => exact ⟨[], by decide, (List.append_nil cs).symm⟩
  obtain ⟨closing, hmem, hcs⟩ := hclosing (dropOpening inner)
  have hopening : ∃ opening ∈ [[], ['(']], inner = opening ++ dropOpening inner := by
    unfold dropOpening
    split
    next cs => exact ⟨['('], by decide, rfl⟩
    next => exact ⟨[], by decide, rfl⟩
  obtain ⟨opening, hmem', hinner⟩ := hopening
  refine ⟨opening, hmem', closing, hmem, ?_⟩
  rw [List.append_assoc, ← hcs, ← hinner]

theorem ends_of_rows {rows : List (List Char)} (hne : rows ≠ []) (hrows : ∀ row ∈ rows, IsRow row) :
    (∃ c cs, [')', ',', '('].intercalate rows = c :: cs ∧ c ≠ '(') ∧
      ∃ cs c, [')', ',', '('].intercalate rows = cs ++ [c] ∧ c ≠ ')' := by
  induction rows with
  | nil => exact absurd rfl hne
  | cons row rows ih =>
    obtain ⟨hrow, hrest⟩ := List.forall_mem_cons.mp hrows
    obtain ⟨c, cs, rfl⟩ := List.exists_cons_of_ne_nil hrow.ne_nil
    have hc : c ≠ '(' := fun h => hrow.no_opening (h ▸ List.mem_cons_self)
    cases rows with
    | nil =>
      rw [List.intercalate_singleton]
      refine ⟨⟨c, cs, rfl, hc⟩, (c :: cs).dropLast, (c :: cs).getLast (List.cons_ne_nil c cs), ?_, ?_⟩
      · exact (List.dropLast_concat_getLast _).symm
      · exact fun h => hrow.no_closing (h ▸ List.getLast_mem _)
    | cons next rows =>
      obtain ⟨-, ds, d, hlast, hd⟩ := ih (List.cons_ne_nil next rows) hrest
      rw [List.intercalate_cons_cons]
      refine ⟨⟨c, _, rfl, hc⟩, c :: cs ++ [')', ',', '('] ++ ds, d, ?_, hd⟩
      rw [hlast, List.append_assoc _ ds]

theorem tuples_of_rows {opening closing : List Char} {rows : List (List Char)}
    (hopening : opening ∈ [[], ['(']]) (hclosing : closing ∈ [[], [')']]) (hne : rows ≠ [])
    (hrows : ∀ row ∈ rows, IsRow row) :
    tuples (opening ++ [')', ',', '('].intercalate rows ++ closing) =
      rows.map fun row => '(' :: row ++ [')'] := by
  obtain ⟨⟨c, cs, hfirst, hc⟩, ds, d, hlast, hd⟩ := ends_of_rows hne hrows
  have hdropOpening : dropOpening (opening ++ [')', ',', '('].intercalate rows ++ closing) =
      [')', ',', '('].intercalate rows ++ closing := by
    rcases List.mem_pair.mp hopening with rfl | rfl
    · rw [List.nil_append, hfirst, List.cons_append, dropOpening]
      rintro _ ⟨⟩
      exact hc rfl
    · rfl
  have hdropClosing : dropClosing ([')', ',', '('].intercalate rows ++ closing) =
      [')', ',', '('].intercalate rows := by
    unfold dropClosing
    rcases List.mem_pair.mp hclosing with rfl | rfl
    · rw [List.append_nil, hlast, List.getLast?_concat, if_neg (fun h => hd (Option.some.inj h))]
    · rw [List.getLast?_concat, if_pos rfl, List.dropLast_concat]
  rw [tuples, hdropOpening, hdropClosing, splitTuples_intercalate hne fun row hrow => (hrows row hrow).no_closing]

theorem between?_eq_some_iff {opening closing : Char} {cs inner : List Char} :
    between? opening closing cs = some inner ↔ cs = opening :: inner ++ [closing] := by
  constructor
  · intro h
    unfold between? at h
    split at h
    next => cases h
    next c cs =>
      split at h
      next hends =>
        cases h
        obtain ⟨rfl, hlast⟩ := hends
        obtain ⟨ds, rfl⟩ := List.getLast?_eq_some_iff.mp hlast
        rw [List.dropLast_concat, List.cons_append]
      next => cases h
  · rintro rfl
    exact between?_cons_append opening closing inner

theorem list_eq_ok_iff_pieces (ht : t ≠ .num) :
    list text t span = .ok vs ↔ ∃ inner, compact text = '[' :: inner ++ [']'] ∧
      List.Forall₂ (fun piece v => vector piece t span = .ok v) (if inner = [] then [] else tuples inner)
        vs := by
  have hpieces (inner : List Char) : elements t inner = if inner = [] then [] else tuples inner := by
    unfold elements
    simp only [List.isEmpty_iff]
    cases t with
    | num => exact absurd rfl ht
    | vec2 | vec3 => rfl
  have hvalue : (fun piece => value piece t span) = fun piece => vector piece t span := by
    cases t with
    | num => exact absurd rfl ht
    | vec2 | vec3 => rfl
  simp only [← between?_eq_some_iff, ← mapM_eq_ok_iff, ← hpieces, ← hvalue]
  unfold list
  cases between? '[' ']' (compact text) with
  | none => simp
  | some inner => simp

/-- A list of vectors is accepted if it is empty or consists of rows joined by `),(`. The parenthesis
before the first row and the one after the last may both be missing. -/
theorem list_eq_ok_iff (ht : t ≠ .num) :
    list text t span = .ok vs ↔
      compact text = ['[', ']'] ∧ vs = [] ∨
        ∃ opening ∈ [[], ['(']], ∃ closing ∈ [[], [')']], ∃ rows, rows ≠ [] ∧
          compact text = '[' :: (opening ++ [')', ',', '('].intercalate rows ++ closing) ++ [']'] ∧
          List.Forall₂ (fun row v => vector ('(' :: row ++ [')']) t span = .ok v) rows vs := by
  rw [list_eq_ok_iff_pieces ht]
  constructor
  · rintro ⟨inner, htext, hpieces⟩
    split at hpieces
    next hnil =>
      subst hnil
      exact .inl ⟨htext, List.forall₂_nil_left_iff.mp hpieces⟩
    next =>
      obtain ⟨opening, hopening, closing, hclosing, hinner⟩ := exists_dropped inner
      refine .inr ⟨opening, hopening, closing, hclosing, splitTuples (dropClosing (dropOpening inner)),
        splitTuples_ne_nil _, ?_, List.forall₂_map_left_iff.mp hpieces⟩
      rw [intercalate_splitTuples, ← hinner, htext]
  · rintro (⟨htext, rfl⟩ | ⟨opening, hopening, closing, hclosing, rows, hne, htext, hrows⟩)
    · exact ⟨[], htext, .nil⟩
    · have hall : ∀ row ∈ rows, IsRow row :=
        ((List.forall₂_and_left rows vs).mp (hrows.imp fun row v h => ⟨isRow_of_vector h, h⟩)).1
      obtain ⟨⟨c, cs, hfirst, -⟩, -⟩ := ends_of_rows hne hall
      refine ⟨_, htext, ?_⟩
      rw [if_neg (by simp [hfirst]), tuples_of_rows hopening hclosing hne hall]
      exact List.forall₂_map_left_iff.mpr hrows

theorem list_eq_ok_iff_halves :
    ElementType.vec2 ≠ .num ∧
      list "[1, 2),(3,4 ]".toList .vec2 Span.start =
        .ok [.vec2 (.ofBits 0x3ff0000000000000) (.ofBits 0x4000000000000000),
          .vec2 (.ofBits 0x4008000000000000) (.ofBits 0x4010000000000000)] := by
  have htype : ElementType.vec2 ≠ .num := by decide
  refine ⟨htype, (list_eq_ok_iff htype).mpr (.inr ⟨[], by decide, [], by decide,
    ["1,2".toList, "3,4".toList], by decide, by decide +kernel, ?_⟩)⟩
  exact .cons (by decide +kernel) (.cons (by decide +kernel) .nil)

/-- The form that lists of vectors are meant to have: tuples with commas between them. -/
def IsTupleList (text : List Char) (t : ElementType) (span : Span) (vs : List Value) : Prop :=
  compact text = ['[', ']'] ∧ vs = [] ∨
    ∃ pieces, pieces ≠ [] ∧ compact text = '[' :: [','].intercalate pieces ++ [']'] ∧
      List.Forall₂ (fun piece v => piece.head? = some '(' ∧ piece.getLast? = some ')' ∧
        vector piece t span = .ok v) pieces vs

/-- The components of a vector are a list of one vector, without any parentheses. -/
theorem list_without_parentheses :
    ∃ text vs, list text .vec2 Span.start = .ok vs ∧ ¬ IsTupleList text .vec2 Span.start vs := by
  refine ⟨"[1,2]".toList,
    [.vec2 (.ofBits 0x3ff0000000000000) (.ofBits 0x4000000000000000)], by decide +kernel, ?_⟩
  have htext : compact "[1,2]".toList = ['[', '1', ',', '2', ']'] := by decide +kernel
  rintro (⟨hempty, -⟩ | ⟨pieces, -, hpieces, hall⟩)
  · rw [htext] at hempty
    cases hempty
  · rw [htext] at hpieces
    cases hall with
    | @cons piece _ pieces _ hpiece _ =>
      obtain ⟨cs, rfl⟩ := List.head?_eq_some_iff.mp hpiece.1
      -- The first tuple starts where the text has a digit.
      cases pieces with
      | nil => cases hpieces
      | cons next pieces => cases hpieces

end Literal

end DrawScript
