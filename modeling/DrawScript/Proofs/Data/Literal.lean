import DrawScript.Data.Literal
import DrawScript.Proofs.Number.Text
import DrawScript.Proofs.Text.Splitting
import Mathlib.Data.List.Forall2

/-!
Literals of values read back as the values. What a literal reads as has the type that was asked for
and finite components; conversely the text of every value with finite components, and of every list
of such values of one type, reads as what it was made from.
-/

namespace DrawScript

open Text

theorem exists_of_bind_eq_ok {ε α β : Type} {x : Except ε α} {f : α → Except ε β} {b : β}
    (h : x >>= f = .ok b) : ∃ a, x = .ok a ∧ f a = .ok b := by
  cases x with
  | error => cases h
  | ok a => exact ⟨a, rfl, h⟩

theorem isBlank_of_isNumeralChar {c : Char} (h : Binary64.isNumeralChar c = true) :
    isBlank c = false := by
  simp only [Binary64.isNumeralChar, Bool.or_eq_true, beq_iff_eq] at h
  rcases h with (h | rfl) | rfl
  · exact isBlank_of_isDigit h
  · decide
  · decide

theorem isBlank_enclosed {opening closing : Char} {inner : List Char}
    (hopening : isBlank opening = false) (hclosing : isBlank closing = false)
    (hinner : ∀ c ∈ inner, isBlank c = false) :
    ∀ c ∈ opening :: inner ++ [closing], isBlank c = false :=
  List.forall_mem_append.mpr
    ⟨List.forall_mem_cons.mpr ⟨hopening, hinner⟩, List.forall_mem_singleton.mpr hclosing⟩

namespace Value

def Finite (v : Value) : Prop := ∀ x ∈ v.components, x.isFinite = true

def row (v : Value) : List Char := [','].intercalate (v.components.map fun x => x.text.toList)

theorem toList_text (v : Value) :
    v.text.toList = if v.type = .num then v.row else '(' :: v.row ++ [')'] := by
  cases v <;> simp [text, row, type, components]

variable {v : Value}

theorem Finite.isNumeralChar (h : v.Finite) {run : List Char}
    (hrun : run ∈ v.components.map fun x => x.text.toList) {c : Char} (hc : c ∈ run) :
    Binary64.isNumeralChar c = true := by
  obtain ⟨x, hx, rfl⟩ := List.mem_map.mp hrun
  exact Binary64.isNumeralChar_of_mem_text (h x hx) hc

theorem Finite.row_char (h : v.Finite) {c : Char} (hc : c ∈ v.row) :
    Binary64.isNumeralChar c = true ∨ c = ',' := by
  refine forall_mem_intercalate (p := fun c => Binary64.isNumeralChar c = true ∨ c = ',')
    (.inr rfl) ?_ c hc
  exact fun run hrun c hc => .inl (h.isNumeralChar hrun hc)

theorem Finite.closing_not_mem_row (h : v.Finite) : ')' ∉ v.row := by
  intro hc
  rcases h.row_char hc with hc | hc <;> cases hc

theorem Finite.isBlank_text (h : v.Finite) {c : Char} (hc : c ∈ v.text.toList) :
    isBlank c = false := by
  have hrow : ∀ c ∈ v.row, isBlank c = false := by
    intro c hc
    rcases h.row_char hc with hc | rfl
    · exact isBlank_of_isNumeralChar hc
    · rfl
  rw [toList_text] at hc
  split at hc
  next => exact hrow c hc
  next => exact isBlank_enclosed rfl rfl hrow c hc

theorem Finite.toList_text_ne_nil (h : v.Finite) : v.text.toList ≠ [] := by
  cases v with
  | num x => exact Binary64.toList_text_ne_nil (h x (List.mem_singleton_self x))
  | vec2 | vec3 => simp [toList_text, type]

theorem toList_listText (vs : List Value) :
    (listText vs).toList = '[' :: [','].intercalate (vs.map fun v => v.text.toList) ++ [']'] := by
  simp [listText, Function.comp_def]

theorem isBlank_listText {vs : List Value} (hvs : ∀ v ∈ vs, v.Finite) {c : Char}
    (hc : c ∈ (listText vs).toList) : isBlank c = false := by
  rw [toList_listText] at hc
  refine isBlank_enclosed rfl rfl (forall_mem_intercalate rfl ?_) c hc
  intro run hrun
  obtain ⟨v, hv, rfl⟩ := List.mem_map.mp hrun
  exact fun c => (hvs v hv).isBlank_text

theorem Finite.splitOn_row (h : v.Finite) :
    splitOn (· == ',') v.row = v.components.map fun x => x.text.toList := by
  refine splitOn_intercalate (by cases v <;> simp [components]) ?_
  intro run hrun hcomma
  exact Bool.false_ne_true (h.isNumeralChar hrun hcomma)

end Value

namespace Literal

theorem mapM_map_eq_pure {m : Type → Type} [Monad m] [LawfulMonad m] {α β : Type} {f : α → m β}
    {g : β → α} {ys : List β} (h : ∀ y ∈ ys, f (g y) = pure y) : (ys.map g).mapM f = pure ys := by
  induction ys with
  | nil => rfl
  | cons y ys ih =>
    obtain ⟨hy, hys⟩ := List.forall_mem_cons.mp h
    simp [List.mapM_cons, hy, ih hys]

theorem mapM_eq_ok_iff {ε α β : Type} {f : α → Except ε β} {as : List α} {bs : List β} :
    as.mapM f = .ok bs ↔ List.Forall₂ (fun a b => f a = .ok b) as bs := by
  constructor
  · intro h
    induction as generalizing bs with
    | nil =>
      cases h
      exact .nil
    | cons a as ih =>
      rw [List.mapM_cons] at h
      obtain ⟨b, hb, h⟩ := exists_of_bind_eq_ok h
      obtain ⟨bs', hbs', h⟩ := exists_of_bind_eq_ok h
      cases h
      exact .cons hb (ih hbs')
  · intro h
    induction h with
    | nil => rfl
    | cons hab _ ih =>
      rw [List.mapM_cons, hab, ih]
      rfl

theorem mapM_eq_some_iff {α β : Type} {f : α → Option β} {as : List α} {bs : List β} :
    as.mapM f = some bs ↔ List.Forall₂ (fun a b => f a = some b) as bs := by
  constructor
  · intro h
    induction as generalizing bs with
    | nil =>
      cases h
      exact .nil
    | cons a as ih =>
      rw [List.mapM_cons] at h
      obtain ⟨b, hb, h⟩ := Option.bind_eq_some_iff.mp h
      obtain ⟨bs', hbs', h⟩ := Option.bind_eq_some_iff.mp h
      cases h
      exact .cons hb (ih hbs')
  · intro h
    induction h with
    | nil => rfl
    | cons hab _ ih =>
      rw [List.mapM_cons, hab, ih]
      rfl

section Related

variable {α β : Type} {R : α → β → Prop} {as : List α} {bs : List β}

theorem forall_mem_left_of_forall₂ {p : α → Prop} (h : List.Forall₂ R as bs) (hp : ∀ a b, R a b → p a) :
    ∀ a ∈ as, p a :=
  ((List.forall₂_and_left as bs).mp (h.imp fun a b hab => ⟨hp a b hab, hab⟩)).1

theorem forall_mem_right_of_forall₂ {p : β → Prop} (h : List.Forall₂ R as bs) (hp : ∀ a b, R a b → p b) :
    ∀ b ∈ bs, p b := by
  have hflip : List.Forall₂ (flip R) bs as := h.flip
  exact forall_mem_left_of_forall₂ hflip fun b a hab => hp a b hab

end Related

theorem between?_cons_append (opening closing : Char) (inner : List Char) :
    between? opening closing (opening :: inner ++ [closing]) = some inner := by
  simp [between?]

theorem number?_text {x : Binary64} (h : x.isFinite = true) : number? x.text.toList = some x := by
  rw [number?, compact_eq_self]
  · exact Binary64.parse?_toList_text h
  · exact fun c hc => isBlank_of_isNumeralChar (Binary64.isNumeralChar_of_mem_text h hc)

variable {v : Value}

theorem tuple?_row (h : v.Finite) : tuple? ('(' :: v.row ++ [')']) = some v.components := by
  rw [tuple?, between?_cons_append, Option.bind_some, h.splitOn_row]
  exact mapM_map_eq_pure fun x hx => number?_text (h x hx)

theorem vectorOf?_components (hv : v.type ≠ .num) : vectorOf? v.type v.components = some v := by
  cases v with
  | num => exact absurd rfl hv
  | vec2 | vec3 => rfl

theorem vector?_text (h : v.Finite) (hv : v.type ≠ .num) :
    vector? v.text.toList v.type = some v := by
  rw [vector?, compact_eq_self fun _ => h.isBlank_text, Value.toList_text, if_neg hv, tuple?_row h]
  exact vectorOf?_components hv

theorem value_text (h : v.Finite) (span : Span) : value v.text.toList v.type span = .ok v := by
  have hvector (hv : v.type ≠ .num) : vector v.text.toList v.type span = .ok v := by
    rw [vector, vector?_text h hv]
  cases v with
  | num x =>
    have hx := number?_text (h x (List.mem_singleton_self x))
    simp only [value, Value.type, Value.text, number, hx, Except.map]
  | vec2 | vec3 => exact hvector (by simp [Value.type])

theorem splitTuples_cons {c : Char} (hc : c ≠ ')') (cs : List Char) :
    splitTuples (c :: cs) = (match splitTuples cs with
      | [] => [[c]]
      | run :: runs => (c :: run) :: runs) := by
  -- Only a closing parenthesis can start the text `),(`.
  rw [splitTuples.eq_def (c :: cs)]
  split
  next h => cases h
  next h =>
    cases h
    exact absurd rfl hc
  next h =>
    cases h
    rfl

theorem splitTuples_run {run : List Char} (h : ')' ∉ run) : splitTuples run = [run] := by
  induction run with
  | nil => rfl
  | cons c run ih =>
    rw [splitTuples_cons (List.ne_of_not_mem_cons h).symm, ih (List.not_mem_of_not_mem_cons h)]

theorem splitTuples_run_append {run : List Char} (h : ')' ∉ run) (rest : List Char) :
    splitTuples (run ++ [')', ',', '('] ++ rest) = run :: splitTuples rest := by
  induction run with
  | nil => rfl
  | cons c run ih =>
    rw [List.cons_append, List.cons_append, splitTuples_cons (List.ne_of_not_mem_cons h).symm,
      ih (List.not_mem_of_not_mem_cons h)]

theorem splitTuples_intercalate {runs : List (List Char)} (hne : runs ≠ [])
    (hruns : ∀ run ∈ runs, ')' ∉ run) : splitTuples ([')', ',', '('].intercalate runs) = runs := by
  induction runs with
  | nil => exact absurd rfl hne
  | cons run runs ih =>
    obtain ⟨hrun, hrest⟩ := List.forall_mem_cons.mp hruns
    rcases runs with _ | ⟨next, runs⟩
    · rw [List.intercalate_singleton, splitTuples_run hrun]
    · rw [List.intercalate_cons_cons, splitTuples_run_append hrun, ih (by simp) hrest]

theorem intercalate_tuples {runs : List (List Char)} (hne : runs ≠ []) :
    [','].intercalate (runs.map fun run => '(' :: run ++ [')']) =
      '(' :: [')', ',', '('].intercalate runs ++ [')'] := by
  induction runs with
  | nil => exact absurd rfl hne
  | cons run runs ih =>
    rcases runs with _ | ⟨next, runs⟩
    · simp
    · have hrest := ih (by simp)
      rw [List.map_cons] at hrest
      rw [List.map_cons, List.map_cons, List.intercalate_cons_cons, hrest, List.intercalate_cons_cons]
      simp

theorem tuples_intercalate {runs : List (List Char)} (hne : runs ≠ [])
    (hruns : ∀ run ∈ runs, ')' ∉ run) :
    tuples ([','].intercalate (runs.map fun run => '(' :: run ++ [')'])) =
      runs.map fun run => '(' :: run ++ [')'] := by
  rw [intercalate_tuples hne, tuples, List.cons_append, dropOpening, dropClosing,
    List.getLast?_concat, if_pos rfl, List.dropLast_concat, splitTuples_intercalate hne hruns]

variable {t : ElementType} {vs : List Value} {text : List Char} {span : Span}
  {pieces : List (List Char)}

/-- A text that stays in one piece when a list of such texts is divided: a number without a comma, or a
row in parentheses without a closing one inside. -/
def IsPiece : ElementType → List Char → Prop
  | .num, piece => piece ≠ [] ∧ ',' ∉ piece
  | .vec2, piece | .vec3, piece => ∃ row, piece = '(' :: row ++ [')'] ∧ ')' ∉ row

theorem IsPiece.ne_nil {piece : List Char} (h : IsPiece t piece) : piece ≠ [] := by
  cases t with
  | num => exact h.1
  | vec2 | vec3 =>
    obtain ⟨row, rfl, -⟩ := h
    exact List.cons_ne_nil _ _

theorem exists_rows (h : ∀ piece ∈ pieces, ∃ row, piece = '(' :: row ++ [')'] ∧ ')' ∉ row) :
    ∃ rows : List (List Char), pieces = rows.map (fun row => '(' :: row ++ [')']) ∧
      ∀ row ∈ rows, ')' ∉ row := by
  induction pieces with
  | nil => exact ⟨[], rfl, List.forall_mem_nil _⟩
  | cons piece pieces ih =>
    obtain ⟨⟨row, rfl, hrow⟩, hpieces⟩ := List.forall_mem_cons.mp h
    obtain ⟨rows, rfl, hrows⟩ := ih hpieces
    exact ⟨row :: rows, rfl, List.forall_mem_cons.mpr ⟨hrow, hrows⟩⟩

theorem elements_intercalate (h : ∀ piece ∈ pieces, IsPiece t piece) :
    elements t ([','].intercalate pieces) = pieces := by
  -- An empty list has no elements, although splitting its text would give one empty run.
  rcases pieces with _ | ⟨piece, pieces⟩
  · rfl
  · have hinner : ¬ ([','].intercalate (piece :: pieces)).isEmpty := by
      have hpiece := (h piece List.mem_cons_self).ne_nil
      cases pieces <;> simp [hpiece]
    unfold elements
    rw [if_neg hinner]
    cases t with
    | num => exact splitOn_intercalate (List.cons_ne_nil piece pieces) fun run hrun => (h run hrun).2
    | vec2 | vec3 =>
      obtain ⟨rows, hpieces, hrows⟩ := exists_rows h
      have hne : rows ≠ [] := by
        rintro rfl
        cases hpieces
      rw [hpieces]
      exact tuples_intercalate hne hrows

theorem list_of_pieces (htext : compact text = '[' :: [','].intercalate pieces ++ [']'])
    (hpieces : ∀ piece ∈ pieces, IsPiece t piece)
    (hvalues : List.Forall₂ (fun piece v => value piece t span = .ok v) pieces vs) :
    list text t span = .ok vs := by
  rw [list, htext, between?_cons_append]
  dsimp only
  rw [elements_intercalate hpieces]
  exact mapM_eq_ok_iff.mpr hvalues

theorem isPiece_text (h : v.Finite) : IsPiece v.type v.text.toList := by
  cases v with
  | num x =>
    refine ⟨h.toList_text_ne_nil, fun hcomma => ?_⟩
    have hx := h x (List.mem_singleton_self x)
    exact Bool.false_ne_true (Binary64.isNumeralChar_of_mem_text hx hcomma)
  | vec2 | vec3 => exact ⟨_, Value.toList_text _, h.closing_not_mem_row⟩

theorem list_listText (hvs : ∀ v ∈ vs, v.Finite) (htype : ∀ v ∈ vs, v.type = t) (span : Span) :
    list (Value.listText vs).toList t span = .ok vs := by
  have htext : compact (Value.listText vs).toList =
      '[' :: [','].intercalate (vs.map fun v => v.text.toList) ++ [']'] := by
    rw [compact_eq_self fun _ => Value.isBlank_listText hvs, Value.toList_listText]
  refine list_of_pieces htext (List.forall_mem_map.mpr fun v hv => ?_) ?_
  · rw [← htype v hv]
    exact isPiece_text (hvs v hv)
  · refine List.forall₂_map_left_iff.mpr (List.forall₂_same.mpr fun v hv => ?_)
    rw [← htype v hv]
    exact value_text (hvs v hv) span

theorem vectorOf?_eq_some {xs : List Binary64} (h : vectorOf? t xs = some v) :
    v.type = t ∧ v.components = xs := by
  unfold vectorOf? at h
  split at h <;> cases h <;> exact ⟨rfl, rfl⟩

theorem value_eq_ok {text : List Char} {span : Span} (h : value text t span = .ok v) :
    v.type = t ∧ v.Finite := by
  have hvector (h : vector text t span = .ok v) : v.type = t ∧ v.Finite := by
    unfold vector at h
    split at h
    next w hw =>
      cases h
      obtain ⟨xs, hxs, hw⟩ := Option.bind_eq_some_iff.mp hw
      obtain ⟨inner, -, hxs⟩ := Option.bind_eq_some_iff.mp hxs
      obtain ⟨htype, hcomponents⟩ := vectorOf?_eq_some hw
      refine ⟨htype, ?_⟩
      rw [Value.Finite, hcomponents]
      exact forall_mem_right_of_forall₂ (mapM_eq_some_iff.mp hxs) fun _ _ => Binary64.isFinite_of_parse?
    next => cases h
  cases t with
  | num =>
    unfold value number at h
    dsimp only at h
    split at h
    next x hx =>
      cases h
      exact ⟨rfl, List.forall_mem_singleton.mpr (Binary64.isFinite_of_parse? hx)⟩
    next => cases h
  | vec2 | vec3 => exact hvector h

theorem list_eq_ok {text : List Char} {span : Span} (h : list text t span = .ok vs) :
    ∀ v ∈ vs, v.type = t ∧ v.Finite := by
  unfold list at h
  split at h
  next => cases h
  next => exact forall_mem_right_of_forall₂ (mapM_eq_ok_iff.mp h) fun _ _ => value_eq_ok

end Literal

end DrawScript
