import DrawScript.Proofs.Data.Tuples

/-!
Lists of literals are read element by element. A text that reads as a value stays in one piece when it
stands in a list: a number has no comma, and a row of components has no closing parenthesis, so no cut
at `),(` falls inside a tuple. Blanks do not count, in an element or in the list around it.
-/

namespace DrawScript.Literal

open Text

variable {text : List Char} {t : ElementType} {span span' : Span} {v : Value}

def value? (text : List Char) (t : ElementType) : Option Value :=
  match t with
  | .num => (number? text).map .num
  | .vec2 | .vec3 => vector? text t

theorem vector_eq_ok_iff : vector text t span = .ok v ↔ vector? text t = some v := by
  unfold vector
  cases vector? text t <;> simp

theorem value_eq_ok_iff : value text t span = .ok v ↔ value? text t = some v := by
  cases t with
  | num =>
    unfold value value? number
    cases number? text <;> simp [Except.map]
  | vec2 | vec3 => exact vector_eq_ok_iff

theorem value?_compact (text : List Char) (t : ElementType) : value? (compact text) t = value? text t := by
  cases t with
  | num => rw [value?, value?, number?, number?, compact_compact]
  | vec2 | vec3 => rw [value?, value?, vector?, vector?, compact_compact]

theorem value_compact (h : value text t span = .ok v) : value (compact text) t span' = .ok v := by
  rw [value_eq_ok_iff, value?_compact]
  exact value_eq_ok_iff.mp h

theorem compact_ne_nil_of_number? {x : Binary64} (h : number? text = some x) : compact text ≠ [] := by
  intro hnil
  rw [number?, hnil] at h
  cases h

theorem exists_row_of_vector? (h : vector? text t = some v) :
    ∃ row, compact text = '(' :: row ++ [')'] ∧ ')' ∉ row := by
  obtain ⟨xs, hxs, -⟩ := Option.bind_eq_some_iff.mp h
  obtain ⟨row, hinner, -⟩ := Option.bind_eq_some_iff.mp hxs
  have hrow : compact text = '(' :: row ++ [')'] := between?_eq_some_iff.mp hinner
  have hvector : vector (compact text) t Span.start = .ok v := by
    rw [vector_eq_ok_iff, vector?, compact_compact]
    exact h
  rw [hrow] at hvector
  exact ⟨row, hrow, (isRow_of_vector hvector).no_closing⟩

theorem isPiece_of_value (h : value text t span = .ok v) : IsPiece t (compact text) := by
  cases t with
  | num =>
    obtain ⟨x, hx, -⟩ := Option.map_eq_some_iff.mp (value_eq_ok_iff.mp h)
    refine ⟨compact_ne_nil_of_number? hx, fun hcomma => ?_⟩
    rcases mem_of_number? hx hcomma with hdigit | hsymbol
    · cases hdigit
    · cases hsymbol
  | vec2 | vec3 => exact exists_row_of_vector? (value_eq_ok_iff.mp h)

/-- Texts that read as values, with commas between them and in brackets, read as the list of the values,
wherever blanks are put in or left out. -/
theorem list_of_values {texts : List (List Char)} {vs : List Value}
    (hvalues : List.Forall₂ (fun text v => value text t span = .ok v) texts vs)
    (htext : compact text = '[' :: [','].intercalate (texts.map compact) ++ [']']) :
    list text t span' = .ok vs := by
  have hpieces : ∀ text ∈ texts, IsPiece t (compact text) :=
    ((List.forall₂_and_left texts vs).mp (hvalues.imp fun _ _ h => ⟨isPiece_of_value h, h⟩)).1
  refine list_of_pieces htext (List.forall_mem_map.mpr hpieces) ?_
  exact List.forall₂_map_left_iff.mpr (hvalues.imp fun _ _ => value_compact)

theorem list_of_values_blanks :
    value "( 1 ,-2.5)".toList .vec2 Span.start =
        .ok (.vec2 (.ofBits 0x3ff0000000000000) (.ofBits 0xc004000000000000)) ∧
      value "(1e3\t, 0)".toList .vec2 Span.start =
        .ok (.vec2 (.ofBits 0x408f400000000000) (.ofBits 0)) ∧
      compact " [(1, - 2 .5 ) ,( 1e 3,0) ]".toList = "[(1,-2.5),(1e3,0)]".toList ∧
      list " [(1, - 2 .5 ) ,( 1e 3,0) ]".toList .vec2 ⟨4, 3⟩ =
        .ok [.vec2 (.ofBits 0x3ff0000000000000) (.ofBits 0xc004000000000000),
          .vec2 (.ofBits 0x408f400000000000) (.ofBits 0)] := by
  have hfirst : value "( 1 ,-2.5)".toList .vec2 Span.start =
      .ok (.vec2 (.ofBits 0x3ff0000000000000) (.ofBits 0xc004000000000000)) := by
    decide +kernel
  have hsecond : value "(1e3\t, 0)".toList .vec2 Span.start =
      .ok (.vec2 (.ofBits 0x408f400000000000) (.ofBits 0)) := by
    decide +kernel
  refine ⟨hfirst, hsecond, by decide +kernel, ?_⟩
  exact list_of_values (.cons hfirst (.cons hsecond .nil)) (by decide +kernel)

end DrawScript.Literal
