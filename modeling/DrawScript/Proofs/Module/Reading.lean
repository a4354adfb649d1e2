import DrawScript.Module.Basic
import DrawScript.Proofs.Data.Literal

/-!
How a module is read. A line either opens the next section, is the directive line, declares a
variable or is kept; what every such step preserves holds of every state that a reading reaches. In
particular all declared data is well typed.
-/

namespace DrawScript

def Variable.values : Variable → List Value
  | .singlet _ value => [value]
  | .list _ _ values => values

structure Variable.WellTyped (v : Variable) : Prop where
  name : Declaration.isName v.name.toList = true
  types : ∀ w ∈ v.values, w.type = v.operandType.element
  finite : ∀ w ∈ v.values, w.Finite

namespace Declaration

theorem wellTyped_of_variableOf {type : OperandType} {name text : List Char} {span : Span}
    {v : Variable} (hname : isName name = true) (h : variableOf type name text span = .ok v) :
    v.WellTyped ∧ v.operandType = type := by
  cases type with
  | singlet t =>
    rw [variableOf] at h
    cases hvalue : Literal.value text t span with
    | error => simp [hvalue, Except.map] at h
    | ok w =>
      rw [hvalue] at h
      cases h
      obtain ⟨htype, hfinite⟩ := Literal.value_eq_ok hvalue
      refine ⟨⟨by simpa [Variable.name] using hname, ?_, ?_⟩, congrArg OperandType.singlet htype⟩
      · exact List.forall_mem_singleton.mpr rfl
      · exact List.forall_mem_singleton.mpr hfinite
  | list t =>
    rw [variableOf] at h
    cases hvalues : Literal.list text t span with
    | error => simp [hvalues, Except.map] at h
    | ok ws =>
      rw [hvalues] at h
      cases h
      have hws := Literal.list_eq_ok hvalues
      exact ⟨⟨by simpa [Variable.name] using hname, fun w hw => (hws w hw).1,
        fun w hw => (hws w hw).2⟩, rfl⟩

theorem wellTyped_of_parse {line : Line} {v : Variable} (h : parse line = .ok v) :
    v.WellTyped := by
  unfold parse at h
  split at h
  next typeWord name mark value₁ values _ =>
    split_ifs at h with hmark hname
    obtain ⟨type, -, h⟩ := exists_of_bind_eq_ok h
    exact (wellTyped_of_variableOf (by simpa using hname) h).1
  next => cases h

end Declaration

namespace Module.State

inductive Step (s : State) (line : Line) : State → Prop
  | enter (cs : List Char) (next : Section) (htext : line.text = '@' :: cs)
      (hnext : s.current.next? = some next) (hname : headerName cs = next.header) :
      Step s line { s with current := next }
  | direct (hcurrent : s.current = .start) (hmark : line.text.head? = some '#')
      (hseen : s.directiveSeen = false) :
      Step s line
        { s with
          directiveSeen := true
          module := { s.module with dumpData := asksForDump line.text } }
  | declare (v : Variable) (data : Table) (hat : line.text.head? ≠ some '@')
      (hcurrent : s.current = .data) (hv : Declaration.parse line = .ok v)
      (hdata : s.module.data.declare v line.span = .ok data) :
      Step s line { s with module := { s.module with data := data } }
  | keepFunction (hat : line.text.head? ≠ some '@') (hcurrent : s.current = .functions) :
      Step s line
        { s with module := { s.module with functions := s.module.functions ++ [keep line] } }
  | keepProgram (hat : line.text.head? ≠ some '@') (hcurrent : s.current = .program) :
      Step s line
        { s with module := { s.module with program := s.module.program ++ [keep line] } }

variable {s s' : State} {line : Line}

theorem Step.of_step (h : s.step line = .ok s') : Step s line s' := by
  unfold step at h
  split at h
  next cs htext =>
    unfold State.enter at h
    dsimp only at h
    split at h
    next => cases h
    next next hnext =>
      split_ifs at h with hname
      cases h
      exact .enter cs next htext hnext hname
  next htext =>
    have hat : line.text.head? ≠ some '@' := by
      intro hhead
      obtain ⟨cs, hcs⟩ := List.head?_eq_some_iff.mp hhead
      exact htext cs hcs
    split at h
    next hcurrent =>
      unfold State.direct at h
      split_ifs at h with hdirective
      cases h
      exact .direct hcurrent hdirective.1 hdirective.2
    next hcurrent =>
      obtain ⟨v, hv, h⟩ := exists_of_bind_eq_ok h
      obtain ⟨data, hdata, h⟩ := exists_of_bind_eq_ok h
      cases h
      exact .declare v data hat hcurrent hv hdata
    next hcurrent =>
      cases h
      exact .keepFunction hat hcurrent
    next hcurrent =>
      cases h
      exact .keepProgram hat hcurrent

theorem step_of_head?_ne (hat : line.text.head? ≠ some '@') :
    s.step line = (match s.current with
      | .start => s.direct line
      | .data => s.declare line
      | .functions =>
        .ok { s with module := { s.module with functions := s.module.functions ++ [keep line] } }
      | .program =>
        .ok { s with module := { s.module with program := s.module.program ++ [keep line] } }) := by
  unfold step
  split
  next cs htext => exact absurd (by rw [htext]; rfl) hat
  next => rfl

theorem Step.step_eq (h : Step s line s') : s.step line = .ok s' := by
  cases h with
  | enter cs next htext hnext hname =>
    unfold step
    rw [htext]
    simp [State.enter, hnext, hname]
  | direct hcurrent hmark hseen =>
    rw [step_of_head?_ne (by simp [hmark])]
    simp [hcurrent, State.direct, hmark, hseen]
  | declare v data hat hcurrent hv hdata =>
    have hdeclare : s.declare line =
        .ok { s with module := { s.module with data := data } } := by
      unfold State.declare
      rw [hv]
      change (s.module.data.declare v line.span >>= _) = _
      rw [hdata]
      rfl
    rw [step_of_head?_ne hat, ← hdeclare]
    simp only [hcurrent]
  | keepFunction hat hcurrent => simp [step_of_head?_ne hat, hcurrent]
  | keepProgram hat hcurrent => simp [step_of_head?_ne hat, hcurrent]

/-- What every step preserves holds of the state in which a reading ends, also if it ends in an
error. -/
theorem run_preserves {p : State → Prop}
    (hstep : ∀ {s line s'}, Step s line s' → p s → p s') (s : State) (lines : List Line) (hs : p s) :
    p (s.run lines).1 := by
  induction lines generalizing s with
  | nil => exact hs
  | cons line lines ih =>
    unfold run
    split
    next s' h => exact ih s' (hstep (Step.of_step h) hs)
    next => exact hs

theorem Step.wellTyped (h : Step s line s') (hs : ∀ v ∈ s.module.data.entries, v.WellTyped) :
    ∀ v ∈ s'.module.data.entries, v.WellTyped := by
  cases h with
  | declare v data hat hcurrent hv hdata =>
    dsimp only
    rw [(Table.declare_eq_ok_iff.mp hdata).2]
    exact List.forall_mem_append.mpr
      ⟨hs, List.forall_mem_singleton.mpr (Declaration.wellTyped_of_parse hv)⟩
  | enter | direct | keepFunction | keepProgram => exact hs

end Module.State

theorem Module.wellTyped_of_compile {source : String} {m : Module} (h : compile source = .ok m) :
    ∀ v ∈ m.data.entries, v.WellTyped := by
  unfold compile outcome at h
  split at h
  next => cases h
  next =>
    cases h
    exact State.run_preserves (p := fun s => ∀ v ∈ s.module.data.entries, v.WellTyped)
      State.Step.wellTyped State.start (Line.ofSource source) (List.forall_mem_nil _)

end DrawScript
