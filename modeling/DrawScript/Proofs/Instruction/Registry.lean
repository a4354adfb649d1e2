import DrawScript.Instruction.Schema
import DrawScript.Proofs.Data.Table

/-!
Loading a schema and writing it back. A schema without faults has signatures of different names, so
none of them takes the place of another in the registry: loading only sorts them, and loading what was
written gives the same registry.
-/

namespace DrawScript

namespace Schema

variable {s : Schema} {r : Registry}

theorem firstFault?_eq_none_iff {seen : List String} {sigs : List Signature} :
    firstFault? seen sigs = none ↔
      (∀ sig ∈ sigs, sig.name ∉ seen) ∧ (sigs.map Signature.name).Nodup ∧
        ∀ sig ∈ sigs, fault? sig = none := by
  induction sigs generalizing seen with
  | nil => simp [firstFault?]
  | cons sig sigs ih =>
    rw [firstFault?]
    split
    next hseen =>
      have hmem : sig.name ∈ seen := by simpa using hseen
      constructor
      · intro h
        cases h
      · rintro ⟨hnew, -⟩
        exact absurd hmem (hnew sig (by simp))
    next hseen =>
      have hnew : sig.name ∉ seen := by simpa using hseen
      split
      next e hfault => simp [hfault]
      next hfault =>
        rw [ih, List.forall_mem_cons, List.forall_mem_cons, List.map_cons, List.nodup_cons]
        constructor
        · rintro ⟨hothers, hnames, hfaults⟩
          refine ⟨⟨hnew, fun a ha hmem => hothers a ha (.tail _ hmem)⟩, ⟨?_, hnames⟩, hfault, hfaults⟩
          intro hmem
          obtain ⟨a, ha, hname⟩ := List.mem_map.mp hmem
          exact hothers a ha (hname ▸ .head _)
        · rintro ⟨⟨-, hothers⟩, ⟨hdiffer, hnames⟩, -, hfaults⟩
          refine ⟨fun a ha hmem => ?_, hnames, hfaults⟩
          rcases List.mem_cons.mp hmem with hname | hmem
          · exact hdiffer (hname ▸ List.mem_map_of_mem ha)
          · exact hothers a ha hmem

theorem toRegistry_eq_ok_iff :
    s.toRegistry = .ok r ↔
      ((s.instructions.map Signature.name).Nodup ∧ ∀ sig ∈ s.instructions, fault? sig = none) ∧
        r = Registry.ofList s.instructions := by
  unfold toRegistry
  cases hfault : firstFault? [] s.instructions with
  | some e =>
    have hnot : firstFault? [] s.instructions ≠ none := by simp [hfault]
    rw [ne_eq, firstFault?_eq_none_iff] at hnot
    simp only [reduceCtorEq, false_iff]
    rintro ⟨hvalid, -⟩
    exact hnot ⟨by simp, hvalid⟩
  | none =>
    have hvalid := (firstFault?_eq_none_iff.mp hfault).2
    simp only [Except.ok.injEq]
    exact ⟨fun h => ⟨hvalid, h.symm⟩, fun h => h.2.symm⟩

end Schema

namespace Registry

theorem perm_insertInto {sig : Signature} {ss : List Signature} (h : sig.name ∉ ss.map Signature.name) :
    (insertInto sig ss).Perm (sig :: ss) := by
  induction ss with
  | nil => exact .refl _
  | cons s ss ih =>
    obtain ⟨hs, hss⟩ := List.ne_and_not_mem_of_not_mem_cons h
    rw [insertInto]
    split
    next => exact .refl _
    next hge =>
      split
      next => exact ((ih hss).cons s).trans (.swap sig s ss)
      next hle => exact absurd (String.le_antisymm (String.not_lt.mp hle) (String.not_lt.mp hge)) hs

theorem perm_foldl_insert {sigs : List Signature} {r : Registry}
    (h : ((r.signatures ++ sigs).map Signature.name).Nodup) :
    (sigs.foldl insert r).signatures.Perm (r.signatures ++ sigs) := by
  induction sigs generalizing r with
  | nil => simp
  | cons sig sigs ih =>
    have hmove : (r.signatures ++ sig :: sigs).Perm (sig :: r.signatures ++ sigs) :=
      List.perm_middle
    have hnodup := (hmove.map Signature.name).nodup_iff.mp h
    have hnew : sig.name ∉ r.signatures.map Signature.name := by
      intro hmem
      rw [List.cons_append, List.map_cons, List.nodup_cons, List.map_append] at hnodup
      exact hnodup.1 (List.mem_append_left _ hmem)
    have hinsert : ((r.insert sig).signatures ++ sigs).Perm (sig :: r.signatures ++ sigs) :=
      (perm_insertInto hnew).append_right sigs
    have hrest := ih ((hinsert.map Signature.name).nodup_iff.mpr hnodup)
    exact hrest.trans (hinsert.trans hmove.symm)

theorem perm_ofList {sigs : List Signature} (h : (sigs.map Signature.name).Nodup) :
    (ofList sigs).signatures.Perm sigs :=
  perm_foldl_insert h

variable {r : Registry}

theorem nodup_names (r : Registry) : (r.signatures.map Signature.name).Nodup :=
  List.pairwise_map.mpr (r.sorted.imp String.ne_of_lt)

theorem eq_of_perm {r' : Registry} (h : r.signatures.Perm r'.signatures) : r = r' := by
  have heq : r.signatures = r'.signatures :=
    h.eq_of_pairwise (fun _ _ _ _ hab hba => absurd hba (String.lt_asymm hab)) r.sorted r'.sorted
  cases r
  cases r'
  cases heq
  rfl

theorem ofList_signatures (r : Registry) : ofList r.signatures = r :=
  eq_of_perm (perm_ofList r.nodup_names)

theorem get?_eq_some_iff {name : String} {sig : Signature} :
    r.get? name = some sig ↔ sig ∈ r.signatures ∧ sig.name = name :=
  find?_key_eq_some_iff r.nodup_names

theorem resolve_of_get? {name : String} {sig : Signature} (h : r.get? name = some sig)
    (inputs : List ElementType) : r.resolve name inputs = sig.resolve inputs := by
  unfold resolve signature
  rw [h]
  rfl

theorem resolveOperands_of_get? {name : String} {sig : Signature} (h : r.get? name = some sig)
    (operands : List OperandType) : r.resolveOperands name operands = sig.resolveOperands operands := by
  unfold resolveOperands signature
  rw [h]
  rfl

end Registry

namespace Schema

variable {s : Schema} {r : Registry} {name : String}

theorem get?_eq_some_iff_mem (hr : s.toRegistry = .ok r) {sig : Signature} :
    r.get? name = some sig ↔ sig ∈ s.instructions ∧ sig.name = name := by
  obtain ⟨⟨hnames, -⟩, rfl⟩ := toRegistry_eq_ok_iff.mp hr
  rw [Registry.get?_eq_some_iff, (Registry.perm_ofList hnames).mem_iff]

theorem get?_eq_none_iff_mem (hr : s.toRegistry = .ok r) :
    r.get? name = none ↔ name ∉ s.instructions.map Signature.name := by
  rw [Option.eq_none_iff_forall_ne_some, List.mem_map]
  simp only [ne_eq, get?_eq_some_iff_mem hr, not_exists]

end Schema

end DrawScript
