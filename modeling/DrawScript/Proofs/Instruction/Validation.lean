import DrawScript.Proofs.Instruction.Order

/-!
What a schema is refused for. A schema is loaded exactly if it is valid: the names differ, every
instruction has interactions, and the input tuples of each instruction differ. Otherwise the error is
that of the first instruction at fault, and of its faults a repeated name comes before a lack of
interactions, and this before a repeated tuple. Both the names and the tuples are checked by going along
a row and keeping what was seen.
-/

namespace DrawScript

section

variable {α κ ε : Type} (check : List κ → α → Option ε) (key : α → κ)

/-- The first refusal in a row, where the check of an element is given the keys of those before it, the
last one first. -/
def firstRefusal? (seen : List κ) : List α → Option ε
  | [] => none
  | a :: as =>
    match check seen a with
    | some e => some e
    | none => firstRefusal? (key a :: seen) as

variable {check key} {seen : List κ} {as : List α} {e : ε}

theorem firstRefusal?_eq_some_iff :
    firstRefusal? check key seen as = some e ↔
      ∃ front a back, as = front ++ a :: back ∧ firstRefusal? check key seen front = none ∧
        check ((front.map key).reverse ++ seen) a = some e := by
  constructor
  · intro h
    induction as generalizing seen with
    | nil => cases h
    | cons a as ih =>
      rw [firstRefusal?] at h
      split at h
      next e' ha =>
        cases h
        exact ⟨[], a, as, rfl, rfl, ha⟩
      next ha =>
        obtain ⟨front, b, back, rfl, hfront, hb⟩ := ih h
        refine ⟨a :: front, b, back, rfl, ?_, ?_⟩
        · rw [firstRefusal?, ha]
          exact hfront
        · rwa [List.map_cons, List.reverse_cons, List.append_assoc]
  · rintro ⟨front, a, back, rfl, hfront, ha⟩
    induction front generalizing seen with
    | nil =>
      rw [List.nil_append, firstRefusal?]
      change check seen a = some e at ha
      rw [ha]
    | cons b front ih =>
      rw [firstRefusal?] at hfront
      rw [List.map_cons, List.reverse_cons, List.append_assoc] at ha
      rw [List.cons_append, firstRefusal?]
      split at hfront
      next => cases hfront
      next => exact ih hfront ha

end

namespace Schema

def seenInputs? (seen : List (List ElementType)) (i : Interaction) : Option (List ElementType) :=
  if seen.contains i.inputs then some i.inputs else none

theorem repeatedInputs?_eq (seen : List (List ElementType)) (is : List Interaction) :
    repeatedInputs? seen is = firstRefusal? seenInputs? Interaction.inputs seen is := by
  induction is generalizing seen with
  | nil => rfl
  | cons i is ih =>
    rw [repeatedInputs?, firstRefusal?, seenInputs?, ih]
    split <;> rfl

theorem repeatedInputs?_eq_some_iff {is : List Interaction} {inputs : List ElementType} :
    repeatedInputs? [] is = some inputs ↔
      ∃ front i back, is = front ++ i :: back ∧ (front.map Interaction.inputs).Nodup ∧
        i.inputs ∈ front.map Interaction.inputs ∧ i.inputs = inputs := by
  rw [repeatedInputs?_eq, firstRefusal?_eq_some_iff]
  refine exists_congr fun front => exists_congr fun i => exists_congr fun back =>
    and_congr_right fun _ => and_congr ?_ ?_
  · rw [← repeatedInputs?_eq, repeatedInputs?_eq_none_iff]
    simp
  · simp [seenInputs?]

inductive Refuses (names : List String) (sig : Signature) : SchemaError → Prop
  | name (hname : sig.name ∈ names) : Refuses names sig (.duplicateInstruction sig.name)
  | noInteractions (hname : sig.name ∉ names) (hnone : sig.interactions = []) :
      Refuses names sig (.noInteractions sig.name)
  | inputs {front back : List Interaction} {i : Interaction} (hname : sig.name ∉ names)
      (hinteractions : sig.interactions = front ++ i :: back)
      (hfront : (front.map Interaction.inputs).Nodup)
      (hrepeated : i.inputs ∈ front.map Interaction.inputs) :
      Refuses names sig
        (.duplicateInteraction sig.name (", ".intercalate (i.inputs.map ElementType.text)))

def faultAfter? (names : List String) (sig : Signature) : Option SchemaError :=
  if names.contains sig.name then some (.duplicateInstruction sig.name) else fault? sig

theorem faultAfter?_eq_some_iff {names : List String} {sig : Signature} {e : SchemaError} :
    faultAfter? names sig = some e ↔ Refuses names sig e := by
  unfold faultAfter? fault?
  constructor
  · intro h
    split_ifs at h with hname hnone
    · cases h
      exact .name (by simpa using hname)
    · cases h
      exact .noInteractions (by simpa using hname) (List.isEmpty_iff.mp hnone)
    · obtain ⟨inputs, hinputs, rfl⟩ := Option.map_eq_some_iff.mp h
      obtain ⟨front, i, back, hsplit, hfront, hi, rfl⟩ := repeatedInputs?_eq_some_iff.mp hinputs
      exact .inputs (by simpa using hname) hsplit hfront hi
  · intro h
    cases h with
    | name hname => simp [hname]
    | noInteractions hname hnone => simp [hname, hnone]
    | inputs hname hsplit hfront hrepeated =>
      have hrepeats := repeatedInputs?_eq_some_iff.mpr ⟨_, _, _, hsplit, hfront, hrepeated, rfl⟩
      rw [hrepeats]
      simp [hname, hsplit]

structure Valid (sigs : List Signature) : Prop where
  names : (sigs.map Signature.name).Nodup
  interactions : ∀ sig ∈ sigs, sig.interactions ≠ []
  inputs : ∀ sig ∈ sigs, (sig.interactions.map Interaction.inputs).Nodup

theorem valid_iff {sigs : List Signature} :
    Valid sigs ↔ (sigs.map Signature.name).Nodup ∧ ∀ sig ∈ sigs, fault? sig = none := by
  simp only [fault?_eq_none_iff]
  exact ⟨fun h => ⟨h.names, fun sig hsig => ⟨h.interactions sig hsig, h.inputs sig hsig⟩⟩,
    fun h => ⟨h.1, fun sig hsig => (h.2 sig hsig).1, fun sig hsig => (h.2 sig hsig).2⟩⟩

theorem firstFault?_eq (seen : List String) (sigs : List Signature) :
    firstFault? seen sigs = firstRefusal? faultAfter? Signature.name seen sigs := by
  induction sigs generalizing seen with
  | nil => rfl
  | cons sig sigs ih =>
    rw [firstFault?, firstRefusal?, faultAfter?, ih]
    split
    · rfl
    · cases fault? sig <;> rfl

theorem firstFault?_eq_some_iff {sigs : List Signature} {e : SchemaError} :
    firstFault? [] sigs = some e ↔
      ∃ before sig after, sigs = before ++ sig :: after ∧ Valid before ∧
        Refuses (before.map Signature.name) sig e := by
  rw [firstFault?_eq, firstRefusal?_eq_some_iff]
  refine exists_congr fun before => exists_congr fun sig => exists_congr fun after =>
    and_congr_right fun _ => and_congr ?_ ?_
  · rw [← firstFault?_eq, firstFault?_eq_none_iff, valid_iff]
    simp
  · rw [← faultAfter?_eq_some_iff]
    simp [faultAfter?]

/-- A schema is loaded exactly if it is valid, and otherwise refused for the first instruction at
fault. -/
theorem toRegistry_validates (s : Schema) :
    ((∃ r, s.toRegistry = .ok r) ↔ Valid s.instructions) ∧
      ∀ e, s.toRegistry = .error e ↔
        ∃ before sig after, s.instructions = before ++ sig :: after ∧ Valid before ∧
          Refuses (before.map Signature.name) sig e := by
  constructor
  · rw [valid_iff]
    simp only [toRegistry_eq_ok_iff, exists_and_left, exists_eq, and_true]
  · intro e
    rw [← firstFault?_eq_some_iff, toRegistry]
    split
    next e' hfault => simp [hfault]
    next hfault => simp [hfault]

end Schema

end DrawScript
