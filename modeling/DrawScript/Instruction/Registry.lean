import DrawScript.Instruction.Signature

/-!
Registries of instructions: signatures with different names, sorted by name.
-/

namespace DrawScript

structure Registry where
  signatures : List Signature
  sorted : signatures.Pairwise fun a b => a.name < b.name

namespace Registry

instance : DecidableEq Registry := fun a b =>
  decidable_of_iff (a.signatures = b.signatures)
    ⟨fun h => by cases a; cases b; simp_all, fun h => h ▸ rfl⟩

def empty : Registry := ⟨[], .nil⟩

def insertInto (sig : Signature) : List Signature → List Signature
  | [] => [sig]
  | s :: ss =>
    if sig.name < s.name then sig :: s :: ss
    else if s.name < sig.name then s :: insertInto sig ss
    else sig :: ss

theorem mem_insertInto {a sig : Signature} {ss : List Signature} (h : a ∈ insertInto sig ss) :
    a = sig ∨ a ∈ ss := by
  induction ss with
  | nil => simpa [insertInto] using h
  | cons s ss ih =>
    unfold insertInto at h
    split at h
    · simpa using h
    · split at h
      · rcases List.mem_cons.mp h with rfl | h
        · simp
        · rcases ih h with rfl | h
          · simp
          · simp [h]
      · rcases List.mem_cons.mp h with rfl | h
        · simp
        · simp [h]

theorem sorted_insertInto {sig : Signature} {ss : List Signature}
    (h : ss.Pairwise fun a b => a.name < b.name) :
    (insertInto sig ss).Pairwise fun a b => a.name < b.name := by
  induction ss with
  | nil => simp [insertInto]
  | cons s ss ih =>
    obtain ⟨hs, hss⟩ := List.pairwise_cons.mp h
    unfold insertInto
    split
    next hlt =>
      refine List.pairwise_cons.mpr ⟨fun a ha => ?_, h⟩
      rcases List.mem_cons.mp ha with rfl | ha
      · exact hlt
      · exact String.lt_trans hlt (hs a ha)
    next hge =>
      split
      next hlt =>
        refine List.pairwise_cons.mpr ⟨fun a ha => ?_, ih hss⟩
        rcases mem_insertInto ha with rfl | ha
        · exact hlt
        · exact hs a ha
      next hle =>
        have heq : sig.name = s.name :=
          String.le_antisymm (String.not_lt.mp hle) (String.not_lt.mp hge)
        exact List.pairwise_cons.mpr ⟨fun a ha => heq ▸ hs a ha, hss⟩

def insert (r : Registry) (sig : Signature) : Registry :=
  ⟨insertInto sig r.signatures, sorted_insertInto r.sorted⟩

/-- The registry of a row of signatures; of two with one name the later one counts. -/
def ofList (sigs : List Signature) : Registry := sigs.foldl insert empty

def get? (r : Registry) (name : String) : Option Signature :=
  r.signatures.find? fun s => s.name == name

@[simp] theorem get?_empty (name : String) : empty.get? name = none := rfl

theorem find?_insertInto (sig : Signature) (ss : List Signature) (name : String) :
    (insertInto sig ss).find? (fun s => s.name == name) =
      if sig.name = name then some sig else ss.find? fun s => s.name == name := by
  induction ss with
  | nil => by_cases h : sig.name = name <;> simp [insertInto, h]
  | cons s ss ih =>
    unfold insertInto
    split
    next => by_cases h : sig.name = name <;> simp [h]
    next hge =>
      split
      next hlt =>
        by_cases h : sig.name = name
        · have hs : ¬ s.name = name := fun hs => String.lt_irrefl _ (hs ▸ h ▸ hlt)
          simp [hs, ih, h]
        · simp [List.find?_cons, ih, h]
      next hle =>
        have heq : sig.name = s.name :=
          String.le_antisymm (String.not_lt.mp hle) (String.not_lt.mp hge)
        by_cases h : sig.name = name
        · simp [h]
        · simp [h, ← heq]

theorem get?_insert (r : Registry) (sig : Signature) (name : String) :
    (r.insert sig).get? name = if sig.name = name then some sig else r.get? name :=
  find?_insertInto sig r.signatures name

def contains (r : Registry) (name : String) : Bool := (r.get? name).isSome

def names (r : Registry) : List String := r.signatures.map Signature.name

def size (r : Registry) : Nat := r.signatures.length

def signature (r : Registry) (name : String) : Except CompileError Signature :=
  match r.get? name with
  | some sig => .ok sig
  | none => .error (.unknownInstruction name)

def resolve (r : Registry) (name : String) (inputs : List ElementType) :
    Except CompileError (Option ElementType) := do
  (← r.signature name).resolve inputs

def resolveOperands (r : Registry) (name : String) (operands : List OperandType) :
    Except CompileError (Option OperandType) := do
  (← r.signature name).resolveOperands operands

end Registry

end DrawScript
