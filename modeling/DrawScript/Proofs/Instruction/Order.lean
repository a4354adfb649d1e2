import DrawScript.Proofs.Instruction.Registry
import Mathlib.Data.List.Perm.Basic

/-!
Resolution does not depend on the order of declarations. The first interaction with the given types
applies, and whether a list is reduced by one operand or by two is found by going through all of them.
In a registry that was loaded the input tuples of an instruction differ, so the first interaction that
fits is the only one, and a schema that lists the same in another order resolves alike.
-/

namespace DrawScript

namespace Schema

theorem repeatedInputs?_eq_none_iff {seen : List (List ElementType)} {is : List Interaction} :
    repeatedInputs? seen is = none ↔
      (∀ i ∈ is, i.inputs ∉ seen) ∧ (is.map Interaction.inputs).Nodup := by
  induction is generalizing seen with
  | nil => simp [repeatedInputs?]
  | cons i is ih =>
    rw [repeatedInputs?, List.forall_mem_cons, List.map_cons, List.nodup_cons]
    split
    next hseen =>
      have hmem : i.inputs ∈ seen := by simpa using hseen
      simp [hmem]
    next hseen =>
      have hnew : i.inputs ∉ seen := by simpa using hseen
      rw [ih]
      constructor
      · rintro ⟨hothers, hdistinct⟩
        refine ⟨⟨hnew, fun a ha hmem => hothers a ha (.tail _ hmem)⟩, ?_, hdistinct⟩
        intro hmem
        obtain ⟨a, ha, hinputs⟩ := List.mem_map.mp hmem
        exact hothers a ha (hinputs ▸ .head _)
      · rintro ⟨⟨-, hothers⟩, hdiffer, hdistinct⟩
        refine ⟨fun a ha hmem => ?_, hdistinct⟩
        rcases List.mem_cons.mp hmem with hinputs | hmem
        · exact hdiffer (hinputs ▸ List.mem_map_of_mem ha)
        · exact hothers a ha hmem

theorem fault?_eq_none_iff {sig : Signature} :
    fault? sig = none ↔
      sig.interactions ≠ [] ∧ (sig.interactions.map Interaction.inputs).Nodup := by
  unfold fault?
  split
  next hempty =>
    have hnil : sig.interactions = [] := List.isEmpty_iff.mp hempty
    simp [hnil]
  next hsome =>
    have hne : sig.interactions ≠ [] := fun hnil => hsome (List.isEmpty_iff.mpr hnil)
    rw [Option.map_eq_none_iff, repeatedInputs?_eq_none_iff]
    simp [hne]

end Schema

namespace Signature

structure Rearranges (a b : Signature) : Prop where
  name : a.name = b.name
  broadcast : a.broadcast = b.broadcast
  interactions : a.interactions.Perm b.interactions

variable {a b sig : Signature}

theorem Rearranges.fault? (h : a.Rearranges b) (ha : Schema.fault? a = none) :
    Schema.fault? b = none := by
  obtain ⟨hne, hdistinct⟩ := Schema.fault?_eq_none_iff.mp ha
  refine Schema.fault?_eq_none_iff.mpr ⟨fun hnil => hne ?_, ?_⟩
  · exact (hnil ▸ h.interactions).eq_nil
  · exact (h.interactions.map Interaction.inputs).nodup_iff.mp hdistinct

theorem find?_eq_some_iff (h : Schema.fault? sig = none) {inputs : List ElementType}
    {i : Interaction} : sig.find? inputs = some i ↔ i ∈ sig.interactions ∧ i.inputs = inputs :=
  find?_key_eq_some_iff (Schema.fault?_eq_none_iff.mp h).2

theorem resolve_eq_ok_iff_mem (h : Schema.fault? sig = none) {inputs : List ElementType}
    {returns : Option ElementType} :
    sig.resolve inputs = .ok returns ↔ ⟨inputs, returns⟩ ∈ sig.interactions := by
  rw [resolve_eq_ok_iff]
  constructor
  · rintro ⟨i, hfind, rfl⟩
    obtain ⟨hmem, rfl⟩ := (find?_eq_some_iff h).mp hfind
    exact hmem
  · intro hmem
    exact ⟨_, (find?_eq_some_iff h).mpr ⟨hmem, rfl⟩, rfl⟩

theorem Rearranges.resolve_eq (h : a.Rearranges b) (ha : Schema.fault? a = none)
    (inputs : List ElementType) : b.resolve inputs = a.resolve inputs := by
  have hfind : b.find? inputs = a.find? inputs := by
    ext i
    rw [find?_eq_some_iff ha, find?_eq_some_iff (h.fault? ha), h.interactions.mem_iff]
  unfold resolve
  rw [hfind, h.name]

theorem Rearranges.acceptsArity_eq (h : a.Rearranges b) (arity : Nat) :
    b.acceptsArity arity = a.acceptsArity arity := by
  rw [Bool.eq_iff_iff, acceptsArity_iff, acceptsArity_iff]
  simp only [h.interactions.mem_iff]

theorem Rearranges.reduce_eq (h : a.Rearranges b) (ha : Schema.fault? a = none)
    (element : ElementType) : b.reduce element = a.reduce element := by
  unfold reduce
  rw [h.acceptsArity_eq, h.resolve_eq ha, h.resolve_eq ha]

theorem Rearranges.resolveOperands_eq (h : a.Rearranges b) (ha : Schema.fault? a = none)
    (operands : List OperandType) : b.resolveOperands operands = a.resolveOperands operands := by
  unfold resolveOperands
  dsimp only
  rw [h.resolve_eq ha, ← h.broadcast, ← h.name]
  simp only [h.reduce_eq ha]

end Signature

namespace Schema

/-- One schema lists the instructions of the other, in any order and each with its interactions in any
order. -/
def Rearranges (s s' : Schema) : Prop :=
  ∃ sigs, s.instructions.Perm sigs ∧ List.Forall₂ Signature.Rearranges sigs s'.instructions

variable {s s' : Schema} {r r' : Registry}

theorem Rearranges.exists_left (h : s.Rearranges s') {b : Signature} (hb : b ∈ s'.instructions) :
    ∃ a ∈ s.instructions, a.Rearranges b := by
  obtain ⟨sigs, hperm, hrows⟩ := h
  obtain ⟨n, hn, rfl⟩ := List.mem_iff_getElem.mp hb
  have hlength := hrows.length_eq
  refine ⟨sigs[n], hperm.mem_iff.mpr (List.getElem_mem _), ?_⟩
  exact hrows.get (hlength ▸ hn) hn

theorem Rearranges.perm_names (h : s.Rearranges s') :
    (s.instructions.map Signature.name).Perm (s'.instructions.map Signature.name) := by
  obtain ⟨sigs, hperm, hrows⟩ := h
  have hnames : List.Forall₂ Eq (sigs.map Signature.name) (s'.instructions.map Signature.name) :=
    List.forall₂_map_left_iff.mpr (List.forall₂_map_right_iff.mpr (hrows.imp fun _ _ hrow => hrow.name))
  rw [List.forall₂_eq_eq_eq] at hnames
  exact hnames ▸ hperm.map Signature.name

theorem Rearranges.exists_toRegistry (h : s.Rearranges s') (hr : s.toRegistry = .ok r) :
    ∃ r', s'.toRegistry = .ok r' := by
  obtain ⟨⟨hnames, hfaults⟩, -⟩ := toRegistry_eq_ok_iff.mp hr
  refine ⟨_, toRegistry_eq_ok_iff.mpr ⟨⟨h.perm_names.nodup_iff.mp hnames, fun b hb => ?_⟩, rfl⟩⟩
  obtain ⟨a, ha, hrow⟩ := h.exists_left hb
  exact hrow.fault? (hfaults a ha)

theorem Rearranges.get? (h : s.Rearranges s') (hr : s.toRegistry = .ok r)
    (hr' : s'.toRegistry = .ok r') (name : String) :
    (r.get? name = none ∧ r'.get? name = none) ∨
      ∃ a b, r.get? name = some a ∧ r'.get? name = some b ∧ a.Rearranges b ∧ fault? a = none := by
  cases hget : r'.get? name with
  | none =>
    rw [get?_eq_none_iff_mem hr', ← h.perm_names.mem_iff, ← get?_eq_none_iff_mem hr] at hget
    exact .inl ⟨hget, rfl⟩
  | some b =>
    obtain ⟨hb, rfl⟩ := (get?_eq_some_iff_mem hr').mp hget
    obtain ⟨a, ha, hrow⟩ := h.exists_left hb
    have hfault := (toRegistry_eq_ok_iff.mp hr).1.2 a ha
    exact .inr ⟨a, b, (get?_eq_some_iff_mem hr).mpr ⟨ha, hrow.name⟩, rfl, hrow, hfault⟩

theorem Rearranges.resolve_eq (h : s.Rearranges s') (hr : s.toRegistry = .ok r)
    (hr' : s'.toRegistry = .ok r') (name : String) (inputs : List ElementType) :
    r'.resolve name inputs = r.resolve name inputs := by
  unfold Registry.resolve Registry.signature
  rcases h.get? hr hr' name with ⟨hget, hget'⟩ | ⟨a, b, hget, hget', hrow, hfault⟩
  · rw [hget, hget']
  · rw [hget, hget']
    exact hrow.resolve_eq hfault inputs

theorem Rearranges.resolveOperands_eq (h : s.Rearranges s') (hr : s.toRegistry = .ok r)
    (hr' : s'.toRegistry = .ok r') (name : String) (operands : List OperandType) :
    r'.resolveOperands name operands = r.resolveOperands name operands := by
  unfold Registry.resolveOperands Registry.signature
  rcases h.get? hr hr' name with ⟨hget, hget'⟩ | ⟨a, b, hget, hget', hrow, hfault⟩
  · rw [hget, hget']
  · rw [hget, hget']
    exact hrow.resolveOperands_eq hfault operands

theorem resolve_eq_ok_iff_mem (hr : s.toRegistry = .ok r) {name : String} {inputs : List ElementType}
    {returns : Option ElementType} :
    r.resolve name inputs = .ok returns ↔
      ∃ sig ∈ s.instructions, sig.name = name ∧ ⟨inputs, returns⟩ ∈ sig.interactions := by
  have hfaults := (toRegistry_eq_ok_iff.mp hr).1.2
  unfold Registry.resolve Registry.signature
  cases hget : r.get? name with
  | none =>
    have hnone := (get?_eq_none_iff_mem hr).mp hget
    constructor
    · intro h
      cases h
    · rintro ⟨sig, hsig, rfl, -⟩
      exact absurd (List.mem_map_of_mem hsig) hnone
  | some sig =>
    obtain ⟨hsig, hname⟩ := (get?_eq_some_iff_mem hr).mp hget
    change sig.resolve inputs = .ok returns ↔ _
    rw [Signature.resolve_eq_ok_iff_mem (hfaults sig hsig)]
    constructor
    · intro hmem
      exact ⟨sig, hsig, hname, hmem⟩
    · rintro ⟨other, hother, hothername, hmem⟩
      have hsame : r.get? name = some other := (get?_eq_some_iff_mem hr).mpr ⟨hother, hothername⟩
      cases hget.symm.trans hsame
      exact hmem

/-- A schema is loaded in any order of its instructions and interactions, and what a name resolves to
depends only on the interactions that are listed for it. -/
theorem resolve_rearranged (hr : s.toRegistry = .ok r) (h : s.Rearranges s') :
    ∃ r', s'.toRegistry = .ok r' ∧
      (∀ name inputs, r'.resolve name inputs = r.resolve name inputs) ∧
      (∀ name operands, r'.resolveOperands name operands = r.resolveOperands name operands) ∧
      ∀ name inputs returns, r.resolve name inputs = .ok returns ↔
        ∃ sig ∈ s.instructions, sig.name = name ∧ ⟨inputs, returns⟩ ∈ sig.interactions := by
  obtain ⟨r', hr'⟩ := h.exists_toRegistry hr
  exact ⟨r', hr', h.resolve_eq hr hr', h.resolveOperands_eq hr hr',
    fun _ _ _ => resolve_eq_ok_iff_mem hr⟩

def mixed : Schema :=
  ⟨[⟨"fold", .reduce, [⟨[.num, .num], some .num⟩, ⟨[.vec3], some .num⟩,
      ⟨[.vec2, .vec2], some .vec2⟩]⟩,
    ⟨"mul", .elements, [⟨[.num, .vec2], some .vec2⟩, ⟨[.vec2, .num], some .vec2⟩]⟩,
    ⟨"ret", .none, [⟨[], none⟩]⟩]⟩

def mixedRearranged : Schema :=
  ⟨[⟨"ret", .none, [⟨[], none⟩]⟩,
    ⟨"fold", .reduce, [⟨[.vec3], some .num⟩, ⟨[.vec2, .vec2], some .vec2⟩,
      ⟨[.num, .num], some .num⟩]⟩,
    ⟨"mul", .elements, [⟨[.vec2, .num], some .vec2⟩, ⟨[.num, .vec2], some .vec2⟩]⟩]⟩

theorem rearranges_mixed : mixed.Rearranges mixedRearranged := by
  refine ⟨[⟨"ret", .none, [⟨[], none⟩]⟩,
    ⟨"fold", .reduce, [⟨[.num, .num], some .num⟩, ⟨[.vec3], some .num⟩,
      ⟨[.vec2, .vec2], some .vec2⟩]⟩,
    ⟨"mul", .elements, [⟨[.num, .vec2], some .vec2⟩, ⟨[.vec2, .num], some .vec2⟩]⟩], by decide,
    ?_⟩
  refine .cons ⟨rfl, rfl, .refl _⟩ (.cons ⟨rfl, rfl, by decide⟩ (.cons ⟨rfl, rfl, by decide⟩ .nil))

theorem resolve_rearranged_mixed :
    ∃ r r', mixed.toRegistry = .ok r ∧ mixedRearranged.toRegistry = .ok r' ∧
      r'.resolveOperands "fold" [.list .vec3] = r.resolveOperands "fold" [.list .vec3] ∧
      r'.resolve "mul" [.num, .num] = r.resolve "mul" [.num, .num] ∧
      r.resolve "mul" [.vec2, .num] = .ok (some .vec2) := by
  have hload : mixed.toRegistry = .ok (Registry.ofList mixed.instructions) := by
    have hfault : firstFault? [] mixed.instructions = none := by decide +kernel
    rw [toRegistry, hfault]
  obtain ⟨r', hr', hresolve, hoperands, hiff⟩ := resolve_rearranged hload rearranges_mixed
  refine ⟨_, r', hload, hr', hoperands _ _, hresolve _ _, (hiff _ _ _).mpr ?_⟩
  exact ⟨_, List.mem_cons_of_mem _ List.mem_cons_self, rfl, List.mem_cons_of_mem _ List.mem_cons_self⟩

end Schema

end DrawScript
