import DrawScript.Instruction.Builtin
import DrawScript.Proofs.Instruction.Reduction

/-!
Operands that are lists. At run time the lists of an instruction have to agree in length; which length
that is depends only on the lengths that are there, and not on their order or on the single values between
them. Before that, the shape of the result is told from the shapes of the operands alone. The two are
computed apart from each other, and they agree: an instruction that maps over elements results in a list
exactly if its operands have a length to agree on.
-/

namespace DrawScript

def lengthsDiffer (instruction : String) (first other : Nat) : CompileError :=
  .broadcast instruction s!"list operands have different lengths ({first} and {other})"

/-- The first length in a row, and the first after it that differs from it. -/
structure Clash (lengths : List (Option Nat)) (first other : Nat) : Prop where
  differ : other ≠ first
  split : ∃ before between after,
    lengths = before ++ some first :: (between ++ some other :: after) ∧
      (∀ l ∈ before, l = none) ∧ ∀ l ∈ between, l = none ∨ l = some first

section

variable (instruction : String) {lengths : List (Option Nat)} {n : Nat}

theorem commonLengthFrom_append {front : List (Option Nat)} (h : ∀ l ∈ front, l = none ∨ l = some n)
    (back : List (Option Nat)) :
    commonLengthFrom instruction n (front ++ back) = commonLengthFrom instruction n back := by
  induction front with
  | nil => rfl
  | cons l front ih =>
    obtain ⟨hl, hfront⟩ := List.forall_mem_cons.mp h
    rcases hl with rfl | rfl
    · exact ih hfront
    · rw [List.cons_append, commonLengthFrom, if_pos rfl]
      exact ih hfront

theorem commonLength_append {front : List (Option Nat)} (h : ∀ l ∈ front, l = none)
    (back : List (Option Nat)) :
    commonLength instruction (front ++ back) = commonLength instruction back := by
  induction front with
  | nil => rfl
  | cons l front ih =>
    obtain ⟨rfl, hfront⟩ := List.forall_mem_cons.mp h
    exact ih hfront

theorem commonLength_of_none (h : ∀ l ∈ lengths, l = none) :
    commonLength instruction lengths = .ok none := by
  have happend := commonLength_append instruction h []
  rwa [List.append_nil] at happend

theorem commonLength_of_agree (hmem : some n ∈ lengths) (h : ∀ m, some m ∈ lengths → m = n) :
    commonLength instruction lengths = .ok (some n) := by
  induction lengths with
  | nil => cases hmem
  | cons l ls ih =>
    cases l with
    | none =>
      refine ih ?_ fun m hm => h m (.tail _ hm)
      simpa using hmem
    | some m =>
      obtain rfl : m = n := h m (.head _)
      have hagree : ∀ l ∈ ls, l = none ∨ l = some m := by
        intro l hl
        cases l with
        | none => exact .inl rfl
        | some k => exact .inr (congrArg some (h k (.tail _ hl)))
      have happend := commonLengthFrom_append instruction hagree []
      rwa [List.append_nil] at happend

theorem Clash.commonLength {first other : Nat} (h : Clash lengths first other) :
    commonLength instruction lengths = .error (lengthsDiffer instruction first other) := by
  obtain ⟨before, between, after, rfl, hbefore, hbetween⟩ := h.split
  rw [commonLength_append instruction hbefore, DrawScript.commonLength,
    commonLengthFrom_append instruction hbetween, commonLengthFrom, if_neg h.differ]
  rfl

theorem lengths_cases (lengths : List (Option Nat)) :
    (∀ l ∈ lengths, l = none) ∨ (∃ n, some n ∈ lengths ∧ ∀ m, some m ∈ lengths → m = n) ∨
      ∃ first other, Clash lengths first other := by
  cases hfirst : lengths.find? Option.isSome with
  | none =>
    left
    simpa using hfirst
  | some l =>
    obtain ⟨hl, before, rest, rfl, hbefore⟩ := List.find?_eq_some_iff_append.mp hfirst
    obtain ⟨first, rfl⟩ := Option.isSome_iff_exists.mp hl
    have hbefore : ∀ l ∈ before, l = none := by simpa using hbefore
    right
    cases hother : rest.find? fun l => l.isSome && l != some first with
    | none =>
      have hagree : ∀ l ∈ rest, l.isSome → l = some first := by simpa using hother
      refine .inl ⟨first, by simp, fun m hm => ?_⟩
      rcases List.mem_append.mp hm with hm | hm
      · cases hbefore _ hm
      · rcases List.mem_cons.mp hm with hm | hm
        · exact Option.some.inj hm
        · exact Option.some.inj (hagree _ hm rfl)
    | some l =>
      obtain ⟨hl, between, after, rfl, hbetween⟩ := List.find?_eq_some_iff_append.mp hother
      obtain ⟨hsome, hdiffer⟩ := Bool.and_eq_true_iff.mp hl
      obtain ⟨other, rfl⟩ := Option.isSome_iff_exists.mp hsome
      refine .inr ⟨first, other, by simpa using hdiffer, before, between, after, rfl, hbefore, ?_⟩
      intro l hl
      cases l with
      | none => exact .inl rfl
      | some k => exact .inr (by simpa using hbetween _ hl)

theorem commonLength_eq_none_iff :
    commonLength instruction lengths = .ok none ↔ ∀ l ∈ lengths, l = none := by
  refine ⟨fun h => ?_, commonLength_of_none instruction⟩
  rcases lengths_cases lengths with hnone | ⟨n, hmem, hagree⟩ | ⟨first, other, hclash⟩
  · exact hnone
  · cases (commonLength_of_agree instruction hmem hagree).symm.trans h
  · cases (hclash.commonLength instruction).symm.trans h

theorem commonLength_eq_some_iff :
    commonLength instruction lengths = .ok (some n) ↔
      some n ∈ lengths ∧ ∀ m, some m ∈ lengths → m = n := by
  refine ⟨fun h => ?_, fun h => commonLength_of_agree instruction h.1 h.2⟩
  rcases lengths_cases lengths with hnone | ⟨m, hmem, hagree⟩ | ⟨first, other, hclash⟩
  · cases (commonLength_of_none instruction hnone).symm.trans h
  · cases (commonLength_of_agree instruction hmem hagree).symm.trans h
    exact ⟨hmem, hagree⟩
  · cases (hclash.commonLength instruction).symm.trans h

theorem commonLength_eq_error_iff {e : CompileError} :
    commonLength instruction lengths = .error e ↔
      ∃ first other, Clash lengths first other ∧ e = lengthsDiffer instruction first other := by
  constructor
  · intro h
    rcases lengths_cases lengths with hnone | ⟨m, hmem, hagree⟩ | ⟨first, other, hclash⟩
    · cases (commonLength_of_none instruction hnone).symm.trans h
    · cases (commonLength_of_agree instruction hmem hagree).symm.trans h
    · exact ⟨first, other, hclash, Except.error.inj (h.symm.trans (hclash.commonLength instruction))⟩
  · rintro ⟨first, other, hclash, rfl⟩
    exact hclash.commonLength instruction

theorem commonLength_congr {others : List (Option Nat)} (h : ∀ n, some n ∈ others ↔ some n ∈ lengths)
    (v : Option Nat) :
    commonLength instruction others = .ok v ↔ commonLength instruction lengths = .ok v := by
  cases v with
  | none =>
    simp only [commonLength_eq_none_iff, Option.eq_none_iff_forall_ne_some]
    constructor
    · rintro hnone l hl n rfl
      exact hnone _ ((h n).mpr hl) n rfl
    · rintro hnone l hl n rfl
      exact hnone _ ((h n).mp hl) n rfl
  | some n => simp only [commonLength_eq_some_iff, h]

end

/-- The common length is that of all lists if there is one, and otherwise the first two lengths that
differ are reported. Other orders and other single values between the lists make no difference to it. -/
theorem commonLength_correct (instruction : String) (lengths : List (Option Nat)) :
    (commonLength instruction lengths = .ok none ↔ ∀ l ∈ lengths, l = none) ∧
      (∀ n, commonLength instruction lengths = .ok (some n) ↔
        some n ∈ lengths ∧ ∀ m, some m ∈ lengths → m = n) ∧
      (∀ e, commonLength instruction lengths = .error e ↔
        ∃ first other, Clash lengths first other ∧ e = lengthsDiffer instruction first other) ∧
      ∀ others v, (others.filter Option.isSome).Perm (lengths.filter Option.isSome) →
        (commonLength instruction others = .ok v ↔ commonLength instruction lengths = .ok v) := by
  refine ⟨commonLength_eq_none_iff instruction, fun n => commonLength_eq_some_iff instruction,
    fun e => commonLength_eq_error_iff instruction, fun others v hperm => ?_⟩
  refine commonLength_congr instruction (fun n => ?_) v
  simpa using hperm.mem_iff (a := some n)

/-- Lengths that operands can have at run time: a list has one, and a single value has none. -/
def HaveLengths (operands : List OperandType) (lengths : List (Option Nat)) : Prop :=
  List.Forall₂ (fun o l => o.isList = l.isSome) operands lengths

theorem HaveLengths.forall_none_iff {operands : List OperandType} {lengths : List (Option Nat)}
    (h : HaveLengths operands lengths) :
    (∀ l ∈ lengths, l = none) ↔ ∀ o ∈ operands, o.isList = false := by
  induction h with
  | nil => simp
  | cons hhead _ ih => simp [ih, hhead]

namespace Signature

variable {sig : Signature} {operands : List OperandType}

theorem resolveOperands_of_singlets (h : ∀ o ∈ operands, o.isList = false) :
    sig.resolveOperands operands =
      (sig.resolve (operands.map OperandType.element)).map (·.map .singlet) := by
  have hany : operands.any OperandType.isList = false := by simpa using h
  simp only [resolveOperands, hany, Bool.not_false, if_true]

theorem resolveOperands_of_elements (hkind : sig.broadcast = .elements)
    (h : ∃ o ∈ operands, o.isList = true) :
    sig.resolveOperands operands =
      (sig.resolve (operands.map OperandType.element)).map (·.map .list) := by
  have hany : operands.any OperandType.isList = true := by simpa using h
  simp [resolveOperands, hany, hkind]

theorem resolveOperands_of_none (hkind : sig.broadcast = .none)
    (h : ∃ o ∈ operands, o.isList = true) :
    sig.resolveOperands operands = .error (.broadcast sig.name "list operands are not accepted") := by
  have hany : operands.any OperandType.isList = true := by simpa using h
  simp [resolveOperands, hany, hkind]

theorem resolveOperands_of_reduce (hkind : sig.broadcast = .reduce)
    (h : ∃ o ∈ operands, o.isList = true) (hlength : 2 ≤ operands.length) :
    sig.resolveOperands operands =
      .error (.broadcast sig.name "reduction takes exactly one list operand") := by
  cases operands with
  | nil => cases hlength
  | cons a rest =>
    cases rest with
    | nil => cases hlength with | step hlength => cases hlength
    | cons b rest =>
      have hany : (a :: b :: rest).any OperandType.isList = true := by simpa using h
      simp [resolveOperands, hany, hkind]

theorem eq_of_map_eq_ok {make : ElementType → OperandType} {inputs : List ElementType} {t : OperandType}
    (h : (sig.resolve inputs).map (·.map make) = .ok (some t)) : ∃ element, t = make element := by
  cases hresolve : sig.resolve inputs with
  | error e =>
    rw [hresolve] at h
    cases h
  | ok returns =>
    rw [hresolve] at h
    obtain ⟨element, -, rfl⟩ := Option.map_eq_some_iff.mp (Except.ok.inj h)
    exact ⟨element, rfl⟩

theorem isList_iff_of_elements (hkind : sig.broadcast = .elements) {t : OperandType}
    (ht : sig.resolveOperands operands = .ok (some t)) :
    t.isList = true ↔ ∃ o ∈ operands, o.isList = true := by
  by_cases hlist : ∃ o ∈ operands, o.isList = true
  · rw [resolveOperands_of_elements hkind hlist] at ht
    obtain ⟨element, rfl⟩ := eq_of_map_eq_ok ht
    exact iff_of_true rfl hlist
  · have hsinglets : ∀ o ∈ operands, o.isList = false := by simpa using hlist
    rw [resolveOperands_of_singlets hsinglets] at ht
    obtain ⟨element, rfl⟩ := eq_of_map_eq_ok ht
    exact iff_of_false Bool.false_ne_true hlist

end Signature

namespace Registry

variable {r : Registry} {name : String} {sig : Signature}

/-- Single values resolve as their types do, and an instruction that maps over elements resolves alike
whichever of its operands are lists. Its result is a list exactly if the operands have a length. Lists are
refused by instructions that take none, and beside other operands by those that reduce one. -/
theorem resolveOperands_shape (hget : r.get? name = some sig) (operands : List OperandType) :
    ((∀ o ∈ operands, o.isList = false) →
      r.resolveOperands name operands =
        (r.resolve name (operands.map OperandType.element)).map (·.map .singlet)) ∧
    ((∃ o ∈ operands, o.isList = true) →
      (sig.broadcast = .elements →
        r.resolveOperands name operands =
          (r.resolve name (operands.map OperandType.element)).map (·.map .list)) ∧
      (sig.broadcast = .none →
        r.resolveOperands name operands =
          .error (.broadcast name "list operands are not accepted")) ∧
      (sig.broadcast = .reduce → 2 ≤ operands.length →
        r.resolveOperands name operands =
          .error (.broadcast name "reduction takes exactly one list operand"))) ∧
    (sig.broadcast = .elements →
      (∀ others : List OperandType,
        others.map OperandType.element = operands.map OperandType.element →
        (∃ o ∈ others, o.isList = true) → (∃ o ∈ operands, o.isList = true) →
        r.resolveOperands name others = r.resolveOperands name operands) ∧
      ∀ lengths t, HaveLengths operands lengths → r.resolveOperands name operands = .ok (some t) →
        (t.isList = true ↔ commonLength name lengths ≠ .ok none)) := by
  obtain rfl : sig.name = name := (get?_eq_some_iff.mp hget).2
  simp only [resolveOperands_of_get? hget, resolve_of_get? hget]
  refine ⟨Signature.resolveOperands_of_singlets, fun hlist => ⟨?_, ?_, ?_⟩, fun hkind => ⟨?_, ?_⟩⟩
  · exact fun hkind => Signature.resolveOperands_of_elements hkind hlist
  · exact fun hkind => Signature.resolveOperands_of_none hkind hlist
  · exact fun hkind => Signature.resolveOperands_of_reduce hkind hlist
  · intro others helements hothers hlist
    rw [Signature.resolveOperands_of_elements hkind hothers,
      Signature.resolveOperands_of_elements hkind hlist, helements]
  · intro lengths t hlengths ht
    rw [Signature.isList_iff_of_elements hkind ht, ne_eq, commonLength_eq_none_iff,
      hlengths.forall_none_iff]
    simp

theorem resolveOperands_shape_builtin :
    ∃ mul max ret, Builtin.registry.get? "mul" = some mul ∧ mul.broadcast = .elements ∧
      Builtin.registry.get? "max" = some max ∧ max.broadcast = .reduce ∧
      Builtin.registry.get? "ret" = some ret ∧ ret.broadcast = .none ∧
      HaveLengths [.list .num, .singlet .vec2] [some 3, none] ∧
      Builtin.registry.resolveOperands "mul" [.list .num, .singlet .vec2] = .ok (some (.list .vec2)) ∧
      commonLength "mul" [some 3, none] ≠ .ok none ∧
      Builtin.registry.resolveOperands "max" [.list .num, .singlet .num] =
        .error (.broadcast "max" "reduction takes exactly one list operand") ∧
      Builtin.registry.resolveOperands "ret" [.list .vec2] =
        .error (.broadcast "ret" "list operands are not accepted") := by
  have hlengths : HaveLengths [.list .num, .singlet .vec2] [some 3, none] := .cons rfl (.cons rfl .nil)
  obtain ⟨mul, hmul, helements, hnum⟩ : ∃ mul, Builtin.registry.get? "mul" = some mul ∧
      mul.broadcast = .elements ∧
      Builtin.registry.resolve "mul" [.num, .vec2] = .ok (some .vec2) := ⟨_, rfl, rfl, rfl⟩
  obtain ⟨max, hmax, hreduce⟩ : ∃ max, Builtin.registry.get? "max" = some max ∧
      max.broadcast = .reduce := ⟨_, rfl, rfl⟩
  obtain ⟨ret, hret, hnone⟩ : ∃ ret, Builtin.registry.get? "ret" = some ret ∧
      ret.broadcast = .none := ⟨_, rfl, rfl⟩
  obtain ⟨-, hmulLists, hmulLengths⟩ := resolveOperands_shape hmul [.list .num, .singlet .vec2]
  have hshape := ((hmulLists ⟨_, .head _, rfl⟩).1 helements).trans (congrArg _ hnum)
  refine ⟨mul, max, ret, hmul, helements, hmax, hreduce, hret, hnone, hlengths, hshape, ?_, ?_, ?_⟩
  · exact ((hmulLengths helements).2 _ _ hlengths hshape).mp rfl
  · exact ((resolveOperands_shape hmax _).2.1 ⟨_, .head _, rfl⟩).2.2 hreduce (Nat.le_refl 2)
  · exact ((resolveOperands_shape hret _).2.1 ⟨_, .head _, rfl⟩).2.1 hnone

end Registry

end DrawScript
