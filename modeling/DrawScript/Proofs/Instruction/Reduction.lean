import DrawScript.Proofs.Instruction.Order

/-!
Reduction of one list. A list is meant to be reduced by the interactions for the type of its elements:
by the one that takes a single operand of this type if there is one, and by the one that takes a pair
otherwise. Which of the two is looked for is settled for the whole instruction, though: if any of its
interactions takes a single operand, of whatever type, pairs are not looked for. Lists are reduced as
meant exactly where this makes no difference.
-/

namespace DrawScript

namespace Signature

inductive Reduces (sig : Signature) (t : ElementType) : Except CompileError (Option OperandType) → Prop
  | single (returns : Option ElementType) (h : ⟨[t], returns⟩ ∈ sig.interactions) :
      Reduces sig t (.ok (returns.map .singlet))
  | pair (returns : Option ElementType) (hsingle : ∀ other, ⟨[t], other⟩ ∉ sig.interactions)
      (h : ⟨[t, t], returns⟩ ∈ sig.interactions) :
      Reduces sig t (.ok (returns.map .singlet))
  | mismatch (operands : List String) (hsingle : ∀ returns, ⟨[t], returns⟩ ∉ sig.interactions)
      (hpair : ∀ returns, ⟨[t, t], returns⟩ ∉ sig.interactions)
      (hoperands : operands = [t.text] ∨ operands = [t.text, t.text]) :
      Reduces sig t (.error (.typeMismatch sig.name operands))

/-- The instruction takes single operands of other types and pairs of this one. -/
structure Overlooks (sig : Signature) (t : ElementType) : Prop where
  other : ∃ i ∈ sig.interactions, i.inputs.length = 1
  single : ∀ returns, ⟨[t], returns⟩ ∉ sig.interactions
  pair : ∃ returns, ⟨[t, t], returns⟩ ∈ sig.interactions

variable {sig : Signature} {t : ElementType}

theorem resolve_cases (hfault : Schema.fault? sig = none) (inputs : List ElementType) :
    (∃ returns, ⟨inputs, returns⟩ ∈ sig.interactions ∧ sig.resolve inputs = .ok returns) ∨
      (∀ returns, ⟨inputs, returns⟩ ∉ sig.interactions) ∧
        sig.resolve inputs = .error (.typeMismatch sig.name (inputs.map ElementType.text)) := by
  cases hresolve : sig.resolve inputs with
  | ok returns => exact .inl ⟨returns, (resolve_eq_ok_iff_mem hfault).mp hresolve, rfl⟩
  | error e =>
    obtain ⟨hnone, rfl⟩ := resolve_eq_error_iff.mp hresolve
    exact .inr ⟨fun returns hmem => hnone _ hmem rfl, rfl⟩

theorem resolveOperands_list (hreduce : sig.broadcast = .reduce) (t : ElementType) :
    sig.resolveOperands [.list t] = (sig.reduce t).map (·.map .singlet) := by
  unfold resolveOperands
  rw [hreduce]
  rfl

theorem Overlooks.not_reduces (h : sig.Overlooks t) {e : CompileError} : ¬ sig.Reduces t (.error e) := by
  rintro ⟨⟩
  next hpair _ =>
    obtain ⟨returns, hreturns⟩ := h.pair
    exact hpair returns hreturns

theorem reduce_of_single (hfault : Schema.fault? sig = none)
    (hother : ∃ i ∈ sig.interactions, i.inputs.length = 1) :
    (sig.Reduces t ((sig.reduce t).map (·.map .singlet)) ∧ ¬ sig.Overlooks t) ∨
      sig.Overlooks t ∧ sig.reduce t = .error (.typeMismatch sig.name [t.text]) := by
  rw [reduce, if_pos (acceptsArity_iff.mpr hother)]
  rcases resolve_cases hfault [t] with ⟨returns, hmem, heq⟩ | ⟨hsingle, heq⟩
  · rw [heq]
    exact .inl ⟨.single returns hmem, fun h => h.single returns hmem⟩
  · rw [heq]
    -- No single operand fits, and a pair is not looked for: this is right only if there is none.
    by_cases hpair : ∃ returns, ⟨[t, t], returns⟩ ∈ sig.interactions
    · exact .inr ⟨⟨hother, hsingle, hpair⟩, rfl⟩
    · refine .inl ⟨.mismatch _ hsingle ?_ (.inl rfl), fun h => hpair h.pair⟩
      exact fun returns hmem => hpair ⟨returns, hmem⟩

theorem reduce_of_no_single (hfault : Schema.fault? sig = none)
    (hother : ¬ ∃ i ∈ sig.interactions, i.inputs.length = 1) :
    sig.Reduces t ((sig.reduce t).map (·.map .singlet)) := by
  have hsingle : ∀ returns, ⟨[t], returns⟩ ∉ sig.interactions :=
    fun returns hmem => hother ⟨_, hmem, rfl⟩
  rw [reduce, if_neg (fun h => hother (acceptsArity_iff.mp h))]
  rcases resolve_cases hfault [t, t] with ⟨returns, hmem, heq⟩ | ⟨hpair, heq⟩
  · rw [heq]
    exact .pair returns hsingle hmem
  · rw [heq]
    exact .mismatch _ hsingle hpair (.inr rfl)

end Signature

namespace Schema

variable {s : Schema} {r : Registry} {name : String} {sig : Signature}

theorem fault?_of_get? (hr : s.toRegistry = .ok r) (hget : r.get? name = some sig) : fault? sig = none :=
  (toRegistry_eq_ok_iff.mp hr).1.2 sig ((get?_eq_some_iff_mem hr).mp hget).1

/-- A list is reduced by the interactions for the type of its elements, unless single operands of other
types make the instruction overlook the pair of this type; then there is no interaction that fits. -/
theorem reduces_iff_not_overlooks (hr : s.toRegistry = .ok r) (hget : r.get? name = some sig)
    (hreduce : sig.broadcast = .reduce) (t : ElementType) :
    (sig.Reduces t (r.resolveOperands name [.list t]) ↔ ¬ sig.Overlooks t) ∧
      (sig.Overlooks t →
        r.resolveOperands name [.list t] = .error (.typeMismatch name [t.text])) := by
  have hfault := fault?_of_get? hr hget
  have hname : sig.name = name := ((get?_eq_some_iff_mem hr).mp hget).2
  rw [Registry.resolveOperands_of_get? hget, Signature.resolveOperands_list hreduce, ← hname]
  by_cases hother : ∃ i ∈ sig.interactions, i.inputs.length = 1
  · rcases Signature.reduce_of_single hfault hother with ⟨hreduces, hnot⟩ | ⟨hoverlooks, heq⟩
    · exact ⟨iff_of_true hreduces hnot, fun h => absurd h hnot⟩
    · rw [heq]
      exact ⟨iff_of_false hoverlooks.not_reduces (not_not.mpr hoverlooks), fun _ => rfl⟩
  · have hnot : ¬ sig.Overlooks t := fun h => hother h.other
    exact ⟨iff_of_true (Signature.reduce_of_no_single hfault hother) hnot, fun h => absurd h hnot⟩

def fold : Signature := ⟨"fold", .reduce, [⟨[.num], some .num⟩, ⟨[.vec2, .vec2], some .vec2⟩]⟩

def foldPairs : Signature := ⟨"fold", .reduce, [⟨[.vec2, .vec2], some .vec2⟩]⟩

theorem toRegistry_fold : toRegistry ⟨[fold]⟩ = .ok (.ofList [fold]) := by
  decide +kernel

theorem reduces_iff_not_overlooks_fold :
    ∃ r, toRegistry ⟨[fold]⟩ = .ok r ∧ r.get? "fold" = some fold ∧ fold.broadcast = .reduce ∧
      fold.Reduces .num (r.resolveOperands "fold" [.list .num]) ∧
      r.resolveOperands "fold" [.list .vec2] = .error (.typeMismatch "fold" ["vec2"]) := by
  have hget : (Registry.ofList [fold]).get? "fold" = some fold := by decide +kernel
  have hnum : ¬ fold.Overlooks .num := fun h => h.single (some .num) List.mem_cons_self
  have hvec2 : fold.Overlooks .vec2 :=
    ⟨⟨_, List.mem_cons_self, rfl⟩, by simp [fold], some .vec2, by decide⟩
  refine ⟨_, toRegistry_fold, hget, rfl, ?_, ?_⟩
  · exact (reduces_iff_not_overlooks toRegistry_fold hget rfl .num).1.mpr hnum
  · exact (reduces_iff_not_overlooks toRegistry_fold hget rfl .vec2).2 hvec2

/-- The pair of vectors is overlooked because of the interaction for numbers: without that one the list
is reduced. -/
theorem pair_overlooked :
    ∃ r r', toRegistry ⟨[fold]⟩ = .ok r ∧ toRegistry ⟨[foldPairs]⟩ = .ok r' ∧
      r.get? "fold" = some fold ∧ fold.broadcast = .reduce ∧
      (∀ returns, ⟨[.vec2], returns⟩ ∉ fold.interactions) ∧
      ⟨[.vec2, .vec2], some .vec2⟩ ∈ fold.interactions ∧
      r.resolveOperands "fold" [.list .vec2] = .error (.typeMismatch "fold" ["vec2"]) ∧
      r'.resolveOperands "fold" [.list .vec2] = .ok (some (.singlet .vec2)) := by
  have hpairs : toRegistry ⟨[foldPairs]⟩ = .ok (.ofList [foldPairs]) := by decide +kernel
  exact ⟨_, _, toRegistry_fold, hpairs, by decide +kernel, rfl, by simp [fold], by decide,
    by decide +kernel, by decide +kernel⟩

end Schema

end DrawScript
