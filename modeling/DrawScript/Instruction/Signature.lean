import DrawScript.Data.Type
import DrawScript.Error

/-!
Signatures of instructions. An instruction lists the exact operand types it takes and what it returns
for each; the first interaction with the same types applies. How lists are treated is a property of
the whole instruction: it maps over their elements, reduces one list to a value, or refuses them.
-/

namespace DrawScript

inductive Broadcast where
  | elements
  | none
  | reduce
  deriving DecidableEq, Repr

namespace Broadcast

def all : List Broadcast := [.elements, .none, .reduce]

def text : Broadcast → String
  | .elements => "elements"
  | .none => "none"
  | .reduce => "reduce"

def ofText? (s : String) : Option Broadcast := all.find? fun b => b.text == s

theorem ofText?_text (b : Broadcast) : ofText? b.text = some b := by
  cases b <;> decide

end Broadcast

structure Interaction where
  inputs : List ElementType
  returns : Option ElementType
  deriving DecidableEq, Repr

structure Signature where
  name : String
  broadcast : Broadcast
  interactions : List Interaction
  deriving DecidableEq, Repr

namespace Signature

def find? (sig : Signature) (inputs : List ElementType) : Option Interaction :=
  sig.interactions.find? fun i => i.inputs == inputs

def resolve (sig : Signature) (inputs : List ElementType) :
    Except CompileError (Option ElementType) :=
  match sig.find? inputs with
  | some i => .ok i.returns
  | none => .error (.typeMismatch sig.name (inputs.map ElementType.text))

theorem resolve_eq_ok_iff {sig : Signature} {inputs : List ElementType} {t : Option ElementType} :
    sig.resolve inputs = .ok t ↔ ∃ i, sig.find? inputs = some i ∧ i.returns = t := by
  unfold resolve
  cases sig.find? inputs <;> simp

theorem resolve_eq_error_iff {sig : Signature} {inputs : List ElementType} {e : CompileError} :
    sig.resolve inputs = .error e ↔
      (∀ i ∈ sig.interactions, i.inputs ≠ inputs) ∧
        e = .typeMismatch sig.name (inputs.map ElementType.text) := by
  unfold resolve
  cases h : sig.find? inputs with
  | none =>
    have hnone : ∀ i ∈ sig.interactions, i.inputs ≠ inputs := by
      simpa [find?] using h
    constructor
    · intro he
      cases he
      exact ⟨hnone, rfl⟩
    · rintro ⟨_, rfl⟩
      rfl
  | some i =>
    have hmem : i ∈ sig.interactions := List.mem_of_find?_eq_some h
    have hinputs : i.inputs = inputs := by simpa using List.find?_some h
    constructor
    · intro he
      cases he
    · rintro ⟨hall, _⟩
      exact absurd hinputs (hall i hmem)

def acceptsArity (sig : Signature) (arity : Nat) : Bool :=
  sig.interactions.any fun i => i.inputs.length == arity

theorem acceptsArity_iff {sig : Signature} {arity : Nat} :
    sig.acceptsArity arity ↔ ∃ i ∈ sig.interactions, i.inputs.length = arity := by
  simp [acceptsArity]

/-- The type that one list is reduced to: by the interaction of one operand if the instruction has any
of that kind, and pairwise otherwise. -/
def reduce (sig : Signature) (element : ElementType) : Except CompileError (Option ElementType) :=
  if sig.acceptsArity 1 then sig.resolve [element] else sig.resolve [element, element]

def resolveOperands (sig : Signature) (operands : List OperandType) :
    Except CompileError (Option OperandType) :=
  let elements := operands.map OperandType.element
  if !operands.any OperandType.isList then (sig.resolve elements).map (·.map .singlet)
  else match sig.broadcast with
    | .elements => (sig.resolve elements).map (·.map .list)
    | .reduce =>
      match operands with
      | [.list element] => (sig.reduce element).map (·.map .singlet)
      | _ => .error (.broadcast sig.name "reduction takes exactly one list operand")
    | .none => .error (.broadcast sig.name "list operands are not accepted")

end Signature

def commonLengthFrom (instruction : String) (expected : Nat) :
    List (Option Nat) → Except CompileError (Option Nat)
  | [] => .ok (some expected)
  | none :: ls => commonLengthFrom instruction expected ls
  | some n :: ls =>
    if n = expected then commonLengthFrom instruction expected ls
    else
      .error (.broadcast instruction
        s!"list operands have different lengths ({expected} and {n})")

/-- The common length of operands, where an operand that is not a list has no length. -/
def commonLength (instruction : String) : List (Option Nat) → Except CompileError (Option Nat)
  | [] => .ok none
  | none :: ls => commonLength instruction ls
  | some n :: ls => commonLengthFrom instruction n ls

end DrawScript
