/-!
Binary floating-point numbers of 64 bits. A number is a sign and a 63-bit code: the exponent field
stands above 52 fraction bits, so that codes are ordered like the magnitudes they encode. A finite
magnitude is a natural number of units, the unit being the least positive number `2 ^ -1074`, and
arithmetic on it is exact. Rounding takes the nearest magnitude, and of two equally near ones the
one with the even significand; the carry out of a significand lands in the exponent field.
-/

namespace DrawScript

/-- Two to the power of 63: the number of codes. -/
abbrev codeCount : Nat := 0x8000000000000000

/-- Two to the power of 52: the number of codes with one exponent field. -/
abbrev fieldSize : Nat := 0x10000000000000

structure Binary64 where
  negative : Bool
  code : Fin codeCount
  deriving DecidableEq, Repr

namespace Binary64

/-- The code of an infinity; larger codes are not numbers. -/
def infinityCode : Nat := 2047 * fieldSize

def isFinite (x : Binary64) : Bool := x.code.val < infinityCode

def isInfinite (x : Binary64) : Bool := x.code.val == infinityCode

def zero (negative : Bool) : Binary64 := ⟨negative, ⟨0, by decide⟩⟩

def ofCode (negative : Bool) (code : Nat) : Binary64 :=
  ⟨negative, ⟨min code infinityCode, by unfold infinityCode codeCount fieldSize; omega⟩⟩

def infinity (negative : Bool) : Binary64 := ofCode negative infinityCode

def toBits (x : Binary64) : Nat := (if x.negative then codeCount else 0) + x.code.val

def ofBits (bits : Nat) : Binary64 :=
  ⟨bits / codeCount % 2 == 1, ⟨bits % codeCount, Nat.mod_lt _ (by decide)⟩⟩

theorem ofBits_toBits (x : Binary64) : ofBits x.toBits = x := by
  obtain ⟨negative, code, hcode⟩ := x
  cases negative
  · have h1 : (0 + code) / codeCount % 2 = 0 := by unfold codeCount at *; omega
    have h2 : (0 + code) % codeCount = code := by unfold codeCount at *; omega
    simp only [ofBits, toBits, Bool.false_eq_true, if_false, h1, h2, Nat.reduceBEq]
  · have h1 : (codeCount + code) / codeCount % 2 = 1 := by unfold codeCount at *; omega
    have h2 : (codeCount + code) % codeCount = code := by unfold codeCount at *; omega
    simp only [ofBits, toBits, if_true, h1, h2, beq_self_eq_true]

def significand (x : Binary64) : Nat :=
  if x.code.val < fieldSize then x.code.val else fieldSize + x.code.val % fieldSize

def scale (x : Binary64) : Nat := x.code.val / fieldSize - 1

/-- The magnitude of a finite number in units of `2 ^ -1074`. -/
def magnitude (x : Binary64) : Nat := x.significand * Nat.pow 2 x.scale

theorem code_eq (x : Binary64) : x.scale * fieldSize + x.significand = x.code.val := by
  unfold scale significand fieldSize
  split <;> omega

/-- The natural number nearest to `num / den`; a half goes to the even neighbour. -/
def roundHalfEven (num den : Nat) : Nat :=
  let q := num / den
  let twice := 2 * (num % den)
  if den < twice ∨ (twice = den ∧ q % 2 = 1) then q + 1 else q

def nearest (negative : Bool) (num den : Nat) : Binary64 :=
  let scale := (num / den).log2 - 52
  ofCode negative (scale * fieldSize + roundHalfEven num (den * Nat.pow 2 scale))

end Binary64

end DrawScript
