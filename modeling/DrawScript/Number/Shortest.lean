import DrawScript.Number.Decimal

/-!
The shortest decimal that reads back as a given binary number. Reading rounds to the nearest number,
so the decimals that read back are those between the midpoints to the two neighbouring numbers; the
midpoints themselves read back when the significand is even. On the grid of multiples of a power of
ten only the two neighbours of the number can be the best candidate. The search goes from coarse
grids to fine ones and takes the first hit; the exact decimal expansion lies on the grid of
`10 ^ -1074`, so a hit is always found.
-/

namespace DrawScript

inductive Tie where
  | up
  | toEven
  deriving DecidableEq, Repr

namespace Binary64

/-- Four times the magnitude, so that the midpoints around it are whole. -/
def quadruple (x : Binary64) : Nat := 4 * x.magnitude

def upper (x : Binary64) : Nat := x.quadruple + 2 * Nat.pow 2 x.scale

/-- Four times the midpoint to the next smaller number, which is nearer below the least number of a
binary order. -/
def lower (x : Binary64) : Nat :=
  if x.significand = fieldSize ∧ 0 < x.scale then x.quadruple - Nat.pow 2 x.scale
  else x.quadruple - 2 * Nat.pow 2 x.scale

def readsBack (x : Binary64) (num den : Nat) : Bool :=
  if x.significand % 2 = 0 then x.lower * den ≤ num && num ≤ x.upper * den
  else x.lower * den < num && num < x.upper * den

def gridUnit (exponent : Int) : Nat × Nat :=
  match exponent with
  | .ofNat e => (Nat.pow 10 e * Nat.pow 2 1076, 1)
  | .negSucc e => (Nat.pow 2 1076, Nat.pow 10 (e + 1))

/-- The multiple of `10 ^ exponent` that is nearest to the number among those that read back. -/
def onGrid? (tie : Tie) (x : Binary64) (exponent : Int) : Option Nat :=
  let (num, den) := gridUnit exponent
  let exact := x.quadruple * den
  let below := exact / num
  let gapBelow := exact - below * num
  let gapAbove := (below + 1) * num - exact
  let okBelow := x.readsBack (below * num) den
  let okAbove := x.readsBack ((below + 1) * num) den
  match okBelow, okAbove with
  | false, false => none
  | true, false => some below
  | false, true => some (below + 1)
  | true, true =>
    if gapBelow < gapAbove then some below
    else if gapAbove < gapBelow then some (below + 1)
    else match tie with
      | .up => some (below + 1)
      | .toEven => some (if below % 2 = 0 then below else below + 1)

def searchGrids (tie : Tie) (x : Binary64) : Nat → Int → Decimal
  | 0, _ => ⟨x.magnitude * Nat.pow 5 1074, -1074⟩
  | steps + 1, exponent =>
    match x.onGrid? tie exponent with
    | some digits => ⟨digits, exponent⟩
    | none => searchGrids tie x steps (exponent - 1)

/-- The decimal with the fewest digits that reads back as the magnitude of the number, and of those
the nearest. -/
def shortest (tie : Tie) (x : Binary64) : Decimal :=
  if x.magnitude = 0 then ⟨0, 0⟩
  else
    let top := (Nat.toDigits 10 (x.magnitude / Nat.pow 2 1074)).length - 1
    searchGrids tie x (top + 1075) top

end Binary64

end DrawScript
