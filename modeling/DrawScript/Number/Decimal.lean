import DrawScript.Number.Binary64

/-!
Decimal numbers and the numerals that write them. A numeral is an optional sign, digits with an
optional point (at least one digit on either side of it), and an optional exponent. Its value is
exact; rounding to a binary number happens once, at the end.
-/

namespace DrawScript

structure Decimal where
  digits : Nat
  exponent : Int
  deriving DecidableEq, Repr

namespace Decimal

/-- A fraction of two natural numbers equal to the decimal, in units of `2 ^ -1074`. -/
def units (d : Decimal) : Nat × Nat :=
  match d.exponent with
  | .ofNat e => (d.digits * Nat.pow 10 e * Nat.pow 2 1074, 1)
  | .negSucc e => (d.digits * Nat.pow 2 1074, Nat.pow 10 (e + 1))

/-- The decimal lies below `10 ^ lead`, and, unless it is zero, not below `10 ^ (lead - 1)`. -/
def lead (d : Decimal) : Int := (Nat.toDigits 10 d.digits).length + d.exponent

/-- The binary number nearest to a decimal with a sign. Decimals from `10 ^ 310` on are beyond the
largest finite number, and those below `10 ^ -330` are nearest to zero. -/
def toBinary64 (negative : Bool) (d : Decimal) : Binary64 :=
  if d.digits = 0 ∨ d.lead < -330 then Binary64.zero negative
  else if 310 < d.lead then Binary64.infinity negative
  else Binary64.nearest negative d.units.1 d.units.2

end Decimal

structure Numeral where
  negative : Bool
  value : Decimal
  deriving DecidableEq, Repr

namespace Numeral

def natOfDigits (cs : List Char) : Nat :=
  cs.foldl (fun n c => 10 * n + (c.toNat - '0'.toNat)) 0

def takeSign : List Char → Bool × List Char
  | '-' :: cs => (true, cs)
  | '+' :: cs => (false, cs)
  | cs => (false, cs)

/-- The exponent part of a numeral, which has to be all of the text; no text is exponent zero. -/
def exponent? : List Char → Option Int
  | [] => some 0
  | c :: cs =>
    if c = 'e' ∨ c = 'E' then
      let (negative, ds) := takeSign cs
      if ds.isEmpty || !ds.all Char.isDigit then none
      else some (if negative then -(natOfDigits ds : Int) else natOfDigits ds)
    else none

def takeFraction : List Char → List Char × List Char
  | '.' :: cs => (cs.takeWhile Char.isDigit, cs.dropWhile Char.isDigit)
  | cs => ([], cs)

def parse? (text : List Char) : Option Numeral :=
  let (negative, unsigned) := takeSign text
  let whole := unsigned.takeWhile Char.isDigit
  let (fraction, rest) := takeFraction (unsigned.dropWhile Char.isDigit)
  if whole.isEmpty && fraction.isEmpty then none
  else (exponent? rest).map fun e =>
    ⟨negative, ⟨natOfDigits (whole ++ fraction), e - fraction.length⟩⟩

def toBinary64 (n : Numeral) : Binary64 := n.value.toBinary64 n.negative

end Numeral

def Binary64.parse? (text : List Char) : Option Binary64 :=
  match Numeral.parse? text with
  | some n => if n.toBinary64.isFinite then some n.toBinary64 else none
  | none => none

theorem Binary64.isFinite_of_parse? {text : List Char} {x : Binary64}
    (h : Binary64.parse? text = some x) : x.isFinite := by
  unfold Binary64.parse? at h
  split at h
  · split at h
    next hfin => cases h; exact hfin
    next => cases h
  · cases h

end DrawScript
