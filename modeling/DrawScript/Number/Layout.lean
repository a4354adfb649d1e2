import DrawScript.Number.Shortest

/-!
How a binary number is written. Two layouts share the choice of digits. Plain text is always
positional and writes whole numbers without a point; JSON text keeps one decimal on whole numbers,
changes to an exponent far from one, and has no word for what is not finite.
-/

namespace DrawScript

namespace Decimal

def stripZeros : List Char → Int → List Char × Int
  | '0' :: ds, e => stripZeros ds (e + 1)
  | ds, e => (ds.reverse, e)

def significant (d : Decimal) : List Char × Int :=
  if d.digits = 0 then (['0'], 0)
  else stripZeros (Nat.toDigits 10 d.digits).reverse d.exponent

def zeros (n : Nat) : List Char := List.replicate n '0'

def positional (ds : List Char) (exponent : Int) : List Char × List Char :=
  match exponent with
  | .ofNat e => (ds ++ zeros e, [])
  | .negSucc e =>
    let places := e + 1
    if places < ds.length then (ds.take (ds.length - places), ds.drop (ds.length - places))
    else (['0'], zeros (places - ds.length) ++ ds)

end Decimal

structure NumberLayout where
  tie : Tie
  /-- Whether a number with this exponent of its first digit is written positionally. -/
  isPositional : Int → Bool
  /-- What a positional whole number ends with. -/
  wholeEnd : String
  notANumber : String
  infinity : String
  negativeInfinity : String

namespace NumberLayout

/-- Positional at any size, and no point on whole numbers. -/
def plain : NumberLayout where
  tie := .up
  isPositional := fun _ => true
  wholeEnd := ""
  notANumber := "NaN"
  infinity := "inf"
  negativeInfinity := "-inf"

/-- Positional from `0.00001` up to sixteen digits before the point. -/
def json : NumberLayout where
  tie := .toEven
  isPositional := fun k => -5 ≤ k && k ≤ 15
  wholeEnd := ".0"
  notANumber := "null"
  infinity := "null"
  negativeInfinity := "null"

def scientific (ds : List Char) (k : Int) : String :=
  let mantissa :=
    match ds with
    | d :: r :: rest => d :: '.' :: r :: rest
    | _ => ds
  let sign := if k < 0 then "-" else "+"
  String.ofList mantissa ++ "e" ++ sign ++ toString k.natAbs

def magnitudeText (layout : NumberLayout) (d : Decimal) : String :=
  let (ds, exponent) := d.significant
  let k := exponent + ds.length - 1
  if layout.isPositional k then
    match Decimal.positional ds exponent with
    | (whole, []) => String.ofList whole ++ layout.wholeEnd
    | (whole, fraction) => String.ofList whole ++ "." ++ String.ofList fraction
  else scientific ds k

def text (layout : NumberLayout) (x : Binary64) : String :=
  if x.isFinite then
    (if x.negative then "-" else "") ++ layout.magnitudeText (x.shortest layout.tie)
  else if x.isInfinite then (if x.negative then layout.negativeInfinity else layout.infinity)
  else layout.notANumber

end NumberLayout

namespace Binary64

def text (x : Binary64) : String := NumberLayout.plain.text x

end Binary64

end DrawScript
