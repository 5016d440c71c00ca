/-
Numbers written as text. White space around the text does not count. An integer is a sign and ASCII digits, within
the 64-bit range, and a plus sign may stand before it; a float has an optional point and an optional exponent, and one
that is beyond the largest finite value has no result.
-/
import ShapePlan.Text.Blank
import ShapePlan.Value.Reader

namespace ShapePlan.Decimal

open Reader (natOf)

/-- Cuts a sign off: whether it was a minus sign, and what follows it. -/
def cutSign : List Char → Bool × List Char
  | '-' :: r => (true, r)
  | '+' :: r => (false, r)
  | cs => (false, cs)

/-- A sign and digits. -/
def signed? (cs : List Char) : Option Int :=
  let (neg, ds) := cutSign cs
  if ds = [] ∨ ¬ ds.all Char.isDigit then none else some (if neg then -(natOf ds : Int) else natOf ds)

def dropPlus : List Char → List Char
  | '+' :: r => r
  | cs => cs

def fitsInt64 (n : Int) : Bool := Int64.minValue.toInt ≤ n && n ≤ Int64.maxValue.toInt

def integer? (s : String) : Option Int64 :=
  ((signed? (dropPlus (Text.trim s.toList))).filter fitsInt64).map Int64.ofInt

/-- The exponent that a number ends with, zero if the text is at its end. -/
def exponent? : List Char → Option Int
  | [] => some 0
  | c :: r => if c = 'e' ∨ c = 'E' then signed? r else none

/-- The digits before a point, those after it, and what follows. -/
def cutPoint (cs : List Char) : List Char × List Char × List Char :=
  match cs.dropWhile Char.isDigit with
  | '.' :: r => (cs.takeWhile Char.isDigit, r.takeWhile Char.isDigit, r.dropWhile Char.isDigit)
  | rest => (cs.takeWhile Char.isDigit, [], rest)

def float? (s : String) : Option Binary64 := do
  let (neg, cs) := cutSign (Text.trim s.toList)
  let (whole, fraction, cs) := cutPoint cs
  if whole = [] ∧ fraction = [] then none
  else Binary64.ofDecimal? neg (natOf (whole ++ fraction)) ((← exponent? cs) - fraction.length)

end ShapePlan.Decimal
