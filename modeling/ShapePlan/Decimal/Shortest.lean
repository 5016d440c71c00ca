/-
The shortest decimal that reads back as a given binary64 value: the fewest digits, and of those the
decimal nearest to the value. The reals that round to `m * 2 ^ e` form an interval, closed if and only if `m` is
even, and a decimal reads back exactly if it lies in it.
-/
import ShapePlan.Decimal.Binary64

namespace ShapePlan.Binary64

/-- A positive rational `num / den`. -/
structure Ratio where
  num : Nat
  den : Nat

namespace Ratio

def ofBinary (m : Nat) (e : Int) : Ratio := ⟨m * Nat.pow 2 e.toNat, Nat.pow 2 (-e).toNat⟩

def ofDecimal (c : Nat) (p : Int) : Ratio := ⟨c * Nat.pow 10 p.toNat, Nat.pow 10 (-p).toNat⟩

def lt (a b : Ratio) : Bool := a.num * b.den < b.num * a.den

def le (a b : Ratio) : Bool := a.num * b.den ≤ b.num * a.den

/-- The number of decimal digits of a natural. -/
def width (n : Nat) : Nat := (Nat.toDigits 10 n).length

/-- The `p` with `10 ^ (p - 1) ≤ a < 10 ^ p`. -/
def decimalPoint (a : Ratio) : Int :=
  if a.den ≤ a.num then (width (a.num / a.den) : Int)
  else
    let d := width (a.den / a.num)
    if a.den ≤ a.num * Nat.pow 10 (d - 1) then 2 - (d : Int) else 1 - (d : Int)

end Ratio

/-- The reals that round to a value. -/
structure Interval where
  lo : Ratio
  hi : Ratio
  closed : Bool

/-- Half a unit to either side, a quarter below a power of two. -/
def interval (m : Nat) (e : Int) : Interval where
  lo := Ratio.ofBinary (if m = Nat.pow 2 52 ∧ -1074 < e then 4 * m - 1 else 4 * m - 2) (e - 2)
  hi := Ratio.ofBinary (4 * m + 2) (e - 2)
  closed := m % 2 = 0

def Interval.contains (i : Interval) (a : Ratio) : Bool :=
  if i.closed then i.lo.le a && a.le i.hi else i.lo.lt a && a.lt i.hi

/-- Of the two neighbours of `v` on the grid of step `10 ^ p`, the one that reads back. When both do it
is the nearer, and the even one of two that are equally near. -/
def neighbour? (v : Ratio) (i : Interval) (p : Int) : Option Nat :=
  let num := v.num * Nat.pow 10 (-p).toNat
  let den := v.den * Nat.pow 10 p.toNat
  let c := num / den
  let nearest := roundRatio num den
  let down := i.contains (Ratio.ofDecimal c p)
  let up := i.contains (Ratio.ofDecimal (c + 1) p)
  if down && up then some nearest
  else if down then some c
  else if up then some (c + 1)
  else none

/-- Digits `c` and exponent `p` of a decimal `c * 10 ^ p`, tried with `n`, `n + 1`, ... digits. -/
def shortestFrom (v : Ratio) (i : Interval) (point : Int) : Nat → Nat → Nat × Int
  | 0, n => (v.num / v.den, point - n)
  | k + 1, n =>
    match neighbour? v i (point - n) with
    | some c => (c, point - n)
    | none => shortestFrom v i point k (n + 1)

/-- The shortest decimal `c * 10 ^ p` of a finite value other than zero. Seventeen digits suffice. -/
def shortest (x : Binary64) : Nat × Int :=
  let (m, e) := x.mantExp
  let v := Ratio.ofBinary m e
  shortestFrom v (interval m e) v.decimalPoint 17 1

end ShapePlan.Binary64
