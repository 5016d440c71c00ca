/-
Binary64 numbers as bit patterns, and the value of a decimal rounded to the nearest of them, a half to
the even one. All of it is exact arithmetic on naturals; a value beyond the largest finite one has no
result. A decimal is rounded either once, or step by step with the powers of ten as they are rounded themselves.
-/
namespace ShapePlan

structure Binary64 where
  bits : UInt64
deriving DecidableEq, Repr

namespace Binary64

def isNegative (x : Binary64) : Bool := x.bits.toNat / Nat.pow 2 63 = 1

/-- The pattern without its sign. It grows with the absolute value. -/
def magnitude (x : Binary64) : Nat := x.bits.toNat % Nat.pow 2 63

def isZero (x : Binary64) : Bool := x.magnitude = 0

/-- The least magnitude that is not finite. -/
def infinity : Nat := 0x7FF * Nat.pow 2 52

def ofMagnitude (neg : Bool) (mag : Nat) : Binary64 :=
  ⟨UInt64.ofNat ((if neg then Nat.pow 2 63 else 0) + mag)⟩

/-- A finite absolute value as `m * 2 ^ e`. -/
def mantExp (x : Binary64) : Nat × Int :=
  let e : Nat := x.magnitude / Nat.pow 2 52
  let f : Nat := x.magnitude % Nat.pow 2 52
  if e = 0 then (f, -1074) else (Nat.pow 2 52 + f, (e : Int) - 1075)

/-! ## Rounding -/

/-- `num / den` to the nearest natural, a half to the even one. -/
def roundRatio (num den : Nat) : Nat :=
  let q := num / den
  let r := num % den
  if 2 * r < den ∨ (2 * r = den ∧ q % 2 = 0) then q else q + 1

/-- The exponent of the largest power of two that is at most `num / den`. -/
def floorLog2 (num den : Nat) : Int :=
  let k : Int := (Nat.log2 num : Int) - Nat.log2 den
  if num * Nat.pow 2 (-k).toNat < den * Nat.pow 2 k.toNat then k - 1 else k

/-- The finite value nearest to `num / den`. -/
def ofRatio? (neg : Bool) (num den : Nat) : Option Binary64 :=
  if num = 0 then some (ofMagnitude neg 0)
  else
    let e := max (floorLog2 num den) (-1022) - 52
    let m := roundRatio (num * Nat.pow 2 (-e).toNat) (den * Nat.pow 2 e.toNat)
    let mag := (e + 1074).toNat * Nat.pow 2 52 + m
    if mag < infinity then some (ofMagnitude neg mag) else none

/-- The finite value nearest to `digits * 10 ^ exp`. Exponents that are far out of range are settled
before a power is formed. -/
def ofDecimal? (neg : Bool) (digits : Nat) (exp : Int) : Option Binary64 :=
  let size : Int := (Nat.log2 digits : Int) / 3 + 1
  if digits = 0 ∨ exp + size < -340 then some (ofMagnitude neg 0)
  else if 400 < exp then none
  else ofRatio? neg (digits * Nat.pow 10 exp.toNat) (Nat.pow 10 (-exp).toNat)

/-! ## Arithmetic -/

/-- The finite value nearest to `num / den * 2 ^ e`. -/
def ofBinary? (neg : Bool) (num den : Nat) (e : Int) : Option Binary64 :=
  ofRatio? neg (num * Nat.pow 2 e.toNat) (den * Nat.pow 2 (-e).toNat)

def mul? (x y : Binary64) : Option Binary64 :=
  let (m, e) := x.mantExp
  let (n, f) := y.mantExp
  ofBinary? (x.isNegative ≠ y.isNegative) (m * n) 1 (e + f)

/-- The quotient by a value that is not zero. -/
def div? (x y : Binary64) : Option Binary64 :=
  let (m, e) := x.mantExp
  let (n, f) := y.mantExp
  ofBinary? (x.isNegative ≠ y.isNegative) m n (e - f)

/-- The largest power of ten that is finite. -/
def maxPower : Nat := 308

def tenTo? (n : Nat) : Option Binary64 := ofRatio? false (Nat.pow 10 n) 1

/-- The value of `digits * 10 ^ exp` in steps, each of them rounded: the digits are multiplied by a power of ten, or
divided by one or two of them. What lies below the second has become zero. -/
def ofSteps? (neg : Bool) (digits : Nat) (exp : Int) : Option Binary64 := do
  let x ← ofRatio? neg digits 1
  if x.isZero then some x
  else if maxPower < exp then none
  else if 0 ≤ exp then x.mul? (← tenTo? exp.toNat)
  else
    let n := (-exp).toNat
    let y ← x.div? (← tenTo? (min n maxPower))
    y.div? (← tenTo? (min (n - maxPower) maxPower))

end Binary64

end ShapePlan
