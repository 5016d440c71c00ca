/-
The compact text of a value: no blanks, object fields in the order of the dictionary, floats with the
fewest digits that read back and always with a fraction or an exponent.
-/
import ShapePlan.Decimal.Shortest
import ShapePlan.Value.Basic

namespace ShapePlan

/-! ## Numbers -/

/-- How a float is written: positional between two powers of ten, scientific elsewhere. -/
structure FloatLayout where
  /-- The least decimal point position that is written positionally. -/
  least : Int
  /-- The greatest decimal point position that is written positionally. -/
  greatest : Int
  /-- What follows a whole number. -/
  whole : String
  /-- What introduces an exponent that is not negative. -/
  positiveExponent : String
  /-- What introduces a negative exponent. -/
  negativeExponent : String

/-- Positional from 0.00001 up to 10^16 exclusive; an exponent always has its sign. -/
def FloatLayout.value : FloatLayout := ⟨-4, 16, ".0", "e+", "e-"⟩

/-- Writes `0.d₁d₂… * 10 ^ point`. -/
def FloatLayout.write (l : FloatLayout) (digits : List Char) (point : Int) : String :=
  let n := digits.length
  if l.least ≤ point ∧ point ≤ l.greatest then
    if point ≤ 0 then
      "0." ++ String.ofList (List.replicate (-point).toNat '0' ++ digits)
    else if (n : Int) ≤ point then
      String.ofList (digits ++ List.replicate (point.toNat - n) '0') ++ l.whole
    else
      String.ofList (digits.take point.toNat) ++ "." ++ String.ofList (digits.drop point.toNat)
  else
    let fraction := if n ≤ 1 then "" else "." ++ String.ofList (digits.drop 1)
    let e := point - 1
    let exponent :=
      if 0 ≤ e then l.positiveExponent ++ toString e.natAbs else l.negativeExponent ++ toString e.natAbs
    String.ofList (digits.take 1) ++ fraction ++ exponent

/-- The digits without trailing zeros. -/
def trimZeros (digits : List Char) : List Char := (digits.reverse.dropWhile (· = '0')).reverse

def Binary64.text (x : Binary64) : String :=
  let sign := if x.isNegative then "-" else ""
  if x.isZero then sign ++ "0.0"
  else
    let (c, p) := x.shortest
    let digits := Nat.toDigits 10 c
    sign ++ FloatLayout.value.write (trimZeros digits) (digits.length + p)

def Number.text : Number → String
  | .int n => toString n
  | .float x => x.text

/-- The digits of a number are read back as that number. -/
theorem repr_inj {i j : Nat} (h : i.repr = j.repr) : i = j := by
  have hdigits : Nat.toDigits 10 i = Nat.toDigits 10 j := String.ofList_injective h
  have hread (k : Nat) : Nat.ofDigitChars 10 (Nat.toDigits 10 k) 0 = k :=
    Nat.ofDigitChars_toDigits (by decide) (by decide)
  rw [← hread i, hdigits, hread j]

/-! ## Strings -/

def hexDigit (n : Nat) : Char :=
  if n < 10 then Char.ofNat ('0'.toNat + n) else Char.ofNat ('a'.toNat + (n - 10))

def quoteChar (c : Char) : List Char :=
  if c = '"' then ['\\', '"']
  else if c = '\\' then ['\\', '\\']
  else if c = Char.ofNat 8 then ['\\', 'b']
  else if c = '\t' then ['\\', 't']
  else if c = '\n' then ['\\', 'n']
  else if c = Char.ofNat 12 then ['\\', 'f']
  else if c = '\r' then ['\\', 'r']
  else if c.toNat < 0x20 then ['\\', 'u', '0', '0', hexDigit (c.toNat / 16), hexDigit (c.toNat % 16)]
  else [c]

/-- A string between double quotes. Only quotes, backslashes and control characters are escaped. -/
def quote (s : String) : String := String.ofList ('"' :: s.toList.flatMap quoteChar ++ ['"'])

/-! ## Values -/

mutual

def Value.text : Value → String
  | .null => "null"
  | .bool b => if b then "true" else "false"
  | .number n => n.text
  | .string s => quote s
  | .list items => "[" ++ String.intercalate "," (Value.itemTexts items) ++ "]"
  | .object ⟨fields⟩ => "\x7b" ++ String.intercalate "," (Value.fieldTexts fields) ++ "\x7d"

def Value.itemTexts : List Value → List String
  | [] => []
  | v :: r => v.text :: Value.itemTexts r

def Value.fieldTexts : List (String × Value) → List String
  | [] => []
  | (k, v) :: r => (quote k ++ ":" ++ v.text) :: Value.fieldTexts r

end

end ShapePlan
