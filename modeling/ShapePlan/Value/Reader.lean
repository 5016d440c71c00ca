/-
Reading a value from its JSON text. A number is an integer if it has neither point nor exponent and lies
between -2^63 and 2^64 - 1, and a float otherwise; a negative zero is a float. A float is made of the digits that
fit into 64 bits and a power of ten, rounded in steps. Of two fields with one name the last counts.
-/
import ShapePlan.Value.Basic

namespace ShapePlan

namespace Reader

def isBlank (c : Char) : Bool := c = ' ' || c = '\t' || c = '\n' || c = '\r'

def skip (cs : List Char) : List Char := cs.dropWhile isBlank

def digitValue (c : Char) : Nat := c.toNat - '0'.toNat

/-- The natural written by decimal digits. -/
def natOf (ds : List Char) : Nat := ds.foldl (fun n c => 10 * n + digitValue c) 0

/-- Puts digits behind a number until it would not fit into 64 bits: the number, and how many digits are left. -/
def takeDigits (n : Nat) : List Char → Nat × Nat
  | [] => (n, 0)
  | c :: r =>
    let next := 10 * n + digitValue c
    if next < UInt64.size then takeDigits next r else (n, r.length + 1)

/-- The float with these digits before and after its point. Digits left over before the point count as zeros, those
after it not at all. -/
def float? (neg : Bool) (whole fraction : List Char) (exponent : Int) : Option Binary64 :=
  let (n, zeros) := takeDigits 0 whole
  let (n, unused) := takeDigits n fraction
  Binary64.ofSteps? neg n (exponent + zeros - (fraction.length - unused : Nat))

def hexValue? (c : Char) : Option Nat :=
  if '0' ≤ c ∧ c ≤ '9' then some (c.toNat - '0'.toNat)
  else if 'a' ≤ c ∧ c ≤ 'f' then some (c.toNat - 'a'.toNat + 10)
  else if 'A' ≤ c ∧ c ≤ 'F' then some (c.toNat - 'A'.toNat + 10)
  else none

/-- The number written by exactly `n` hexadecimal digits, and what follows them. -/
def hex? : Nat → Nat → List Char → Option (Nat × List Char)
  | 0, acc, cs => some (acc, cs)
  | n + 1, acc, c :: cs => do hex? n (16 * acc + (← hexValue? c)) cs
  | _ + 1, _, [] => none

def isHighSurrogate (n : Nat) : Bool := 0xD800 ≤ n && n < 0xDC00

def isLowSurrogate (n : Nat) : Bool := 0xDC00 ≤ n && n < 0xE000

/-- The code point of a surrogate pair. -/
def joinSurrogates (hi lo : Nat) : Nat := 0x10000 + (hi - 0xD800) * 0x400 + (lo - 0xDC00)

/-- A code point that is a character. -/
def char? (n : Nat) : Option Char := if n.isValidChar then some (Char.ofNat n) else none

/-- What follows the backslash of an escape. -/
def escape? : List Char → Option (Char × List Char)
  | '"' :: r => some ('"', r)
  | '\\' :: r => some ('\\', r)
  | '/' :: r => some ('/', r)
  | 'b' :: r => some (Char.ofNat 8, r)
  | 'f' :: r => some (Char.ofNat 12, r)
  | 'n' :: r => some ('\n', r)
  | 'r' :: r => some ('\r', r)
  | 't' :: r => some ('\t', r)
  | 'u' :: r => do
    let (n, rest) ← hex? 4 0 r
    if isHighSurrogate n then
      match rest with
      | '\\' :: 'u' :: rest => do
        let (m, rest) ← hex? 4 0 rest
        if isLowSurrogate m then return (← char? (joinSurrogates n m), rest) else none
      | _ => none
    else return (← char? n, rest)
  | _ => none

/-- The characters of a string up to its closing quote, and what follows it. -/
def stringBody? : Nat → List Char → List Char → Option (String × List Char)
  | 0, _, _ => none
  | fuel + 1, acc, cs =>
    match cs with
    | '"' :: r => some (String.ofList acc.reverse, r)
    | '\\' :: r =>
      match escape? r with
      | some (c, r) => stringBody? fuel (c :: acc) r
      | none => none
    | c :: r => if c.toNat < 0x20 then none else stringBody? fuel (c :: acc) r
    | [] => none

def number? (cs : List Char) : Option (Number × List Char) := do
  let neg := cs.head? = some '-'
  let cs := if neg then cs.drop 1 else cs
  let whole := cs.takeWhile Char.isDigit
  let cs := cs.dropWhile Char.isDigit
  if whole = [] ∨ (whole.length > 1 ∧ whole.head? = some '0') then none
  let (fraction, cs) ← match cs with
    | '.' :: r =>
      let ds := r.takeWhile Char.isDigit
      if ds = [] then none else some (some ds, r.dropWhile Char.isDigit)
    | _ => some (none, cs)
  let (exponent, cs) ← match cs with
    | e :: r =>
      if e = 'e' ∨ e = 'E' then
        let sign := r.head?
        let r := if sign = some '-' ∨ sign = some '+' then r.drop 1 else r
        let ds := r.takeWhile Char.isDigit
        if ds = [] then none
        else
          let n : Int := natOf ds
          some (some (if sign = some '-' then -n else n), r.dropWhile Char.isDigit)
      else some (none, cs)
    | [] => some (none, cs)
  let n : Int := if neg then -(natOf whole : Int) else natOf whole
  if fraction.isNone ∧ exponent.isNone ∧ ¬ (neg ∧ n = 0) ∧ Int64.minValue.toInt ≤ n ∧ n < (UInt64.size : Int) then
    return (.int n, cs)
  else
    return (.float (← float? neg whole (fraction.getD []) (exponent.getD 0)), cs)

/-- A fixed word. -/
def word? (w : List Char) (v : Value) (cs : List Char) : Option (Value × List Char) :=
  if w.isPrefixOf cs then some (v, cs.drop w.length) else none

mutual

def value? : Nat → List Char → Option (Value × List Char)
  | 0, _ => none
  | fuel + 1, cs =>
    match skip cs with
    | 'n' :: r => word? ['n', 'u', 'l', 'l'] .null ('n' :: r)
    | 't' :: r => word? ['t', 'r', 'u', 'e'] (.bool true) ('t' :: r)
    | 'f' :: r => word? ['f', 'a', 'l', 's', 'e'] (.bool false) ('f' :: r)
    | '"' :: r => do
      let (s, r) ← stringBody? (r.length + 1) [] r
      return (.string s, r)
    | '[' :: r =>
      match skip r with
      | ']' :: r => some (.list [], r)
      | r => do
        let (items, r) ← items? fuel r
        return (.list items, r)
    | '{' :: r =>
      match skip r with
      | '}' :: r => some (.object Dict.empty, r)
      | r => do
        let (fields, r) ← fields? fuel r
        return (.object (Dict.ofList fields), r)
    | r => do
      let (n, r) ← number? r
      return (.number n, r)

def items? : Nat → List Char → Option (List Value × List Char)
  | 0, _ => none
  | fuel + 1, cs => do
    let (v, r) ← value? fuel cs
    match skip r with
    | ',' :: r =>
      let (vs, r) ← items? fuel r
      return (v :: vs, r)
    | ']' :: r => return ([v], r)
    | _ => none

def fields? : Nat → List Char → Option (List (String × Value) × List Char)
  | 0, _ => none
  | fuel + 1, cs =>
    match skip cs with
    | '"' :: r => do
      let (k, r) ← stringBody? (r.length + 1) [] r
      match skip r with
      | ':' :: r =>
        let (v, r) ← value? fuel r
        match skip r with
        | ',' :: r =>
          let (fs, r) ← fields? fuel r
          return ((k, v) :: fs, r)
        | '}' :: r => return ([(k, v)], r)
        | _ => none
      | _ => none
    | _ => none

end

end Reader

/-- The value of a whole JSON text. -/
def Value.parse? (s : String) : Option Value := do
  let cs := s.toList
  let (v, rest) ← Reader.value? (2 * cs.length + 1) cs
  if Reader.skip rest = [] then some v else none

end ShapePlan
