/-
The dynamic values of property bags, stored mappings and records. A number keeps its kind: an integer
and a float are never equal. Equality of values is decidable, floats by their bit patterns.
-/
import ShapePlan.Decimal.Binary64
import ShapePlan.Dict

namespace ShapePlan

inductive Number where
  | int (n : Int)
  | float (x : Binary64)
deriving DecidableEq, Repr

inductive Value where
  | null
  | bool (b : Bool)
  | number (n : Number)
  | string (s : String)
  | list (items : List Value)
  | object (fields : Dict Value)
deriving Repr

instance : Inhabited Value := ⟨.null⟩

/-- A flat mapping from names to values. -/
abbrev Bag := Dict Value

/-! ## Equality -/

mutual

def Value.beq : Value → Value → Bool
  | .null, .null => true
  | .bool a, .bool b => a = b
  | .number a, .number b => a = b
  | .string a, .string b => a = b
  | .list a, .list b => Value.beqItems a b
  | .object ⟨a⟩, .object ⟨b⟩ => Value.beqFields a b
  | _, _ => false

def Value.beqItems : List Value → List Value → Bool
  | [], [] => true
  | a :: r, b :: s => a.beq b && Value.beqItems r s
  | _, _ => false

def Value.beqFields : List (String × Value) → List (String × Value) → Bool
  | [], [] => true
  | (j, a) :: r, (k, b) :: s => j = k && a.beq b && Value.beqFields r s
  | _, _ => false

end

mutual

theorem Value.beq_iff : ∀ a b : Value, a.beq b = true ↔ a = b
  | .null, b => by cases b <;> simp [Value.beq]
  | .bool _, b => by cases b <;> simp [Value.beq]
  | .number _, b => by cases b <;> simp [Value.beq]
  | .string _, b => by cases b <;> simp [Value.beq]
  | .list xs, b => by
    cases b with
    | list ys => simp [Value.beq, Value.beqItems_iff xs ys]
    | _ => simp [Value.beq]
  | .object ⟨xs⟩, b => by
    cases b with
    | object ys =>
      obtain ⟨ys⟩ := ys
      simp [Value.beq, Value.beqFields_iff xs ys]
    | _ => simp [Value.beq]

theorem Value.beqItems_iff : ∀ xs ys : List Value, Value.beqItems xs ys = true ↔ xs = ys
  | [], ys => by cases ys <;> simp [Value.beqItems]
  | x :: xs, ys => by
    cases ys with
    | nil => simp [Value.beqItems]
    | cons y ys => simp [Value.beqItems, Value.beq_iff x y, Value.beqItems_iff xs ys]

theorem Value.beqFields_iff :
    ∀ xs ys : List (String × Value), Value.beqFields xs ys = true ↔ xs = ys
  | [], ys => by cases ys <;> simp [Value.beqFields]
  | (j, x) :: xs, ys => by
    cases ys with
    | nil => simp [Value.beqFields]
    | cons y ys =>
      obtain ⟨k, y⟩ := y
      simp [Value.beqFields, Value.beq_iff x y, Value.beqFields_iff xs ys]

end

instance : DecidableEq Value := fun a b => decidable_of_iff _ (Value.beq_iff a b)

/-! ## Views -/

namespace Number

/-- Integers within 64 signed bits. -/
def int64? : Number → Option Int64
  | .int n => if Int64.minValue.toInt ≤ n ∧ n ≤ Int64.maxValue.toInt then some (Int64.ofInt n) else none
  | .float _ => none

end Number

namespace Value

def int (n : Int) : Value := .number (.int n)

def strings (l : List String) : Value := .list (l.map .string)

/-- An absent value is null. -/
def ofOption {α : Type} (f : α → Value) : Option α → Value
  | some a => f a
  | none => .null

def string? : Value → Option String
  | .string s => some s
  | _ => none

def bool? : Value → Option Bool
  | .bool b => some b
  | _ => none

def number? : Value → Option Number
  | .number n => some n
  | _ => none

def int64? (v : Value) : Option Int64 := v.number? >>= Number.int64?

def list? : Value → Option (List Value)
  | .list l => some l
  | _ => none

def object? : Value → Option Bag
  | .object d => some d
  | _ => none

/-- A list of strings and nothing else. -/
def strings? (v : Value) : Option (List String) := v.list? >>= List.mapM string?

end Value

end ShapePlan
