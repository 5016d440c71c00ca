/-
Records as values. A record is written as an object with a field for every facet, null when the facet is absent; it
is read from such an object or from the list of the facets in their order. Missing facets are absent. A list of
strings may also be given as one joined string.
-/
import ShapePlan.Record.Basic

namespace ShapePlan.Record

/-- A facet of a record: its key and the two directions of its codec. -/
structure Field where
  key : String
  get : Record → Value
  set : Record → Value → Option Record

/-- Null is an absent value. -/
def absentOr {α : Type} (decode : Value → Option α) : Value → Option (Option α)
  | .null => some none
  | v => (decode v).map some

/-- A list of strings, or one string that joins them. -/
def joined? : Value → Option (List String)
  | .string s => some (splitValues s)
  | v => v.strings?

def text (key : String) (get : Record → Option String) (set : Record → Option String → Record) : Field where
  key
  get r := .ofOption .string (get r)
  set r v := (absentOr Value.string? v).map (set r)

def count (key : String) (get : Record → Option Int64) (set : Record → Option Int64 → Record) : Field where
  key
  get r := .ofOption (fun n => .int n.toInt) (get r)
  set r v := (absentOr Value.int64? v).map (set r)

def bound (key : String) (get : Record → Option Number) (set : Record → Option Number → Record) : Field where
  key
  get r := .ofOption .number (get r)
  set r v := (absentOr Value.number? v).map (set r)

def texts (key : String) (get : Record → Option (List String))
    (set : Record → Option (List String) → Record) : Field where
  key
  get r := .ofOption .strings (get r)
  set r v := (absentOr joined? v).map (set r)

def flag (key : String) (get : Record → Bool) (set : Record → Bool → Record) : Field where
  key
  get r := .bool (get r)
  set r v := v.bool?.map (set r)

/-- The facets in their order. -/
def fields : List Field :=
  [text "item" path fun r v => { r with path := v },
    flag "inverse" inverse fun r v => { r with inverse := v },
    text "appliesToCat" targetClass fun r v => { r with targetClass := v },
    text "rangeType" rangeClass fun r v => { r with rangeClass := v },
    text "rangeKind" nodeKind fun r v => { r with nodeKind := v },
    text "dataType" datatype fun r v => { r with datatype := v },
    text "pattern" pattern fun r v => { r with pattern := v },
    count "minCount" minCount fun r v => { r with minCount := v },
    count "maxCount" maxCount fun r v => { r with maxCount := v },
    bound "minInc" minInclusive fun r v => { r with minInclusive := v },
    bound "minExc" minExclusive fun r v => { r with minExclusive := v },
    bound "maxInc" maxInclusive fun r v => { r with maxInclusive := v },
    bound "maxExc" maxExclusive fun r v => { r with maxExclusive := v },
    texts "hasValueLiteral" hasValueLiterals fun r v => { r with hasValueLiterals := v },
    texts "hasValueUri" hasValueIris fun r v => { r with hasValueIris := v },
    texts "inLiterals" inLiterals fun r v => { r with inLiterals := v },
    texts "inUris" inIris fun r v => { r with inIris := v },
    count "minStrLen" minLength fun r v => { r with minLength := v },
    count "maxStrLen" maxLength fun r v => { r with maxLength := v },
    text "propShapeUid" propertyShape fun r v => { r with propertyShape := v },
    text "severity" severity fun r v => { r with severity := v },
    text "constraintType" constraintType fun r v => { r with constraintType := v },
    text "nodeShapeUid" nodeShape fun r v => { r with nodeShape := v },
    texts "definedProps" definedProps fun r v => { r with definedProps := v },
    texts "ignoredProps" ignoredProps fun r v => { r with ignoredProps := v },
    texts "reqClass" requiredClasses fun r v => { r with requiredClasses := v },
    texts "disjointClass" disjointClasses fun r v => { r with disjointClasses := v }]

/-- The values of the facets, in their order. -/
def values (r : Record) : List Value := fields.map (·.get r)

def toBag (r : Record) : Bag := Dict.ofList (fields.map fun f => (f.key, f.get r))

def toValue (r : Record) : Value := .object r.toBag

/-- Sets the facets that a bag holds. Other keys are passed over. -/
def ofBag? (b : Bag) : Option Record :=
  fields.foldlM (fun r f =>
    match b.get? f.key with
    | some v => f.set r v
    | none => some r) {}

/-- Sets the first facets, one by one. -/
def ofValues? (vs : List Value) : Option Record :=
  if vs.length ≤ fields.length then (fields.zip vs).foldlM (fun r e => e.1.set r e.2) {} else none

def ofValue? : Value → Option Record
  | .object b => ofBag? b
  | .list vs => ofValues? vs
  | _ => none

end ShapePlan.Record
