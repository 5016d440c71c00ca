/-
Constraint records: every facet of one shape and one target class, flat. Lists of values may be accumulated in one
string, joined by three hyphens.
-/
import ShapePlan.Value.Basic

namespace ShapePlan

structure Record where
  /-- The property that a property shape is about. -/
  path : Option String := none
  /-- The path is followed against its direction. -/
  inverse : Bool := false
  targetClass : Option String := none
  rangeClass : Option String := none
  nodeKind : Option String := none
  datatype : Option String := none
  pattern : Option String := none
  minCount : Option Int64 := none
  maxCount : Option Int64 := none
  minInclusive : Option Number := none
  minExclusive : Option Number := none
  maxInclusive : Option Number := none
  maxExclusive : Option Number := none
  hasValueLiterals : Option (List String) := none
  hasValueIris : Option (List String) := none
  inLiterals : Option (List String) := none
  inIris : Option (List String) := none
  minLength : Option Int64 := none
  maxLength : Option Int64 := none
  propertyShape : Option String := none
  severity : Option String := none
  constraintType : Option String := none
  nodeShape : Option String := none
  definedProps : Option (List String) := none
  ignoredProps : Option (List String) := none
  requiredClasses : Option (List String) := none
  disjointClasses : Option (List String) := none
deriving DecidableEq, Repr

namespace Record

/-- The constraint type of the records of closed shapes. -/
def closedDefinition : String := "closedDefinitionPropList"

def isClosedDefinition (r : Record) : Bool := r.constraintType = some closedDefinition

/-- The shape that a record comes from. -/
def shapeUid? (r : Record) : Option String := r.propertyShape.or r.nodeShape

/-! ## Joined values -/

/-- Cuts at every three hyphens, from the left. -/
def cutHyphens (acc : List Char) : List Char → List (List Char)
  | '-' :: '-' :: '-' :: r => acc.reverse :: cutHyphens [] r
  | c :: r => cutHyphens (c :: acc) r
  | [] => [acc.reverse]

/-- The values accumulated in one string. Empty ones are dropped. -/
def splitValues (s : String) : List String :=
  ((cutHyphens [] s.toList).filter (· ≠ [])).map String.ofList

end Record

end ShapePlan
