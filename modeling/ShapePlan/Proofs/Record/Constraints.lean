/-
The constraints of a record are the facets that say something, each as the record has it.
-/
import ShapePlan.Constraint

namespace ShapePlan.Record

variable {r : Record}

/-- A constraint that a record states. -/
def States (r : Record) : Constraint → Prop
  | .datatype iri => r.datatype = some iri
  | .hasValueIris iris => r.hasValueIris = some iris ∧ iris ≠ []
  | .hasValueLiterals literals => r.hasValueLiterals = some literals ∧ literals ≠ []
  | .nodeKind kind => r.nodeKind >>= NodeKind.ofIri? = some kind
  | .classOf iri => r.rangeClass = some iri ∧ iri ≠ ""
  | .inLiterals literals => r.inLiterals = some literals ∧ literals ≠ []
  | .inIris iris => r.inIris = some iris ∧ iris ≠ []
  | .pattern regex => r.pattern = some regex
  | .minCount count => r.minCount = some count
  | .maxCount count => r.maxCount = some count
  | .length min max => (r.minLength.isSome ∨ r.maxLength.isSome) ∧ min = r.minLength ∧ max = r.maxLength
  | .range range => r.valueRange.isEmpty = false ∧ range = r.valueRange
  | .closed defined ignored =>
    r.isClosedDefinition ∧ defined = r.definedProps.getD [] ∧ ignored = r.ignoredProps.getD []
  | .disjoint classes => r.disjointClasses = some classes ∧ classes ≠ []
  | .requiredClasses classes => r.requiredClasses = some classes ∧ classes ≠ []

theorem mem_constraints {c : Constraint} : c ∈ r.constraints ↔ r.States c := by
  -- the node kind is kept as one value, or the two steps by which it is read are taken apart
  cases c <;> simp only [constraints, States] <;> generalize r.nodeKind >>= NodeKind.ofIri? = kind <;> simp [ofList]

end ShapePlan.Record
