/-
Typed constraints. A record with a target class is a header, shared by all its facets, and one constraint for each
facet that says something; facets with empty or unknown values say nothing.
-/
import ShapePlan.Config.Policy
import ShapePlan.Record.Basic
import ShapePlan.Vocabulary

namespace ShapePlan

/-! ## Closed vocabularies -/

inductive Severity where
  | violation
  | warning
  | info
deriving DecidableEq, Repr

namespace Severity

def all : List Severity := [.violation, .warning, .info]

def iri : Severity → String
  | .violation => Sh.violation
  | .warning => Sh.term "Warning"
  | .info => Sh.term "Info"

def ofIri? (s : String) : Option Severity := all.find? (·.iri = s)

end Severity

inductive NodeKind where
  | blankNode
  | iri
  | literal
  | blankNodeOrIri
  | blankNodeOrLiteral
  | iriOrLiteral
deriving DecidableEq, Repr

namespace NodeKind

def all : List NodeKind :=
  [.blankNode, .iri, .literal, .blankNodeOrIri, .blankNodeOrLiteral, .iriOrLiteral]

def term : NodeKind → String
  | .blankNode => Sh.term "BlankNode"
  | .iri => Sh.term "IRI"
  | .literal => Sh.term "Literal"
  | .blankNodeOrIri => Sh.term "BlankNodeOrIRI"
  | .blankNodeOrLiteral => Sh.term "BlankNodeOrLiteral"
  | .iriOrLiteral => Sh.term "IRIOrLiteral"

def ofIri? (s : String) : Option NodeKind := all.find? (·.term = s)

end NodeKind

/-- The kinds of compiled constraints, each named after its parameter. -/
inductive Kind where
  | datatype
  | hasValue
  | nodeKind
  | classOf
  | oneOf
  | pattern
  | minCount
  | maxCount
  | minLength
  | maxLength
  | minInclusive
  | maxInclusive
  | minExclusive
  | maxExclusive
  | ignoredProperties
  | negation
deriving DecidableEq, Repr

namespace Kind

def all : List Kind :=
  [.datatype, .hasValue, .nodeKind, .classOf, .oneOf, .pattern, .minCount, .maxCount, .minLength, .maxLength,
    .minInclusive, .maxInclusive, .minExclusive, .maxExclusive, .ignoredProperties, .negation]

def localName : Kind → String
  | .datatype => "datatype"
  | .hasValue => "hasValue"
  | .nodeKind => "nodeKind"
  | .classOf => "class"
  | .oneOf => "in"
  | .pattern => "pattern"
  | .minCount => "minCount"
  | .maxCount => "maxCount"
  | .minLength => "minLength"
  | .maxLength => "maxLength"
  | .minInclusive => "minInclusive"
  | .maxInclusive => "maxInclusive"
  | .minExclusive => "minExclusive"
  | .maxExclusive => "maxExclusive"
  | .ignoredProperties => "ignoredProperties"
  | .negation => "not"

/-- The IRI of the parameter. -/
def parameter (k : Kind) : String := Sh.term k.localName

/-- The name by which an inventory lists the kind. -/
def nameIn (k : Kind) : GraphMode → String
  | .rdf => "sh:" ++ k.localName
  | .lpg => k.localName

def ofName? (s : String) : Option Kind := all.find? (·.localName = s)

end Kind

/-! ## Headers -/

/-- A path of one step. -/
structure PathStep where
  iri : String
  inverse : Bool
deriving DecidableEq, Repr

def PathStep.isType (p : PathStep) : Bool := p.iri = Rdf.type

/-- What the constraints of a record share. -/
structure Header where
  focusClass : String
  /-- Constraints on nodes have no path. -/
  path : Option PathStep
  severity : Severity
  shapeUid : String
deriving DecidableEq, Repr

def Header.isOnType (h : Header) : Bool := h.path.any PathStep.isType

def Header.isInverse (h : Header) : Bool := h.path.any (·.inverse)

/-! ## Constraints -/

structure ValueRange where
  minInclusive : Option Number := none
  minExclusive : Option Number := none
  maxInclusive : Option Number := none
  maxExclusive : Option Number := none
deriving DecidableEq, Repr

/-- An end of a range: its number, and whether it is in the range. -/
structure Bound where
  value : Number
  inclusive : Bool
deriving DecidableEq, Repr

namespace ValueRange

def isEmpty (r : ValueRange) : Bool :=
  r.minInclusive.isNone && r.minExclusive.isNone && r.maxInclusive.isNone && r.maxExclusive.isNone

/-- The lower end. The inclusive one wins. -/
def lower? (r : ValueRange) : Option Bound :=
  (r.minInclusive.map (⟨·, true⟩)).or (r.minExclusive.map (⟨·, false⟩))

/-- The upper end. The inclusive one wins. -/
def upper? (r : ValueRange) : Option Bound :=
  (r.maxInclusive.map (⟨·, true⟩)).or (r.maxExclusive.map (⟨·, false⟩))

/-- Every number that is set, with its kind. -/
def bounds (r : ValueRange) : List (Kind × Number) :=
  (r.minInclusive.map ((Kind.minInclusive, ·))).toList ++
  (r.maxInclusive.map ((Kind.maxInclusive, ·))).toList ++
  (r.minExclusive.map ((Kind.minExclusive, ·))).toList ++
  (r.maxExclusive.map ((Kind.maxExclusive, ·))).toList

end ValueRange

inductive Constraint where
  | datatype (iri : String)
  | hasValueIris (iris : List String)
  | hasValueLiterals (literals : List String)
  | nodeKind (kind : NodeKind)
  | classOf (iri : String)
  | inLiterals (literals : List String)
  | inIris (iris : List String)
  | pattern (regex : String)
  | minCount (n : Int64)
  | maxCount (n : Int64)
  | length (min max : Option Int64)
  | range (r : ValueRange)
  /-- The properties that a closed shape allows. -/
  | closed (defined ignored : List String)
  | disjoint (classes : List String)
  /-- Classes required of the focus node itself. -/
  | requiredClasses (classes : List String)
deriving DecidableEq, Repr

/-- The kind of the queries compiled from a constraint. Lengths and ranges go by their first bound. -/
def Constraint.kind? : Constraint → Option Kind
  | .datatype _ => some .datatype
  | .hasValueIris _ => some .hasValue
  | .hasValueLiterals _ => some .hasValue
  | .nodeKind _ => some .nodeKind
  | .classOf _ => some .classOf
  | .inLiterals _ => some .oneOf
  | .inIris _ => some .oneOf
  | .pattern _ => some .pattern
  | .minCount _ => some .minCount
  | .maxCount _ => some .maxCount
  | .length min _ => some (if min.isSome then .minLength else .maxLength)
  | .range r => r.bounds.head?.map (·.1)
  | .closed _ _ => some .ignoredProperties
  | .disjoint _ => some .negation
  | .requiredClasses _ => none

/-! ## Lowering -/

/-- A record with a target class. -/
structure ConstraintSet where
  header : Header
  /-- In the order in which they are compiled. -/
  constraints : List Constraint
deriving DecidableEq, Repr

namespace Record

/-- A constraint for a list that has elements. -/
def ofList (f : List String → Constraint) (l : Option (List String)) : List Constraint :=
  ((l.filter (· ≠ [])).map f).toList

def valueRange (r : Record) : ValueRange :=
  ⟨r.minInclusive, r.minExclusive, r.maxInclusive, r.maxExclusive⟩

def constraints (r : Record) : List Constraint :=
  (r.datatype.map .datatype).toList ++
  ofList .hasValueIris r.hasValueIris ++
  ofList .hasValueLiterals r.hasValueLiterals ++
  ((r.nodeKind >>= NodeKind.ofIri?).map .nodeKind).toList ++
  ((r.rangeClass.filter (· ≠ "")).map .classOf).toList ++
  ofList .inLiterals r.inLiterals ++
  ofList .inIris r.inIris ++
  (r.pattern.map .pattern).toList ++
  (r.minCount.map .minCount).toList ++
  (r.maxCount.map .maxCount).toList ++
  (if r.minLength.isSome || r.maxLength.isSome then [.length r.minLength r.maxLength] else []) ++
  (if r.valueRange.isEmpty then [] else [.range r.valueRange]) ++
  (if r.isClosedDefinition then [.closed (r.definedProps.getD []) (r.ignoredProps.getD [])] else []) ++
  ofList .disjoint r.disjointClasses ++
  ofList .requiredClasses r.requiredClasses

/-- An unknown severity is a violation. -/
def header (r : Record) (focusClass : String) : Header where
  focusClass
  path := r.path.map (⟨·, r.inverse⟩)
  severity := (r.severity >>= Severity.ofIri?).getD .violation
  shapeUid := r.shapeUid?.getD ""

/-- A record without a target class has no constraints at all. -/
def constraintSet? (r : Record) : Option ConstraintSet :=
  r.targetClass.map fun c => ⟨r.header c, r.constraints⟩

end Record

end ShapePlan
