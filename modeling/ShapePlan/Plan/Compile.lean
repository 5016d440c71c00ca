/-
Compiling records to plans. The focus class and the path of a record are named first, then each of its constraints
contributes in its order; compiling fails with the first IRI that has no name. Every constraint is about one path,
except that closed shapes and disjoint classes are about the focus node.
-/
import ShapePlan.Naming
import ShapePlan.Plan.Emission

namespace ShapePlan

/-- A header with its names. -/
structure Target where
  header : Header
  focus : String
  path : Option String
deriving DecidableEq, Repr

namespace Target

variable (t : Target)

def uid : String := t.header.shapeUid

def severity : String := t.header.severity.iri

/-- Parameter sets are named for the shape and a parameter of the constraint. -/
def paramSet (parameter : String) : String := t.uid ++ "_" ++ parameter

/-- A query is triggered by the focus label and by the other labels that it tests. -/
def query (template : Template) (kind : Kind) (values : List String) (others : List String := []) : Query :=
  ⟨template, values, t.focus :: others, kind, t.focus, t.path⟩

def component (m : GraphMode) (kind : Kind) (value : Value) : Component :=
  ⟨t.focus, t.path, kind.nameIn m, value⟩

/-! ## Values of the templates -/

/-- The values of the templates about a path without parameters. -/
def pathValues (prop : String) : List String := [t.focus, prop, t.focus, t.uid, prop, t.severity, prop]

/-- The values of the templates that report a bound on a path. -/
def boundValues (set prop lower upper : String) : List String :=
  [set, t.focus, prop, lower, upper, t.focus, t.uid, prop, prop, t.severity]

/-- The values of the templates about labels. -/
def labelValues (set : String) : List String := [set, t.focus, t.focus, t.uid, t.severity]

end Target

/-! ## Lists of IRIs -/

/-- A template and the parameter that it reads. -/
structure Reading where
  template : Template
  key : String

/-- A constraint that lists IRIs, on a property and on the type of the focus node, which may be kept in labels and
in nodes. -/
structure IriFacet where
  kind : Kind
  onPath : Reading
  inLabels : Reading
  inNodes : Reading

namespace IriFacet

def hasValue : IriFacet where
  kind := .hasValue
  onPath := ⟨.hasValueIri, "theHasValueUri"⟩
  inLabels := ⟨.hasValueTypeLabel, "theHasTypeTranslatedUris"⟩
  inNodes := ⟨.hasValueTypeEdge, "theHasTypeUris"⟩

def oneOf : IriFacet where
  kind := .oneOf
  onPath := ⟨.inIris, "theInUris"⟩
  inLabels := ⟨.inTypeLabel, "theInTypeTranslatedUris"⟩
  inNodes := ⟨.inTypeEdge, "theInTypeUris"⟩

variable (f : IriFacet) (n : Naming) (t : Target)

def set : String := t.paramSet f.kind.parameter

/-- The query that follows edges of the path. -/
def followed (r : Reading) (prop : String) (iris : List String) : Emission where
  queries := [t.query r.template f.kind (f.set t :: t.pathValues prop)]
  params := [⟨f.set t, r.key, .strings iris⟩]

/-- The query on labels. -/
def labelled (names : List String) : Emission where
  queries := [t.query f.inLabels.template f.kind (t.labelValues (f.set t))]
  params := [⟨f.set t, f.inLabels.key, .strings names⟩]

def listed (shown : List String) : Emission where
  components := [t.component n.graphMode f.kind (.strings shown)]

/-- Labels are listed by their names. -/
def emitOnType (prop : String) (iris : List String) : Except NamingError Emission := do
  let onNodes := if n.typesAsNodes then f.followed t f.inNodes prop iris else {}
  if n.typesAsLabels then
    let names ← n.names iris
    return f.labelled t names ++ onNodes ++ f.listed n t names
  return onNodes ++ f.listed n t iris

def emit (prop : String) (iris : List String) : Except NamingError Emission :=
  if t.header.isOnType then f.emitOnType n t prop iris
  else .ok (f.followed t f.onPath prop iris ++ f.listed n t iris)

end IriFacet

/-! ## Counts -/

/-- A bound on the number of values. -/
structure CountFacet where
  kind : Kind
  key : String
  bound : String
  /-- The bound is written before the count. -/
  isLower : Bool
  onPath : Template
  onInverse : Template
  inLabels : Template
  inNodes : Template

namespace CountFacet

def minCount : CountFacet where
  kind := .minCount
  key := "minCount"
  bound := " toInteger(params.minCount) <= "
  isLower := true
  onPath := .minCount
  onInverse := .minCountInverse
  inLabels := .minCountTypeLabel
  inNodes := .minCountTypeEdge

def maxCount : CountFacet where
  kind := .maxCount
  key := "maxCount"
  bound := " <= toInteger(params.maxCount) "
  isLower := false
  onPath := .maxCount
  onInverse := .maxCountInverse
  inLabels := .maxCountTypeLabel
  inNodes := .maxCountTypeEdge

variable (f : CountFacet) (n : Naming) (t : Target)

/-- The values of a template: what is counted, on its side of the bound, and what is reported. -/
def values (counted reported : List String) : List String :=
  [t.paramSet f.kind.parameter, t.focus] ++ (if f.isLower then f.bound :: counted else counted ++ [f.bound]) ++
  [t.focus, t.uid] ++ reported ++ [t.severity]

def queries (prop : String) : List Query :=
  if t.header.isInverse then [t.query f.onInverse f.kind (f.values t [prop] [prop, prop])]
  else if t.header.isOnType then
    (if n.typesAsLabels then [t.query f.inLabels f.kind (f.values t [] [prop])] else []) ++
    (if n.typesAsNodes then [t.query f.inNodes f.kind (f.values t [prop] [prop, prop])] else [])
  else [t.query f.onPath f.kind (f.values t [prop, prop] [prop, prop, prop])]

def emit (prop : String) (count : Int64) : Emission where
  queries := f.queries n t prop
  params := [⟨t.paramSet f.kind.parameter, f.key, .int count.toInt⟩]
  components := [t.component n.graphMode f.kind (.int count.toInt)]

end CountFacet

namespace Target

variable (n : Naming) (t : Target)

/-! ## Constraints on a path -/

/-- Terms of the standard vocabularies are listed by their IRI or by their local name. -/
def termName (iri : String) : Value :=
  match n.graphMode with
  | .rdf => .string iri
  | .lpg => .string (Iri.localNameOf iri)

def emitDatatype (prop iri : String) : Emission :=
  let cast := (castOf? iri).getD ("", "")
  { queries :=
      [t.query .datatype .datatype
        [t.focus, prop, cast.1, cast.2, t.focus, t.uid, prop, prop, t.severity, iri],
      t.query .datatypeOnRelationship .datatype (t.pathValues prop)]
    components := [t.component n.graphMode .datatype (termName n iri)] }

/-- The template that checks a node kind. The others are only listed. -/
def nodeKindTemplate? : NodeKind → Option Template
  | .literal => some .literalNodeKind
  | .blankNodeOrIri => some .iriNodeKind
  | _ => none

def emitNodeKind (prop : String) (k : NodeKind) : Emission where
  queries := ((nodeKindTemplate? k).map fun template => t.query template .nodeKind (t.pathValues prop)).toList
  components := [t.component n.graphMode .nodeKind (termName n k.term)]

def emitClass (prop iri : String) : Except NamingError Emission := do
  let range ← n.name iri
  return {
    queries :=
      [t.query .classOf .classOf [t.focus, prop, range, t.focus, t.uid, prop, t.severity, range] [range],
      t.query .classOnProperty .classOf (t.pathValues prop) [range]]
    components := [t.component n.graphMode .classOf (.string range)] }

def emitLiterals (template : Template) (kind : Kind) (key prop : String) (literals : List String) : Emission where
  queries := [t.query template kind (t.paramSet kind.parameter :: t.pathValues prop)]
  params := [⟨t.paramSet kind.parameter, key, .strings literals⟩]
  components := [t.component n.graphMode kind (.strings literals)]

def emitPattern (prop regex : String) : Emission where
  queries :=
    [t.query .pattern .pattern
      [t.paramSet Kind.pattern.parameter, t.focus, prop, prop, t.focus, t.uid, prop, t.severity]]
  params := [⟨t.paramSet Kind.pattern.parameter, "theRegex", .string regex⟩]
  components := [t.component n.graphMode .pattern (.string regex)]

/-- Both ends of a length are parameters of one set; one that is absent is null. -/
def emitLength (prop : String) (min max : Option Int64) : Emission :=
  let set := t.paramSet Kind.minLength.parameter
  let lower := if min.isSome then " params.minStrLen <= " else ""
  let upper := if max.isSome then " <= params.maxStrLen " else ""
  let kind := if min.isSome then Kind.minLength else .maxLength
  let number (n : Int64) : Value := .int n.toInt
  { queries := [t.query .length kind (t.boundValues set prop lower upper)]
    params := [⟨set, "minStrLen", .ofOption number min⟩, ⟨set, "maxStrLen", .ofOption number max⟩]
    components :=
      (min.map fun v => t.component n.graphMode .minLength (number v)).toList ++
      (max.map fun v => t.component n.graphMode .maxLength (number v)).toList }

def lowerTest : Option Bound → String
  | none => ""
  | some b => if b.inclusive then " params.min <=" else " params.min < "

def upperTest : Option Bound → String
  | none => ""
  | some b => if b.inclusive then " <= params.max " else " < params.max "

/-- The query goes by the first bound; every bound is listed. -/
def emitRange (prop : String) (r : ValueRange) : Emission :=
  match r.bounds with
  | [] => {}
  | (kind, first) :: others =>
    let set := t.paramSet Kind.minExclusive.parameter
    let number (b : Bound) : Value := .number b.value
    { queries :=
        [t.query .valueRange kind (t.boundValues set prop (lowerTest r.lower?) (upperTest r.upper?))]
      params := [⟨set, "min", .ofOption number r.lower?⟩, ⟨set, "max", .ofOption number r.upper?⟩]
      components :=
        ((kind, first) :: others).map fun b => t.component n.graphMode b.1 (.number b.2) }

/-- Nodes must have IRIs for the values of a property to be compared with IRIs. -/
def emitHasValueIris (prop : String) (iris : List String) : Except NamingError Emission :=
  if !t.header.isOnType && n.config.isNone then .ok {} else IriFacet.hasValue.emit n t prop iris

/-- What a constraint on the path contributes. -/
def emitOnPath (prop : String) : Constraint → Except NamingError Emission
  | .datatype iri => .ok (t.emitDatatype n prop iri)
  | .hasValueIris iris => t.emitHasValueIris n prop iris
  | .hasValueLiterals literals =>
    .ok (t.emitLiterals n .hasValueLiteral .hasValue "theHasValueLiteral" prop literals)
  | .nodeKind k => .ok (t.emitNodeKind n prop k)
  | .classOf iri => t.emitClass n prop iri
  | .inLiterals literals => .ok (t.emitLiterals n .inLiterals .oneOf "theInLiterals" prop literals)
  | .inIris iris => IriFacet.oneOf.emit n t prop iris
  | .pattern regex => .ok (t.emitPattern n prop regex)
  | .minCount count => .ok (CountFacet.minCount.emit n t prop count)
  | .maxCount count => .ok (CountFacet.maxCount.emit n t prop count)
  | .length min max => .ok (t.emitLength n prop min max)
  | .range r => .ok (t.emitRange n prop r)
  | .closed _ _ => .ok {}
  | .disjoint _ => .ok {}
  | .requiredClasses _ => .ok {}

/-! ## Constraints on the focus node -/

/-- The type property is allowed where types are nodes. -/
def emitClosed (defined ignored : List String) : Except NamingError Emission := do
  let types ← n.names (if n.typesAsNodes then [Rdf.type] else [])
  let ignored ← n.names ignored
  let defined ← n.names defined
  let set := t.paramSet Sh.closed
  return {
    queries := [t.query .closed .ignoredProperties [set, t.focus, t.focus, t.uid, Sh.violation]]
    params := [⟨set, "allAllowedProps", .strings (types ++ ignored ++ defined)⟩]
    components := [t.component n.graphMode .ignoredProperties (.strings ignored)] }

def emitDisjoint (classes : List String) : Except NamingError Emission := do
  let classes ← n.names classes
  return {
    queries := classes.map fun c =>
      t.query .disjoint .negation [t.focus, c, t.focus, t.uid, c, Sh.violation, c] [c]
    components := classes.map fun c => t.component n.graphMode .negation (.string c) }

/-! ## Records -/

/-- The constraints that are compiled on the type property. -/
def allowedOnType : Constraint → Bool
  | .hasValueIris _ => true
  | .inIris _ => true
  | .minCount _ => true
  | .maxCount _ => true
  | _ => false

/-- Required classes are not compiled, and neither is a constraint on the path of a shape that has none. -/
def emit : Constraint → Except NamingError Emission
  | .closed defined ignored => t.emitClosed n defined ignored
  | .disjoint classes => t.emitDisjoint n classes
  | .requiredClasses _ => .ok {}
  | c =>
    match t.path with
    | none => .ok {}
    | some prop => if t.header.isOnType && !allowedOnType c then .ok {} else t.emitOnPath n prop c

end Target

namespace Naming

variable (n : Naming)

def target (h : Header) : Except NamingError Target := do
  let focus ← n.name h.focusClass
  let path ← h.path.mapM fun p => n.name p.iri
  return ⟨h, focus, path⟩

def emitSet (s : ConstraintSet) : Except NamingError Emission := do
  let t ← n.target s.header
  return Emission.join (← s.constraints.mapM (t.emit n))

/-- Records without a target class contribute nothing. -/
def emitRecord (r : Record) : Except NamingError Emission :=
  match r.constraintSet? with
  | none => .ok {}
  | some s => n.emitSet s

def emitRecords (rs : List Record) : Except NamingError Emission := return Emission.join (← rs.mapM n.emitRecord)

def compile (rs : List Record) : Except NamingError Plan :=
  return (← n.emitRecords rs).plan (Context.ofConfig n.config)

end Naming

end ShapePlan
