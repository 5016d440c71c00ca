/-
The records of a shapes graph: one for each property shape and target class, one for each closed node shape and target
class, and one for each node shape with class constraints and target class. Each group is in the order of the node
shapes, then of the property shapes, then of the target classes, so the order of the triples does not matter.
-/
import ShapePlan.Shapes.Facet

namespace ShapePlan.Graph

variable (g : Graph)

/-- The subjects that have one of the types. -/
def typed (types : List String) : List Node :=
  Node.sort (types.flatMap fun t => g.subjects Rdf.type (.node (.iri t)))

/-! ## Property shapes -/

/-- The property shapes of a node shape, also those of the node shapes that it refers to. -/
def propertyShapes (n : Node) : List Term :=
  Term.sort (g.objects n Sh.property ++ (g.objects n Sh.node).flatMap fun m => g.values m Sh.property)

/-- The path of a property shape and whether it is inverse. Other paths than these have no result. -/
def path? (shape : Term) : Option (String × Bool) :=
  match (Term.sort (g.values shape Sh.path)).head? with
  | some (.node (.iri s)) => some (s, false)
  | some (.node (.blank b)) => (g.iris (.node (.blank b)) Sh.inversePath).elems.head?.map ((·, true))
  | _ => none

/-- The target classes of a node shape, and the classes that have the property shape themselves. -/
def targets (n : Node) (shape : Term) : List String :=
  let classes := (g.subjects Sh.property shape).filter g.isClass
  (NameSet.ofList ((g.iris (.node n) Sh.targetClass).elems ++ classes.filterMap fun c => Term.iri? (.node c))).elems

/-- A property shape with a target class and the record of both. -/
structure TargetedShape where
  shape : Term
  target : String
  record : Record
deriving DecidableEq, Repr

/-- What a node shape says about a property shape. -/
def targetsOf (n : Node) (shape : Term) : List TargetedShape :=
  match g.path? shape with
  | none => []
  | some (path, inverse) =>
    (g.targets n shape).map fun c =>
      ⟨shape, c, { g.facets shape with path := some path, inverse, targetClass := some c }⟩

def TargetedShape.key (t : TargetedShape) : Term × String := (t.shape, t.target)

/-- The first of each key that is not among the keys seen already. -/
def firstOfEach (seen : List (Term × String)) : List TargetedShape → List TargetedShape
  | [] => []
  | t :: r => if t.key ∈ seen then firstOfEach seen r else t :: firstOfEach (t.key :: seen) r

def propertyRecords : List Record :=
  (firstOfEach []
    ((g.typed [Sh.nodeShape, Sh.shape]).flatMap fun n =>
      (g.propertyShapes n).flatMap (g.targetsOf n))).map (·.record)

/-! ## Node shapes -/

/-- The target classes of a node shape, and the shape itself if it is a class. -/
def nodeTargets (n : Node) : List String :=
  (NameSet.ofList ((g.iris (.node n) Sh.targetClass).elems ++
    if g.isClass n then (Term.iri? (.node n)).toList else [])).elems

def isClosed (n : Node) : Bool := (g.objects n Sh.closed).contains (.literal (.typed "true" Xsd.boolean))

/-- The paths of a node shape's own property shapes. -/
def definedProps (n : Node) : List String :=
  (NameSet.ofList ((g.objects n Sh.property).flatMap fun shape => (g.iris shape Sh.path).elems)).elems

def ignoredProps (n : Node) : List String :=
  (((g.objects n Sh.ignoredProperties).flatMap g.members).filterMap Term.iri?).eraseDups

def closedRecord (n : Node) (target : String) : Record where
  targetClass := some target
  constraintType := some Record.closedDefinition
  nodeShape := some (Term.uid (.node n))
  definedProps := some (g.definedProps n)
  ignoredProps := some (g.ignoredProps n)

def closedRecords : List Record :=
  ((g.typed [Sh.nodeShape]).filter g.isClosed).flatMap fun n => (g.nodeTargets n).map (g.closedRecord n)

def requiredClasses (n : Node) : List String := (g.iris (.node n) Sh.classOf).elems

def disjointClasses (n : Node) : List String :=
  (NameSet.ofList ((g.objects n Sh.negation).flatMap fun shape => (g.iris shape Sh.classOf).elems)).elems

def hasClasses (n : Node) : Bool := !(g.requiredClasses n).isEmpty || !(g.disjointClasses n).isEmpty

def classRecord (n : Node) (target : String) : Record where
  targetClass := some target
  nodeShape := some (Term.uid (.node n))
  requiredClasses := nonempty? (g.requiredClasses n)
  disjointClasses := nonempty? (g.disjointClasses n)

def classRecords : List Record :=
  ((g.typed [Sh.nodeShape]).filter g.hasClasses).flatMap fun n => (g.nodeTargets n).map (g.classRecord n)

def records : List Record := g.propertyRecords ++ g.closedRecords ++ g.classRecords

end ShapePlan.Graph
