/-
The facets of a shape. A facet with several values takes the least one, numbers the least that can be read; lists keep
the order of their members, and every value once.
-/
import ShapePlan.Decimal.Lexical
import ShapePlan.Rdf.Graph
import ShapePlan.Record.Basic

namespace ShapePlan

/-- A list that has elements. -/
def nonempty? {α : Type} (l : List α) : Option (List α) := if l.isEmpty then none else some l

namespace Graph

variable (g : Graph) (shape : Term)

/-! ## Single values -/

/-- The least value. -/
def leastValue? (p : String) : Option String := (NameSet.ofList ((g.values shape p).filterMap Term.value?)).elems.head?

/-- The literals of a facet in the order of their lexical forms. -/
def literals (p : String) : List Literal :=
  ((g.values shape p).filterMap Term.literal?).mergeSort fun a b => a.lexical ≤ b.lexical

def integer? (p : String) : Option Int64 := (g.literals shape p).findSome? fun l => Decimal.integer? l.lexical

/-- Integer datatypes have integers, all others floats. -/
def numberOf? (l : Literal) : Option Number :=
  if l.datatype ∈ Xsd.integers then (Decimal.integer? l.lexical).map fun n => .int n.toInt
  else (Decimal.float? l.lexical).map .float

def number? (p : String) : Option Number := (g.literals shape p).findSome? numberOf?

/-! ## Lists -/

/-- The members of the first list that has any. -/
def allowedMembers : List Term :=
  (((g.values shape Sh.oneOf).map g.members).find? (! ·.isEmpty)).getD []

/-- The values of the members, each once. -/
def allowedValues : List String := ((g.allowedMembers shape).filterMap Term.value?).eraseDups

/-- The first member decides whether a list is one of literals. -/
def allowsLiterals : Bool := (g.allowedMembers shape).head?.any (·.literal?.isSome)

def allowsIris : Bool := (g.allowedMembers shape).head?.any (·.literal?.isNone)

/-! ## All facets of a property shape -/

def facets : Record where
  rangeClass := g.leastValue? shape Sh.classOf
  nodeKind := g.leastValue? shape Sh.nodeKind
  datatype := g.leastValue? shape Sh.datatype
  pattern := g.leastValue? shape Sh.pattern
  minCount := g.integer? shape Sh.minCount
  maxCount := g.integer? shape Sh.maxCount
  minInclusive := g.number? shape Sh.minInclusive
  minExclusive := g.number? shape Sh.minExclusive
  maxInclusive := g.number? shape Sh.maxInclusive
  maxExclusive := g.number? shape Sh.maxExclusive
  hasValueLiterals :=
    nonempty? (NameSet.ofList (((g.values shape Sh.hasValue).filterMap Term.literal?).map Literal.lexical)).elems
  hasValueIris := nonempty? (g.iris shape Sh.hasValue).elems
  inLiterals := if g.allowsLiterals shape then some (g.allowedValues shape) else none
  inIris := if g.allowsIris shape then some (g.allowedValues shape) else none
  minLength := g.integer? shape Sh.minLength
  maxLength := g.integer? shape Sh.maxLength
  propertyShape := some shape.uid
  severity := some ((g.leastValue? shape Sh.severity).getD Sh.violation)

end Graph

end ShapePlan
