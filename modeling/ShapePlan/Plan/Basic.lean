/-
Validation plans: numbered queries, the parameter sets that they read, and an inventory of the constraints that were
compiled.
-/
import ShapePlan.Constraint
import ShapePlan.Query.Template

namespace ShapePlan

/-- A query for the violations of one constraint. -/
structure Entry where
  id : String
  global : String
  touched : String
  /-- The labels whose nodes can change the answer. -/
  triggers : List String
  kind : Kind
  focusLabel : String
  /-- Queries about nodes have no path. -/
  path : Option String
deriving DecidableEq, Repr

def Entry.query (e : Entry) : Scope → String
  | .global => e.global
  | .touched => e.touched

/-- A constraint as the inventory lists it. -/
structure Component where
  focusLabel : String
  path : Option String
  kind : String
  value : Value
deriving DecidableEq, Repr

/-- Parameter sets by their ids, each with its values by their keys. -/
abbrev ParamSets := SortedDict (SortedDict Value)

structure Plan where
  entries : List Entry := []
  params : ParamSets := .empty
  inventory : List Component := []
deriving DecidableEq, Repr

namespace Plan

def isEmpty (p : Plan) : Bool := p.entries.isEmpty

/-- The first entry of an id. -/
def entry? (p : Plan) (id : String) : Option Entry := p.entries.find? (·.id = id)

/-- All queries as one. -/
def union (p : Plan) (s : Scope) : String := String.intercalate " UNION " (p.entries.map (·.query s))

/-- The entries with a trigger among the labels. -/
def triggeredBy (p : Plan) (labels : List String) : List Entry :=
  p.entries.filter fun e => e.triggers.any labels.contains

end Plan

end ShapePlan
