/-
Emissions: what constraints contribute to a plan before its queries are numbered and rendered. Emissions are joined
in order, and a plan is made of the whole; a parameter that is set again takes the later value.
-/
import ShapePlan.Plan.Basic

namespace ShapePlan

/-- A template with its values. -/
structure Query where
  template : Template
  values : List String
  triggers : List String
  kind : Kind
  focusLabel : String
  path : Option String
deriving DecidableEq, Repr

namespace Query

def idOf (n : Nat) : String := "Q_" ++ n.repr

def entry (q : Query) (c : Context) (n : Nat) : Entry where
  id := idOf n
  global := q.template.render c .global q.values
  touched := q.template.render c .touched q.values
  triggers := q.triggers
  kind := q.kind
  focusLabel := q.focusLabel
  path := q.path

end Query

/-- A value in a parameter set. -/
structure Param where
  set : String
  key : String
  value : Value
deriving DecidableEq, Repr

def Param.assign (d : ParamSets) (p : Param) : ParamSets :=
  d.insert p.set (((d.get? p.set).getD .empty).insert p.key p.value)

structure Emission where
  queries : List Query := []
  params : List Param := []
  components : List Component := []
deriving DecidableEq, Repr

namespace Emission

instance : Append Emission where
  append a b := ⟨a.queries ++ b.queries, a.params ++ b.params, a.components ++ b.components⟩

/-- All emissions in order. -/
def join (es : List Emission) : Emission := es.foldr (· ++ ·) {}

/-- The queries are numbered from one. -/
def plan (e : Emission) (c : Context) : Plan where
  entries := (e.queries.zipIdx 1).map fun q => q.1.entry c q.2
  params := e.params.foldl Param.assign .empty
  inventory := e.components

end Emission

end ShapePlan
