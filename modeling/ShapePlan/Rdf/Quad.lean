/-
Triples as a document gives them, each in a graph of the document, and the one graph that they make. Graph names are
dropped, and blank nodes are numbered in the order in which they appear, so the labels that a document chose do not
matter.
-/
import ShapePlan.Rdf.Graph

namespace ShapePlan

inductive GraphName where
  | default
  | named (n : Node)
  | anonymous
deriving DecidableEq, Repr

structure Quad where
  triple : Triple
  graph : GraphName
deriving DecidableEq, Repr

/-! ## Numbering of blank nodes -/

/-- The label of the blank node with a number. -/
def numbered (i : Nat) : String := "b" ++ i.repr

/-- Labels are known in the order of their numbers, so a new one comes last. -/
def learn (known : List String) (label : String) : List String :=
  if label ∈ known then known else known ++ [label]

/-- A blank node gets the number of its label, which is the next one where the label is new. -/
def Node.number (known : List String) : Node → Node × List String
  | .blank label => (.blank (numbered (known.idxOf label)), learn known label)
  | .iri s => (.iri s, known)

def Term.number (known : List String) : Term → Term × List String
  | .node n => (.node (n.number known).1, (n.number known).2)
  | .literal l => (.literal l, known)

/-- The subject is numbered before the object. -/
def Triple.number (known : List String) (t : Triple) : Triple × List String :=
  let subject := t.subject.number known
  let object := t.object.number subject.2
  (⟨subject.1, t.predicate, object.1⟩, object.2)

/-! ## Graphs -/

/-- A graph of which some quads have been read, and the labels that they had. -/
structure Intake where
  graph : Graph := .ofList []
  known : List String := []
deriving DecidableEq, Repr

def Intake.add (i : Intake) (q : Quad) : Intake :=
  let t := q.triple.number i.known
  ⟨i.graph.insert t.1, t.2⟩

/-- All triples in one graph, with their blank nodes numbered. -/
def Graph.ofQuads (qs : List Quad) : Graph := (qs.foldl Intake.add {}).graph

end ShapePlan
