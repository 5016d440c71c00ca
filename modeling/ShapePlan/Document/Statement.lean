/-
Statements as they are written: a subject and its properties, where brackets and parentheses stand for blank nodes and
lists, and the stream of triples that they mean. A triple is complete at one of the tokens: at the last token of its
object, at the token after a string that has neither tag nor datatype, and for the cells of a list where the next member
begins. The stream follows the tokens, and of several triples that one token completes the last one comes first.
-/
import ShapePlan.Rdf.Quad

namespace ShapePlan.Document

/-- A position in a document: how many tokens are left, the one that stands there included. -/
abbrev Position := Nat

/-- A term as it is written, with the positions at which its triples are complete. -/
inductive Written where
  | term (t : Term) (completed : Position)
  /-- A blank node with its properties in brackets. -/
  | brackets (properties : List (String × Written)) (closed : Position)
  /-- A list with its members in parentheses, each with the position where it begins. -/
  | list (members : List (Position × Written)) (closed : Position)
deriving Repr

structure Statement where
  subject : Written
  properties : List (String × Written)
  graph : GraphName
deriving Repr

/-! ## Triples in the order of the text -/

/-- Numbers the blank nodes that have no label. -/
abbrev Numbering := StateM Nat

/-- A blank node that no label of a document can name, since a label has no bracket. -/
def fresh : Numbering Node := do
  let n ← get
  set (n + 1)
  return .blank ("[" ++ n.repr)

/-- A triple and the position at which it is complete. -/
abbrev Completed := Position × Triple

def emptyList : Term := .node (.iri Rdf.nil)

mutual

/-- The triples of a property, with those that the object brings along. -/
def objectTriples (s : Node) (p : String) : Written → Numbering (List Completed)
  | .term t completed => return [(completed, ⟨s, p, t⟩)]
  | .brackets properties closed => do
    let x ← fresh
    let inner ← propertyTriples x properties
    return inner ++ [(closed, ⟨s, p, .node x⟩)]
  | .list members closed =>
    match members.head? with
    | none => return [(closed, ⟨s, p, emptyList⟩)]
    | some first => do
      let x ← fresh
      let cells ← cellTriples x closed members
      return (first.1, ⟨s, p, .node x⟩) :: cells

def propertyTriples (s : Node) : List (String × Written) → Numbering (List Completed)
  | [] => return []
  | (p, o) :: r => do
    let first ← objectTriples s p o
    let rest ← propertyTriples s r
    return first ++ rest

/-- The cells of a list, of which the first is `x`. -/
def cellTriples (x : Node) (closed : Position) : List (Position × Written) → Numbering (List Completed)
  | [] => return []
  | (_, m) :: ms => do
    let first ← objectTriples x Rdf.first m
    match ms.head? with
    | none => return first ++ [(closed, ⟨x, Rdf.rest, emptyList⟩)]
    | some next =>
      let y ← fresh
      let rest ← cellTriples y closed ms
      return first ++ (next.1, ⟨x, Rdf.rest, .node y⟩) :: rest

end

/-- The triples of a subject and its properties. A literal is no subject. -/
def Statement.completed (st : Statement) : Numbering (List Completed) :=
  match st.subject with
  | .term (.node n) _ => propertyTriples n st.properties
  | .term (.literal _) _ => return []
  | .brackets inner _ => do
    let x ← fresh
    propertyTriples x (inner ++ st.properties)
  | .list members closed =>
    if members.isEmpty then propertyTriples (.iri Rdf.nil) st.properties
    else do
      let x ← fresh
      let cells ← cellTriples x closed members
      let rest ← propertyTriples x st.properties
      return cells ++ rest

/-! ## The stream -/

/-- Of the triples that are complete at one position, the last one comes first. -/
def stream (ts : List Completed) : List Triple := (ts.splitBy (·.1 == ·.1)).flatMap fun g => g.reverse.map (·.2)

def Statement.quads (st : Statement) : Numbering (List Quad) :=
  return (stream (← st.completed)).map (⟨·, st.graph⟩)

/-- The triples of all statements, in order. -/
def quads (sts : List Statement) : List Quad := ((sts.mapM Statement.quads).run 0).1.flatten

end ShapePlan.Document
