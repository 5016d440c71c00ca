/-
Documents made of lines: every line is empty or is one statement, which has a subject, a predicate, an object, in some
documents a graph name, and a dot. IRIs are written in full.
-/
import ShapePlan.Document.Statement
import ShapePlan.Document.Token

namespace ShapePlan.Document.Line

/-- An IRI is absolute, unless reading is lenient. -/
def iri? (lenient : Bool) (raw : List Char) : Option String :=
  let s := String.ofList raw
  if lenient || Iri.isAbsolute s then some s else none

def node? (lenient : Bool) : Token → Option Node
  | .iri raw => (iri? lenient raw).map .iri
  | .blank label => some (.blank label)
  | _ => none

/-- A literal with a datatype. The datatype of tagged literals is for them alone, unless reading is lenient. -/
def typed? (lenient : Bool) (lexical datatype : String) : Option Literal :=
  if !lenient && datatype = Rdf.langString then none else some (.ofDatatype lexical datatype)

/-- The object and what follows it. -/
def object? (lenient : Bool) : List Token → Option (Term × List Token)
  | .string s :: .tag tag :: r => some (.literal (.tagged s tag.toLower), r)
  | .string s :: .carets :: .iri raw :: r => do
    let l ← typed? lenient s (← iri? lenient raw)
    return (.literal l, r)
  | .string s :: r => some (.literal (.plain s), r)
  | t :: r => (node? lenient t).map fun n => (.node n, r)
  | [] => none

/-- The graph name, if there is one, and the dot. -/
def graph? (lenient named : Bool) : List Token → Option GraphName
  | [.mark '.'] => some .default
  | [t, .mark '.'] => if named then (node? lenient t).map .named else none
  | _ => none

def quad? (lenient named : Bool) : List Token → Option Quad
  | subject :: .iri raw :: r => do
    let s ← node? lenient subject
    let p ← iri? lenient raw
    let (o, r) ← object? lenient r
    return ⟨⟨s, p, o⟩, ← graph? lenient named r⟩
  | _ => none

/-- The tokens of each line. -/
def split : List Token → List (List Token)
  | [] => [[]]
  | .lineEnd :: r => [] :: split r
  | t :: r =>
    match split r with
    | l :: ls => (t :: l) :: ls
    | [] => [[t]]

/-- The quads of a document, whose statements may have graph names if `named`. -/
def quads? (lenient named : Bool) (text : String) : Option (List Quad) := do
  let tokens ← scan? ⟨lenient, true⟩ text
  ((split tokens).filter (· ≠ [])).mapM (quad? lenient named)

end ShapePlan.Document.Line
