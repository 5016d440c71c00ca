/-
Documents with declarations and abbreviations: prefixes and a base for IRIs, several properties of one subject, several
objects of one property, brackets for blank nodes and parentheses for lists. In some documents statements may stand in
blocks, which are graphs with a name or without.
-/
import ShapePlan.Document.Line
import ShapePlan.Iri.Resolve
import ShapePlan.Dict

namespace ShapePlan.Document.Terse

/-! ## Names -/

/-- What has been declared so far. -/
structure Declarations where
  lenient : Bool
  base : String
  prefixes : SortedDict String := .empty

namespace Declarations

variable (s : Declarations)

/-- IRIs are resolved against the base. -/
def iri? (raw : List Char) : Option String :=
  if s.lenient then some (Iri.resolveAny s.base raw) else Iri.resolve? s.base raw

/-- A prefixed name is the IRI of its prefix followed by its local part. It must be an IRI if it is doubtful, or if the
local part may reach into the authority. -/
def name? (label loc : String) (doubtful : Bool) : Option String := do
  let start ← s.prefixes.get? label
  let iri := start ++ loc
  if (!doubtful && (Iri.split start.toList).path ≠ []) || Iri.isAbsolute iri then some iri else none

/-- The IRI that a token stands for. -/
def named? : Token → Option String
  | .iri raw => s.iri? raw
  | .name label loc doubtful => s.name? label loc doubtful
  | _ => none

def node? : Token → Option Node
  | .blank label => some (.blank label)
  | t => (s.named? t).map .iri

end Declarations

/-! ## Terms and properties -/

variable (s : Declarations)

/-- What a string is, by what follows it. -/
def literal? (lexical : String) : List Token → Option (Written × List Token)
  | .tag tag :: r => some (.term (.literal (.tagged lexical tag.toLower)) (r.length + 1), r)
  | .carets :: t :: r => do
    let l ← Line.typed? s.lenient lexical (← s.named? t)
    return (.term (.literal l) (r.length + 1), r)
  | [.carets] => none
  | r => some (.term (.literal (.plain lexical)) r.length, r)

def verb? : List Token → Option (String × List Token)
  | .word w :: r => if w = "a" then some (Rdf.type, r) else none
  | t :: r => (s.named? t).map ((·, r))
  | [] => none

def isBoolean (w : String) : Bool := w = "true" || w = "false"

/-- The tokens before which a list of properties may end after a semicolon. -/
def closes : List Token → Bool
  | .mark c :: _ => c = '.' || c = ']' || c = '}'
  | _ => false

mutual

def object? : Nat → List Token → Option (Written × List Token)
  | 0, _ => none
  | fuel + 1, ts =>
    match ts with
    | .mark '[' :: .mark ']' :: r => some (.brackets [] (r.length + 1), r)
    | .mark '[' :: r => do
      let (properties, r) ← properties? fuel r
      match r with
      | .mark ']' :: r => return (.brackets properties (r.length + 1), r)
      | _ => none
    | .mark '(' :: r => do
      let (members, r) ← members? fuel r
      return (.list members (r.length + 1), r)
    | .string lexical :: r => literal? s lexical r
    | .number lexical datatype :: r => some (.term (.literal (.ofDatatype lexical datatype)) ts.length, r)
    | .word w :: r => if isBoolean w then some (.term (.literal (.ofDatatype w Xsd.boolean)) ts.length, r) else none
    | t :: r => (s.node? t).map fun n => (.term (.node n) ts.length, r)
    | [] => none

/-- The members of a list and its closing parenthesis. -/
def members? : Nat → List Token → Option (List (Position × Written) × List Token)
  | 0, _ => none
  | fuel + 1, ts =>
    match ts with
    | .mark ')' :: r => some ([], r)
    | ts => do
      let (m, r) ← object? fuel ts
      let (ms, r) ← members? fuel r
      return ((ts.length, m) :: ms, r)

/-- One or more objects with commas between them. -/
def objects? : Nat → List Token → Option (List Written × List Token)
  | 0, _ => none
  | fuel + 1, ts => do
    let (o, r) ← object? fuel ts
    match r with
    | .mark ',' :: r =>
      let (os, r) ← objects? fuel r
      return (o :: os, r)
    | r => return ([o], r)

/-- One or more properties with semicolons between them, and perhaps after them. -/
def properties? : Nat → List Token → Option (List (String × Written) × List Token)
  | 0, _ => none
  | fuel + 1, ts => do
    let (p, r) ← verb? s ts
    let (os, r) ← objects? fuel r
    let own := os.map ((p, ·))
    match r with
    | .mark ';' :: r =>
      let r := r.dropWhile (· = .mark ';')
      if closes r then return (own, r)
      else
        let (ps, r) ← properties? fuel r
        return (own ++ ps, r)
    | r => return (own, r)

end

/-! ## Statements -/

/-- A bound on the steps that the tokens allow. -/
def steps (ts : List Token) : Nat := 4 * ts.length + 4

/-- A subject and its properties. Only brackets with properties inside may have none outside. -/
def statement? (graph : GraphName) (ts : List Token) : Option (Statement × List Token) :=
  let fuel := steps ts
  let withProperties (subject : Written) (r : List Token) : Option (Statement × List Token) := do
    let (ps, r) ← properties? s fuel r
    return (⟨subject, ps, graph⟩, r)
  match ts with
  | .mark '[' :: .mark ']' :: r => withProperties (.brackets [] (r.length + 1)) r
  | .mark '[' :: r => do
    let (inner, r) ← properties? s fuel r
    match r with
    | .mark ']' :: r =>
      let subject : Written := .brackets inner (r.length + 1)
      if closes r then return (⟨subject, [], graph⟩, r) else withProperties subject r
    | _ => none
  | .mark '(' :: r => do
    let (members, r) ← members? s fuel r
    withProperties (.list members (r.length + 1)) r
  | t :: r => do
    let n ← s.node? t
    withProperties (.term (.node n) ts.length) r
  | [] => none

/-- The statements of a block and its closing brace. Dots stand between them, and perhaps after them. -/
def block? (graph : GraphName) : Nat → List Token → Option (List Statement × List Token)
  | 0, _ => none
  | fuel + 1, ts =>
    match ts with
    | .mark '}' :: r => some ([], r)
    | ts => do
      let (st, r) ← statement? s graph ts
      match r with
      | .mark '}' :: r => return ([st], r)
      | .mark '.' :: r =>
        let (sts, r) ← block? graph fuel r
        return (st :: sts, r)
      | _ => none

/-- The name of a graph and the opening brace after it. -/
def graphName? : List Token → Option (GraphName × List Token)
  | .mark '[' :: .mark ']' :: .mark '{' :: r => some (.anonymous, r)
  | t :: .mark '{' :: r => (s.node? t).map fun n => (.named n, r)
  | _ => none

/-- The graph of a block that starts here, and what follows the opening brace. -/
def blockStart? : List Token → Option (GraphName × List Token)
  | .mark '{' :: r => some (.default, r)
  | ts => graphName? s ts

/-! ## Declarations -/

/-- A prefix and its IRI. -/
def declarePrefix? : List Token → Option (Declarations × List Token)
  | .name label "" _ :: .iri raw :: r => do
    let iri ← s.iri? raw
    return ({ s with prefixes := s.prefixes.insert label iri }, r)
  | _ => none

def declareBase? : List Token → Option (Declarations × List Token)
  | .iri raw :: r => do
    let iri ← s.iri? raw
    return ({ s with base := iri }, r)
  | _ => none

/-- Declarations that start with an at sign end with a dot. -/
def dotted? : Option (Declarations × List Token) → Option (Declarations × List Token)
  | some (s, .mark '.' :: r) => some (s, r)
  | _ => none

/-- A declaration in either of its two forms. -/
def declaration? : List Token → Option (Declarations × List Token)
  | .tag tag :: r =>
    if tag = "prefix" then dotted? (declarePrefix? s r)
    else if tag = "base" then dotted? (declareBase? s r)
    else none
  | .word w :: r =>
    if w.toLower = "prefix" then declarePrefix? s r
    else if w.toLower = "base" then declareBase? s r
    else none
  | _ => none

/-! ## Documents -/

/-- What comes next in a document: the declarations after it, its statements, and what follows. -/
def next? (blocks : Bool) (ts : List Token) : Option (Declarations × List Statement × List Token) :=
  let block (start : Option (GraphName × List Token)) : Option (Declarations × List Statement × List Token) := do
    let (graph, r) ← start
    let (sts, r) ← block? s graph (steps r) r
    return (s, sts, r)
  let isGraph (w : String) : Bool := blocks && w.toLower = "graph"
  match ts with
  | .tag _ :: _ => (declaration? s ts).map fun d => (d.1, [], d.2)
  | .word w :: r =>
    if isGraph w then block (graphName? s r) else (declaration? s ts).map fun d => (d.1, [], d.2)
  | ts =>
    if blocks && (blockStart? s ts).isSome then block (blockStart? s ts)
    else
      match statement? s .default ts with
      | some (st, .mark '.' :: r) => some (s, [st], r)
      | _ => none

def statementsFrom? (blocks : Bool) : Nat → Declarations → List Token → Option (List Statement)
  | 0, _, _ => none
  | _ + 1, _, [] => some []
  | fuel + 1, s, ts => do
    let (s, sts, r) ← next? s blocks ts
    return sts ++ (← statementsFrom? blocks fuel s r)

/-- The quads of a document, whose statements may stand in blocks if `blocks`. -/
def quads? (lenient blocks : Bool) (base text : String) : Option (List Quad) := do
  let tokens ← scan? ⟨lenient, false⟩ text
  let statements ← statementsFrom? blocks (tokens.length + 1) { lenient, base } tokens
  return quads statements

end ShapePlan.Document.Terse
