/-
The terms of graphs. A literal is plain, or has a language tag, or has a datatype other than that of plain strings.
Every term has a text, and terms are put in order by their texts.
-/
import ShapePlan.Ascending
import ShapePlan.Value.Printer
import ShapePlan.Vocabulary

namespace ShapePlan

/-- What can be the subject of a triple. -/
inductive Node where
  | iri (s : String)
  | blank (label : String)
deriving DecidableEq, Repr

inductive Literal where
  | plain (lexical : String)
  | tagged (lexical tag : String)
  | typed (lexical datatype : String)
deriving DecidableEq, Repr

inductive Term where
  | node (n : Node)
  | literal (l : Literal)
deriving DecidableEq, Repr

/-! ## Literals -/

namespace Literal

/-- A literal with the datatype of strings is plain. -/
def ofDatatype (lexical datatype : String) : Literal :=
  if datatype = Xsd.string then .plain lexical else .typed lexical datatype

def lexical : Literal → String
  | .plain s => s
  | .tagged s _ => s
  | .typed s _ => s

def datatype : Literal → String
  | .plain _ => Xsd.string
  | .tagged _ _ => Rdf.langString
  | .typed _ d => d

end Literal

/-! ## Texts -/

/-- Four hexadecimal digits in upper case. -/
def hex4 (n : Nat) : List Char :=
  [n / 4096 % 16, n / 256 % 16, n / 16 % 16, n % 16].map fun d => (hexDigit d).toUpper

/-- A character inside the quotes of a literal. -/
def escapeChar (c : Char) : List Char :=
  if c = Char.ofNat 8 then ['\\', 'b']
  else if c = '\t' then ['\\', 't']
  else if c = '\n' then ['\\', 'n']
  else if c = Char.ofNat 12 then ['\\', 'f']
  else if c = '\r' then ['\\', 'r']
  else if c = '"' then ['\\', '"']
  else if c = '\\' then ['\\', '\\']
  else if c.toNat < 0x20 ∨ c.toNat = 0x7F ∨ c.toNat = 0xFFFE ∨ c.toNat = 0xFFFF then '\\' :: 'u' :: hex4 c.toNat
  else [c]

def quoteLexical (s : String) : String := String.ofList ('"' :: s.toList.flatMap escapeChar ++ ['"'])

def bracket (iri : String) : String := "<" ++ iri ++ ">"

def Node.text : Node → String
  | .iri s => bracket s
  | .blank label => "_:" ++ label

def Literal.text : Literal → String
  | .plain s => quoteLexical s
  | .tagged s tag => quoteLexical s ++ "@" ++ tag
  | .typed s d => quoteLexical s ++ "^^" ++ bracket d

namespace Term

def text : Term → String
  | .node n => n.text
  | .literal l => l.text

def iri? : Term → Option String
  | .node (.iri s) => some s
  | _ => none

def literal? : Term → Option Literal
  | .literal l => some l
  | _ => none

/-- The IRI or the lexical form. Blank nodes have no value. -/
def value? : Term → Option String
  | .node (.iri s) => some s
  | .node (.blank _) => none
  | .literal l => some l.lexical

/-- The name by which records refer to a shape. -/
def uid : Term → String
  | .node (.iri s) => s
  | .node (.blank label) => "bnode://id/" ++ label
  | .literal l => l.text

/-- In the order of their texts, each once. -/
def sort (ts : List Term) : List Term := Ascending.ofList text ts

end Term

/-- In the order of their texts, each once. -/
def Node.sort (ns : List Node) : List Node := Ascending.ofList text ns

end ShapePlan
