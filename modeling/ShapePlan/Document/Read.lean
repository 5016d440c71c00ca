/-
Reading a document into a graph. The base is checked before anything is read, and a document is taken as a whole or not
at all.
-/
import ShapePlan.Document.Terse
import ShapePlan.Config.Basic

namespace ShapePlan

inductive Format where
  | turtle
  | trig
  | ntriples
  | nquads
deriving DecidableEq, Repr

/-- The formats in which IRIs may be relative. -/
def Format.hasBase : Format → Bool
  | .turtle => true
  | .trig => true
  | _ => false

inductive ReadError where
  | invalidBase
  | malformed
  /-- The source failed. -/
  | source (text : String)
deriving DecidableEq, Repr

structure ReadOptions where
  /-- IRIs and language tags are checked. -/
  verify : Bool := true
  base : String := "http://neo4j.com/base/"
deriving DecidableEq, Repr

/-- The options in a bag. Values of the wrong kind are passed over. -/
def ReadOptions.ofBag (b : Bag) : ReadOptions where
  verify := (b.get? "verifyUriSyntax" >>= Value.bool?).getD true
  base := (b.string? "baseIri").getD ({} : ReadOptions).base

/-- A text, and the failure with which its source ends if it fails. -/
structure Source where
  text : String
  failure : Option String := none
deriving DecidableEq, Repr

namespace Source

variable (o : ReadOptions) (f : Format) (src : Source)

def quads? : Option (List Quad) :=
  match f with
  | .turtle => Document.Terse.quads? (!o.verify) false o.base src.text
  | .trig => Document.Terse.quads? (!o.verify) true o.base src.text
  | .ntriples => Document.Line.quads? (!o.verify) false src.text
  | .nquads => Document.Line.quads? (!o.verify) true src.text

def quads : Except ReadError (List Quad) :=
  if f.hasBase && !Iri.isAbsolute o.base then .error .invalidBase
  else
    match src.quads? o f, src.failure with
    | none, _ => .error .malformed
    | some _, some text => .error (.source text)
    | some qs, none => .ok qs

def graph : Except ReadError Graph := (src.quads o f).map Graph.ofQuads

end Source

end ShapePlan
