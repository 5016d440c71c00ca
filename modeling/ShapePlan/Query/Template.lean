/-
The query templates. A text is a list of pieces: query code, string constants, and the sites where values are put.
A template is a head, which matches the focus nodes and binds the parameter set, and a body; the scoped text has a
filter on the touched nodes between the two.
-/
import ShapePlan.Config.Basic
import ShapePlan.Query.Render
import ShapePlan.Vocabulary

namespace ShapePlan

/-! ## Pieces -/

inductive Piece where
  /-- Query code without quotes. -/
  | code (text : String)
  /-- A string constant. -/
  | quoted (text : String)
  /-- A string that starts with a value. -/
  | string (tail : String)
  /-- A quoted name. -/
  | name
  /-- A part of the query itself. -/
  | snippet
deriving DecidableEq, Repr

def Piece.text : Piece → String
  | .code t => t
  | .quoted t => "'" ++ t ++ "'"
  | .string tail => "'%s" ++ tail ++ "'"
  | .name => "`%s`"
  | .snippet => "%s"

abbrev QueryText := List Piece

def QueryText.text (t : QueryText) : String := String.join (t.map Piece.text)

/-- Which focus nodes a query looks at. -/
inductive Scope where
  | global
  | touched
deriving DecidableEq, Repr

/-! ## Contexts -/

/-- The three switches along which the texts vary. -/
structure Context where
  /-- Nodes have an IRI. -/
  uriIdentified : Bool := false
  /-- Names are short and reports expand them. -/
  shorten : Bool := false
  /-- The type property is reported by its IRI. -/
  rdfMode : Bool := false
deriving DecidableEq, Repr

namespace Context

def shortens : VocabPolicy → Bool
  | .shorten => true
  | .shortenStrict => true
  | .map => true
  | _ => false

def ofConfig : Option GraphConfig → Context
  | none => {}
  | some c => ⟨true, shortens c.vocab, c.graphMode = .rdf⟩

variable (c : Context)

def nodeId : QueryText := if c.uriIdentified then [.code " focus.uri "] else [.code " id(focus) "]

/-- A string site for a name that a report shows. -/
def shown : QueryText :=
  if c.shorten then [.code "n10s.rdf.fullUriFromShortForm(", .string "", .code ")"]
  else [.code " ", .string "", .code " "]

/-- The same inside a message. -/
def shownInMessage : QueryText :=
  if c.shorten then [.code "n10s.rdf.fullUriFromShortForm(", .string "", .code ") "]
  else [.code " ", .string "", .code " "]

def typeName : QueryText := [.code " ", .quoted (if c.rdfMode then Rdf.type else "type"), .code " "]

def labels : QueryText :=
  if c.uriIdentified then [.code " [x in labels(focus) where x <> ", .quoted "Resource", .code " ] "]
  else [.code " labels(focus) "]

/-- The identity of a node bound to `x`. -/
def target : QueryText := if c.uriIdentified then [.code " x.uri "] else [.code " id(x) "]

/-- The identity of a node bound to `val`. -/
def value : QueryText := if c.uriIdentified then [.code "val.uri"] else [.code "id(val)"]

/-- What every query returns first. -/
def returnsOf (node : QueryText) (component : String) : QueryText :=
  [.code " RETURN "] ++ node ++ [.code " as nodeId, "] ++ c.shown ++
  [.code " as nodeType, ", .string "", .code " as shapeId, ", .quoted (Sh.component component),
    .code " as propertyShape,"]

def returns (component : String) : QueryText := c.returnsOf c.nodeId component

end Context

/-! ## Templates -/

/-- The values of each template are listed in the order of its sites. -/
inductive Template where
  /-- focus, path, cast, end of cast, focus, shape, path, path, severity, datatype -/
  | datatype
  /-- focus, path, focus, shape, path, severity, path -/
  | datatypeOnRelationship
  /-- focus, path, focus, shape, path, severity, path -/
  | literalNodeKind
  /-- focus, path, focus, shape, path, severity, path -/
  | iriNodeKind
  /-- focus, path, range, focus, shape, path, severity, range -/
  | classOf
  /-- focus, path, focus, shape, path, severity, path -/
  | classOnProperty
  /-- parameter set, focus, path, path, focus, shape, path, severity -/
  | pattern
  /-- parameter set, focus, focus, shape, severity -/
  | hasValueTypeLabel
  /-- parameter set, focus, path, focus, shape, path, severity, path -/
  | hasValueTypeEdge
  /-- parameter set, focus, path, focus, shape, path, severity, path -/
  | hasValueIri
  /-- parameter set, focus, path, focus, shape, path, severity, path -/
  | hasValueLiteral
  /-- parameter set, focus, path, focus, shape, path, severity, path -/
  | inLiterals
  /-- parameter set, focus, path, focus, shape, path, severity, path -/
  | inIris
  /-- parameter set, focus, focus, shape, severity -/
  | inTypeLabel
  /-- parameter set, focus, path, focus, shape, path, severity, path -/
  | inTypeEdge
  /-- parameter set, focus, bound, path, path, focus, shape, path, path, path, severity -/
  | minCount
  /-- parameter set, focus, bound, focus, shape, path, severity -/
  | minCountTypeLabel
  /-- parameter set, focus, bound, path, focus, shape, path, path, severity -/
  | minCountTypeEdge
  /-- parameter set, focus, bound, path, focus, shape, path, path, severity -/
  | minCountInverse
  /-- parameter set, focus, path, path, bound, focus, shape, path, path, path, severity -/
  | maxCount
  /-- parameter set, focus, bound, focus, shape, path, severity -/
  | maxCountTypeLabel
  /-- parameter set, focus, path, bound, focus, shape, path, path, severity -/
  | maxCountTypeEdge
  /-- parameter set, focus, path, bound, focus, shape, path, path, severity -/
  | maxCountInverse
  /-- parameter set, focus, path, lower bound, upper bound, focus, shape, path, path, severity -/
  | length
  /-- parameter set, focus, path, lower bound, upper bound, focus, shape, path, path, severity -/
  | valueRange
  /-- parameter set, focus, focus, shape, severity -/
  | closed
  /-- focus, class, focus, shape, class, severity, class -/
  | disjoint
deriving DecidableEq, Repr

namespace Template

def matchFocus : QueryText := [.code "MATCH (focus:", .name, .code ") WHERE "]

def matchRelationship : QueryText :=
  [.code "MATCH (focus:", .name, .code ")-[r:", .name, .code "]->(x) WHERE "]

def bindParams : QueryText :=
  [.code "WITH $", .name, .code " as params MATCH (focus:", .name, .code ") WHERE "]

def head : Template → QueryText
  | .datatype => matchFocus
  | .literalNodeKind => matchFocus
  | .iriNodeKind => matchFocus
  | .classOnProperty => matchFocus
  | .disjoint => matchFocus
  | .datatypeOnRelationship => matchRelationship
  | .classOf => matchRelationship
  | _ => bindParams

theorem matchFocus_ne_bindParams : matchFocus ≠ bindParams := by simp [matchFocus, bindParams]

theorem matchRelationship_ne_bindParams : matchRelationship ≠ bindParams := by simp [matchRelationship, bindParams]

/-- The property and the severity of a violation. -/
def property (prop : QueryText) : QueryText :=
  prop ++ [.code " as propertyName, ", .string "", .code " as severity,"]

def body (c : Context) : Template → QueryText
  | .datatype =>
    [.code " NOT all(x in [] +  focus.", .name, .code " where ", .snippet, .code " x ", .snippet, .code " )"] ++
    c.returns "Datatype" ++ [.code " focus.", .name, .code " as offendingValue, "] ++ property c.shown ++
    [.code " ", .quoted "property value should be of type ", .code " + "] ++
    (if c.uriIdentified then [.code " ", .string "", .code " "]
      else [.code "n10s.rdf.getIRILocalName(", .string "", .code ")"]) ++
    [.code " as message "]
  | .datatypeOnRelationship =>
    [.code " true"] ++ c.returns "Datatype" ++ [.code " "] ++
    (if c.uriIdentified then [.code " x.uri "] else [.code " ", .quoted "node id: ", .code " + id(x) "]) ++
    [.code "as offendingValue, "] ++ property c.shown ++ [.code " "] ++ c.shown ++
    [.code " + ", .quoted " should be a property, instead it  is a relationship", .code " as message "]
  | .literalNodeKind =>
    [.code " (focus)-[:", .name, .code "]->()"] ++ c.returns "NodeKind" ++
    [.code " null as offendingValue, "] ++ property c.shown ++ c.shown ++
    [.code " + ", .quoted " should be a property ", .code " as message  "]
  | .iriNodeKind =>
    [.code " exists(focus.", .name, .code ")"] ++ c.returns "NodeKind" ++
    [.code " null as offendingValue, "] ++ property c.shown ++ c.shown ++
    [.code " + ", .quoted " should be a relationship ", .code " as message  "]
  | .classOf =>
    [.code "NOT x:", .name] ++ c.returns "Class" ++ [.code " "] ++ c.target ++
    [.code " as offendingValue, "] ++ property c.shown ++
    [.code " ", .quoted "value should be of type ", .code " + "] ++ c.shown ++ [.code " as message  "]
  | .classOnProperty =>
    [.code "exists(focus.", .name, .code ")"] ++ c.returns "Class" ++
    [.code " null as offendingValue, "] ++ property c.shown ++
    [.code " ", .string " should be a relationship but it is a property", .code " as message  "]
  | .pattern =>
    [.code "NOT all(x in [] +  coalesce(focus.", .name,
      .code ",[]) where toString(x) =~ params.theRegex )   UNWIND [x in [] +  coalesce(focus.", .name,
      .code ",[]) where not toString(x) =~ params.theRegex ]  as offval"] ++
    c.returns "Pattern" ++ [.code " offval as offendingValue, "] ++ property c.shown ++
    [.code " ", .quoted "the value of the property does not match the specified regular expression",
      .code " as message  "]
  | .hasValueTypeLabel =>
    [.code (" true with params, focus unwind params.theHasTypeTranslatedUris as reqVal  " ++
      "with focus, reqVal where not reqVal in labels(focus)")] ++
    c.returns "HasValue" ++ [.code " null as offendingValue, "] ++ property c.typeName ++
    [.code " ", .quoted "The required type ", .code " + reqVal + ",
      .quoted " could not be found as a label of the focus node ", .code " as message  "]
  | .hasValueTypeEdge =>
    [.code (" true with params, focus unwind params.theHasTypeUris as reqVal " ++
        "with focus, reqVal where not (focus)-[:"),
      .name, .code "]->(\x7buri: reqVal\x7d)"] ++
    c.returns "HasValue" ++ [.code " null as offendingValue, "] ++ property c.shown ++
    [.code " ", .quoted "The required type ", .code " + reqVal  + ",
      .quoted " could not be found as value of relationship ", .code " + "] ++
    c.shownInMessage ++ [.code " as message  "]
  | .hasValueIri =>
    [.code (" true with params, focus unwind params.theHasValueUri as reqVal " ++
        "with focus, reqVal where not (focus)-[:"),
      .name, .code "]->(\x7buri: reqVal\x7d)"] ++
    c.returns "HasValue" ++ [.code " null as offendingValue, "] ++ property c.shown ++
    [.code " ", .quoted "The required value ", .code " + reqVal  + ",
      .quoted " could not be found as value of relationship ", .code " + "] ++
    c.shownInMessage ++ [.code " as message  "]
  | .hasValueLiteral =>
    [.code (" true with params, focus unwind params.theHasValueLiteral as  reqVal " ++
        "with focus, reqVal where not reqVal in [] + focus."),
      .name] ++
    c.returns "HasValue" ++ [.code " null as offendingValue, "] ++ property c.shown ++
    [.code " ", .quoted "The required value \"", .code "+ reqVal + ",
      .quoted "\" was not found in property ", .code " + "] ++
    c.shownInMessage ++ [.code " as message  "]
  | .inLiterals =>
    [.code " true with params, focus unwind [] + focus.", .name,
      .code " as val with focus, val where not val in params.theInLiterals"] ++
    c.returns "In" ++ [.code " val as offendingValue, "] ++ property c.shown ++
    [.code " ", .quoted "The value \"", .code "+ val + ", .quoted "\" in property ", .code " + "] ++
    c.shownInMessage ++ [.code "+ ", .quoted " is not in the accepted list", .code " as message  "]
  | .inIris =>
    [.code " true with params, focus unwind [(focus)-[:", .name,
      .code "]->(x) | x ] as val with focus, val where not val.uri in params.theInUris"] ++
    c.returns "In" ++ [.code " "] ++ c.value ++ [.code " as offendingValue, "] ++ property c.shown ++
    [.code " ", .quoted "The value \"", .code "+ "] ++
    (if c.uriIdentified then [.code " val.uri "] else [.code " ", .quoted "node id: ", .code "  + id(val) "]) ++
    [.code " + ", .quoted "\" in property ", .code " + "] ++
    c.shownInMessage ++ [.code "+ ", .quoted " is not in the accepted list", .code " as message  "]
  | .inTypeLabel =>
    [.code " true with params, focus unwind labels(focus) as val with focus, val  where val <> ",
      .quoted "Resource", .code " and not val in params.theInTypeTranslatedUris"] ++
    c.returns "In" ++ [.code " val as offendingValue, "] ++ property c.typeName ++
    [.code " ", .quoted "The label \"", .code "+ val + ", .quoted "\" is not in the accepted list",
      .code " as message  "]
  | .inTypeEdge =>
    [.code " true with params, focus unwind [(focus)-[:", .name,
      .code "]->(x) | x ] as val with focus, val where not val.uri in params.theInTypeUris"] ++
    c.returns "In" ++ [.code " "] ++ c.value ++ [.code " as offendingValue, "] ++ property c.shown ++
    [.code " ", .quoted "The type \"", .code "+ val.uri + ",
      .quoted "\" (node connected through property ", .code " + "] ++
    c.shownInMessage ++ [.code "+ ", .quoted ") is not in the accepted list", .code " as message  "]
  | .minCount =>
    [.code "NOT ", .snippet, .code " ( size((focus)-[:", .name, .code "]->()) +  size([] + coalesce(focus.", .name,
      .code ", [])) ) "] ++
    c.returns "MinCount" ++
    [.code "  ", .quoted "cardinality (", .code " + (coalesce(size((focus)-[:", .name,
      .code "]->()),0) + coalesce(size([] + focus.", .name, .code "),0)) + ", .quoted ") too low",
      .code "  as message, "] ++
    property c.shown ++ [.code " null as offendingValue  "]
  | .minCountTypeLabel =>
    [.code "NOT ", .snippet, .code " size("] ++ c.labels ++ [.code ") "] ++ c.returns "MinCount" ++
    [.code "  ", .quoted "number of labels (", .code " + size("] ++ c.labels ++
    [.code ") +", .quoted ") too low", .code "  as message, "] ++
    property c.shown ++ [.code "  null as offendingValue  "]
  | .minCountTypeEdge =>
    [.code "NOT ", .snippet, .code " ( size((focus)-[:", .name, .code "]->())) "] ++
    c.returnsOf [.code " focus.uri"] "MinCount" ++
    [.code "  ", .quoted "type cardinality (", .code " + coalesce(size((focus)-[:", .name,
      .code "]->()),0) + ", .quoted ") is too low", .code "  as message, "] ++
    property c.shown ++ [.code " null as offendingValue  "]
  | .minCountInverse =>
    [.code "NOT ", .snippet, .code " size((focus)<-[:", .name, .code "]-())"] ++ c.returns "MinCount" ++
    [.code "  ", .quoted "incoming cardinality (", .code " + coalesce(size((focus)<-[:", .name,
      .code "]-()),0) +", .quoted ") is too low", .code " as message, "] ++
    property c.shown ++ [.code " null as offendingValue  "]
  | .maxCount =>
    [.code "NOT (size((focus)-[:", .name, .code "]->()) + size([] + coalesce(focus.", .name, .code ",[]))) ",
      .snippet, .code " "] ++
    c.returns "MaxCount" ++
    [.code "  ", .quoted "cardinality (", .code " + (coalesce(size((focus)-[:", .name,
      .code "]->()),0) + coalesce(size([] + focus.", .name, .code "),0)) + ", .quoted ") is too high",
      .code " as message, "] ++
    property c.shown ++ [.code " null as offendingValue  "]
  | .maxCountTypeLabel =>
    [.code "NOT size("] ++ c.labels ++ [.code ")  ", .snippet, .code "  "] ++ c.returns "MaxCount" ++
    [.code "  ", .quoted "number of labels (", .code " + size("] ++ c.labels ++
    [.code ") + ", .quoted ") is too high", .code " as message, "] ++
    property c.shown ++ [.code "  null as offendingValue  "]
  | .maxCountTypeEdge =>
    [.code "NOT ( size((focus)-[:", .name, .code "]->())) ", .snippet, .code " "] ++
    c.returnsOf [.code " focus.uri"] "MaxCount" ++
    [.code "  ", .quoted "type cardinality (", .code " + coalesce(size((focus)-[:", .name,
      .code "]->()),0) + ", .quoted ") is too high", .code "  as message, "] ++
    property c.shown ++ [.code " null as offendingValue  "]
  | .maxCountInverse =>
    [.code "NOT size((focus)<-[:", .name, .code "]-()) ", .snippet] ++ c.returns "MaxCount" ++
    [.code "  ", .quoted "incoming cardinality (", .code " + coalesce(size((focus)<-[:", .name,
      .code "]-()),0) + ", .quoted ") is too high", .code " as message, "] ++
    property c.shown ++ [.code " null as offendingValue  "]
  | .length =>
    [.code "NOT all(x in [] +  focus.", .name, .code " where ", .snippet, .code " size(toString(x)) ", .snippet,
      .code " )"] ++
    c.returns "MaxLength" ++ [.code " focus.", .name, .code " as offendingValue, "] ++ property c.shown ++
    [.code " ", .quoted "", .code " as message  "]
  | .valueRange =>
    [.code "NOT all(x in [] +  focus.", .name, .code " where ", .snippet, .code " x ", .snippet, .code " )"] ++
    c.returns "MinExclusive" ++ [.code " focus.", .name, .code " as offendingValue, "] ++ property c.shown ++
    [.code " ", .quoted "", .code " as message  "]
  | .closed =>
    [.code (" true \nUNWIND [ x in [(focus)-[r]->()| type(r)] where not x in params.allAllowedProps] + " ++
      "[ x in keys(focus) where ")] ++
    (if c.uriIdentified then [.code " x <> ", .quoted "uri", .code " and "] else []) ++
    [.code " not x in params.allAllowedProps] as noProp\nRETURN  "] ++ c.nodeId ++ [.code " as nodeId , "] ++
    c.shown ++
    [.code " as nodeType, ", .string "", .code " as shapeId, ", .quoted (Sh.component "Closed"),
      .code " as propertyShape, substring(reduce(result=", .quoted "",
      .code ", x in [] + coalesce(focus[noProp],[(focus)-[r]-(x) where type(r)=noProp | "] ++
    c.target ++
    [.code "]) | result + ", .quoted ", ", .code " + x ),2) as offendingValue, "] ++
    property [.code (if c.shorten then "n10s.rdf.fullUriFromShortForm(noProp)" else " noProp ")] ++
    [.code " ", .quoted "Closed type definition does not include this property/relationship",
      .code " as message  "]
  | .disjoint =>
    [.code " focus:", .name] ++ c.returns "Not" ++ [.code " ", .string "", .code " as offendingValue,  "] ++
    property [.quoted "-"] ++
    [.code "  ", .quoted "type not allowed: ", .code " + ", .string "", .code " as message  "]

/-- Restricts a query to the touched nodes. -/
def touchedFilter : String := " focus IN $touchedNodes AND "

def queryText (t : Template) (c : Context) : Scope → QueryText
  | .global => t.head ++ t.body c
  | .touched => t.head ++ [.code touchedFilter] ++ t.body c

/-- The text of a query, with its sites. -/
def text (t : Template) (c : Context) (s : Scope) : String := (t.queryText c s).text

/-- The number of values that a template takes. -/
def arity (t : Template) (c : Context) : Nat := Query.sites (t.text c .global).toList

def render (t : Template) (c : Context) (s : Scope) (values : List String) : String :=
  Query.fill (t.text c s) values

end Template

/-! ## Casts -/

/-- The query code around each value `x` of a property that checks its datatype. Other datatypes are not
checked. -/
def castOf? (datatype : String) : Option (String × String) :=
  if datatype = Xsd.boolean then some ("coalesce(toBoolean(toString(", ")) = x , false)")
  else if datatype = Xsd.string then some ("coalesce(toString(", ") = x , false)")
  else if datatype = Xsd.integer then some ("coalesce(toInteger(", ") = x , false)")
  else if datatype = Xsd.float then some ("coalesce(toFloat(", ") = x , false)")
  else if datatype ∈ [Xsd.date, Xsd.dateTime, Xsd.wktLiteral, Xsd.anyUri] then
    some ("n10s.aux.dt.check('" ++ datatype ++ "',", ")")
  else none

end ShapePlan
