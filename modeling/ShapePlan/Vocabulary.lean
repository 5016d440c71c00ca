/-
The IRIs of the vocabularies that shapes are written in.
-/
namespace ShapePlan

namespace Sh

def base : String := "http://www.w3.org/ns/shacl#"

def term (loc : String) : String := base ++ loc

def shape : String := term "Shape"
def nodeShape : String := term "NodeShape"
def property : String := term "property"
def node : String := term "node"
def path : String := term "path"
def inversePath : String := term "inversePath"
def targetClass : String := term "targetClass"
def severity : String := term "severity"
def classOf : String := term "class"
def datatype : String := term "datatype"
def nodeKind : String := term "nodeKind"
def pattern : String := term "pattern"
def minCount : String := term "minCount"
def maxCount : String := term "maxCount"
def minInclusive : String := term "minInclusive"
def maxInclusive : String := term "maxInclusive"
def minExclusive : String := term "minExclusive"
def maxExclusive : String := term "maxExclusive"
def minLength : String := term "minLength"
def maxLength : String := term "maxLength"
def hasValue : String := term "hasValue"
def oneOf : String := term "in"
def closed : String := term "closed"
def ignoredProperties : String := term "ignoredProperties"
def negation : String := term "not"
def violation : String := term "Violation"

/-- The IRI of the component that reports a violated constraint. -/
def component (loc : String) : String := term (loc ++ "ConstraintComponent")

end Sh

namespace Rdf

def base : String := "http://www.w3.org/1999/02/22-rdf-syntax-ns#"

def type : String := base ++ "type"
def first : String := base ++ "first"
def rest : String := base ++ "rest"
def nil : String := base ++ "nil"
def langString : String := base ++ "langString"

/-- The class of classes. -/
def classOfClasses : String := "http://www.w3.org/2000/01/rdf-schema#Class"

end Rdf

namespace Xsd

def base : String := "http://www.w3.org/2001/XMLSchema#"

def string : String := base ++ "string"
def boolean : String := base ++ "boolean"
def integer : String := base ++ "integer"
def decimal : String := base ++ "decimal"
def double : String := base ++ "double"
def float : String := base ++ "float"
def date : String := base ++ "date"
def dateTime : String := base ++ "dateTime"
def anyUri : String := base ++ "anyURI"

/-- The datatypes whose values are integers. -/
def integers : List String :=
  ["integer", "long", "int", "short", "byte", "nonNegativeInteger", "nonPositiveInteger", "positiveInteger",
    "negativeInteger", "unsignedLong", "unsignedInt", "unsignedShort", "unsignedByte"].map (base ++ ·)

/-- Geometries as text. -/
def wktLiteral : String := "http://www.opengis.net/ont/geosparql#wktLiteral"

end Xsd

end ShapePlan
