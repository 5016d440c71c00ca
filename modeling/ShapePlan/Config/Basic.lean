/-
The configuration of a graph: how it is merged from property bags and how it is shown. Policies are
checked before anything is merged, so a bag is taken as a whole or not at all; flags are only ever switched
on; an ill-formed namespace or prefix is passed over.
-/
import ShapePlan.Config.Policy
import ShapePlan.Iri.Name
import ShapePlan.NameSet

namespace ShapePlan

/-! ## Keys -/

inductive Key where
  | vocab
  | multival
  | types
  | keepLangTag
  | applyNaming
  | keepCustomTypes
  | multivalProps
  | customTypeProps
  | schemaNamespace
  | schemaPrefix
  | classLabel
  | subClassRel
  | dataPropertyLabel
  | objectPropertyLabel
  | subPropertyRel
  | domainRel
  | rangeRel
  | forced
deriving DecidableEq, Repr

/-- The key of a field in a property bag. -/
def Key.name : Key → String
  | .vocab => "handleVocabUris"
  | .multival => "handleMultival"
  | .types => "handleRDFTypes"
  | .keepLangTag => "keepLangTag"
  | .applyNaming => "applyNeo4jNaming"
  | .keepCustomTypes => "keepCustomDataTypes"
  | .multivalProps => "multivalPropList"
  | .customTypeProps => "customDataTypePropList"
  | .schemaNamespace => "baseSchemaNamespace"
  | .schemaPrefix => "baseSchemaPrefix"
  | .classLabel => "classLabel"
  | .subClassRel => "subClassOfRel"
  | .dataPropertyLabel => "dataTypePropertyLabel"
  | .objectPropertyLabel => "objectPropertyLabel"
  | .subPropertyRel => "subPropertyOfRel"
  | .domainRel => "domainRel"
  | .rangeRel => "rangeRel"
  | .forced => "forciblyAssignedOnImportNodeProperties"

/-- The key of a field in storage. -/
def Key.stored (k : Key) : String := "_" ++ k.name

/-! ## Reading bags -/

namespace Bag

def isTrue (b : Bag) (k : String) : Bool := b.get? k = some (.bool true)

def string? (b : Bag) (k : String) : Option String := b.get? k >>= Value.string?

end Bag

namespace NameSet

/-- The strings of a list. Anything but a list has no set. -/
def ofValue? : Value → Option NameSet
  | .list items => some (ofList (items.filterMap Value.string?))
  | _ => none

def toValue (s : NameSet) : Value := Value.strings s.elems

end NameSet

/-! ## Configurations -/

/-- The labels and relationship types of schema elements. -/
structure SchemaNames where
  classLabel : String := "Class"
  subClassRel : String := "SCO"
  dataPropertyLabel : String := "Property"
  objectPropertyLabel : String := "Relationship"
  subPropertyRel : String := "SPO"
  domainRel : String := "DOMAIN"
  rangeRel : String := "RANGE"
deriving DecidableEq, Repr

structure GraphConfig where
  vocab : VocabPolicy := Policy.default
  multival : MultivalPolicy := Policy.default
  types : TypesPolicy := Policy.default
  keepLangTag : Bool := false
  applyNaming : Bool := false
  keepCustomTypes : Bool := false
  multivalProps : Option NameSet := none
  customTypeProps : Option NameSet := none
  schemaNamespace : Option String := none
  schemaPrefix : Option String := none
  names : SchemaNames := {}
  /-- Properties that an import sets on every node. -/
  forced : Bag := Dict.empty
deriving DecidableEq, Repr

/-- One line of the external view. -/
abbrev Item := String × Value

namespace GraphConfig

def defaultNamespace : String := "neo4j://graph.schema#"

def defaultPrefix : String := "n4sch"

/-- The local name with which a namespace is tried. -/
def probe : String := "someLocalName"

def isNamespace (s : String) : Bool := Iri.isCorrectSplit s probe

def graphMode (c : GraphConfig) : GraphMode := c.vocab.graphMode

def baseNamespace (c : GraphConfig) : String := c.schemaNamespace.getD defaultNamespace

def basePrefix (c : GraphConfig) : String := c.schemaPrefix.getD defaultPrefix

/-! ## Merging -/

/-- A policy that a bag names replaces the old one. -/
def mergePolicy {α : Type} [Policy α] (old : α) : Option Value → Except ConfigError α
  | none => .ok old
  | some v => Policy.ofValue v

/-- A set that a bag gives replaces the old one, and anything but a list removes it. -/
def mergeSet (old : Option NameSet) : Option Value → Option NameSet
  | none => old
  | some v => NameSet.ofValue? v

/-- A string that passes the check replaces the old one. -/
def mergeChecked (ok : String → Bool) (old : Option String) (new : Option String) : Option String :=
  (new.filter ok).or old

def mergeForced (old : Bag) : Option Value → Bag
  | none => old
  | some (.object d) => d
  | some _ => Dict.empty

def mergeNames (old : SchemaNames) (b : Bag) : SchemaNames where
  classLabel := (b.string? Key.classLabel.name).getD old.classLabel
  subClassRel := (b.string? Key.subClassRel.name).getD old.subClassRel
  dataPropertyLabel := (b.string? Key.dataPropertyLabel.name).getD old.dataPropertyLabel
  objectPropertyLabel := (b.string? Key.objectPropertyLabel.name).getD old.objectPropertyLabel
  subPropertyRel := (b.string? Key.subPropertyRel.name).getD old.subPropertyRel
  domainRel := (b.string? Key.domainRel.name).getD old.domainRel
  rangeRel := (b.string? Key.rangeRel.name).getD old.rangeRel

/-- Merges a bag into a configuration. Keys that name no field are passed over. -/
def add (c : GraphConfig) (b : Bag) : Except ConfigError GraphConfig := do
  let vocab ← mergePolicy c.vocab (b.get? Key.vocab.name)
  let multival ← mergePolicy c.multival (b.get? Key.multival.name)
  let types ← mergePolicy c.types (b.get? Key.types.name)
  return {
    vocab, multival, types
    keepLangTag := c.keepLangTag || b.isTrue Key.keepLangTag.name
    applyNaming := c.applyNaming || b.isTrue Key.applyNaming.name
    keepCustomTypes := c.keepCustomTypes || b.isTrue Key.keepCustomTypes.name
    multivalProps := mergeSet c.multivalProps (b.get? Key.multivalProps.name)
    customTypeProps := mergeSet c.customTypeProps (b.get? Key.customTypeProps.name)
    schemaNamespace := mergeChecked isNamespace c.schemaNamespace (b.string? Key.schemaNamespace.name)
    schemaPrefix := mergeChecked Iri.isPrefixName c.schemaPrefix (b.string? Key.schemaPrefix.name)
    names := mergeNames c.names b
    forced := mergeForced c.forced (b.get? Key.forced.name) }

/-- The configuration given by a bag alone. -/
def ofBag (b : Bag) : Except ConfigError GraphConfig := add {} b

/-! ## Showing -/

/-- A line for a value that is there. -/
def optionalItem {α : Type} (k : Key) (f : α → Value) (a : Option α) : List Item :=
  (a.map fun a => (k.name, f a)).toList

/-- The external view, in a fixed order. Absent values have no line. -/
def items (c : GraphConfig) : List Item :=
  [(Key.vocab.name, .string (Policy.name c.vocab)),
    (Key.multival.name, .string (Policy.name c.multival)),
    (Key.types.name, .string (Policy.name c.types)),
    (Key.keepLangTag.name, .bool c.keepLangTag)] ++
  optionalItem .multivalProps NameSet.toValue c.multivalProps ++
  [(Key.keepCustomTypes.name, .bool c.keepCustomTypes)] ++
  optionalItem .customTypeProps NameSet.toValue c.customTypeProps ++
  [(Key.applyNaming.name, .bool c.applyNaming)] ++
  optionalItem .schemaNamespace .string c.schemaNamespace ++
  optionalItem .schemaPrefix .string c.schemaPrefix ++
  [(Key.classLabel.name, .string c.names.classLabel),
    (Key.subClassRel.name, .string c.names.subClassRel),
    (Key.dataPropertyLabel.name, .string c.names.dataPropertyLabel),
    (Key.objectPropertyLabel.name, .string c.names.objectPropertyLabel),
    (Key.subPropertyRel.name, .string c.names.subPropertyRel),
    (Key.domainRel.name, .string c.names.domainRel),
    (Key.rangeRel.name, .string c.names.rangeRel),
    (Key.forced.name, .object c.forced)]

end GraphConfig

end ShapePlan
