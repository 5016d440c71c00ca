/-
The stored form of a configuration: every field under its storage key, policies as codes, absent values as
null. Reading accepts any mapping whose policies are codes; what is missing takes its default. The
properties forced on nodes lose the key that identifies the node they were kept on.
-/
import ShapePlan.Config.Basic

namespace ShapePlan.GraphConfig

/-- The key under which a host keeps the identity of a node. -/
def identityKey : String := "identity"

def toStored (c : GraphConfig) : Bag :=
  Dict.ofList
    [(Key.vocab.stored, .int (Policy.code c.vocab)),
      (Key.multival.stored, .int (Policy.code c.multival)),
      (Key.types.stored, .int (Policy.code c.types)),
      (Key.keepLangTag.stored, .bool c.keepLangTag),
      (Key.keepCustomTypes.stored, .bool c.keepCustomTypes),
      (Key.applyNaming.stored, .bool c.applyNaming),
      (Key.multivalProps.stored, .ofOption NameSet.toValue c.multivalProps),
      (Key.customTypeProps.stored, .ofOption NameSet.toValue c.customTypeProps),
      (Key.schemaNamespace.stored, .ofOption .string c.schemaNamespace),
      (Key.schemaPrefix.stored, .ofOption .string c.schemaPrefix),
      (Key.classLabel.stored, .string c.names.classLabel),
      (Key.subClassRel.stored, .string c.names.subClassRel),
      (Key.dataPropertyLabel.stored, .string c.names.dataPropertyLabel),
      (Key.objectPropertyLabel.stored, .string c.names.objectPropertyLabel),
      (Key.subPropertyRel.stored, .string c.names.subPropertyRel),
      (Key.domainRel.stored, .string c.names.domainRel),
      (Key.rangeRel.stored, .string c.names.rangeRel),
      (Key.forced.stored, .object c.forced)]

def storedNames (b : Bag) : SchemaNames :=
  let d : SchemaNames := {}
  { classLabel := (b.string? Key.classLabel.stored).getD d.classLabel
    subClassRel := (b.string? Key.subClassRel.stored).getD d.subClassRel
    dataPropertyLabel := (b.string? Key.dataPropertyLabel.stored).getD d.dataPropertyLabel
    objectPropertyLabel := (b.string? Key.objectPropertyLabel.stored).getD d.objectPropertyLabel
    subPropertyRel := (b.string? Key.subPropertyRel.stored).getD d.subPropertyRel
    domainRel := (b.string? Key.domainRel.stored).getD d.domainRel
    rangeRel := (b.string? Key.rangeRel.stored).getD d.rangeRel }

def storedForced : Option Value → Bag
  | some (.object d) => d.erase identityKey
  | _ => Dict.empty

def ofStored (b : Bag) : Except ConfigError GraphConfig := do
  let vocab ← Policy.ofStored (b.get? Key.vocab.stored)
  let multival ← Policy.ofStored (b.get? Key.multival.stored)
  let types ← Policy.ofStored (b.get? Key.types.stored)
  return {
    vocab, multival, types
    keepLangTag := b.isTrue Key.keepLangTag.stored
    applyNaming := b.isTrue Key.applyNaming.stored
    keepCustomTypes := b.isTrue Key.keepCustomTypes.stored
    multivalProps := b.get? Key.multivalProps.stored >>= NameSet.ofValue?
    customTypeProps := b.get? Key.customTypeProps.stored >>= NameSet.ofValue?
    schemaNamespace := b.string? Key.schemaNamespace.stored
    schemaPrefix := b.string? Key.schemaPrefix.stored
    names := storedNames b
    forced := storedForced (b.get? Key.forced.stored) }

end ShapePlan.GraphConfig
