/-
What merging a bag makes of a configuration, field by field (`GraphConfig.add_eq_ok`). A bag that cannot be merged
leaves the configuration as it was, so along a history of bags only those count that could be merged.
-/
import ShapePlan.Config.Basic
import ShapePlan.Proofs.Result

namespace ShapePlan.GraphConfig

variable {b : Bag} {c d : GraphConfig}

structure Merges (c : GraphConfig) (b : Bag) (d : GraphConfig) : Prop where
  vocab : mergePolicy c.vocab (b.get? Key.vocab.name) = .ok d.vocab
  multival : mergePolicy c.multival (b.get? Key.multival.name) = .ok d.multival
  types : mergePolicy c.types (b.get? Key.types.name) = .ok d.types
  keepLangTag : d.keepLangTag = (c.keepLangTag || b.isTrue Key.keepLangTag.name)
  applyNaming : d.applyNaming = (c.applyNaming || b.isTrue Key.applyNaming.name)
  keepCustomTypes : d.keepCustomTypes = (c.keepCustomTypes || b.isTrue Key.keepCustomTypes.name)
  multivalProps : d.multivalProps = mergeSet c.multivalProps (b.get? Key.multivalProps.name)
  customTypeProps : d.customTypeProps = mergeSet c.customTypeProps (b.get? Key.customTypeProps.name)
  schemaNamespace : d.schemaNamespace =
    mergeChecked isNamespace c.schemaNamespace (b.string? Key.schemaNamespace.name)
  schemaPrefix : d.schemaPrefix = mergeChecked Iri.isPrefixName c.schemaPrefix (b.string? Key.schemaPrefix.name)
  names : d.names = mergeNames c.names b
  forced : d.forced = mergeForced c.forced (b.get? Key.forced.name)

theorem add_eq_ok : c.add b = .ok d ↔ Merges c b d := by
  constructor
  · intro h
    obtain ⟨vocab, hvocab, h⟩ := bind_eq_ok.1 h
    obtain ⟨multival, hmultival, h⟩ := bind_eq_ok.1 h
    obtain ⟨types, htypes, h⟩ := bind_eq_ok.1 h
    cases h
    exact ⟨hvocab, hmultival, htypes, rfl, rfl, rfl, rfl, rfl, rfl, rfl, rfl, rfl⟩
  · intro h
    rw [add, h.vocab, h.multival, h.types, ← h.keepLangTag, ← h.applyNaming, ← h.keepCustomTypes, ← h.multivalProps,
      ← h.customTypeProps, ← h.schemaNamespace, ← h.schemaPrefix, ← h.names, ← h.forced]
    rfl

/-! ## Histories -/

/-- One step of a history. -/
def addOrKeep (c : GraphConfig) (b : Bag) : GraphConfig :=
  match c.add b with
  | .ok d => d
  | .error _ => c

theorem addOrKeep_cases (c : GraphConfig) (b : Bag) : Merges c b (c.addOrKeep b) ∨ c.addOrKeep b = c := by
  unfold addOrKeep
  split
  · next d hd => exact .inl (add_eq_ok.1 hd)
  · exact .inr rfl

end ShapePlan.GraphConfig
