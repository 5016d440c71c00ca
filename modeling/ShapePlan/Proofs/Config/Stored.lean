/-
Storing configurations. Every field is stored under a key of its own, and reading gives back what was stored, save that
the properties forced on nodes lose the key by which a host identifies them. Only the values under the keys matter, so
it is all the same whether the forced properties are kept with the rest or apart.
-/
import ShapePlan.Proofs.Config.Policies

namespace ShapePlan

/-! ## Sets -/

theorem NameSet.ofValue?_toValue (s : NameSet) : ofValue? s.toValue = some s := by
  have hs : (s.elems.map Value.string).filterMap Value.string? = s.elems := by
    rw [List.filterMap_map]
    exact List.filterMap_some
  have he : Ascending.ofList id s.elems = s.elems := Ascending.ofList_of_pairwise s.ascending
  obtain ⟨elems, ascending⟩ := s
  simp only [toValue, Value.strings, ofValue?, hs, ofList, he]

/-! ## Keys -/

theorem Key.name_inj {j k : Key} (h : j.name = k.name) : j = k := by
  revert h
  cases j <;> cases k <;> simp [name]

theorem Key.stored_inj {j k : Key} : j.stored = k.stored ↔ j = k := by
  refine ⟨fun h => name_inj ?_, fun h => h ▸ rfl⟩
  have hc := congrArg String.toList h
  simp only [stored, String.toList_append] at hc
  exact String.toList_inj.1 (List.append_cancel_left hc)

/-! ## Stored values -/

namespace GraphConfig

/-- The value that is stored under a key. -/
def storedValue (c : GraphConfig) : Key → Value
  | .vocab => .int (Policy.code c.vocab)
  | .multival => .int (Policy.code c.multival)
  | .types => .int (Policy.code c.types)
  | .keepLangTag => .bool c.keepLangTag
  | .keepCustomTypes => .bool c.keepCustomTypes
  | .applyNaming => .bool c.applyNaming
  | .multivalProps => .ofOption NameSet.toValue c.multivalProps
  | .customTypeProps => .ofOption NameSet.toValue c.customTypeProps
  | .schemaNamespace => .ofOption .string c.schemaNamespace
  | .schemaPrefix => .ofOption .string c.schemaPrefix
  | .classLabel => .string c.names.classLabel
  | .subClassRel => .string c.names.subClassRel
  | .dataPropertyLabel => .string c.names.dataPropertyLabel
  | .objectPropertyLabel => .string c.names.objectPropertyLabel
  | .subPropertyRel => .string c.names.subPropertyRel
  | .domainRel => .string c.names.domainRel
  | .rangeRel => .string c.names.rangeRel
  | .forced => .object c.forced

/-- The keys in the order in which they are written. -/
def storedKeys : List Key :=
  [.vocab, .multival, .types, .keepLangTag, .keepCustomTypes, .applyNaming, .multivalProps, .customTypeProps,
    .schemaNamespace, .schemaPrefix, .classLabel, .subClassRel, .dataPropertyLabel, .objectPropertyLabel,
    .subPropertyRel, .domainRel, .rangeRel, .forced]

theorem mem_storedKeys (k : Key) : k ∈ storedKeys := by cases k <;> decide

theorem toStored_eq (c : GraphConfig) :
    c.toStored = Dict.ofList (storedKeys.map fun k => (k.stored, c.storedValue k)) := rfl

theorem nodup_stored : (storedKeys.map Key.stored).Nodup := by decide

theorem get?_toStored (c : GraphConfig) (k : Key) : c.toStored.get? k.stored = some (c.storedValue k) := by
  rw [toStored_eq]
  exact Dict.get?_ofList_map Key.stored c.storedValue nodup_stored (mem_storedKeys k)

/-! ## Reading -/

/-- What storing a configuration keeps of it. -/
def withoutIdentity (c : GraphConfig) : GraphConfig := { c with forced := c.forced.erase identityKey }

/-- A mapping with the stored values under their keys is read as the configuration. -/
theorem ofStored_of_values {c : GraphConfig} {b : Bag} (h : ∀ k : Key, b.get? k.stored = some (c.storedValue k)) :
    ofStored b = .ok c.withoutIdentity := by
  have flag : ∀ (k : Key) (x : Bool), c.storedValue k = .bool x → b.isTrue k.stored = x := by
    intro k x hx
    simp [Bag.isTrue, h, hx]
  have string : ∀ (k : Key) (s : String), c.storedValue k = .string s → b.string? k.stored = some s := by
    intro k s hs
    simp [Bag.string?, h, hs, Value.string?]
  have optional : ∀ (k : Key) (s : Option String), c.storedValue k = .ofOption .string s → b.string? k.stored = s := by
    intro k s hs
    cases s <;> simp [Bag.string?, h, hs, Value.ofOption, Value.string?]
  have set : ∀ (k : Key) (s : Option NameSet), c.storedValue k = .ofOption NameSet.toValue s →
      (b.get? k.stored >>= NameSet.ofValue?) = s := by
    intro k s hs
    cases s with
    | none => simp [h, hs, Value.ofOption, NameSet.ofValue?]
    | some s => simp [h, hs, Value.ofOption, NameSet.ofValue?_toValue]
  have names : storedNames b = c.names := by
    simp only [storedNames, string .classLabel _ rfl, string .subClassRel _ rfl, string .dataPropertyLabel _ rfl,
      string .objectPropertyLabel _ rfl, string .subPropertyRel _ rfl, string .domainRel _ rfl, string .rangeRel _ rfl,
      Option.getD_some]
  have vocab : Policy.ofStored (b.get? Key.vocab.stored) = .ok c.vocab := by
    rw [h]
    exact LawfulPolicy.ofStored_code c.vocab
  have multival : Policy.ofStored (b.get? Key.multival.stored) = .ok c.multival := by
    rw [h]
    exact LawfulPolicy.ofStored_code c.multival
  have types : Policy.ofStored (b.get? Key.types.stored) = .ok c.types := by
    rw [h]
    exact LawfulPolicy.ofStored_code c.types
  rw [ofStored, vocab, multival, types, flag .keepLangTag _ rfl, flag .applyNaming _ rfl, flag .keepCustomTypes _ rfl,
    set .multivalProps _ rfl, set .customTypeProps _ rfl, optional .schemaNamespace _ rfl, optional .schemaPrefix _ rfl,
    names, h .forced]
  rfl

/-! ## Merging -/

/-- What is stored of a merged configuration does not depend on the identity. -/
theorem add_withoutIdentity {c w : GraphConfig} {b : Bag} (h : c.withoutIdentity.add b = .ok w) :
    ∃ d, c.add b = .ok d ∧ w.withoutIdentity = d.withoutIdentity := by
  -- a bag with forced properties replaces the old ones, so only without them is there an identity to lose
  have forced : (mergeForced c.withoutIdentity.forced (b.get? Key.forced.name)).erase identityKey =
      (mergeForced c.forced (b.get? Key.forced.name)).erase identityKey := by
    cases b.get? Key.forced.name with
    | none => exact Dict.erase_erase c.forced identityKey
    | some v => cases v <;> rfl
  unfold add at h ⊢
  obtain ⟨vocab, hv, h⟩ := bind_eq_ok.1 h
  obtain ⟨multival, hm, h⟩ := bind_eq_ok.1 h
  obtain ⟨types, ht, h⟩ := bind_eq_ok.1 h
  cases h
  refine ⟨_, bind_eq_ok.2 ⟨vocab, hv, bind_eq_ok.2 ⟨multival, hm, bind_eq_ok.2 ⟨types, ht, rfl⟩⟩⟩, ?_⟩
  simp only [withoutIdentity] at forced ⊢
  rw [forced]

end GraphConfig

end ShapePlan
