/-
The external view of configurations. Every field that has a value has one line, under a key of its own, and the lines
taken as a bag give the configuration back: a field without a line is read as absent, and a namespace or a prefix that
is shown has passed its check when it was set.
-/
import Mathlib.Data.List.Nodup
import ShapePlan.Proofs.Config.Stored
import ShapePlan.Proofs.Config.Validation

namespace ShapePlan

namespace GraphConfig

theorem mergePolicy_name {α : Type} [Policy α] [LawfulPolicy α] (old p : α) :
    mergePolicy old (some (.string (Policy.name p))) = .ok p :=
  LawfulPolicy.ofName_name p

/-! ## Lines -/

/-- The value that is shown under a key, if the field has one. -/
def shownValue (c : GraphConfig) : Key → Option Value
  | .vocab => some (.string (Policy.name c.vocab))
  | .multival => some (.string (Policy.name c.multival))
  | .types => some (.string (Policy.name c.types))
  | .keepLangTag => some (.bool c.keepLangTag)
  | .keepCustomTypes => some (.bool c.keepCustomTypes)
  | .applyNaming => some (.bool c.applyNaming)
  | .multivalProps => c.multivalProps.map NameSet.toValue
  | .customTypeProps => c.customTypeProps.map NameSet.toValue
  | .schemaNamespace => c.schemaNamespace.map .string
  | .schemaPrefix => c.schemaPrefix.map .string
  | .classLabel => some (.string c.names.classLabel)
  | .subClassRel => some (.string c.names.subClassRel)
  | .dataPropertyLabel => some (.string c.names.dataPropertyLabel)
  | .objectPropertyLabel => some (.string c.names.objectPropertyLabel)
  | .subPropertyRel => some (.string c.names.subPropertyRel)
  | .domainRel => some (.string c.names.domainRel)
  | .rangeRel => some (.string c.names.rangeRel)
  | .forced => some (.object c.forced)

/-- The keys in the order of their lines. -/
def shownKeys : List Key :=
  [.vocab, .multival, .types, .keepLangTag, .multivalProps, .keepCustomTypes, .customTypeProps, .applyNaming,
    .schemaNamespace, .schemaPrefix, .classLabel, .subClassRel, .dataPropertyLabel, .objectPropertyLabel,
    .subPropertyRel, .domainRel, .rangeRel, .forced]

theorem mem_shownKeys (k : Key) : k ∈ shownKeys := by cases k <;> decide

/-- The line of a key. -/
def line (c : GraphConfig) (k : Key) : Option Item := (c.shownValue k).map (Prod.mk k.name)

theorem items_eq (c : GraphConfig) : c.items = shownKeys.filterMap c.line := by
  -- only the four fields that may be absent decide which lines there are
  obtain ⟨vocab, multival, types, lang, naming, custom, props, customProps, ns, label, names, forced⟩ := c
  cases props <;> cases customProps <;> cases ns <;> cases label <;> rfl

theorem nodup_keys_items (c : GraphConfig) : (c.items.map Prod.fst).Nodup := by
  rw [items_eq, List.map_filterMap]
  refine List.Nodup.filterMap ?_ (by decide)
  -- a line shows its key, and the key its field
  have hname : ∀ (k : Key) (s : String), s ∈ (c.line k).map Prod.fst → s = k.name := by
    intro k s hs
    simp only [line, Option.map_map, Option.mem_def, Option.map_eq_some_iff] at hs
    obtain ⟨_, -, rfl⟩ := hs
    rfl
  intro j k s hj hk
  exact Key.name_inj ((hname j s hj).symm.trans (hname k s hk))

theorem find_filterMap_line (c : GraphConfig) (k : Key) (ks : List Key) :
    Dict.find k.name (ks.filterMap c.line) = if k ∈ ks then c.shownValue k else none := by
  induction ks with
  | nil => rfl
  | cons j ks ih =>
    by_cases hk : k = j
    · subst hk
      cases hv : c.shownValue k with
      | none => simp [line, hv, ih]
      | some v => simp [line, hv, Dict.find]
    · have hname : k.name ≠ j.name := mt Key.name_inj hk
      cases hv : c.shownValue j with
      | none => simp [line, hv, ih, hk]
      | some v => simp [line, hv, ih, hk, hname, Dict.find]

theorem get?_ofList_items (c : GraphConfig) (k : Key) : (Dict.ofList c.items).get? k.name = c.shownValue k := by
  rw [Dict.get?_ofList c.nodup_keys_items, items_eq, find_filterMap_line, if_pos (mem_shownKeys k)]

/-! ## Reading lines as a bag -/

/-- A bag with the shown values under their keys is read as the configuration. -/
theorem ofBag_of_values {c : GraphConfig} {b : Bag} (hc : ∀ f : CheckedField, f.accepts (f.inUse c) = true)
    (h : ∀ k : Key, b.get? k.name = c.shownValue k) : ofBag b = .ok c := by
  have flag : ∀ (k : Key) (x : Bool), c.shownValue k = some (.bool x) → x = (false || b.isTrue k.name) := by
    intro k x hx
    simp [Bag.isTrue, h, hx]
  have string : ∀ (k : Key) (s : String), c.shownValue k = some (.string s) → b.string? k.name = some s := by
    intro k s hs
    simp [Bag.string?, h, hs, Value.string?]
  have set : ∀ (k : Key) (s : Option NameSet), c.shownValue k = s.map NameSet.toValue →
      s = mergeSet none (b.get? k.name) := by
    intro k s hs
    rw [h, hs]
    cases s with
    | none => rfl
    | some s => exact (NameSet.ofValue?_toValue s).symm
  have checked : ∀ f : CheckedField, c.shownValue f.key = (f.value c).map .string →
      f.value c = mergeChecked f.accepts none (b.string? f.key.name) := by
    intro f hf
    have hs : b.string? f.key.name = f.value c := by
      cases hv : f.value c <;> simp [Bag.string?, h, hf, hv, Value.string?]
    have hall : (f.value c).filter f.accepts = f.value c := by
      cases hv : f.value c with
      | none => rfl
      | some s => simp [CheckedField.accepts_inUse_iff.1 (hc f) s hv]
    rw [hs, mergeChecked, hall, Option.or_none]
  have names : c.names = mergeNames {} b := by
    simp only [mergeNames, string .classLabel _ rfl, string .subClassRel _ rfl, string .dataPropertyLabel _ rfl,
      string .objectPropertyLabel _ rfl, string .subPropertyRel _ rfl, string .domainRel _ rfl, string .rangeRel _ rfl,
      Option.getD_some]
  refine add_eq_ok.2 ⟨?_, ?_, ?_, flag .keepLangTag _ rfl, flag .applyNaming _ rfl, flag .keepCustomTypes _ rfl,
    set .multivalProps _ rfl, set .customTypeProps _ rfl, checked .schemaNamespace rfl, checked .schemaPrefix rfl,
    names, ?_⟩
  · rw [h]
    exact mergePolicy_name _ c.vocab
  · rw [h]
    exact mergePolicy_name _ c.multival
  · rw [h]
    exact mergePolicy_name _ c.types
  · rw [h]
    rfl

/-- Whatever bags a configuration has been updated with, its lines have different keys, and the bag made of them gives
the configuration back. -/
theorem ofBag_items (bs : List Bag) :
    ((bs.foldl addOrKeep {}).items.map Prod.fst).Nodup ∧
    ofBag (Dict.ofList (bs.foldl addOrKeep {}).items) = .ok (bs.foldl addOrKeep {}) := by
  have hc : ∀ f : CheckedField, f.accepts (f.inUse (bs.foldl addOrKeep {})) = true := fun f =>
    CheckedField.accepts_inUse_foldl f.accepts_inUse_default bs
  exact ⟨nodup_keys_items _, ofBag_of_values hc (get?_ofList_items _)⟩

end GraphConfig

end ShapePlan
