/-
Histories of updates. A bag is taken if every policy that it carries is named by a string of the closed set. The
configuration at the end of a history is told by the bags that were taken, field by field: a policy, a set and the
properties of an import follow the last bag that carries their key, a string the last bag that gives one that can be
used, and a flag stays on once it is on.
-/
import Mathlib.Data.List.Induction
import ShapePlan.Proofs.Ascending
import ShapePlan.Proofs.Config.Items

namespace ShapePlan

/-! ## Bags that are taken -/

/-- A bag that carries the key names a policy under it. -/
def Bag.namesPolicy (b : Bag) (α : Type) [Policy α] (k : Key) : Bool :=
  (b.get? k.name).all fun v => (Policy.all : List α).any fun p => v = .string (Policy.name p)

def Bag.isTaken (b : Bag) : Bool :=
  b.namesPolicy VocabPolicy .vocab && b.namesPolicy MultivalPolicy .multival && b.namesPolicy TypesPolicy .types

namespace GraphConfig

variable {α : Type} [Policy α]

theorem mergePolicy_eq_ok [LawfulPolicy α] {old p : α} {o : Option Value} :
    mergePolicy old o = .ok p ↔ o = none ∧ p = old ∨ o = some (.string (Policy.name p)) := by
  cases o with
  | none => simp [mergePolicy, eq_comm]
  | some v =>
    constructor
    · intro h
      exact .inr (congrArg some (Policy.mem_all_of_ofValue h).2)
    · rintro (⟨h, -⟩ | h)
      · cases h
      · rw [h]
        exact mergePolicy_name old p

theorem nameCauses_eq_nil {b : Bag} {k : Key} :
    Policy.nameCauses α (b.get? k.name) = [] ↔ b.namesPolicy α k = true := by
  unfold Bag.namesPolicy
  cases b.get? k.name with
  | none => exact ⟨fun _ => rfl, fun _ => rfl⟩
  | some v =>
    rw [Policy.nameCauses, Option.all_some, List.any_eq_true, ite_eq_left_iff]
    simp only [List.cons_ne_nil, imp_false, not_not, List.mem_map, Function.comp_apply, decide_eq_true_eq,
      eq_comm (a := v)]

theorem bagCauses_eq_nil {b : Bag} : bagCauses b = [] ↔ b.isTaken = true := by
  simp only [bagCauses, Bag.isTaken, List.append_eq_nil_iff, nameCauses_eq_nil, Bool.and_eq_true]

/-- Whether a bag is taken does not depend on the configuration. -/
theorem exists_add_iff (c : GraphConfig) (b : Bag) : (∃ d, c.add b = .ok d) ↔ b.isTaken = true := by
  rw [← error?_eq_none, error?_add, List.head?_eq_none_iff, bagCauses_eq_nil]

/-- The only reason not to take a bag is a policy outside of its closed set. -/
theorem add_error {c : GraphConfig} {b : Bag} {e : ConfigError} (h : c.add b = .error e) :
    ∃ param value, e = .invalidParam param value := by
  rw [← error?_eq_some, error?_add] at h
  have hmem : e ∈ bagCauses b := List.mem_of_head? h
  simp only [bagCauses, List.mem_append] at hmem
  rcases hmem with (hvocab | hmultival) | htypes
  · exact Policy.invalid_of_mem_nameCauses hvocab
  · exact Policy.invalid_of_mem_nameCauses hmultival
  · exact Policy.invalid_of_mem_nameCauses htypes

theorem isTaken_eq_false_iff (c : GraphConfig) (b : Bag) :
    b.isTaken = false ↔ ∃ param value, c.add b = .error (.invalidParam param value) := by
  rw [← Bool.not_eq_true, ← exists_add_iff c, ← error?_eq_none, ← ne_eq, Option.ne_none_iff_exists']
  simp only [error?_eq_some]
  constructor
  · rintro ⟨e, he⟩
    obtain ⟨param, value, rfl⟩ := add_error he
    exact ⟨param, value, he⟩
  · rintro ⟨param, value, h⟩
    exact ⟨_, h⟩

/-! ## What the fields follow -/

/-- What the last of the bags that give something gives. -/
def latest {β : Type} (read : Bag → Option β) (bs : List Bag) : Option β := bs.reverse.findSome? read

theorem latest_concat {β : Type} (read : Bag → Option β) (bs : List Bag) (b : Bag) :
    latest read (bs ++ [b]) = (read b).or (latest read bs) := by
  rw [latest, List.reverse_concat, List.findSome?_cons]
  cases read b <;> rfl

/-- The value under a key in the last of the bags that carry it. -/
def carried (k : Key) (bs : List Bag) : Option Value := latest (·.get? k.name) bs

theorem carried_concat (k : Key) (bs : List Bag) (b : Bag) :
    carried k (bs ++ [b]) = (b.get? k.name).or (carried k bs) :=
  latest_concat _ bs b

/-- The last bag that carries the key names the policy. -/
def IsPolicyOf (k : Key) (bs : List Bag) (p : α) : Prop :=
  match carried k bs with
  | none => p = Policy.default
  | some v => v = .string (Policy.name p)

def IsFlagOf (k : Key) (bs : List Bag) (on : Bool) : Prop :=
  on = true ↔ ∃ b ∈ bs, b.get? k.name = some (.bool true)

/-- The set has the strings of the list in the last bag that carries the key. -/
def IsSetOf (k : Key) (bs : List Bag) (s : Option NameSet) : Prop :=
  match carried k bs with
  | some (.list items) => ∃ t, s = some t ∧ ∀ x, x ∈ t ↔ Value.string x ∈ items
  | _ => s = none

/-- The object in the last bag that carries the key. -/
def forcedBy (bs : List Bag) : Bag :=
  match carried .forced bs with
  | some (.object d) => d
  | _ => Dict.empty

/-- The names of schema elements under their keys. -/
def nameFields : List (Key × (SchemaNames → String)) :=
  [(.classLabel, (·.classLabel)), (.subClassRel, (·.subClassRel)), (.dataPropertyLabel, (·.dataPropertyLabel)),
    (.objectPropertyLabel, (·.objectPropertyLabel)), (.subPropertyRel, (·.subPropertyRel)), (.domainRel, (·.domainRel)),
    (.rangeRel, (·.rangeRel))]

/-- A configuration follows the bags of a history. -/
structure Follows (bs : List Bag) (c : GraphConfig) : Prop where
  vocab : IsPolicyOf .vocab bs c.vocab
  multival : IsPolicyOf .multival bs c.multival
  types : IsPolicyOf .types bs c.types
  keepLangTag : IsFlagOf .keepLangTag bs c.keepLangTag
  applyNaming : IsFlagOf .applyNaming bs c.applyNaming
  keepCustomTypes : IsFlagOf .keepCustomTypes bs c.keepCustomTypes
  multivalProps : IsSetOf .multivalProps bs c.multivalProps
  customTypeProps : IsSetOf .customTypeProps bs c.customTypeProps
  checked : ∀ f : CheckedField, f.value c = latest (fun b => (b.string? f.key.name).filter f.accepts) bs
  names : ∀ f ∈ nameFields, f.2 c.names = (latest (·.string? f.1.name) bs).getD (f.2 {})
  forced : c.forced = forcedBy bs

/-! ## One more bag -/

section Step

variable {k : Key} {bs : List Bag} {b : Bag}

theorem IsPolicyOf.concat [LawfulPolicy α] {p q : α} (h : IsPolicyOf k bs p)
    (hq : mergePolicy p (b.get? k.name) = .ok q) : IsPolicyOf k (bs ++ [b]) q := by
  unfold IsPolicyOf
  rw [carried_concat]
  rcases mergePolicy_eq_ok.1 hq with ⟨hb, rfl⟩ | hb
  · rw [hb, Option.none_or]
    exact h
  · rw [hb, Option.some_or]

theorem IsFlagOf.concat {on : Bool} (h : IsFlagOf k bs on) : IsFlagOf k (bs ++ [b]) (on || b.isTrue k.name) := by
  unfold IsFlagOf at h ⊢
  rw [Bool.or_eq_true, h, Bag.isTrue, decide_eq_true_eq]
  simp only [List.mem_append, List.mem_singleton, or_and_right, exists_or, exists_eq_left]

theorem mem_filterMap_string? {x : String} {items : List Value} :
    x ∈ items.filterMap Value.string? ↔ Value.string x ∈ items := by
  rw [List.mem_filterMap]
  constructor
  · rintro ⟨v, hv, hx⟩
    cases v with
    | string s =>
      cases hx
      exact hv
    | _ => cases hx
  · intro h
    exact ⟨_, h, rfl⟩

theorem IsSetOf.concat {s : Option NameSet} (h : IsSetOf k bs s) :
    IsSetOf k (bs ++ [b]) (mergeSet s (b.get? k.name)) := by
  unfold IsSetOf
  rw [carried_concat]
  cases b.get? k.name with
  | none => exact h
  | some v =>
    rw [Option.some_or]
    cases v with
    | list items => exact ⟨_, rfl, fun x => NameSet.mem_ofList.trans mem_filterMap_string?⟩
    | _ => rfl

theorem forcedBy_concat (bs : List Bag) (b : Bag) :
    forcedBy (bs ++ [b]) = mergeForced (forcedBy bs) (b.get? Key.forced.name) := by
  rw [forcedBy, carried_concat]
  cases b.get? Key.forced.name with
  | none => rfl
  | some v => cases v <;> rfl

theorem mergeNames_field (old : SchemaNames) (b : Bag) :
    ∀ f ∈ nameFields, f.2 (mergeNames old b) = (b.string? f.1.name).getD (f.2 old) := by
  simp only [nameFields, List.forall_mem_cons, List.not_mem_nil, false_imp_iff, implies_true, and_true]
  exact ⟨rfl, rfl, rfl, rfl, rfl, rfl, rfl⟩

theorem Follows.concat {c d : GraphConfig} (h : Follows bs c) (hm : Merges c b d) : Follows (bs ++ [b]) d where
  vocab := h.vocab.concat hm.vocab
  multival := h.multival.concat hm.multival
  types := h.types.concat hm.types
  keepLangTag := hm.keepLangTag ▸ h.keepLangTag.concat
  applyNaming := hm.applyNaming ▸ h.applyNaming.concat
  keepCustomTypes := hm.keepCustomTypes ▸ h.keepCustomTypes.concat
  multivalProps := hm.multivalProps ▸ h.multivalProps.concat
  customTypeProps := hm.customTypeProps ▸ h.customTypeProps.concat
  checked f := by rw [CheckedField.value_of_merges hm, latest_concat, mergeChecked, h.checked f]
  names f hf := by
    rw [hm.names, mergeNames_field _ _ f hf, latest_concat, h.names f hf]
    cases b.string? f.1.name <;> rfl
  forced := by rw [hm.forced, forcedBy_concat, h.forced]

end Step

theorem follows_default : Follows [] {} where
  vocab := rfl
  multival := rfl
  types := rfl
  keepLangTag := by simp [IsFlagOf]
  applyNaming := by simp [IsFlagOf]
  keepCustomTypes := by simp [IsFlagOf]
  multivalProps := rfl
  customTypeProps := rfl
  checked f := by cases f <;> rfl
  names _ _ := rfl
  forced := rfl

/-- Bags that are not taken leave no trace. -/
theorem follows_history (bs : List Bag) : Follows (bs.filter Bag.isTaken) (bs.foldl addOrKeep {}) := by
  induction bs using List.reverseRecOn with
  | nil => exact follows_default
  | append_singleton bs b ih =>
    rw [List.foldl_concat, List.filter_append]
    by_cases hb : b.isTaken = true
    · obtain ⟨d, hd⟩ := (exists_add_iff (bs.foldl addOrKeep {}) b).2 hb
      rw [addOrKeep, hd, List.filter_cons_of_pos hb, List.filter_nil]
      exact ih.concat (add_eq_ok.1 hd)
    · obtain ⟨param, value, he⟩ := (isTaken_eq_false_iff (bs.foldl addOrKeep {}) b).1 (Bool.eq_false_of_not_eq_true hb)
      rw [addOrKeep, he, List.filter_cons_of_neg hb, List.filter_nil, List.append_nil]
      exact ih

/-! ## The fields tell the configuration -/

section Unique

variable {k : Key} {bs : List Bag}

theorem IsPolicyOf.unique [LawfulPolicy α] {p q : α} (hp : IsPolicyOf k bs p) (hq : IsPolicyOf k bs q) : p = q := by
  unfold IsPolicyOf at hp hq
  cases hv : carried k bs with
  | none =>
    simp only [hv] at hp hq
    exact hp.trans hq.symm
  | some v =>
    simp only [hv] at hp hq
    have hname : Policy.name p = Policy.name q := Value.string.inj (hp.symm.trans hq)
    have hok : (Except.ok p : Except ConfigError α) = .ok q := by
      rw [← LawfulPolicy.ofName_name p, hname, LawfulPolicy.ofName_name q]
    exact Except.ok.inj hok

theorem IsFlagOf.unique {x y : Bool} (hx : IsFlagOf k bs x) (hy : IsFlagOf k bs y) : x = y :=
  Bool.eq_iff_iff.2 (hx.trans hy.symm)

theorem IsSetOf.unique {s t : Option NameSet} (hs : IsSetOf k bs s) (ht : IsSetOf k bs t) : s = t := by
  unfold IsSetOf at hs ht
  cases hv : carried k bs with
  | none =>
    simp only [hv] at hs ht
    exact hs.trans ht.symm
  | some v =>
    simp only [hv] at hs ht
    cases v with
    | list items =>
      obtain ⟨s, rfl, hs⟩ := hs
      obtain ⟨t, rfl, ht⟩ := ht
      exact congrArg some (NameSet.ext fun x => (hs x).trans (ht x).symm)
    | _ => exact hs.trans ht.symm

theorem names_ext {m n : SchemaNames} (h : ∀ f ∈ nameFields, f.2 m = f.2 n) : m = n := by
  simp only [nameFields, List.forall_mem_cons, List.not_mem_nil, false_imp_iff, implies_true, and_true] at h
  cases m
  cases n
  simpa using h

theorem Follows.unique {c d : GraphConfig} (hc : Follows bs c) (hd : Follows bs d) : c = d := by
  have hchecked : ∀ f : CheckedField, f.value c = f.value d := fun f => (hc.checked f).trans (hd.checked f).symm
  have hnames : c.names = d.names := names_ext fun f hf => (hc.names f hf).trans (hd.names f hf).symm
  obtain ⟨⟩ := c
  obtain ⟨⟩ := d
  simp only [mk.injEq]
  exact ⟨hc.vocab.unique hd.vocab, hc.multival.unique hd.multival, hc.types.unique hd.types,
    hc.keepLangTag.unique hd.keepLangTag, hc.applyNaming.unique hd.applyNaming,
    hc.keepCustomTypes.unique hd.keepCustomTypes, hc.multivalProps.unique hd.multivalProps,
    hc.customTypeProps.unique hd.customTypeProps, hchecked .schemaNamespace, hchecked .schemaPrefix, hnames,
    hc.forced.trans hd.forced.symm⟩

end Unique

/-- A bag is taken unless it carries a policy key with anything but the name of a policy, whatever the configuration
it is merged into; otherwise it is refused for that policy and changes nothing. The configuration at the end of a
history is the only one that follows the bags that were taken. -/
theorem history_follows_taken_bags (bs : List Bag) :
    (∀ (c : GraphConfig) (b : Bag), (b.isTaken = true ↔ ∃ d, c.add b = .ok d) ∧
      (b.isTaken = false ↔ ∃ param value, c.add b = .error (.invalidParam param value))) ∧
    ∀ c, c = bs.foldl addOrKeep {} ↔ Follows (bs.filter Bag.isTaken) c := by
  refine ⟨fun c b => ⟨(exists_add_iff c b).symm, isTaken_eq_false_iff c b⟩, fun c => ⟨?_, fun h => ?_⟩⟩
  · rintro rfl
    exact follows_history bs
  · exact h.unique (follows_history bs)

-- the second bag is refused with its label, and the fourth takes the set of the third away
example : [Dict.ofList [("keepLangTag", .bool true), ("classLabel", .string "C")],
    Dict.ofList [("handleRDFTypes", .string "labels"), ("classLabel", .string "D")],
    Dict.ofList [("keepLangTag", .bool false), ("classLabel", .null), ("multivalPropList", .list [.string "p"])],
    Dict.ofList [("multivalPropList", .string "p"), ("baseSchemaPrefix", .string "0")]].foldl addOrKeep {} =
      { keepLangTag := true, names := { classLabel := "C" } } := by decide

end GraphConfig

end ShapePlan
