/-
The namespace and the prefix of a schema. A bag sets them only to strings that pass their check, so every configuration
that starts from a bag has a namespace and a prefix that can be used. Storage is read without the check: what it holds
counts as it is, until a bag sets it anew.
-/
import ShapePlan.Config.Stored
import ShapePlan.Proofs.Config.Merging

namespace ShapePlan

theorem Bag.string?_eq_some {b : Bag} {k s : String} : b.string? k = some s ↔ b.get? k = some (.string s) := by
  unfold string?
  constructor
  · intro h
    obtain ⟨v, hv, hs⟩ := Option.bind_eq_some_iff.1 h
    cases v with
    | string t =>
      cases hs
      exact hv
    | _ => cases hs
  · intro h
    rw [h]
    rfl

/-! ## Fields that are checked -/

/-- The fields that a bag sets only to a string that passes a check. -/
inductive CheckedField where
  | schemaNamespace
  | schemaPrefix
deriving DecidableEq, Repr

namespace CheckedField

open GraphConfig

def key : CheckedField → Key
  | .schemaNamespace => .schemaNamespace
  | .schemaPrefix => .schemaPrefix

def accepts : CheckedField → String → Bool
  | .schemaNamespace => isNamespace
  | .schemaPrefix => Iri.isPrefixName

def value : CheckedField → GraphConfig → Option String
  | .schemaNamespace => GraphConfig.schemaNamespace
  | .schemaPrefix => GraphConfig.schemaPrefix

def fallback : CheckedField → String
  | .schemaNamespace => defaultNamespace
  | .schemaPrefix => defaultPrefix

/-- What counts for a configuration: its own string, or else the fallback. -/
def inUse (f : CheckedField) (c : GraphConfig) : String := (f.value c).getD f.fallback

variable {f : CheckedField} {b : Bag} {c d : GraphConfig}

theorem accepts_fallback (f : CheckedField) : f.accepts f.fallback = true := by
  cases f <;> decide

theorem accepts_inUse_iff : f.accepts (f.inUse c) = true ↔ ∀ s, f.value c = some s → f.accepts s = true := by
  unfold inUse
  cases f.value c with
  | none => simp [f.accepts_fallback]
  | some s => simp

/-! ## Merging -/

theorem value_of_merges (h : Merges c b d) :
    f.value d = mergeChecked f.accepts (f.value c) (b.string? f.key.name) := by
  cases f with
  | schemaNamespace => exact h.schemaNamespace
  | schemaPrefix => exact h.schemaPrefix

/-- A bag gives a string that passes the check. -/
def IsSetBy (f : CheckedField) (b : Bag) : Prop := ∃ s, b.get? f.key.name = some (.string s) ∧ f.accepts s = true

/-- Merging never takes a string that passes away, and brings one only from the bag. -/
theorem accepts_inUse_of_merges (h : Merges c b d) :
    f.accepts (f.inUse d) = true ↔ f.accepts (f.inUse c) = true ∨ f.IsSetBy b := by
  have hset : f.IsSetBy b ↔ ∃ s, (b.string? f.key.name).filter f.accepts = some s := by
    simp only [IsSetBy, Option.filter_eq_some_iff, Bag.string?_eq_some]
  rw [hset, inUse, inUse, value_of_merges h, mergeChecked]
  cases hs : (b.string? f.key.name).filter f.accepts with
  | none => simp
  | some s => simp [(Option.filter_eq_some_iff.1 hs).2]

/-- Along any number of merges a string that passes comes from the start or from one of the bags. -/
theorem accepts_inUse_foldlM {bs : List Bag} (h : bs.foldlM add c = .ok d) :
    f.accepts (f.inUse d) = true ↔ f.accepts (f.inUse c) = true ∨ ∃ b ∈ bs, f.IsSetBy b := by
  induction bs generalizing c with
  | nil =>
    cases h
    simp
  | cons b bs ih =>
    rw [List.foldlM_cons] at h
    obtain ⟨c', hc', h⟩ := bind_eq_ok.1 h
    rw [ih h, accepts_inUse_of_merges (add_eq_ok.1 hc'), List.exists_mem_cons_iff, or_assoc]

/-- A string that passes is kept along every history. -/
theorem accepts_inUse_foldl (hc : f.accepts (f.inUse c) = true) (bs : List Bag) :
    f.accepts (f.inUse (bs.foldl addOrKeep c)) = true := by
  refine List.foldlRecOn (motive := fun c => f.accepts (f.inUse c) = true) bs addOrKeep hc ?_
  intro c hc b _
  rcases addOrKeep_cases c b with hm | hk
  · exact (accepts_inUse_of_merges hm).2 (.inl hc)
  · rw [hk]
    exact hc

/-! ## Starting -/

theorem accepts_inUse_default (f : CheckedField) : f.accepts (f.inUse {}) = true := by
  have h : f.inUse {} = f.fallback := by cases f <;> rfl
  rw [h]
  exact f.accepts_fallback

theorem accepts_inUse_ofBag (h : ofBag b = .ok c) : f.accepts (f.inUse c) = true :=
  (accepts_inUse_of_merges (add_eq_ok.1 h)).2 (.inl f.accepts_inUse_default)

theorem value_ofStored (h : ofStored b = .ok c) : f.value c = b.string? f.key.stored := by
  obtain ⟨vocab, -, h⟩ := bind_eq_ok.1 h
  obtain ⟨multival, -, h⟩ := bind_eq_ok.1 h
  obtain ⟨types, -, h⟩ := bind_eq_ok.1 h
  cases h
  cases f <;> rfl

theorem accepts_inUse_ofStored (h : ofStored b = .ok c) :
    f.accepts (f.inUse c) = true ↔ ∀ s, b.get? f.key.stored = some (.string s) → f.accepts s = true := by
  simp only [accepts_inUse_iff, value_ofStored h, Bag.string?_eq_some]

end CheckedField

namespace GraphConfig

open CheckedField

/-- However often a configuration is updated, its namespace and its prefix can be used if it was made from a bag. If it
was read from storage, each of them can be used if and only if what was stored for it is no string or passes the check,
or one of the bags has set it. -/
theorem namespace_and_prefix_validated (b : Bag) (bs : List Bag) (c d : GraphConfig) (hd : bs.foldlM add c = .ok d) :
    (ofBag b = .ok c →
      Iri.isCorrectSplit d.baseNamespace "someLocalName" = true ∧ Iri.isPrefixName d.basePrefix = true) ∧
    (ofStored b = .ok c →
      (Iri.isCorrectSplit d.baseNamespace "someLocalName" = true ↔
        (∀ s, b.get? "_baseSchemaNamespace" = some (.string s) → Iri.isCorrectSplit s "someLocalName" = true) ∨
        ∃ b' ∈ bs, ∃ s, b'.get? "baseSchemaNamespace" = some (.string s) ∧
          Iri.isCorrectSplit s "someLocalName" = true) ∧
      (Iri.isPrefixName d.basePrefix = true ↔
        (∀ s, b.get? "_baseSchemaPrefix" = some (.string s) → Iri.isPrefixName s = true) ∨
        ∃ b' ∈ bs, ∃ s, b'.get? "baseSchemaPrefix" = some (.string s) ∧ Iri.isPrefixName s = true)) := by
  constructor
  · intro hc
    have hbag : ∀ f : CheckedField, f.accepts (f.inUse d) = true := fun f =>
      (accepts_inUse_foldlM hd).2 (.inl (accepts_inUse_ofBag hc))
    exact ⟨hbag .schemaNamespace, hbag .schemaPrefix⟩
  · intro hc
    have hstored : ∀ f : CheckedField, f.accepts (f.inUse d) = true ↔
        (∀ s, b.get? f.key.stored = some (.string s) → f.accepts s = true) ∨ ∃ b' ∈ bs, f.IsSetBy b' := by
      intro f
      rw [accepts_inUse_foldlM hd, accepts_inUse_ofStored hc]
    exact ⟨hstored .schemaNamespace, hstored .schemaPrefix⟩

/-- A mapping with a namespace and a prefix that no bag could have set. -/
def foreignMapping : Bag :=
  Dict.ofList [("_baseSchemaNamespace", .string "not a namespace"), ("_baseSchemaPrefix", .string "9lives")]

/-- A bag with a namespace that can be used and a prefix that cannot. -/
def mendingBag : Bag := Dict.ofList [("baseSchemaNamespace", .string "urn:s:"), ("baseSchemaPrefix", .string "0")]

theorem namespace_and_prefix_validated_mendingBag :
    ∃ c d, ofStored foreignMapping = .ok c ∧ [mendingBag].foldlM add c = .ok d ∧
      Iri.isCorrectSplit d.baseNamespace "someLocalName" = true ∧ Iri.isPrefixName d.basePrefix = false := by
  refine ⟨_, _, rfl, rfl, ?_, by decide⟩
  have hstored := (namespace_and_prefix_validated foreignMapping [mendingBag] _ _ rfl).2 rfl
  exact hstored.1.2 (.inr ⟨mendingBag, List.mem_cons_self, "urn:s:", by decide, by decide⟩)

/-- Neither of the two can be used when the mapping has been read. -/
theorem foreignMapping_not_validated :
    ∃ c, ofStored foreignMapping = .ok c ∧ Iri.isCorrectSplit c.baseNamespace "someLocalName" = false ∧
      Iri.isPrefixName c.basePrefix = false :=
  ⟨_, rfl, by decide, by decide⟩

end GraphConfig

end ShapePlan
