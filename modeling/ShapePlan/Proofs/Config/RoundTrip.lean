/-
What storage can hold. Nothing but a value that is no code of its policy makes reading fail, and the first such value
gives the error (`GraphConfig.ofStored_eq_error`). What has been read is stored and read again without a change.
-/
import ShapePlan.Proofs.Config.Stored

namespace ShapePlan

/-! ## Policies -/

namespace Policy

variable {α : Type} [Policy α] {o : Option Value} {e : ConfigError}

/-- A value is stored, it is not null, and it is no code of the policy. The error names the policy. -/
def Refuses (α : Type) [Policy α] (o : Option Value) (e : ConfigError) : Prop :=
  ∃ v, o = some v ∧ v ≠ .null ∧ (∀ p : α, v ≠ .int (code p)) ∧ e = .invalidParam (param α) v.text

/-- The values that are refused are the causes. -/
theorem head?_codeCauses [LawfulPolicy α] : (codeCauses α o).head? = some e ↔ Refuses α o e := by
  cases o with
  | none => exact ⟨nofun, nofun⟩
  | some v =>
    by_cases hv : v = .null
    · subst hv
      exact ⟨nofun, fun ⟨_, h, hne, _⟩ => absurd (Option.some.inj h).symm hne⟩
    · rw [codeCauses_some hv]
      by_cases hmem : v ∈ (all : List α).map (.int ∘ code)
      · obtain ⟨p, -, rfl⟩ := List.mem_map.1 hmem
        rw [if_pos hmem]
        exact ⟨nofun, fun ⟨_, h, _, hne, _⟩ => absurd (Option.some.inj h).symm (hne p)⟩
      · have hne : ∀ p : α, v ≠ .int (code p) := fun p h => hmem (List.mem_map.2 ⟨p, mem_all p, h.symm⟩)
        rw [if_neg hmem, List.head?_cons, Option.some.injEq]
        constructor
        · rintro rfl
          exact ⟨v, rfl, hv, hne, rfl⟩
        · rintro ⟨w, hw, -, -, rfl⟩
          cases hw
          rfl

/-- Reading fails over exactly the values that are refused. -/
theorem ofStored_eq_error [LawfulPolicy α] :
    (ofStored o : Except ConfigError α) = .error e ↔ Refuses α o e := by
  rw [← error?_eq_some, error?_ofStored, head?_codeCauses]

end Policy

/-! ## Configurations -/

namespace GraphConfig

open Policy

/-- The first of the policies that is refused gives the error. -/
theorem ofStored_eq_error {b : Bag} {e : ConfigError} : ofStored b = .error e ↔
    Refuses VocabPolicy (b.get? Key.vocab.stored) e ∨
    (∀ e', ¬ Refuses VocabPolicy (b.get? Key.vocab.stored) e') ∧
      (Refuses MultivalPolicy (b.get? Key.multival.stored) e ∨
      (∀ e', ¬ Refuses MultivalPolicy (b.get? Key.multival.stored) e') ∧
        Refuses TypesPolicy (b.get? Key.types.stored) e) := by
  rw [← error?_eq_some, error?_ofStored, storedCauses, List.append_assoc, List.head?_append, List.head?_append,
    Option.or_eq_some_iff, Option.or_eq_some_iff]
  simp only [Option.eq_none_iff_forall_ne_some, ne_eq, head?_codeCauses]

theorem withoutIdentity_of_ofStored {b : Bag} {c : GraphConfig} (h : ofStored b = .ok c) : c.withoutIdentity = c := by
  have forced : ∀ o, (storedForced o).erase identityKey = storedForced o := by
    intro o
    cases o with
    | none => rfl
    | some v =>
      cases v with
      | object d => exact Dict.erase_erase d identityKey
      | _ => rfl
  obtain ⟨vocab, -, h⟩ := bind_eq_ok.1 h
  obtain ⟨multival, -, h⟩ := bind_eq_ok.1 h
  obtain ⟨types, -, h⟩ := bind_eq_ok.1 h
  cases h
  simp only [withoutIdentity, forced]

/-- A stored configuration is read as it was, save for the identity of its forced properties; any mapping is read,
unless one of the policies is no code; and storing what has been read changes nothing. -/
theorem ofStored_faithful :
    (∀ c : GraphConfig, ofStored c.toStored = .ok { c with forced := c.forced.erase "identity" }) ∧
    (∀ (b : Bag) (e : ConfigError), ofStored b = .error e ↔
      Refuses VocabPolicy (b.get? "_handleVocabUris") e ∨
      (∀ e', ¬ Refuses VocabPolicy (b.get? "_handleVocabUris") e') ∧
        (Refuses MultivalPolicy (b.get? "_handleMultival") e ∨
        (∀ e', ¬ Refuses MultivalPolicy (b.get? "_handleMultival") e') ∧
          Refuses TypesPolicy (b.get? "_handleRDFTypes") e)) ∧
    ∀ (b : Bag) (c : GraphConfig), ofStored b = .ok c → ofStored c.toStored = .ok c := by
  refine ⟨fun c => ofStored_of_values (get?_toStored c), fun b e => ofStored_eq_error, fun b c h => ?_⟩
  rw [ofStored_of_values (get?_toStored c), withoutIdentity_of_ofStored h]

/-- A mapping with a policy that is null, a list with more than strings in it, and an identity. -/
def untidyBag : Bag :=
  Dict.ofList
    [("_handleVocabUris", .null), ("_handleMultival", .int 1), ("_keepLangTag", .string "true"),
      ("_multivalPropList", .list [.string "u:#q", .bool true, .string "u:#p"]),
      ("_forciblyAssignedOnImportNodeProperties", .object (Dict.ofList [("batch", .int 3), ("identity", .int 7)]))]

theorem ofStored_faithful_untidyBag :
    (∃ c, ofStored untidyBag = .ok c ∧ c.forced = Dict.ofList [("batch", .int 3)] ∧ ofStored c.toStored = .ok c) ∧
    ofStored (untidyBag.insert "_handleRDFTypes" (.string "LABELS")) =
      .error (.invalidParam "handleRDFTypes" "\"LABELS\"") := by
  refine ⟨⟨_, rfl, by decide, ofStored_faithful.2.2 untidyBag _ rfl⟩, ?_⟩
  refine (ofStored_faithful.2.1 _ _).2 (.inr ⟨?_, .inr ⟨?_, ?_⟩⟩)
  · rintro e ⟨v, hv, hne, -⟩
    cases hv
    exact hne rfl
  · rintro e ⟨v, hv, -, hne, -⟩
    cases hv
    exact hne .array rfl
  · exact ⟨.string "LABELS", by decide, nofun, nofun, by decide⟩

end GraphConfig

end ShapePlan
