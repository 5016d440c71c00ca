/-
Reading policies. A bag names a policy and storage holds its code; any other value is a cause, and reading fails over
the first cause there is (`GraphConfig.error?_add`, `GraphConfig.error?_ofStored`).
-/
import ShapePlan.Config.Stored
import ShapePlan.Proofs.Result

namespace ShapePlan

/-- Policies that are read back from their names and from their codes. -/
class LawfulPolicy (α : Type) [Policy α] : Prop where
  ofName_name : ∀ p : α, Policy.ofName (Policy.name p) = .ok p
  ofStored_code : ∀ p : α, Policy.ofStored (some (.int (Policy.code p))) = .ok p

instance : LawfulPolicy VocabPolicy := ⟨fun p => by cases p <;> rfl, fun p => by cases p <;> rfl⟩

instance : LawfulPolicy MultivalPolicy := ⟨fun p => by cases p <;> rfl, fun p => by cases p <;> rfl⟩

instance : LawfulPolicy TypesPolicy := ⟨fun p => by cases p <;> rfl, fun p => by cases p <;> rfl⟩

namespace Value

/-- The text by which a value of a bag is reported. -/
def given : Value → String
  | .string s => s
  | v => v.text

theorem eq_int_of_int64? {v : Value} {n : Int64} (h : v.int64? = some n) : v = .int n.toInt := by
  obtain ⟨m, hm, hn⟩ := Option.bind_eq_some_iff.1 h
  cases v with
  | number k =>
    cases hm
    cases m with
    | float x => cases hn
    | int i =>
      simp only [Number.int64?] at hn
      split at hn
      · next hrange =>
        cases hn
        rw [Int64.toInt_minValue, Int64.toInt_maxValue] at hrange
        rw [Int64.toInt_ofInt_of_le (by omega) (by omega)]
        rfl
      · cases hn
  | _ => cases hm

end Value

namespace Policy

variable {α : Type} [Policy α] {o : Option Value} {e : ConfigError}

/-! ## Names -/

/-- A bag gives a value that is no name of the policy. -/
def nameCauses (α : Type) [Policy α] : Option Value → List ConfigError
  | none => []
  | some v => if v ∈ (all : List α).map (.string ∘ name) then [] else [.invalidParam (param α) v.given]

theorem invalid_of_mem_nameCauses (h : e ∈ nameCauses α o) : ∃ param value, e = .invalidParam param value := by
  unfold nameCauses at h
  split at h
  · cases h
  · split at h
    · cases h
    · exact ⟨_, _, List.mem_singleton.1 h⟩

theorem mem_all_of_ofValue {v : Value} {p : α} (h : ofValue v = .ok p) : p ∈ (all : List α) ∧ v = .string (name p) := by
  cases v with
  | string s =>
    simp only [ofValue, ofName] at h
    split at h
    · next q hq =>
      cases h
      have hname : name p = s := by simpa using List.find?_some hq
      exact ⟨List.mem_of_find?_eq_some hq, by rw [hname]⟩
    · cases h
  | _ => cases h

theorem mem_all [LawfulPolicy α] (p : α) : p ∈ (all : List α) :=
  (mem_all_of_ofValue (v := .string (name p)) (LawfulPolicy.ofName_name p)).1

theorem ofValue_error {v : Value} (h : ofValue v = (.error e : Except ConfigError α)) :
    e = .invalidParam (param α) v.given := by
  cases v with
  | string s =>
    simp only [ofValue, ofName] at h
    split at h
    · cases h
    · cases h
      rfl
  | _ =>
    cases h
    rfl

theorem error?_mergePolicy [LawfulPolicy α] (old : α) (o : Option Value) :
    error? (GraphConfig.mergePolicy old o) = (nameCauses α o).head? := by
  cases o with
  | none => rfl
  | some v =>
    rw [nameCauses, GraphConfig.mergePolicy]
    cases h : (ofValue v : Except ConfigError α) with
    | ok p =>
      obtain ⟨hmem, rfl⟩ := mem_all_of_ofValue h
      have hnamed : Value.string (name p) ∈ (all : List α).map (.string ∘ name) := List.mem_map.2 ⟨p, hmem, rfl⟩
      rw [if_pos hnamed]
      rfl
    | error e =>
      have hnot : v ∉ (all : List α).map (.string ∘ name) := by
        intro hmem
        obtain ⟨p, -, rfl⟩ := List.mem_map.1 hmem
        cases h.symm.trans (LawfulPolicy.ofName_name p)
      rw [if_neg hnot, ofValue_error h]
      rfl

/-! ## Codes -/

/-- Storage holds a value, other than null, that is no code of the policy. -/
def codeCauses (α : Type) [Policy α] : Option Value → List ConfigError
  | none => []
  | some .null => []
  | some v => if v ∈ (all : List α).map (.int ∘ code) then [] else [.invalidParam (param α) v.text]

theorem ofStored_some {v : Value} (hv : v ≠ .null) : (ofStored (some v) : Except ConfigError α) =
    match v.int64? >>= fun n => ofCode? n.toInt with
    | some p => .ok p
    | none => .error (invalid α v.text) := by
  cases v with
  | null => exact absurd rfl hv
  | _ => rfl

theorem codeCauses_some {v : Value} (hv : v ≠ .null) : codeCauses α (some v) =
    if v ∈ (all : List α).map (.int ∘ code) then [] else [.invalidParam (param α) v.text] := by
  cases v with
  | null => exact absurd rfl hv
  | _ => rfl

theorem eq_code_of_int64? {v : Value} {p : α} (h : (v.int64? >>= fun n => ofCode? n.toInt) = some p) :
    p ∈ (all : List α) ∧ v = .int (code p) := by
  obtain ⟨n, hn, hp⟩ := Option.bind_eq_some_iff.1 h
  have hcode : code p = n.toInt := by simpa using List.find?_some hp
  rw [hcode]
  exact ⟨List.mem_of_find?_eq_some hp, Value.eq_int_of_int64? hn⟩

theorem error?_ofStored [LawfulPolicy α] (o : Option Value) :
    error? (ofStored o : Except ConfigError α) = (codeCauses α o).head? := by
  cases o with
  | none => rfl
  | some v =>
    by_cases hv : v = .null
    · subst hv
      rfl
    · rw [codeCauses_some hv]
      by_cases hmem : v ∈ (all : List α).map (.int ∘ code)
      · obtain ⟨p, -, rfl⟩ := List.mem_map.1 hmem
        rw [if_pos hmem]
        exact error?_eq_none.2 ⟨p, LawfulPolicy.ofStored_code p⟩
      · rw [if_neg hmem, ofStored_some hv]
        split
        · next p hp =>
          obtain ⟨hall, hcode⟩ := eq_code_of_int64? hp
          exact absurd (List.mem_map.2 ⟨p, hall, hcode.symm⟩) hmem
        · rfl

end Policy

/-! ## Configurations -/

namespace GraphConfig

open Policy

/-- The causes that a bag gives, in the order of the policies. -/
def bagCauses (b : Bag) : List ConfigError :=
  nameCauses VocabPolicy (b.get? Key.vocab.name) ++ nameCauses MultivalPolicy (b.get? Key.multival.name) ++
    nameCauses TypesPolicy (b.get? Key.types.name)

/-- The causes that a stored mapping gives, in the order of the policies. -/
def storedCauses (b : Bag) : List ConfigError :=
  codeCauses VocabPolicy (b.get? Key.vocab.stored) ++ codeCauses MultivalPolicy (b.get? Key.multival.stored) ++
    codeCauses TypesPolicy (b.get? Key.types.stored)

theorem error?_add (c : GraphConfig) (b : Bag) : error? (c.add b) = (bagCauses b).head? := by
  rw [bagCauses, List.append_assoc, List.head?_append, List.head?_append, ← error?_mergePolicy c.vocab,
    ← error?_mergePolicy c.multival, ← error?_mergePolicy c.types]
  exact error?_bind fun _ _ => error?_bind fun _ _ => error?_bind_pure _ _

theorem error?_ofStored (b : Bag) : error? (ofStored b) = (storedCauses b).head? := by
  rw [storedCauses, List.append_assoc, List.head?_append, List.head?_append, ← Policy.error?_ofStored,
    ← Policy.error?_ofStored, ← Policy.error?_ofStored]
  exact error?_bind fun _ _ => error?_bind fun _ _ => error?_bind_pure _ _

end GraphConfig

end ShapePlan
