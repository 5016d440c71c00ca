/-
Names of IRIs. Only shortened names can fail, over a namespace that is not registered or is registered in a form that
cannot be used (`PrefixTable.shortName_eq_error`). A shortened name tells its IRI, unless a prefix can be taken for
another prefix with the separator, or the first half of it, behind it (`Extends`); then two namespaces share a name.
-/
import Mathlib.Data.List.Nodup
import ShapePlan.Naming
import ShapePlan.Proofs.Iri.Name
import ShapePlan.Proofs.Result

namespace ShapePlan

/-! ## Shortened names -/

namespace PrefixTable

variable {t : PrefixTable} {iri : String}

/-- A prefix is registered for a namespace, and both can be used. -/
structure Provides (t : PrefixTable) (ns label : String) : Prop where
  registered : t.byNamespace.get? ns = some label
  isPrefixName : Iri.isPrefixName label = true
  isAbsolute : Iri.isAbsolute ns = true

/-- An IRI has no shortened name: its namespace is not registered, or not in a form that can be used. -/
def Refuses (t : PrefixTable) (iri : String) (e : NamingError) : Prop :=
  let ns := Iri.namespaceOf iri
  t.byNamespace.get? ns = none ∧ e = .unknownNamespace iri ns ∨
  ∃ label, t.byNamespace.get? ns = some label ∧ (Iri.isPrefixName label = false ∨ Iri.isAbsolute ns = false) ∧
    e = .invalidPrefix label ns

theorem shortName_eq : Naming.shortName t.resolver iri =
    match t.byNamespace.get? (Iri.namespaceOf iri) with
    | none => .error (.unknownNamespace iri (Iri.namespaceOf iri))
    | some label =>
      if Iri.isPrefixName label && Iri.isAbsolute (Iri.namespaceOf iri) then .ok (label ++ "__" ++ Iri.localNameOf iri)
      else .error (.invalidPrefix label (Iri.namespaceOf iri)) := by
  simp only [Naming.shortName, resolver, lookup]
  cases t.byNamespace.get? (Iri.namespaceOf iri) with
  | none => rfl
  | some label =>
    dsimp only
    split <;> rfl

theorem shortName_eq_ok {m : String} : Naming.shortName t.resolver iri = .ok m ↔
    ∃ label, t.Provides (Iri.namespaceOf iri) label ∧ m = label ++ "__" ++ Iri.localNameOf iri := by
  rw [shortName_eq]
  constructor
  · intro h
    split at h
    · cases h
    · next label hlabel =>
      split at h
      · next hok =>
        cases h
        obtain ⟨hname, habsolute⟩ := Bool.and_eq_true_iff.1 hok
        exact ⟨label, ⟨hlabel, hname, habsolute⟩, rfl⟩
      · cases h
  · rintro ⟨label, ⟨hlabel, hname, habsolute⟩, rfl⟩
    simp [hlabel, hname, habsolute]

theorem shortName_eq_error {e : NamingError} : Naming.shortName t.resolver iri = .error e ↔ t.Refuses iri e := by
  rw [shortName_eq, Refuses]
  cases t.byNamespace.get? (Iri.namespaceOf iri) with
  | none =>
    constructor
    · intro h
      cases h
      exact .inl ⟨rfl, rfl⟩
    · rintro (⟨-, rfl⟩ | ⟨label, h, -⟩)
      · rfl
      · cases h
  | some label =>
    constructor
    · intro h
      dsimp only at h
      split at h
      · cases h
      · next hbad =>
        cases h
        exact .inr ⟨label, rfl, Bool.and_eq_false_iff.1 (Bool.eq_false_iff.2 hbad), rfl⟩
    · rintro (⟨h, -⟩ | ⟨label', h, hbad, rfl⟩)
      · cases h
      · cases h
        rcases hbad with hbad | hbad
        · simp [hbad]
        · simp [hbad]

end PrefixTable

namespace Naming

variable {n : Naming}

/-- Names are made of a prefix and a local name. -/
def Shortens (n : Naming) : Prop := ∃ c, n.config = some c ∧ (c.vocab = .shorten ∨ c.vocab = .shortenStrict)

theorem name_of_shortens (h : n.Shortens) (iri : String) : n.name iri = shortName n.resolver iri := by
  obtain ⟨c, hc, hvocab⟩ := h
  rw [name, hc]
  rcases hvocab with hvocab | hvocab
  · simp only [nameBy, hvocab]
  · simp only [nameBy, hvocab]

/-- Without shortening, every IRI has a name. -/
theorem exists_name (h : ¬ n.Shortens) (iri : String) : ∃ m, n.name iri = .ok m := by
  rw [name]
  cases hc : n.config with
  | none => exact ⟨_, rfl⟩
  | some c =>
    cases hvocab : c.vocab with
    | shorten => exact absurd ⟨c, hc, .inl hvocab⟩ h
    | shortenStrict => exact absurd ⟨c, hc, .inr hvocab⟩ h
    | ignore => simp only [nameBy, hvocab]; exact ⟨_, rfl⟩
    | map => simp only [nameBy, hvocab]; exact ⟨_, rfl⟩
    | keep => simp only [nameBy, hvocab]; exact ⟨_, rfl⟩

end Naming

/-! ## Prefixes that run into the separator -/

/-- A prefix is another one with the separator behind it, and more, or with the first half of it. -/
def Extends (p q : String) : Prop := q = p ++ "_" ∨ ∃ rest, q = p ++ "__" ++ rest

theorem Extends.ne {p q : String} (h : Extends p q) : p ≠ q := by
  rintro rfl
  rcases h with h | ⟨rest, h⟩
  · simpa using congrArg String.toList h
  · simpa using congrArg String.toList h

/-- What stands before one separator and not before the other is the start of a separator. -/
theorem start_of_separators {x l k : List Char} (h : '_' :: '_' :: l = x ++ '_' :: '_' :: k) :
    x = [] ∧ l = k ∨ x = ['_'] ∨ ∃ r, x = '_' :: '_' :: r := by
  match x with
  | [] => exact .inl ⟨rfl, by simpa using h⟩
  | [a] =>
    obtain ⟨rfl, -⟩ : '_' = a ∧ l = '_' :: k := by simpa using h
    exact .inr (.inl rfl)
  | a :: b :: r =>
    obtain ⟨rfl, rfl, -⟩ : '_' = a ∧ '_' = b ∧ l = r ++ '_' :: '_' :: k := by simpa using h
    exact .inr (.inr ⟨r, rfl⟩)

theorem Extends.of_toList {p q : String} {x l k : List Char} (hq : q.toList = p.toList ++ x)
    (h : '_' :: '_' :: l = x ++ '_' :: '_' :: k) : p = q ∧ l = k ∨ Extends p q := by
  rcases start_of_separators h with ⟨rfl, hl⟩ | rfl | ⟨r, rfl⟩
  · exact .inl ⟨String.toList_inj.1 (by simpa using hq.symm), hl⟩
  · exact .inr (.inl (String.toList_inj.1 (by simpa using hq)))
  · exact .inr (.inr ⟨String.ofList r, String.toList_inj.1 (by simpa using hq)⟩)

/-- A name can be split in two ways only if one prefix extends the other. -/
theorem split_shortened {p q l k : String} (h : p ++ "__" ++ l = q ++ "__" ++ k) :
    p = q ∧ l = k ∨ Extends p q ∨ Extends q p := by
  have hc : p.toList ++ '_' :: '_' :: l.toList = q.toList ++ '_' :: '_' :: k.toList := by
    simpa using congrArg String.toList h
  rcases List.append_eq_append_iff.1 hc with ⟨x, hq, hx⟩ | ⟨x, hp, hx⟩
  · exact (Extends.of_toList hq hx).imp (.imp_right String.toList_inj.1) .inl
  · rcases Extends.of_toList hp hx with ⟨hpq, hkl⟩ | hext
    · exact .inl ⟨hpq.symm, (String.toList_inj.1 hkl).symm⟩
    · exact .inr (.inr hext)

/-- Where one prefix extends the other, some name is made with both. -/
theorem Extends.exists_shortened {p q : String} (h : Extends p q) (hq : Iri.isPrefixName q = true) :
    ∃ l : String, Iri.IsLocal l.toList ∧ p ++ "__" ++ l = q ++ "__" ++ "" := by
  rcases h with rfl | ⟨rest, rfl⟩
  · exact ⟨"_", by simp [Iri.IsLocal], by simp [String.append_assoc]⟩
  · obtain ⟨hash, slash, colon⟩ := Iri.isLocal_of_isPrefixName hq
    refine ⟨rest ++ "__", ?_, by simp [String.append_assoc]⟩
    simp_all [Iri.IsLocal]

/-! ## Names and their IRIs -/

/-- No two namespaces share a prefix. -/
def PrefixTable.IsDistinct (t : PrefixTable) : Prop :=
  ∀ ns ns' label, t.byNamespace.get? ns = some label → t.byNamespace.get? ns' = some label → ns = ns'

theorem PrefixTable.isDistinct_of_nodup {t : PrefixTable} (h : (t.byNamespace.entries.map (·.2)).Nodup) :
    t.IsDistinct := by
  intro ns ns' label hns hns'
  exact congrArg Prod.fst (List.inj_on_of_nodup_map h (Dict.mem_of_get? hns) (Dict.mem_of_get? hns') rfl)

namespace Naming

/-- Two IRIs with one shortened name are equal, or the prefix of one extends that of the other; and where two namespaces
have such prefixes, two different IRIs in them share a name. -/
theorem name_identifies (c : GraphConfig) (t : PrefixTable) (hc : (⟨some c, t.resolver⟩ : Naming).Shortens)
    (ht : t.IsDistinct) (u v : String) :
    let n : Naming := ⟨some c, t.resolver⟩
    (∀ m, n.name u = .ok m → n.name v = .ok m → u = v ∨
      ∃ p q, t.byNamespace.get? (Iri.namespaceOf u) = some p ∧ t.byNamespace.get? (Iri.namespaceOf v) = some q ∧
        (Extends p q ∨ Extends q p)) ∧
    ∀ m m' p q, n.name u = .ok m → n.name v = .ok m' → t.byNamespace.get? (Iri.namespaceOf u) = some p →
      t.byNamespace.get? (Iri.namespaceOf v) = some q → Extends p q →
      ∃ u' v' name, Iri.namespaceOf u' = Iri.namespaceOf u ∧ Iri.namespaceOf v' = Iri.namespaceOf v ∧ u' ≠ v' ∧
        n.name u' = .ok name ∧ n.name v' = .ok name := by
  intro n
  simp only [name_of_shortens hc, n, PrefixTable.shortName_eq_ok]
  constructor
  · rintro m ⟨p, hp, rfl⟩ ⟨q, hq, heq⟩
    rcases split_shortened heq with ⟨rfl, hlocal⟩ | hext
    · left
      rw [← Iri.namespaceOf_append_localNameOf u, ← Iri.namespaceOf_append_localNameOf v, hlocal,
        ht _ _ _ hp.registered hq.registered]
    · exact .inr ⟨p, q, hp.registered, hq.registered, hext⟩
  · rintro m m' p q ⟨p', hp, -⟩ ⟨q', hq, -⟩ hp' hq' hext
    cases hp.registered.symm.trans hp'
    cases hq.registered.symm.trans hq'
    obtain ⟨l, hl, heq⟩ := hext.exists_shortened hq.isPrefixName
    have hempty : Iri.IsLocal "".toList := by simp [Iri.IsLocal]
    obtain ⟨hu, hul⟩ := Iri.namespaceOf_append u hl
    obtain ⟨hv, hvl⟩ := Iri.namespaceOf_append v hempty
    refine ⟨_, _, _, hu, hv, fun h => ?_, ⟨p, ?_, rfl⟩, ⟨q, ?_, ?_⟩⟩
    · have hns : Iri.namespaceOf u = Iri.namespaceOf v := by rw [← hu, h, hv]
      rw [hns] at hp
      exact hext.ne (Option.some.inj (hp.registered.symm.trans hq.registered))
    · rwa [hu]
    · rwa [hv]
    · rw [hul, hvl, heq]

end Naming

/-- Prefixes of which one extends the other. -/
def nestedPrefixes : PrefixTable :=
  (({} : PrefixTable).insert "a" "http://example.org/").insert "a__b" "http://example.com/"

/-- Prefixes of which one starts with the other, but does not go on with the separator. -/
def hyphenedPrefixes : PrefixTable :=
  (({} : PrefixTable).insert "a" "http://example.org/").insert "a-b" "http://example.com/"

theorem name_identifies_hyphenedPrefixes :
    (hyphenedPrefixes.IsDistinct ∧
      ∀ v, (⟨some {}, hyphenedPrefixes.resolver⟩ : Naming).name v = .ok "a__b__c" → v = "http://example.org/b__c") ∧
    ∃ u v name, u ≠ v ∧ (⟨some {}, nestedPrefixes.resolver⟩ : Naming).name u = .ok name ∧
      (⟨some {}, nestedPrefixes.resolver⟩ : Naming).name v = .ok name := by
  have hshortens : ∀ r, (⟨some {}, r⟩ : Naming).Shortens := fun r => ⟨_, rfl, .inl rfl⟩
  constructor
  · have hdistinct := hyphenedPrefixes.isDistinct_of_nodup (by decide)
    refine ⟨hdistinct, fun v hv => ?_⟩
    have hu : (⟨some {}, hyphenedPrefixes.resolver⟩ : Naming).name "http://example.org/b__c" = .ok "a__b__c" := by
      decide
    rcases (Naming.name_identifies {} hyphenedPrefixes (hshortens _) hdistinct _ v).1 _ hu hv with
      rfl | ⟨p, q, hp, hq, h⟩
    · rfl
    · exfalso
      have hp' : p = "a" := Option.some.inj (hp.symm.trans (by decide))
      have hentries : hyphenedPrefixes.byNamespace.entries =
          [("http://example.com/", "a-b"), ("http://example.org/", "a")] := by decide
      have hq' : q = "a-b" ∨ q = "a" := by
        have hmem := Dict.mem_of_get? hq
        rw [hentries] at hmem
        simp only [List.mem_cons, Prod.mk.injEq, List.not_mem_nil, or_false] at hmem
        exact hmem.imp And.right And.right
      subst hp'
      rcases hq' with rfl | rfl
      · rcases h with (h | ⟨rest, h⟩) | (h | ⟨rest, h⟩)
        · simpa using congrArg String.toList h
        · simpa using congrArg String.toList h
        · simpa using congrArg String.toList h
        · simpa using congrArg String.toList h
      · exact h.elim (fun h => h.ne rfl) fun h => h.ne rfl
  · obtain ⟨u, v, name, -, -, hne, hu, hv⟩ :=
      (Naming.name_identifies {} nestedPrefixes (hshortens _) (nestedPrefixes.isDistinct_of_nodup (by decide))
        "http://example.org/c" "http://example.com/c").2 "a__c" "a__b__c" "a" "a__b" (by decide) (by decide) (by decide)
        (by decide) (.inr ⟨"b", rfl⟩)
    exact ⟨u, v, name, hne, hu, hv⟩

/-- Different IRIs with one name, though no two namespaces share a prefix. -/
theorem nestedPrefixes_share_name :
    let n : Naming := ⟨some {}, nestedPrefixes.resolver⟩
    n.Shortens ∧ nestedPrefixes.IsDistinct ∧ "http://example.org/b__c" ≠ "http://example.com/c" ∧
    n.name "http://example.org/b__c" = .ok "a__b__c" ∧ n.name "http://example.com/c" = .ok "a__b__c" :=
  ⟨⟨_, rfl, .inl rfl⟩, nestedPrefixes.isDistinct_of_nodup (by decide), by decide, by decide, by decide⟩

end ShapePlan
