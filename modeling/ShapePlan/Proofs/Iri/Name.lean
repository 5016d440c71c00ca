/-
The namespace and the local name of an IRI. The two parts make up the IRI, and the check of a namespace and a local name
accepts those that are cut apart again (`splitsAt_iff_cutName`). A prefix can always be a local name. The search for the
index of the local name stops where the IRI is cut (`localNameIndex_eq`).
-/
import ShapePlan.Iri.Name

namespace ShapePlan.Iri

/-! ## Cutting -/

variable {c : Char} {a l : List Char}

theorem span_ne_append (h : c ∉ a) :
    (a ++ c :: l).takeWhile (· ≠ c) = a ∧ (a ++ c :: l).dropWhile (· ≠ c) = c :: l := by
  have hpos : ∀ x ∈ a, (x ≠ c : Bool) = true := fun x hx => decide_eq_true fun heq => h (heq ▸ hx)
  constructor
  · rw [List.takeWhile_append_of_pos hpos, List.takeWhile_cons_of_neg (by simp), List.append_nil]
  · rw [List.dropWhile_append_of_pos hpos, List.dropWhile_cons_of_neg (by simp)]

theorem cutAfterFirst_append (h : c ∉ a) : cutAfterFirst c (a ++ c :: l) = (a ++ [c], l) := by
  obtain ⟨htake, hdrop⟩ := span_ne_append (l := l) h
  rw [cutAfterFirst, htake, hdrop]
  rfl

theorem cutAfterLast_append (h : c ∉ l) : cutAfterLast c (a ++ c :: l) = (a ++ [c], l) := by
  have hreverse : (a ++ c :: l).reverse = l.reverse ++ c :: a.reverse := by simp
  obtain ⟨htake, hdrop⟩ := span_ne_append (l := a.reverse) (mt List.mem_reverse.1 h)
  rw [cutAfterLast, hreverse, htake, hdrop]
  simp

theorem exists_last_of_mem {cs : List Char} (h : c ∈ cs) : ∃ a l, cs = a ++ c :: l ∧ c ∉ l := by
  obtain ⟨l, a, heq, hl⟩ := List.eq_append_cons_of_mem (List.mem_reverse.2 h)
  refine ⟨a.reverse, l.reverse, ?_, by simpa using hl⟩
  rw [← List.reverse_reverse cs, heq]
  simp

theorem cutName_hash (h : '#' ∉ a) : cutName (a ++ '#' :: l) = (a ++ ['#'], l) := by
  rw [cutName, if_pos (by simp), cutAfterFirst_append h]

theorem cutName_slash (hash : '#' ∉ a ++ '/' :: l) (h : '/' ∉ l) : cutName (a ++ '/' :: l) = (a ++ ['/'], l) := by
  rw [cutName, if_neg hash, if_pos (by simp), cutAfterLast_append h]

theorem cutName_colon (hash : '#' ∉ a ++ ':' :: l) (slash : '/' ∉ a ++ ':' :: l) (h : ':' ∉ l) :
    cutName (a ++ ':' :: l) = (a ++ [':'], l) := by
  rw [cutName, if_neg hash, if_neg slash, if_pos (by simp), cutAfterLast_append h]

/-- What can be a local name wherever the namespace ends. -/
def IsLocal (l : List Char) : Prop := '#' ∉ l ∧ '/' ∉ l ∧ ':' ∉ l

theorem cutName_local (h : IsLocal l) : cutName l = ([], l) := by
  rw [cutName, if_neg h.1, if_neg h.2.1, if_neg h.2.2]

/-- A namespace stays one with another local name behind it. -/
theorem cutName_namespace_append (cs : List Char) (hl : IsLocal l) :
    cutName ((cutName cs).1 ++ l) = ((cutName cs).1, l) := by
  obtain ⟨hash, slash, colon⟩ := hl
  by_cases h₁ : '#' ∈ cs
  · obtain ⟨a, r, rfl, ha⟩ := List.eq_append_cons_of_mem h₁
    rw [cutName_hash ha, List.append_assoc, List.singleton_append, cutName_hash ha]
  · by_cases h₂ : '/' ∈ cs
    · obtain ⟨a, r, rfl, hr⟩ := exists_last_of_mem h₂
      rw [cutName_slash h₁ hr, List.append_assoc, List.singleton_append, cutName_slash (by simp_all) slash]
    · by_cases h₃ : ':' ∈ cs
      · obtain ⟨a, r, rfl, hr⟩ := exists_last_of_mem h₃
        rw [cutName_colon h₁ h₂ hr, List.append_assoc, List.singleton_append,
          cutName_colon (by simp_all) (by simp_all) colon]
      · rw [cutName_local ⟨h₁, h₂, h₃⟩, List.nil_append, cutName_local ⟨hash, slash, colon⟩]

theorem namespaceOf_append (iri : String) {s : String} (h : IsLocal s.toList) :
    namespaceOf (namespaceOf iri ++ s) = namespaceOf iri ∧ localNameOf (namespaceOf iri ++ s) = s := by
  simp only [namespaceOf, localNameOf, String.toList_append, String.toList_ofList, cutName_namespace_append _ h,
    String.ofList_toList, and_self]

theorem namespaceOf_append_localNameOf (iri : String) : namespaceOf iri ++ localNameOf iri = iri := by
  rw [namespaceOf, localNameOf, ← String.ofList_append, cutName_append, String.ofList_toList]

/-- A character that a prefix may have somewhere. -/
def isPrefixChar (c : Char) : Bool := Text.isWord c || c.isAlpha || c = '-'

set_option maxRecDepth 6000 in
theorem isPrefixChar_delimiters : ['#', '/', ':'].all (fun c => !isPrefixChar c) = true := by decide

theorem isLocal_of_isPrefixName {s : String} (h : isPrefixName s = true) : IsLocal s.toList := by
  have hchar : ∀ c ∈ s.toList, isPrefixChar c = true := by
    intro c hc
    unfold isPrefixName at h
    split at h
    · next d r heq =>
      obtain ⟨hd, hr⟩ := Bool.and_eq_true_iff.1 h
      rw [heq] at hc
      rcases List.mem_cons.1 hc with rfl | hc
      · simp [isPrefixChar, hd]
      · have hor := List.all_eq_true.1 hr c hc
        rcases Bool.or_eq_true_iff.1 hor with hword | hhyphen
        · simp [isPrefixChar, hword]
        · simp [isPrefixChar, hhyphen]
    · cases h
  have hdelimiter : ∀ c ∈ ['#', '/', ':'], c ∉ s.toList := by
    intro c hc hmem
    have hnot : isPrefixChar c = false := by simpa using List.all_eq_true.1 isPrefixChar_delimiters c hc
    exact Bool.false_ne_true (hnot.symm.trans (hchar c hmem))
  exact ⟨hdelimiter _ (by simp), hdelimiter _ (by simp), hdelimiter _ (by simp)⟩

/-! ## Checking a namespace and a local name -/

variable {ns loc : List Char}

/-- A text is cut behind its first hash, or else behind its last slash, or else behind its last colon. -/
inductive IsCut : List Char → List Char → Prop where
  | hash {a l : List Char} : '#' ∉ a → IsCut (a ++ ['#']) l
  | slash {a l : List Char} : '#' ∉ a ++ l → '/' ∉ l → IsCut (a ++ ['/']) l
  | colon {a l : List Char} : '#' ∉ a ++ l → '/' ∉ a ++ l → ':' ∉ l → IsCut (a ++ [':']) l

theorem splitsAt_iff : splitsAt ns loc = true ↔ IsCut ns loc := by
  constructor
  · intro h
    unfold splitsAt at h
    split at h
    · next hlast =>
      obtain ⟨a, rfl⟩ := List.getLast?_eq_some_iff.1 hlast
      exact .hash (by simpa using h)
    · next hlast =>
      obtain ⟨a, rfl⟩ := List.getLast?_eq_some_iff.1 hlast
      exact .slash (by simp_all) (by simp_all)
    · next hlast =>
      obtain ⟨a, rfl⟩ := List.getLast?_eq_some_iff.1 hlast
      exact .colon (by simp_all) (by simp_all) (by simp_all)
    · cases h
  · rintro (ha | ⟨hash, slash⟩ | ⟨hash, slash, colon⟩)
    · simpa [splitsAt] using ha
    · simp_all [splitsAt]
    · simp_all [splitsAt]

theorem cutName_of_isCut (h : IsCut ns loc) : cutName (ns ++ loc) = (ns, loc) := by
  cases h with
  | hash ha => rw [List.append_assoc, List.singleton_append, cutName_hash ha]
  | slash hash slash =>
    rw [List.append_assoc, List.singleton_append, cutName_slash (by simp_all) slash]
  | colon hash slash colon =>
    rw [List.append_assoc, List.singleton_append, cutName_colon (by simp_all) (by simp_all) colon]

/-- A text has a namespace that ends with a delimiter, or no namespace and no delimiter. -/
theorem isCut_cutName (cs : List Char) :
    IsCut (cutName cs).1 (cutName cs).2 ∨ (cutName cs).1 = [] ∧ IsLocal cs := by
  by_cases h₁ : '#' ∈ cs
  · obtain ⟨a, l, rfl, ha⟩ := List.eq_append_cons_of_mem h₁
    rw [cutName_hash ha]
    exact .inl (.hash ha)
  · by_cases h₂ : '/' ∈ cs
    · obtain ⟨a, l, rfl, hl⟩ := exists_last_of_mem h₂
      rw [cutName_slash h₁ hl]
      exact .inl (.slash (by simp_all) hl)
    · by_cases h₃ : ':' ∈ cs
      · obtain ⟨a, l, rfl, hl⟩ := exists_last_of_mem h₃
        rw [cutName_colon h₁ h₂ hl]
        exact .inl (.colon (by simp_all) (by simp_all) hl)
      · rw [cutName_local ⟨h₁, h₂, h₃⟩]
        exact .inr ⟨rfl, h₁, h₂, h₃⟩

theorem cutName_fst_iff : (cutName (ns ++ loc)).1 = ns ↔ (cutName (ns ++ loc)).2 = loc := by
  have happend := cutName_append (ns ++ loc)
  constructor
  · intro h
    rw [h] at happend
    exact List.append_cancel_left happend
  · intro h
    rw [h] at happend
    exact List.append_cancel_right happend

/-- Where a text has a delimiter, the check tells whether it is cut there. -/
theorem splitsAt_iff_cutName (h : ':' ∈ ns ++ loc) : splitsAt ns loc = true ↔ (cutName (ns ++ loc)).1 = ns := by
  rw [splitsAt_iff]
  constructor
  · intro hcut
    rw [cutName_of_isCut hcut]
  · intro hns
    rcases isCut_cutName (ns ++ loc) with hcut | ⟨-, hlocal⟩
    · rwa [cutName_fst_iff.1 hns, hns] at hcut
    · exact absurd h hlocal.2.2

theorem mem_colon_of_isAbsolute {s : String} (h : isAbsolute s = true) : ':' ∈ s.toList := by
  have hscheme : (split s.toList).scheme.isSome = true := (Bool.and_eq_true_iff.1 h).1
  change (cutScheme s.toList).1.isSome = true at hscheme
  unfold cutScheme at hscheme
  split at hscheme
  · split at hscheme
    · next r hdrop =>
      have hmem : ':' ∈ s.toList.dropWhile isSchemeChar := hdrop ▸ List.mem_cons_self
      exact (List.dropWhile_suffix _).subset hmem
    · cases hscheme
  · cases hscheme

theorem namespaceOf_eq_iff {ns loc : String} :
    namespaceOf (ns ++ loc) = ns ↔ (cutName (ns.toList ++ loc.toList)).1 = ns.toList := by
  rw [namespaceOf, String.toList_append, ← String.toList_inj, String.toList_ofList]

theorem localNameOf_eq_iff {ns loc : String} :
    localNameOf (ns ++ loc) = loc ↔ (cutName (ns.toList ++ loc.toList)).2 = loc.toList := by
  rw [localNameOf, String.toList_append, ← String.toList_inj, String.toList_ofList]

/-! ## The index of the local name -/

theorem utf8ByteSize_ofList_cons (d : Char) (l : List Char) :
    (String.ofList (d :: l)).utf8ByteSize = d.utf8Size + (String.ofList l).utf8ByteSize := by
  rw [← List.singleton_append, String.ofList_append, String.utf8ByteSize_append]
  simp

theorem firstOffset?_of_notMem (h : c ∉ l) : firstOffset? c l = none := by
  induction l with
  | nil => rfl
  | cons d l ih =>
    have hd : d ≠ c := (List.ne_of_not_mem_cons h).symm
    rw [firstOffset?, if_neg hd, ih (List.not_mem_of_not_mem_cons h), Option.map_none]

theorem lastOffset?_of_notMem (h : c ∉ l) : lastOffset? c l = none := by
  induction l with
  | nil => rfl
  | cons d l ih =>
    have hd : d ≠ c := (List.ne_of_not_mem_cons h).symm
    rw [lastOffset?, if_neg hd, ih (List.not_mem_of_not_mem_cons h)]
    rfl

theorem firstOffset?_append (h : c ∉ a) : firstOffset? c (a ++ c :: l) = some (String.ofList a).utf8ByteSize := by
  induction a with
  | nil => exact if_pos rfl
  | cons d a ih =>
    have hd : d ≠ c := (List.ne_of_not_mem_cons h).symm
    rw [List.cons_append, firstOffset?, if_neg hd, ih (List.not_mem_of_not_mem_cons h), utf8ByteSize_ofList_cons]
    rfl

theorem lastOffset?_append (h : c ∉ l) : lastOffset? c (a ++ c :: l) = some (String.ofList a).utf8ByteSize := by
  induction a with
  | nil =>
    rw [List.nil_append, lastOffset?, lastOffset?_of_notMem h, if_pos rfl]
    rfl
  | cons d a ih =>
    rw [List.cons_append, lastOffset?, ih, utf8ByteSize_ofList_cons]
    rfl

/-- The search finds the end of the namespace. -/
theorem localNameIndex_eq (u : String) : localNameIndex u = (namespaceOf u).utf8ByteSize := by
  have hsize : ∀ (a : List Char) (c : Char), c.utf8Size = 1 →
      (String.ofList a).utf8ByteSize + 1 = (String.ofList (a ++ [c])).utf8ByteSize := by
    intro a c hc
    rw [String.ofList_append, String.utf8ByteSize_append]
    simp [hc]
  rw [localNameIndex, namespaceOf]
  by_cases h₁ : '#' ∈ u.toList
  · obtain ⟨a, l, hu, ha⟩ := List.eq_append_cons_of_mem h₁
    rw [hu, cutName_hash ha, firstOffset?_append ha]
    exact hsize a '#' rfl
  · by_cases h₂ : '/' ∈ u.toList
    · obtain ⟨a, l, hu, hl⟩ := exists_last_of_mem h₂
      rw [firstOffset?_of_notMem h₁]
      rw [hu] at h₁ ⊢
      rw [cutName_slash h₁ hl, lastOffset?_append hl]
      exact hsize a '/' rfl
    · rw [firstOffset?_of_notMem h₁, lastOffset?_of_notMem h₂]
      by_cases h₃ : ':' ∈ u.toList
      · obtain ⟨a, l, hu, hl⟩ := exists_last_of_mem h₃
        rw [hu] at h₁ h₂ ⊢
        rw [cutName_colon h₁ h₂ hl, lastOffset?_append hl]
        exact hsize a ':' rfl
      · rw [lastOffset?_of_notMem h₃, cutName_local ⟨h₁, h₂, h₃⟩]
        rfl

/-- The index of the local name is a position of the text, and stands between the namespace and the local name. -/
theorem exists_pos_localNameIndex (u : String) :
    ∃ p : u.Pos, p.offset.byteIdx = localNameIndex u ∧ p.Splits (namespaceOf u) (localNameOf u) := by
  have happend := (namespaceOf_append_localNameOf u).symm
  have hvalid : String.Pos.Raw.IsValid u (namespaceOf u).rawEndPos :=
    String.Pos.Raw.isValid_iff_exists_append.2 ⟨_, _, happend, rfl⟩
  exact ⟨⟨_, hvalid⟩, (localNameIndex_eq u).symm, happend, rfl⟩

/-- A namespace and a local name pass the check exactly if they make up an absolute IRI that is cut between them, where
all that matters of an absolute IRI is that it has a colon. Every text is cut at one of its positions and into two parts
that make it up. -/
theorem isCorrectSplit_agrees (ns loc u : String) :
    (isCorrectSplit ns loc = true ↔ isAbsolute (ns ++ loc) = true ∧ namespaceOf (ns ++ loc) = ns) ∧
    (namespaceOf (ns ++ loc) = ns ↔ localNameOf (ns ++ loc) = loc) ∧
    (':' ∈ (ns ++ loc).toList → (splitsAt ns.toList loc.toList = true ↔ namespaceOf (ns ++ loc) = ns)) ∧
    (∃ p : u.Pos, p.offset.byteIdx = localNameIndex u ∧ p.Splits (namespaceOf u) (localNameOf u)) ∧
    namespaceOf u ++ localNameOf u = u := by
  have hcolon : ':' ∈ (ns ++ loc).toList → (splitsAt ns.toList loc.toList = true ↔ namespaceOf (ns ++ loc) = ns) := by
    intro h
    rw [String.toList_append] at h
    rw [splitsAt_iff_cutName h, namespaceOf_eq_iff]
  refine ⟨?_, ?_, hcolon, exists_pos_localNameIndex u, namespaceOf_append_localNameOf u⟩
  · rw [isCorrectSplit, Bool.and_eq_true_iff, and_comm]
    exact and_congr_right fun h => hcolon (mem_colon_of_isAbsolute h)
  · rw [namespaceOf_eq_iff, localNameOf_eq_iff, cutName_fst_iff]

theorem isCorrectSplit_agrees_wide :
    (isCorrectSplit "urn:ü/é:" "ø" = false ∧ namespaceOf ("urn:ü/é:" ++ "ø") ≠ "urn:ü/é:") ∧
    ':' ∈ ("ü é:" ++ "ø").toList ∧ namespaceOf ("ü é:" ++ "ø") = "ü é:" := by
  have hcheck : isCorrectSplit "urn:ü/é:" "ø" = false := by decide
  refine ⟨⟨hcheck, fun h => ?_⟩, by decide, ?_⟩
  · have hok := (isCorrectSplit_agrees "urn:ü/é:" "ø" "").1.2 ⟨by decide, h⟩
    exact Bool.false_ne_true (hcheck.symm.trans hok)
  · exact ((isCorrectSplit_agrees "ü é:" "ø" "").2.2.1 (by decide)).1 (by decide)

end ShapePlan.Iri
