/-
Ascending lists are told by their members. A set is sorted to one list in whatever order its elements come, and a
sorted dictionary is told by its look-ups.
-/
import ShapePlan.Dict
import ShapePlan.NameSet
import Mathlib.Data.List.Sort

namespace ShapePlan

/-! ## Sets -/

namespace Ascending

variable {α : Type} {key : α → String} {l m : List α}

theorem eq_of_mem_iff (hl : l.Pairwise (key · < key ·)) (hm : m.Pairwise (key · < key ·)) (h : ∀ a, a ∈ l ↔ a ∈ m) :
    l = m := by
  have : Std.Irrefl fun a b : α => key a < key b := ⟨fun a => String.lt_irrefl (key a)⟩
  have : Std.Antisymm fun a b : α => key a < key b :=
    ⟨fun a b hab hba => absurd (String.lt_trans hab hba) (String.lt_irrefl (key a))⟩
  exact hl.eq_of_mem_iff hm h

theorem ofList_congr (inj : ∀ a b, key a = key b → a = b) (h : ∀ a, a ∈ l ↔ a ∈ m) : ofList key l = ofList key m := by
  refine eq_of_mem_iff (ofList_pairwise l) (ofList_pairwise m) fun a => ?_
  rw [mem_ofList inj, mem_ofList inj, h]

end Ascending

theorem NameSet.ofList_congr {l m : List String} (h : ∀ s, s ∈ l ↔ s ∈ m) : ofList l = ofList m := by
  have he : Ascending.ofList id l = Ascending.ofList id m := Ascending.ofList_congr (fun _ _ h => h) h
  simp only [ofList, he]

theorem NameSet.ext {s t : NameSet} (h : ∀ x, x ∈ s ↔ x ∈ t) : s = t := by
  obtain ⟨l, hl⟩ := s
  obtain ⟨m, hm⟩ := t
  have he : l = m := @Ascending.eq_of_mem_iff String id l m hl hm h
  cases he
  rfl

/-! ## Dictionaries -/

theorem SortedDict.ext_get? {α : Type} {d e : SortedDict α} (h : ∀ k, d.get? k = e.get? k) : d = e := by
  obtain ⟨⟨ds⟩, hd⟩ := d
  obtain ⟨⟨es⟩, he⟩ := e
  have hmem : ∀ x, x ∈ ds ↔ x ∈ es := by
    rintro ⟨k, v⟩
    rw [← Dict.find_eq_some hd, ← Dict.find_eq_some he]
    exact iff_of_eq (congrArg (· = some v) (h k))
  obtain rfl : ds = es := Ascending.eq_of_mem_iff hd he hmem
  rfl

end ShapePlan
