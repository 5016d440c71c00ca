/-
Dictionaries with string keys, kept in ascending order of their keys. A key occurs once: inserting it
again replaces its value. The two laws of `get?` say that an insertion is seen at its own key and
nowhere else. The fields of a value are a `Dict`, which cannot hold a proof about the values nested in it; any other
dictionary is a `SortedDict` and carries the order of its keys.
-/
namespace ShapePlan

structure Dict (α : Type) where
  entries : List (String × α)
deriving Repr, DecidableEq

namespace Dict

variable {α β : Type}

def empty : Dict α := ⟨[]⟩

instance : Inhabited (Dict α) := ⟨empty⟩

/-- The value of the first entry with key `k`. -/
def find (k : String) : List (String × α) → Option α
  | [] => none
  | (j, v) :: r => if k = j then some v else find k r

def get? (d : Dict α) (k : String) : Option α := find k d.entries

/-- Puts a key in front of the first larger one, in place of an equal one. -/
def insertEntry (k : String) (v : α) : List (String × α) → List (String × α)
  | [] => [(k, v)]
  | (j, w) :: r =>
    if k < j then (k, v) :: (j, w) :: r
    else if k = j then (k, v) :: r
    else (j, w) :: insertEntry k v r

def insert (d : Dict α) (k : String) (v : α) : Dict α := ⟨insertEntry k v d.entries⟩

def erase (d : Dict α) (k : String) : Dict α := ⟨d.entries.filter (·.1 ≠ k)⟩

/-- The last of two pairs with one key wins. -/
def ofList (l : List (String × α)) : Dict α := l.foldl (fun d e => d.insert e.1 e.2) empty

def toList (d : Dict α) : List (String × α) := d.entries

def keys (d : Dict α) : List String := d.entries.map (·.1)

def size (d : Dict α) : Nat := d.entries.length

def isEmpty (d : Dict α) : Bool := d.entries.isEmpty

def map (f : α → β) (d : Dict α) : Dict β := ⟨d.entries.map (fun e => (e.1, f e.2))⟩

/-! ## Lookup -/

@[simp] theorem get?_empty (k : String) : (empty : Dict α).get? k = none := rfl

theorem find_insertEntry (k j : String) (v : α) (l : List (String × α)) :
    find j (insertEntry k v l) = if j = k then some v else find j l := by
  induction l with
  | nil => simp [insertEntry, find]
  | cons e r ih =>
    obtain ⟨i, w⟩ := e
    simp only [insertEntry]
    split
    · simp [find]
    · split
      · rename_i hki
        subst hki
        by_cases h : j = k <;> simp [find, h]
      · rename_i hki
        by_cases hji : j = i
        · subst hji
          simp [find, Ne.symm hki]
        · simp [find, hji, ih]

theorem get?_insert (d : Dict α) (k j : String) (v : α) :
    (d.insert k v).get? j = if j = k then some v else d.get? j :=
  find_insertEntry k j v d.entries

@[simp] theorem get?_insert_self (d : Dict α) (k : String) (v : α) : (d.insert k v).get? k = some v := by
  simp [get?_insert]

theorem get?_insert_ne (d : Dict α) {k j : String} (v : α) (h : j ≠ k) :
    (d.insert k v).get? j = d.get? j := by
  simp [get?_insert, h]

theorem find_filter_ne (k j : String) (l : List (String × α)) :
    find j (l.filter (·.1 ≠ k)) = if j = k then none else find j l := by
  induction l with
  | nil => simp [find]
  | cons e r ih =>
    obtain ⟨i, w⟩ := e
    by_cases hik : i = k
    · subst hik
      by_cases h : j = i <;> simp_all [find]
    · by_cases h : j = i
      · subst h
        simp [find, hik]
      · simp_all [find]

theorem get?_erase (d : Dict α) (k j : String) :
    (d.erase k).get? j = if j = k then none else d.get? j :=
  find_filter_ne k j d.entries

theorem find_eq_none {k : String} {l : List (String × α)} : find k l = none ↔ k ∉ l.map Prod.fst := by
  induction l with
  | nil => simp [find]
  | cons e l ih =>
    by_cases hk : k = e.1
    · simp [find, hk]
    · rw [find, if_neg hk, ih, List.map_cons, List.mem_cons, not_or]
      exact ⟨fun h => ⟨hk, h⟩, fun h => h.2⟩

theorem mem_of_find {k : String} {v : α} {l : List (String × α)} (h : find k l = some v) : (k, v) ∈ l := by
  induction l with
  | nil => cases h
  | cons x r ih =>
    obtain ⟨j, w⟩ := x
    rw [find] at h
    split at h
    · next hk =>
      cases h
      rw [hk]
      exact List.mem_cons_self
    · exact List.mem_cons_of_mem _ (ih h)

theorem mem_of_get? {d : Dict α} {k : String} {v : α} (h : d.get? k = some v) : (k, v) ∈ d.entries := mem_of_find h

theorem erase_erase (d : Dict α) (k : String) : (d.erase k).erase k = d.erase k := by
  simp [erase]

theorem erase_eq_self {d : Dict α} {k : String} : d.erase k = d ↔ d.get? k = none := by
  constructor
  · intro h
    rw [← h, get?_erase, if_pos rfl]
  · intro h
    have hk : ∀ e ∈ d.entries, e.1 ≠ k := by
      rintro e he rfl
      exact find_eq_none.1 h (List.mem_map_of_mem he)
    have hall : d.entries.filter (·.1 ≠ k) = d.entries := List.filter_eq_self.2 fun e he => decide_eq_true (hk e he)
    simp only [erase, hall]

/-! ## Pairs -/

theorem get?_foldl_insert {k : String} {l : List (String × α)} (h : (l.map Prod.fst).Nodup) (d : Dict α) :
    (l.foldl (fun d e => d.insert e.1 e.2) d).get? k = (find k l).or (d.get? k) := by
  induction l generalizing d with
  | nil => rfl
  | cons e l ih =>
    obtain ⟨he, hl⟩ := List.nodup_cons.1 h
    rw [List.foldl_cons, ih hl, get?_insert, find]
    by_cases hk : k = e.1
    · rw [if_pos hk, if_pos hk, find_eq_none.2 (hk ▸ he)]
      rfl
    · rw [if_neg hk, if_neg hk]

/-- Where no key comes twice, none of the pairs is lost. -/
theorem get?_ofList {k : String} {l : List (String × α)} (h : (l.map Prod.fst).Nodup) :
    (ofList l).get? k = find k l := by
  rw [ofList, get?_foldl_insert h, get?_empty, Option.or_none]

/-- A dictionary of keys with their values has all of them. -/
theorem get?_ofList_map {β : Type} (key : β → String) (f : β → α) {l : List β} (hl : (l.map key).Nodup) {b : β}
    (hb : b ∈ l) : (ofList (l.map fun a => (key a, f a))).get? (key b) = some (f b) := by
  rw [get?_ofList (by rwa [List.map_map])]
  induction l with
  | nil => cases hb
  | cons a l ih =>
    obtain ⟨ha, hl⟩ := List.nodup_cons.1 hl
    rw [List.map_cons, find]
    rcases List.mem_cons.1 hb with rfl | hb
    · rw [if_pos rfl]
    · have hne : key b ≠ key a := fun he => ha (he ▸ List.mem_map_of_mem hb)
      rw [if_neg hne, ih hl hb]

/-! ## Order -/

theorem find_eq_some {k : String} {v : α} {l : List (String × α)} (h : l.Pairwise (·.1 < ·.1)) :
    find k l = some v ↔ (k, v) ∈ l := by
  refine ⟨mem_of_find, fun hm => ?_⟩
  induction l with
  | nil => cases hm
  | cons x r ih =>
    obtain ⟨j, w⟩ := x
    obtain ⟨hj, hr⟩ := List.pairwise_cons.1 h
    rw [find]
    rcases List.mem_cons.1 hm with he | hm
    · cases he
      rw [if_pos rfl]
    · have hlt : j < k := hj _ hm
      have hne : k ≠ j := fun hk => String.lt_irrefl j (hk ▸ hlt)
      rw [if_neg hne, ih hr hm]

theorem mem_insertEntry {k : String} {v : α} {x : String × α} {l : List (String × α)} (h : x ∈ insertEntry k v l) :
    x = (k, v) ∨ x ∈ l := by
  induction l with
  | nil => simpa [insertEntry] using h
  | cons y r ih =>
    simp only [insertEntry] at h
    split at h
    · simpa using h
    · split at h
      · exact (List.mem_cons.1 h).imp_right (List.mem_cons_of_mem _)
      · rcases List.mem_cons.1 h with rfl | h
        · exact .inr List.mem_cons_self
        · exact (ih h).imp_right (List.mem_cons_of_mem _)

theorem insertEntry_pairwise (k : String) (v : α) {l : List (String × α)} (h : l.Pairwise (·.1 < ·.1)) :
    (insertEntry k v l).Pairwise (·.1 < ·.1) := by
  induction l with
  | nil => simp [insertEntry]
  | cons y r ih =>
    obtain ⟨hy, hr⟩ := List.pairwise_cons.1 h
    simp only [insertEntry]
    split
    · next hk =>
      refine List.pairwise_cons.2 ⟨fun x hx => ?_, h⟩
      rcases List.mem_cons.1 hx with rfl | hx
      · exact hk
      · exact String.lt_trans hk (hy x hx)
    · split
      · next hk =>
        subst hk
        exact List.pairwise_cons.2 ⟨hy, hr⟩
      · next hlt hne =>
        have hk : y.1 < k := String.not_le.1 fun hle => hne (String.le_antisymm hle (String.not_lt.1 hlt))
        refine List.pairwise_cons.2 ⟨fun x hx => ?_, ih hr⟩
        rcases mem_insertEntry hx with rfl | hx
        · exact hk
        · exact hy x hx

end Dict

/-! ## Sorted dictionaries -/

structure SortedDict (α : Type) extends Dict α where
  ascending : entries.Pairwise (·.1 < ·.1)
deriving DecidableEq, Repr

namespace SortedDict

variable {α : Type}

def empty : SortedDict α := ⟨Dict.empty, .nil⟩

instance : Inhabited (SortedDict α) := ⟨empty⟩

def insert (d : SortedDict α) (k : String) (v : α) : SortedDict α where
  toDict := d.toDict.insert k v
  ascending := Dict.insertEntry_pairwise k v d.ascending

/-- The last of two pairs with one key wins. -/
def ofList (l : List (String × α)) : SortedDict α := l.foldl (fun d e => d.insert e.1 e.2) empty

@[simp] theorem get?_empty (k : String) : (empty : SortedDict α).get? k = none := rfl

theorem get?_insert (d : SortedDict α) (k j : String) (v : α) :
    (d.insert k v).get? j = if j = k then some v else d.get? j :=
  Dict.get?_insert d.toDict k j v

theorem get?_eq_some {d : SortedDict α} {k : String} {v : α} : d.get? k = some v ↔ (k, v) ∈ d.entries :=
  Dict.find_eq_some d.ascending

end SortedDict

end ShapePlan
