/-
Lists in strictly ascending order of a key, in code point order. Of two elements with one key the one that was put
first stays; where a key determines its element, equal sets are equal lists.
-/
namespace ShapePlan

theorem text_le_of_lt {a b : String} (h : a < b) : a ≤ b :=
  String.not_lt.1 fun hgt => String.lt_irrefl _ (String.lt_trans h hgt)

theorem text_le_of_eq {a b : String} (h : a = b) : a ≤ b := h ▸ String.le_refl a

namespace Ascending

variable {α : Type} (key : α → String)

/-- Puts `a` at its place in an ascending list, unless its key is there already. -/
def insert (a : α) : List α → List α
  | [] => [a]
  | b :: r => if key a < key b then a :: b :: r else if key a = key b then b :: r else b :: insert a r

def ofList (l : List α) : List α := l.foldl (fun acc a => insert key a acc) []

variable {key}

theorem key_mem_insert {x a : α} {l : List α} (h : x ∈ insert key a l) : x = a ∨ x ∈ l := by
  induction l with
  | nil => simpa [insert] using h
  | cons b r ih =>
    simp only [insert] at h
    split at h
    · simpa using h
    · split at h
      · exact .inr h
      · rcases List.mem_cons.1 h with rfl | h
        · exact .inr (List.mem_cons_self ..)
        · exact (ih h).imp_right (List.mem_cons_of_mem _)

theorem mem_insert (inj : ∀ a b, key a = key b → a = b) {x a : α} {l : List α} :
    x ∈ insert key a l ↔ x = a ∨ x ∈ l := by
  induction l with
  | nil => simp [insert]
  | cons b r ih =>
    simp only [insert]
    split
    · simp
    · split
      · rename_i h
        have := inj _ _ h
        subst this
        simp
      · simp only [List.mem_cons, ih]
        grind

theorem insert_pairwise (a : α) {l : List α} (h : l.Pairwise (key · < key ·)) :
    (insert key a l).Pairwise (key · < key ·) := by
  induction l with
  | nil => simp [insert]
  | cons b r ih =>
    obtain ⟨hb, hr⟩ := List.pairwise_cons.1 h
    simp only [insert]
    split
    · rename_i hab
      refine List.pairwise_cons.2 ⟨fun c hc => ?_, h⟩
      rcases List.mem_cons.1 hc with rfl | hc
      · exact hab
      · exact String.lt_trans hab (hb c hc)
    · split
      · exact h
      · rename_i hab hne
        refine List.pairwise_cons.2 ⟨fun c hc => ?_, ih hr⟩
        rcases key_mem_insert hc with rfl | hc
        · exact String.not_le.1 fun hle => hne (String.le_antisymm hle (String.not_lt.1 hab))
        · exact hb c hc

theorem mem_foldl_insert (inj : ∀ a b, key a = key b → a = b) {x : α} {l acc : List α} :
    x ∈ l.foldl (fun acc a => insert key a acc) acc ↔ x ∈ acc ∨ x ∈ l := by
  induction l generalizing acc with
  | nil => simp
  | cons a r ih =>
    rw [List.foldl_cons, ih, mem_insert inj, List.mem_cons]
    grind

/-- Sorting loses nothing and adds nothing. -/
theorem mem_ofList (inj : ∀ a b, key a = key b → a = b) {x : α} {l : List α} :
    x ∈ ofList key l ↔ x ∈ l := by
  simp [ofList, mem_foldl_insert inj]

theorem foldl_insert_pairwise {l acc : List α} (h : acc.Pairwise (key · < key ·)) :
    (l.foldl (fun acc a => insert key a acc) acc).Pairwise (key · < key ·) := by
  induction l generalizing acc with
  | nil => exact h
  | cons a r ih => exact ih (insert_pairwise a h)

theorem ofList_pairwise (l : List α) : (ofList key l).Pairwise (key · < key ·) :=
  foldl_insert_pairwise List.Pairwise.nil

theorem insert_last {a : α} {l : List α} (h : ∀ b ∈ l, key b < key a) :
    insert key a l = l ++ [a] := by
  induction l with
  | nil => rfl
  | cons b l ih =>
    obtain ⟨hb, hl⟩ := List.forall_mem_cons.1 h
    have hlt : ¬ key a < key b := fun h' => String.lt_irrefl _ (String.lt_trans hb h')
    have hne : key a ≠ key b := fun h' => String.lt_irrefl _ (h' ▸ hb)
    rw [insert, if_neg hlt, if_neg hne, ih hl, List.cons_append]

/-- A list that is in order stays as it is. -/
theorem ofList_of_pairwise {l : List α} (h : l.Pairwise (key · < key ·)) :
    ofList key l = l := by
  -- what is sorted already lies below all that is to come, so each element goes to the end
  have hf : ∀ acc : List α, (acc ++ l).Pairwise (key · < key ·) →
      l.foldl (fun acc a => insert key a acc) acc = acc ++ l := by
    clear h
    induction l with
    | nil => exact fun acc _ => (List.append_nil acc).symm
    | cons a l ih =>
      intro acc h
      have ha : ∀ b ∈ acc, key b < key a := fun b hb => (List.pairwise_append.1 h).2.2 b hb a List.mem_cons_self
      rw [List.foldl_cons, insert_last ha, ih _ (by rwa [List.append_assoc]), List.append_assoc]
      rfl
  exact hf [] h

/-- The first of an ascending list is the least. -/
theorem head?_ofList (inj : ∀ a b, key a = key b → a = b) {l : List α} {x : α} :
    (ofList key l).head? = some x ↔ x ∈ l ∧ ∀ y ∈ l, key x ≤ key y := by
  have hp : (ofList key l).Pairwise (key · < key ·) := ofList_pairwise l
  have hm : ∀ y, y ∈ ofList key l ↔ y ∈ l := fun y => mem_ofList inj
  cases ho : ofList key l with
  | nil =>
    rw [ho] at hm
    simp only [List.head?_nil, reduceCtorEq, false_iff, not_and]
    intro hx
    exact absurd ((hm x).2 hx) List.not_mem_nil
  | cons a r =>
    rw [ho] at hm hp
    have hle : ∀ y ∈ l, key a ≤ key y := by
      intro y hy
      rcases List.mem_cons.1 ((hm y).2 hy) with rfl | hy
      · exact String.le_refl _
      · exact text_le_of_lt ((List.pairwise_cons.1 hp).1 y hy)
    have ha : a ∈ l := (hm a).1 List.mem_cons_self
    rw [List.head?_cons, Option.some_inj]
    constructor
    · rintro rfl
      exact ⟨ha, hle⟩
    · rintro ⟨hx, hx'⟩
      exact inj _ _ (String.le_antisymm (hle x hx) (hx' a ha))

end Ascending

end ShapePlan
