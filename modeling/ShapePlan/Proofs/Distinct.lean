/-
Lists without their repetitions. Every element stays once, where it comes first.
-/
import Mathlib.Data.List.Sort

namespace ShapePlan

variable {α : Type} [BEq α]

/-- The elements of a list, each once, in the order of the places where they come first. -/
structure IsDistinctOf (l m : List α) : Prop where
  mem : ∀ a, a ∈ m ↔ a ∈ l
  nodup : m.Nodup
  order : m.Pairwise fun a b => l.idxOf a < l.idxOf b

/-- There is one such list. -/
theorem IsDistinctOf.unique {l m m' : List α} (h : IsDistinctOf l m) (h' : IsDistinctOf l m') : m = m' := by
  have : Std.Irrefl fun a b : α => l.idxOf a < l.idxOf b := ⟨fun a => Nat.lt_irrefl _⟩
  have : Std.Antisymm fun a b : α => l.idxOf a < l.idxOf b := ⟨fun a b hab hba => absurd hab (Nat.lt_asymm hba)⟩
  exact h.order.eq_of_mem_iff h'.order fun a => (h.mem a).trans (h'.mem a).symm

variable [LawfulBEq α]

/-- Taking other elements out does not change which of two comes first. -/
theorem idxOf_lt_of_filter {p : α → Bool} {l : List α} {a b : α} (ha : p a = true) (hb : p b = true)
    (h : (l.filter p).idxOf a < (l.filter p).idxOf b) : l.idxOf a < l.idxOf b := by
  induction l with
  | nil => exact absurd h (Nat.lt_irrefl _)
  | cons x l ih =>
    by_cases hx : p x = true
    · rw [List.filter_cons_of_pos hx] at h
      by_cases hxb : x = b
      · rw [hxb, List.idxOf_cons_self] at h
        exact absurd h (Nat.not_lt_zero _)
      · by_cases hxa : x = a
        · rw [hxa, List.idxOf_cons_self, ← hxa, List.idxOf_cons_ne _ hxb]
          exact Nat.succ_pos _
        · rw [List.idxOf_cons_ne _ hxa, List.idxOf_cons_ne _ hxb] at h ⊢
          exact Nat.succ_lt_succ (ih (Nat.lt_of_succ_lt_succ h))
    · have hxa : x ≠ a := fun he => hx (he ▸ ha)
      have hxb : x ≠ b := fun he => hx (he ▸ hb)
      rw [List.filter_cons_of_neg hx] at h
      rw [List.idxOf_cons_ne _ hxa, List.idxOf_cons_ne _ hxb]
      exact Nat.succ_lt_succ (ih h)

theorem idxOf_eraseDups_lt : ∀ l : List α, l.eraseDups.Pairwise fun a b => l.idxOf a < l.idxOf b
  | [] => .nil
  | x :: l => by
    have hrest : ∀ a ∈ (l.filter fun b => !b == x).eraseDups, (!a == x) = true := fun a ha =>
      (List.mem_filter.1 (List.mem_eraseDups.1 ha)).2
    have hne : ∀ a ∈ (l.filter fun b => !b == x).eraseDups, x ≠ a := fun a ha he => by
      simpa [he] using hrest a ha
    rw [List.eraseDups_cons, List.pairwise_cons]
    constructor
    · intro a ha
      rw [List.idxOf_cons_self, List.idxOf_cons_ne _ (hne a ha)]
      exact Nat.succ_pos _
    · refine (idxOf_eraseDups_lt _).imp_of_mem fun {a b} ha hb h => ?_
      rw [List.idxOf_cons_ne _ (hne a ha), List.idxOf_cons_ne _ (hne b hb)]
      exact Nat.succ_lt_succ (idxOf_lt_of_filter (hrest a ha) (hrest b hb) h)
termination_by l => l.length
decreasing_by exact Nat.lt_succ_of_le (List.length_filter_le _ l)

theorem isDistinctOf_eraseDups (l : List α) : IsDistinctOf l l.eraseDups where
  mem _ := List.mem_eraseDups
  nodup := by
    refine (idxOf_eraseDups_lt l).imp ?_
    rintro a _ h rfl
    exact Nat.lt_irrefl _ h
  order := idxOf_eraseDups_lt l

end ShapePlan
