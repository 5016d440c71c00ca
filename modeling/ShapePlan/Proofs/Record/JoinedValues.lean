/-
Joined values. A text is cut at its separators from the left, so no piece holds one, and only the last piece may end
with a hyphen, which would otherwise run into the separator behind it (`separable_cutHyphens`). Pieces of this kind come
back as they were when they are joined (`cutHyphens_intercalate`).
-/
import ShapePlan.Record.Basic

namespace ShapePlan.Record

/-- The separator of joined values. -/
def hyphens : List Char := ['-', '-', '-']

theorem toList_hyphens : "---".toList = hyphens := rfl

/-! ## Cutting from the left -/

variable {c : Char} {p r cs : List Char} {ps qs : List (List Char)}

theorem cutHyphens_separator (acc r : List Char) : cutHyphens acc (hyphens ++ r) = acc.reverse :: cutHyphens [] r := rfl

/-- What was passed before belongs to the first piece. -/
theorem cutHyphens_append_acc (acc before cs : List Char) :
    cutHyphens (acc ++ before) cs = (cutHyphens acc cs).modifyHead (before.reverse ++ ·) := by
  induction acc, cs using cutHyphens.induct with
  | case1 acc r _ => simp [cutHyphens]
  | case2 acc c r hc ih => rw [cutHyphens.eq_2 _ _ _ hc, cutHyphens.eq_2 _ _ _ hc, ← ih, List.cons_append]
  | case3 acc => simp [cutHyphens]

theorem cutHyphens_cons (h : ¬ hyphens <+: c :: r) :
    cutHyphens [] (c :: r) = (cutHyphens [] r).modifyHead (c :: ·) := by
  have hc : ∀ r', c = '-' → r = '-' :: '-' :: r' → False := by
    rintro r' rfl rfl
    exact h (List.prefix_append hyphens r')
  rw [cutHyphens.eq_2 _ _ _ hc]
  exact cutHyphens_append_acc [] [c] r

/-- A text is empty, or starts with a separator, or starts with a character that is none of a separator. -/
theorem separator_induction {motive : List Char → Prop} (nil : motive [])
    (separator : ∀ r, motive r → motive (hyphens ++ r))
    (cons : ∀ c r, ¬ hyphens <+: c :: r → motive r → motive (c :: r)) (cs : List Char) : motive cs := by
  refine cutHyphens.induct (fun _ cs => motive cs) (fun _ r => separator r) (fun _ c r hc => cons c r ?_) (fun _ => nil)
    [] cs
  rintro ⟨r', hr⟩
  cases hr
  exact hc r' rfl rfl

theorem cutHyphens_ne_nil (cs : List Char) : cutHyphens [] cs ≠ [] := by
  induction cs using separator_induction with
  | nil => exact List.cons_ne_nil _ _
  | separator r _ => exact List.cons_ne_nil _ _
  | cons c r hc ih => rw [cutHyphens_cons hc]; simpa using ih

/-- Nothing but the separators is lost. -/
theorem intercalate_cutHyphens (cs : List Char) : hyphens.intercalate (cutHyphens [] cs) = cs := by
  induction cs using separator_induction with
  | nil => rfl
  | separator r ih =>
    rw [cutHyphens_separator, List.intercalate_cons_of_ne_nil (cutHyphens_ne_nil r), ih]
    rfl
  | cons c r hc ih =>
    obtain ⟨q, qs, hq⟩ := List.exists_cons_of_ne_nil (cutHyphens_ne_nil r)
    rw [hq] at ih
    rw [cutHyphens_cons hc, hq, List.modifyHead_cons, ← ih]
    cases qs with
    | nil => simp
    | cons q' qs => simp

/-- The first piece ends at the end of the text or at a separator. -/
theorem exists_cutHyphens (cs : List Char) : ∃ q qs, cutHyphens [] cs = q :: qs ∧
    (qs = [] ∧ cs = q ∨ qs ≠ [] ∧ ∃ rest, cs = q ++ (hyphens ++ rest)) := by
  obtain ⟨q, qs, hq⟩ := List.exists_cons_of_ne_nil (cutHyphens_ne_nil cs)
  have hcs := intercalate_cutHyphens cs
  rw [hq] at hcs
  refine ⟨q, qs, hq, ?_⟩
  by_cases hqs : qs = []
  · subst hqs
    exact .inl ⟨rfl, hcs.symm.trans List.intercalate_singleton⟩
  · rw [List.intercalate_cons_of_ne_nil hqs, List.append_assoc] at hcs
    exact .inr ⟨hqs, _, hcs.symm⟩

/-! ## Pieces that can be joined -/

/-- None holds the separator, and only the last may end with a hyphen. -/
structure Separable (ps : List (List Char)) : Prop where
  free : ∀ p ∈ ps, ¬ hyphens <:+: p
  closed : ps.Pairwise fun p _ => p.getLast? ≠ some '-'

theorem Separable.sublist (h : Separable ps) (hs : qs.Sublist ps) : Separable qs :=
  ⟨fun p hp => h.free p (hs.mem hp), h.closed.sublist hs⟩

theorem Separable.tail (h : Separable (p :: ps)) : Separable ps := h.sublist (List.sublist_cons_self p ps)

/-- A character in front of the first piece, at which no separator starts. -/
theorem Separable.cons_head {q : List Char} (h : Separable (q :: qs)) (hc : ¬ hyphens <+: c :: r)
    (hr : qs = [] ∧ r = q ∨ qs ≠ [] ∧ ∃ rest, r = q ++ (hyphens ++ rest)) : Separable ((c :: q) :: qs) := by
  have hprefix : q <+: r := by
    rcases hr with ⟨-, rfl⟩ | ⟨-, rest, rfl⟩
    · exact List.prefix_rfl
    · exact List.prefix_append _ _
  constructor
  case free =>
    refine List.forall_mem_cons.2 ⟨fun hin => ?_, h.tail.free⟩
    rcases List.infix_cons_iff.1 hin with hpre | hin
    · exact hc (hpre.trans ((List.prefix_cons_inj c).2 hprefix))
    · exact h.free q List.mem_cons_self hin
  case closed =>
    obtain ⟨hq, hqs⟩ := List.pairwise_cons.1 h.closed
    refine List.pairwise_cons.2 ⟨fun p hp => ?_, hqs⟩
    rcases hr with ⟨rfl, -⟩ | ⟨-, rest, rfl⟩
    · exact absurd hp List.not_mem_nil
    · cases q with
      | nil =>
        -- a hyphen right before the separator would make the separator start there
        rintro ⟨⟩
        exact hc (List.prefix_append hyphens ('-' :: rest))
      | cons d q => exact hq p hp

theorem separable_cutHyphens (cs : List Char) : Separable (cutHyphens [] cs) := by
  induction cs using separator_induction with
  | nil => exact ⟨by simp [cutHyphens, hyphens], List.pairwise_singleton _ _⟩
  | separator r ih =>
    rw [cutHyphens_separator]
    exact ⟨List.forall_mem_cons.2 ⟨by simp [hyphens], ih.free⟩, List.pairwise_cons.2 ⟨by simp, ih.closed⟩⟩
  | cons c r hc ih =>
    obtain ⟨q, qs, hq, hr⟩ := exists_cutHyphens r
    rw [hq] at ih
    rw [cutHyphens_cons hc, hq, List.modifyHead_cons]
    exact ih.cons_head hc hr

/-- A text in which no separator starts belongs to the first piece. -/
theorem cutHyphens_append (h : ∀ b, b <:+ p → b ≠ [] → ¬ hyphens <+: b ++ r) :
    cutHyphens [] (p ++ r) = (cutHyphens [] r).modifyHead (p ++ ·) := by
  induction p with
  | nil => exact (congrFun List.modifyHead_id _).symm
  | cons c p ih =>
    have hc : ¬ hyphens <+: c :: (p ++ r) := h (c :: p) List.suffix_rfl (List.cons_ne_nil c p)
    rw [List.cons_append, cutHyphens_cons hc, ih fun b hb => h b (hb.trans (List.suffix_cons c p)),
      List.modifyHead_modifyHead]
    rfl

theorem cutHyphens_free (h : ¬ hyphens <:+: p) : cutHyphens [] p = [p] := by
  have hp := cutHyphens_append (p := p) (r := []) fun b hb _ hpre => by
    rw [List.append_nil] at hpre
    exact h (hpre.isInfix.trans hb.isInfix)
  simpa [cutHyphens] using hp

theorem cutHyphens_closed (h : ¬ hyphens <:+: p) (hlast : p.getLast? ≠ some '-') :
    cutHyphens [] (p ++ (hyphens ++ r)) = p :: cutHyphens [] r := by
  rw [cutHyphens_append, cutHyphens_separator]
  · simp
  · rintro b ⟨a, rfl⟩ hne hpre
    -- a separator that starts in the last two characters has a hyphen for the last one
    match b with
    | [] => exact hne rfl
    | [x] =>
      obtain ⟨rfl, -⟩ := List.cons_prefix_cons.1 hpre
      exact hlast (by simp)
    | [x, y] =>
      simp only [hyphens, List.cons_append, List.cons_prefix_cons] at hpre
      obtain ⟨rfl, rfl, -⟩ := hpre
      exact hlast (by simp)
    | x :: y :: z :: b =>
      simp only [hyphens, List.cons_append, List.cons_prefix_cons] at hpre
      obtain ⟨rfl, rfl, rfl, -⟩ := hpre
      exact h ⟨a, b, by simp [hyphens]⟩

theorem cutHyphens_intercalate (h : Separable ps) (hne : ps ≠ []) : cutHyphens [] (hyphens.intercalate ps) = ps := by
  induction ps with
  | nil => exact absurd rfl hne
  | cons p ps ih =>
    have hp := h.free p List.mem_cons_self
    cases ps with
    | nil => rw [List.intercalate_singleton, cutHyphens_free hp]
    | cons q ps =>
      have hlast := (List.pairwise_cons.1 h.closed).1 q List.mem_cons_self
      rw [List.intercalate_cons_cons, List.append_assoc, cutHyphens_closed hp hlast, ih h.tail (List.cons_ne_nil q ps)]

/-! ## Values -/

theorem pairwise_iff_dropLast {α : Type} {P : α → Prop} {l : List α} :
    l.Pairwise (fun a _ => P a) ↔ ∀ a ∈ l.dropLast, P a := by
  induction l with
  | nil => simp
  | cons a l ih =>
    cases l with
    | nil => simp
    | cons b l =>
      have hhead : (∀ x ∈ b :: l, P a) ↔ P a := ⟨fun h => h b List.mem_cons_self, fun h _ _ => h⟩
      rw [List.pairwise_cons, ih, hhead, List.dropLast_cons_cons, List.forall_mem_cons]

/-- The values of a text can be joined, whatever the text. -/
theorem separable_splitValues (s : String) : Separable ((splitValues s).map String.toList) := by
  have hmap : (splitValues s).map String.toList = (cutHyphens [] s.toList).filter (· ≠ []) := by
    simp [splitValues, Function.comp_def]
  rw [hmap]
  exact (separable_cutHyphens s.toList).sublist List.filter_sublist

theorem ne_empty_of_mem_splitValues {s v : String} (h : v ∈ splitValues s) : v ≠ "" := by
  obtain ⟨p, hp, rfl⟩ := List.mem_map.1 h
  have hne : p ≠ [] := of_decide_eq_true (List.mem_filter.1 hp).2
  exact fun he => hne (by simpa using congrArg String.toList he)

theorem splitValues_intercalate {vs : List String} (hne : ∀ v ∈ vs, v ≠ "") (h : Separable (vs.map String.toList)) :
    splitValues ("---".intercalate vs) = vs := by
  cases vs with
  | nil => rfl
  | cons v vs =>
    have hpieces : ∀ p ∈ (v :: vs).map String.toList, decide (p ≠ []) = true := by
      intro p hp
      obtain ⟨w, hw, rfl⟩ := List.mem_map.1 hp
      simpa using hne w hw
    rw [splitValues, String.toList_intercalate, toList_hyphens, cutHyphens_intercalate h (List.cons_ne_nil _ _),
      List.filter_eq_self.2 hpieces, List.map_map]
    simp [Function.comp_def]

theorem separable_toList_iff {vs : List String} : Separable (vs.map String.toList) ↔
    (∀ v ∈ vs, ¬ "---".toList <:+: v.toList) ∧ ∀ v ∈ vs.dropLast, v.toList.getLast? ≠ some '-' := by
  rw [← pairwise_iff_dropLast, toList_hyphens]
  constructor
  · intro h
    exact ⟨fun v hv => h.free _ (List.mem_map_of_mem hv), List.pairwise_map.1 h.closed⟩
  · rintro ⟨hfree, hclosed⟩
    exact ⟨List.forall_mem_map.2 hfree, List.pairwise_map.2 hclosed⟩

/-- Values that are joined come back as they were exactly if none is empty, none holds the separator, and only the last
may end with a hyphen. -/
theorem splitValues_intercalate_iff (vs : List String) : splitValues ("---".intercalate vs) = vs ↔
    (∀ v ∈ vs, v ≠ "") ∧ (∀ v ∈ vs, ¬ "---".toList <:+: v.toList) ∧
      ∀ v ∈ vs.dropLast, v.toList.getLast? ≠ some '-' := by
  rw [← separable_toList_iff]
  constructor
  · intro h
    rw [← h]
    exact ⟨fun v hv => ne_empty_of_mem_splitValues hv, separable_splitValues _⟩
  · rintro ⟨hne, h⟩
    exact splitValues_intercalate hne h

/-- A hyphen before a separator is moved behind it. -/
example : splitValues ("---".intercalate ["a-", "b"]) = ["a", "-b"] := by decide

end ShapePlan.Record
