/-
The closed vocabularies and the IRIs of their terms: a term is told by what stands after the base, and looking up the
IRI of a value finds the value.
-/
import ShapePlan.Constraint
import ShapePlan.Iri.Name

namespace ShapePlan

theorem Sh.term_inj {s t : String} : Sh.term s = Sh.term t ↔ s = t := by simp [Sh.term]

/-- The local name of a term is what stands after the base. -/
theorem Sh.localNameOf_term (s : String) : Iri.localNameOf (Sh.term s) = s := by
  have hbase : Sh.base.toList = "http://www.w3.org/ns/shacl".toList ++ ['#'] := by simp [Sh.base]
  have hs : (Sh.term s).toList = "http://www.w3.org/ns/shacl".toList ++ '#' :: s.toList := by
    rw [Sh.term, String.toList_append, hbase, List.append_assoc, List.singleton_append]
  have hmem : '#' ∈ (Sh.term s).toList := by simp [hs]
  -- no hash stands before the last character of the base
  rw [Iri.localNameOf, Iri.cutName, if_pos hmem, Iri.cutAfterFirst, hs, List.dropWhile_append_of_pos (by simp),
    List.dropWhile_cons_of_neg (by simp), List.drop_one, List.tail_cons, String.ofList_toList]

theorem NodeKind.ofIri?_eq_some {s : String} {k : NodeKind} : ofIri? s = some k ↔ s = k.term := by
  constructor
  · intro h
    have hk : k.term = s := by simpa using List.find?_some h
    exact hk.symm
  · rintro rfl
    cases k <;> simp [ofIri?, all, term, Sh.term_inj]

/-- An unknown severity counts as a violation. -/
theorem Severity.iri_ofIri? (o : Option String) : ((o >>= ofIri?).getD .violation).iri =
    (o.filter (· ∈ [Sh.violation, Sh.term "Warning", Sh.term "Info"])).getD Sh.violation := by
  cases o with
  | none => rfl
  | some s =>
    rw [Option.bind_eq_bind, Option.bind_some, Option.filter_some]
    cases h : ofIri? s with
    | some x =>
      have hx : x.iri = s := by simpa using List.find?_some h
      have hs : s ∈ [Sh.violation, Sh.term "Warning", Sh.term "Info"] := by
        rw [← hx]
        cases x <;> simp [iri]
      rw [if_pos (decide_eq_true hs)]
      exact hx
    | none =>
      have hs : s ∉ [Sh.violation, Sh.term "Warning", Sh.term "Info"] := by
        intro hs
        have hne := List.find?_eq_none.1 h
        simp only [List.mem_cons, List.not_mem_nil, or_false] at hs
        rcases hs with rfl | rfl | rfl
        · exact hne .violation (by decide) (decide_eq_true rfl)
        · exact hne .warning (by decide) (decide_eq_true rfl)
        · exact hne .info (by decide) (decide_eq_true rfl)
      rw [if_neg (by simpa using hs)]
      rfl

end ShapePlan
