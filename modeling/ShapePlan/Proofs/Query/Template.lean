/-
The query templates as well-formed texts. In every context and scope the constant text of a template is free of quotes,
its sites are set off by code, and its sites are the same: a value list that fits a template in one context
fits it in all of them.
-/
import ShapePlan.Proofs.Query.Filling

namespace ShapePlan

open QueryText

/-! ## Vocabularies -/

theorem isConstant_append {s t : String} : IsConstant 0 (s ++ t) ↔ IsConstant 0 s ∧ IsConstant 0 t := by
  refine ⟨fun h => ?_, fun h => h.1.append h.2⟩
  have hc := h.chars
  rw [String.toList_append, List.forall_mem_append] at hc
  exact ⟨⟨Nat.zero_le _, hc.1⟩, ⟨Nat.zero_le _, hc.2⟩⟩

theorem isConstant_component {s : String} : IsConstant 0 (Sh.component s) ↔ IsConstant 0 s := by
  have hbase : IsConstant 0 Sh.base := isConstant_ofList (by decide)
  have hend : IsConstant 0 "ConstraintComponent" := isConstant_ofList (by decide)
  simp only [Sh.component, Sh.term, isConstant_append, hbase, hend, true_and, and_true]

theorem isConstant_type : IsConstant 0 Rdf.type := by
  have hbase : IsConstant 0 Rdf.base := isConstant_ofList (by decide)
  exact hbase.append (isConstant_ofList (by decide))

/-! ## Constant text -/

namespace Context

variable (c : Context)

theorem constant_nodeId : c.nodeId.Constant := by
  unfold nodeId
  split <;> simp only [constant_cons, constant_nil, and_true, Piece.fixed, Piece.least] <;>
    exact isConstant_ofList (by decide)

theorem constant_shown : c.shown.Constant := by
  unfold shown
  split <;> simp only [constant_cons, constant_nil, and_true, Piece.fixed, Piece.least] <;> and_intros <;>
    exact isConstant_ofList (by decide)

theorem constant_shownInMessage : c.shownInMessage.Constant := by
  unfold shownInMessage
  split <;> simp only [constant_cons, constant_nil, and_true, Piece.fixed, Piece.least] <;> and_intros <;>
    exact isConstant_ofList (by decide)

theorem constant_typeName : c.typeName.Constant := by
  unfold typeName
  simp only [constant_cons, constant_nil, and_true, Piece.fixed, Piece.least]
  refine ⟨isConstant_ofList (by decide), ?_, isConstant_ofList (by decide)⟩
  split
  · exact isConstant_type
  · exact isConstant_ofList (by decide)

theorem constant_labels : c.labels.Constant := by
  unfold labels
  split <;> simp only [constant_cons, constant_nil, and_true, Piece.fixed, Piece.least] <;> and_intros <;>
    exact isConstant_ofList (by decide)

theorem constant_target : c.target.Constant := by
  unfold target
  split <;> simp only [constant_cons, constant_nil, and_true, Piece.fixed, Piece.least] <;>
    exact isConstant_ofList (by decide)

theorem constant_value : c.value.Constant := by
  unfold value
  split <;> simp only [constant_cons, constant_nil, and_true, Piece.fixed, Piece.least] <;>
    exact isConstant_ofList (by decide)

theorem constant_returnsOf {node : QueryText} {s : String} :
    (c.returnsOf node s).Constant ↔ node.Constant ∧ IsConstant 0 s := by
  have hs : Constant [.code " as nodeType, ", .string "", .code " as shapeId, ", .quoted (Sh.component s),
      .code " as propertyShape,"] ↔ IsConstant 0 s := by
    simp only [constant_cons, constant_nil, and_true, Piece.fixed, Piece.least, isConstant_component]
    refine ⟨fun h => h.2.2.2.1, fun h => ⟨?_, ?_, ?_, h, ?_⟩⟩ <;> exact isConstant_ofList (by decide)
  have hr : Constant [.code " RETURN "] := by
    simp only [constant_cons, constant_nil, and_true, Piece.fixed, Piece.least]
    exact isConstant_ofList (by decide)
  have hi : Constant [.code " as nodeId, "] := by
    simp only [constant_cons, constant_nil, and_true, Piece.fixed, Piece.least]
    exact isConstant_ofList (by decide)
  simp only [returnsOf, constant_append, hr, hi, hs, c.constant_shown, true_and, and_true]

theorem constant_returns {s : String} : (c.returns s).Constant ↔ IsConstant 0 s := by
  rw [returns, constant_returnsOf, and_iff_right c.constant_nodeId]

end Context

namespace Template

theorem constant_property {t : QueryText} : (property t).Constant ↔ t.Constant := by
  have hs : Constant [.code " as propertyName, ", .string "", .code " as severity,"] := by
    simp only [constant_cons, constant_nil, and_true, Piece.fixed, Piece.least]
    and_intros <;> exact isConstant_ofList (by decide)
  rw [property, constant_append, and_iff_left hs]

theorem constant_body (t : Template) (c : Context) : (t.body c).Constant := by
  cases t <;> simp only [body, constant_append, constant_property, constant_cons, constant_nil, and_true,
    c.constant_shown, c.constant_shownInMessage, c.constant_typeName, c.constant_labels, c.constant_target,
    c.constant_value, c.constant_nodeId, c.constant_returns, c.constant_returnsOf, isConstant_component, Piece.fixed,
    Piece.least] <;> and_intros <;> try exact isConstant_ofList (by decide)
  -- what is left are the literals put together of two, and the parts that depend on the context
  all_goals try exact (isConstant_ofList (by decide)).append (isConstant_ofList (by decide))
  all_goals split
  all_goals try simp only [constant_cons, constant_nil, and_true, Piece.fixed, Piece.least]
  all_goals and_intros <;> exact isConstant_ofList (by decide)

theorem head_cases (t : Template) : t.head = matchFocus ∨ t.head = matchRelationship ∨ t.head = bindParams := by
  cases t <;> simp [head]

theorem constant_head (t : Template) : t.head.Constant := by
  cases t <;> simp only [head, matchFocus, matchRelationship, bindParams, constant_cons, constant_nil, and_true,
    Piece.fixed, Piece.least] <;> and_intros <;> exact isConstant_ofList (by decide)

end Template

/-! ## Spacing and sites -/

namespace QueryText

theorem spaced_ite {p : Prop} [Decidable p] (b : Bool) (t u r : QueryText) :
    spaced b ((if p then t else u) ++ r) = if p then spaced b (t ++ r) else spaced b (u ++ r) := by
  split <;> rfl

theorem sites_ite {p : Prop} [Decidable p] (t u : QueryText) :
    sites (if p then t else u) = if p then sites t else sites u :=
  apply_ite sites p t u

end QueryText

namespace Context

variable (c : Context) (b : Bool) (r : QueryText)

/-- A part that starts and ends with code can stand anywhere. -/
theorem spaced_nodeId : spaced b (c.nodeId ++ r) = spaced true r := by
  unfold nodeId; split <;> rfl

theorem spaced_shown : spaced b (c.shown ++ r) = spaced true r := by
  unfold shown; split <;> rfl

theorem spaced_shownInMessage : spaced b (c.shownInMessage ++ r) = spaced true r := by
  unfold shownInMessage; split <;> rfl

theorem spaced_typeName : spaced b (c.typeName ++ r) = spaced true r := rfl

theorem spaced_labels : spaced b (c.labels ++ r) = spaced true r := by
  unfold labels; split <;> rfl

theorem spaced_target : spaced b (c.target ++ r) = spaced true r := by
  unfold target; split <;> rfl

theorem spaced_value : spaced b (c.value ++ r) = spaced true r := by
  unfold value; split <;> rfl

theorem spaced_returns (s : String) : spaced b (c.returns s ++ r) = spaced true r := by
  simp only [returns, returnsOf, List.append_assoc, List.cons_append, List.nil_append, spaced_code, spaced_quoted,
    spaced_string, spaced_nodeId, spaced_shown, Bool.true_and]

theorem spaced_returnsOf (t s : String) : spaced b (c.returnsOf [.code t] s ++ r) = spaced true r := by
  simp only [returnsOf, List.append_assoc, List.cons_append, List.nil_append, spaced_code, spaced_quoted,
    spaced_string, spaced_shown, Bool.true_and]

theorem sites_shown : c.shown.sites = [.string] := by
  unfold shown; split <;> rfl

theorem sites_shownInMessage : c.shownInMessage.sites = [.string] := by
  unfold shownInMessage; split <;> rfl

theorem sites_nodeId : c.nodeId.sites = [] := by
  unfold nodeId; split <;> rfl

theorem sites_typeName : c.typeName.sites = [] := rfl

theorem sites_labels : c.labels.sites = [] := by
  unfold labels; split <;> rfl

theorem sites_target : c.target.sites = [] := by
  unfold target; split <;> rfl

theorem sites_value : c.value.sites = [] := by
  unfold value; split <;> rfl

theorem sites_returns (s : String) : (c.returns s).sites = [.string, .string] := by
  simp only [returns, returnsOf, sites_append, sites_nodeId, sites_shown]
  rfl

theorem sites_returnsOf (t s : String) : (c.returnsOf [.code t] s).sites = [.string, .string] := by
  simp only [returnsOf, sites_append, sites_shown]
  rfl

end Context

namespace Template

theorem spaced_body (b : Bool) (t : Template) (c : Context) : spaced b (t.body c) = true := by
  cases t <;> simp only [body, property, List.append_assoc, List.cons_append, List.nil_append, spaced_nil, spaced_code,
    spaced_quoted, spaced_string, spaced_name, spaced_snippet, c.spaced_shown, c.spaced_shownInMessage,
    c.spaced_typeName, c.spaced_labels, c.spaced_target, c.spaced_value, c.spaced_nodeId, c.spaced_returns,
    c.spaced_returnsOf, spaced_ite, Bool.true_and, ite_self]

theorem spaced_head (t : Template) (r : QueryText) : spaced false (t.head ++ r) = spaced true r := by
  cases t <;> rfl

/-- The sites of a template do not depend on the context. -/
theorem sites_body (t : Template) (c : Context) : (t.body c).sites = (t.body {}).sites := by
  cases t <;> simp only [body, property, sites_append, sites_nil, sites_code, sites_quoted, sites_string, sites_name,
    sites_snippet, sites_ite, Context.sites_shown, Context.sites_shownInMessage, Context.sites_typeName,
    Context.sites_labels, Context.sites_target, Context.sites_value, Context.sites_nodeId, Context.sites_returns,
    Context.sites_returnsOf, ite_self]

/-- The sites of a template in order, in any context and scope. -/
def sites (t : Template) : List Site := t.head.sites ++ (t.body {}).sites

theorem sites_queryText (t : Template) (c : Context) (s : Scope) : (t.queryText c s).sites = t.sites := by
  cases s
  · rw [queryText, sites_append, sites_body, sites]
  · rw [queryText, sites_append, sites_append, sites_code, sites_nil, List.append_nil, sites_body, sites]

theorem constant_touchedFilter : Constant [.code touchedFilter] := by
  simp only [constant_cons, constant_nil, and_true, Piece.fixed, Piece.least]
  exact isConstant_ofList (by decide)

theorem wellFormed_head (t : Template) : t.head.WellFormed where
  constant := constant_head t
  spaced := by rw [← List.append_nil t.head, spaced_head]; rfl

theorem wellFormed_body (t : Template) (c : Context) : (t.body c).WellFormed where
  constant := constant_body t c
  spaced := spaced_body false t c

theorem wellFormed_queryText (t : Template) (c : Context) (s : Scope) : (t.queryText c s).WellFormed := by
  cases s with
  | global =>
    refine ⟨constant_append.2 ⟨constant_head t, constant_body t c⟩, ?_⟩
    rw [queryText, spaced_head, spaced_body]
  | touched =>
    refine ⟨constant_append.2 ⟨constant_append.2 ⟨constant_head t, constant_touchedFilter⟩, constant_body t c⟩, ?_⟩
    rw [queryText, List.append_assoc, spaced_head, List.singleton_append, QueryText.spaced_code, spaced_body]

end Template

end ShapePlan
