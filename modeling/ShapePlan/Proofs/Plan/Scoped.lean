/-
The two scopes of a query. The query on the touched nodes is the query on all nodes with one filter put in, at the
place where the head of the template ends; nothing that the values hold moves that place.
-/
import ShapePlan.Proofs.Plan.Emitted
import ShapePlan.Proofs.Query.Template

namespace ShapePlan

open Query QueryText

/-! ## Heads -/

def quotedName (v : String) : String := "`" ++ String.ofList (escapeName v.toList) ++ "`"

/-- What a query starts with: a clause that matches the focus nodes, or their relationships, possibly after the
parameter set is bound. -/
inductive MatchClause : String → Prop where
  | focus (label : String) : MatchClause ("MATCH (focus:" ++ quotedName label ++ ") WHERE ")
  | relationship (label type : String) :
      MatchClause ("MATCH (focus:" ++ quotedName label ++ ")-[r:" ++ quotedName type ++ "]->(x) WHERE ")
  | params (set label : String) :
      MatchClause ("WITH $" ++ quotedName set ++ " as params MATCH (focus:" ++ quotedName label ++ ") WHERE ")

namespace Template

theorem matchClause_head (t : Template) (vs : List String) : MatchClause (fill t.head.text vs) := by
  rw [fill_text (wellFormed_head t)]
  rcases head_cases t with h | h | h <;> rw [h]
  · have hw : String.ofList (write matchFocus vs) = "MATCH (focus:" ++ quotedName (vs.headD "") ++ ") WHERE " := by
      apply String.toList_inj.1
      simp [matchFocus, write, quotedName]
    exact hw ▸ .focus _
  · have hw : String.ofList (write matchRelationship vs) =
        "MATCH (focus:" ++ quotedName (vs.headD "") ++ ")-[r:" ++ quotedName (vs.tail.headD "") ++ "]->(x) WHERE " := by
      apply String.toList_inj.1
      simp [matchRelationship, write, quotedName]
    exact hw ▸ .relationship _ _
  · have hw : String.ofList (write bindParams vs) =
        "WITH $" ++ quotedName (vs.headD "") ++ " as params MATCH (focus:" ++ quotedName (vs.tail.headD "") ++
          ") WHERE " := by
      apply String.toList_inj.1
      simp [bindParams, write, quotedName]
    exact hw ▸ .params _ _

/-! ## Heads and bodies -/

/-- The values of the head of a template come first. -/
def renderHead (t : Template) (vs : List String) : String := fill t.head.text (vs.take t.head.sites.length)

def renderBody (t : Template) (c : Context) (vs : List String) : String :=
  fill (t.body c).text (vs.drop t.head.sites.length)

theorem toList_renderHead (t : Template) (vs : List String) : (t.renderHead vs).toList = write t.head vs := by
  rw [renderHead, fill_text (wellFormed_head t), String.toList_ofList, write_take]

theorem toList_renderBody (t : Template) (c : Context) (vs : List String) :
    (t.renderBody c vs).toList = write (t.body c) (vs.drop t.head.sites.length) := by
  rw [renderBody, fill_text (wellFormed_body t c), String.toList_ofList]

theorem render_global (t : Template) (c : Context) (vs : List String) :
    t.render c .global vs = t.renderHead vs ++ t.renderBody c vs := by
  apply String.toList_inj.1
  rw [render, text, fill_text (wellFormed_queryText t c .global), String.toList_ofList, String.toList_append,
    toList_renderHead, toList_renderBody, queryText, write_append]

theorem render_touched (t : Template) (c : Context) (vs : List String) :
    t.render c .touched vs = t.renderHead vs ++ touchedFilter ++ t.renderBody c vs := by
  -- the filter has no sites, so the body starts with the same value in both scopes
  have hf : write ([.code touchedFilter] ++ t.body c) (vs.drop t.head.sites.length) =
      touchedFilter.toList ++ write (t.body c) (vs.drop t.head.sites.length) := rfl
  apply String.toList_inj.1
  rw [render, text, fill_text (wellFormed_queryText t c .touched), String.toList_ofList, String.toList_append,
    String.toList_append, toList_renderHead, toList_renderBody, queryText, List.append_assoc, write_append, hf,
    List.append_assoc]

end Template

/-! ## Plans -/

/-- A query and its entry in a plan: the two texts are the rendered head and the rendered body of the template, next to
each other and with the filter on the touched nodes between them. -/
def Entry.IsScoped (c : Context) (q : Query) (entry : Entry) : Prop :=
  ∃ head body, head = q.template.renderHead q.values ∧ body = q.template.renderBody c q.values ∧ MatchClause head ∧
    entry.global = head ++ body ∧ entry.touched = head ++ " focus IN $touchedNodes AND " ++ body

/-- The two queries of an entry are the same but for one filter, put in where the match clause ends, whatever the
records hold. -/
theorem Naming.compile_filters_touched (n : Naming) (rs : List Record) (p : Plan) (h : n.compile rs = .ok p) :
    ∃ e, n.emitRecords rs = .ok e ∧
      List.Forall₂ (Entry.IsScoped (Context.ofConfig n.config)) e.queries p.entries := by
  obtain ⟨e, he, rfl⟩ := compile_eq_ok.1 h
  refine ⟨e, he, (e.plan_entries (Context.ofConfig n.config)).imp ?_⟩
  intro q entry hr
  refine ⟨_, _, rfl, rfl, q.template.matchClause_head _, ?_, ?_⟩
  · rw [← Template.render_global]
    exact hr .global
  · exact (hr .touched).trans (Template.render_touched _ _ _)

/-- A record whose class and shape hold the filter, and whose path holds the mark of a site. -/
def filterRecord : Record :=
  { path := some "u:#p%s", targetClass := some "u:#C focus IN $touchedNodes AND `) WHERE '", minCount := some 1,
    propertyShape := some " focus IN $touchedNodes AND " }

theorem compile_filters_touched_filterRecord :
    ∃ p, plainNaming.compile [filterRecord] = .ok p ∧ p.entries.length = 1 ∧
      ∃ e, plainNaming.emitRecords [filterRecord] = .ok e ∧
        List.Forall₂ (Entry.IsScoped (Context.ofConfig none)) e.queries p.entries :=
  ⟨_, rfl, rfl, Naming.compile_filters_touched _ _ _ rfl⟩

end ShapePlan
