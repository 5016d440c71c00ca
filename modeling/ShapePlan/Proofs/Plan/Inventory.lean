/-
The inventory of a plan is complete in both directions. What one constraint emits is about one focus label and one path;
its queries go by its first kind, its components by all its kinds, and it lists something whenever it queries
something. Only a node kind that no template checks is listed without a query.
-/
import ShapePlan.Proofs.Plan.Emitted
import ShapePlan.Proofs.Record.Constraints
import ShapePlan.Proofs.Vocabulary

namespace ShapePlan

/-! ## Kinds -/

/-- The kinds by which the inventory lists a constraint. A length and a range are listed by every bound that is set. -/
def Constraint.kinds : Constraint → List Kind
  | .length min max => ([(Kind.minLength, min.isSome), (.maxLength, max.isSome)].filter (·.2)).map (·.1)
  | .range r =>
    ([(Kind.minInclusive, r.minInclusive.isSome), (.maxInclusive, r.maxInclusive.isSome),
      (.minExclusive, r.minExclusive.isSome), (.maxExclusive, r.maxExclusive.isSome)].filter (·.2)).map (·.1)
  | c => c.kind?.toList

theorem ValueRange.kinds_bounds (r : ValueRange) : r.bounds.map (·.1) = (Constraint.range r).kinds := by
  obtain ⟨minInc, minExc, maxInc, maxExc⟩ := r
  cases minInc <;> cases minExc <;> cases maxInc <;> cases maxExc <;> rfl

/-- How the inventory shows the node kinds that are checked. -/
def checkedNodeKinds : GraphMode → List Value
  | .rdf => [.string (Sh.term "Literal"), .string (Sh.term "BlankNodeOrIRI")]
  | .lpg => [.string "Literal", .string "BlankNodeOrIRI"]

/-- A node kind that is listed, and for which there is no query. -/
def Component.IsUncheckedKind (m : GraphMode) (d : Component) : Prop :=
  d.kind = Kind.nodeKind.nameIn m ∧ d.value ∉ checkedNodeKinds m

theorem Target.termName_not_mem {n : Naming} {k : NodeKind} (h : nodeKindTemplate? k = none) :
    termName n k.term ∉ checkedNodeKinds n.graphMode := by
  unfold termName
  cases k with
  | literal => cases h
  | blankNodeOrIri => cases h
  | _ => cases n.graphMode <;> simp [checkedNodeKinds, NodeKind.term, Sh.localNameOf_term, Sh.term_inj]

/-! ## What one constraint emits -/

/-- A query of a target with a kind. -/
def Query.IsAt (t : Target) (k : Kind) (q : Query) : Prop := q.focusLabel = t.focus ∧ q.path = t.path ∧ q.kind = k

theorem Target.isAt_query (t : Target) (k : Kind) (template : Template) (values others : List String) :
    (t.query template k values others).IsAt t k :=
  ⟨rfl, rfl, rfl⟩

/-- What is emitted at a target for a constraint with these kinds. -/
structure Emission.IsListed (m : GraphMode) (t : Target) (kinds : List Kind) (e : Emission) : Prop where
  /-- The queries go by the first kind. -/
  queries : ∀ q ∈ e.queries, ∃ k, kinds.head? = some k ∧ q.IsAt t k
  components : ∀ d ∈ e.components, ∃ k ∈ kinds, ∃ v, d = t.component m k v
  /-- The kind of a query is listed. -/
  listed : ∀ q ∈ e.queries, ∃ v, t.component m q.kind v ∈ e.components
  queried : ∀ d ∈ e.components, d.IsUncheckedKind m ∨ e.queries ≠ []

namespace Emission.IsListed

variable {m : GraphMode} {t : Target} {e : Emission}

theorem empty (m : GraphMode) (t : Target) (kinds : List Kind) : IsListed m t kinds {} :=
  ⟨List.forall_mem_nil _, List.forall_mem_nil _, List.forall_mem_nil _, List.forall_mem_nil _⟩

/-- The queries and the components of most constraints have one kind. -/
theorem single {k : Kind} (hq : ∀ q ∈ e.queries, q.IsAt t k) (hd : ∀ d ∈ e.components, ∃ v, d = t.component m k v)
    (hne : e.queries = [] ↔ e.components = []) : IsListed m t [k] e where
  queries q h := ⟨k, rfl, hq q h⟩
  components d h := ⟨k, List.mem_singleton_self k, hd d h⟩
  listed q h := by
    obtain ⟨d, hmem⟩ := List.exists_mem_of_ne_nil _ fun hnil => List.ne_nil_of_mem h (hne.2 hnil)
    obtain ⟨v, rfl⟩ := hd d hmem
    exact ⟨v, by rwa [(hq q h).2.2]⟩
  queried d h := .inr fun hnil => List.ne_nil_of_mem h (hne.1 hnil)

/-- All queries of a constraint are listed by one component. -/
theorem one {k : Kind} {q : Query} {qs : List Query} {ps : List Param} {v : Value} (h : ∀ p ∈ q :: qs, p.IsAt t k) :
    IsListed m t [k] ⟨q :: qs, ps, [t.component m k v]⟩ :=
  .single h (List.forall_mem_singleton.2 ⟨v, rfl⟩) (iff_of_false (List.cons_ne_nil _ _) (List.cons_ne_nil _ _))

/-- A length or a range has a component for each bound, and its query goes by the first. -/
theorem bounds {α : Type} {k : Kind} {q : Query} (h : q.IsAt t k) (f : α → Value) (a : α) (others : List (Kind × α))
    (ps : List Param) : IsListed m t (((k, a) :: others).map (·.1))
      ⟨[q], ps, ((k, a) :: others).map fun b => t.component m b.1 (f b.2)⟩ where
  queries := List.forall_mem_singleton.2 ⟨k, rfl, h⟩
  components := List.forall_mem_map.2 fun b hb => ⟨b.1, List.mem_map_of_mem hb, f b.2, rfl⟩
  listed := List.forall_mem_singleton.2 ⟨f a, by rw [h.2.2]; exact List.mem_cons_self⟩
  queried _ _ := .inr (List.cons_ne_nil _ _)

end Emission.IsListed

/-- Types are kept in labels or in nodes. -/
theorem IriFacet.isListed_emit {f : IriFacet} {n : Naming} {t : Target} {prop : String} {iris : List String}
    {e : Emission} (h : f.emit n t prop iris = .ok e) : e.IsListed n.graphMode t [f.kind] := by
  have at₁ : ∀ template values, ∀ q ∈ [t.query template f.kind values], q.IsAt t f.kind := fun _ _ =>
    List.forall_mem_singleton.2 (t.isAt_query ..)
  unfold emit at h
  split at h
  · rcases emitOnType_cases h with ⟨names, -, -, rfl⟩ | ⟨hl, rfl⟩
    · split
      · exact .one (List.forall_mem_append.2 ⟨at₁ _ _, at₁ _ _⟩)
      · exact .one (at₁ _ _)
    · rw [if_pos (Naming.typesAsNodes_of_not_labels hl)]
      exact .one (at₁ _ _)
  · cases h
    exact .one (at₁ _ _)

theorem CountFacet.queries_ne_nil (f : CountFacet) (n : Naming) (t : Target) (prop : String) :
    f.queries n t prop ≠ [] := by
  unfold queries
  split
  · exact List.cons_ne_nil _ _
  split
  · cases hl : n.typesAsLabels with
    | true => exact List.cons_ne_nil _ _
    | false =>
      rw [if_pos (Naming.typesAsNodes_of_not_labels hl)]
      exact List.cons_ne_nil _ _
  · exact List.cons_ne_nil _ _

theorem CountFacet.isAt_queries (f : CountFacet) (n : Naming) (t : Target) (prop : String) :
    ∀ q ∈ f.queries n t prop, q.IsAt t f.kind := by
  intro q hq
  obtain ⟨template, -, values, rfl⟩ := query_cases hq
  exact t.isAt_query ..

theorem CountFacet.isListed_emit (f : CountFacet) (n : Naming) (t : Target) (prop : String) (count : Int64) :
    (f.emit n t prop count).IsListed n.graphMode t [f.kind] :=
  .single (f.isAt_queries n t prop) (List.forall_mem_singleton.2 ⟨_, rfl⟩)
    (iff_of_false (f.queries_ne_nil n t prop) (List.cons_ne_nil _ _))

namespace Target

variable {n : Naming} {t : Target} {prop : String} {e : Emission}

theorem isListed_nodeKind (k : NodeKind) : (t.emitNodeKind n prop k).IsListed n.graphMode t [.nodeKind] := by
  unfold emitNodeKind
  cases hk : nodeKindTemplate? k with
  | some template => exact .one (List.forall_mem_singleton.2 (t.isAt_query ..))
  | none =>
    refine ⟨List.forall_mem_nil _, ?_, List.forall_mem_nil _, ?_⟩
    · exact List.forall_mem_singleton.2 ⟨_, List.mem_singleton_self _, _, rfl⟩
    · exact List.forall_mem_singleton.2 (.inl ⟨rfl, termName_not_mem hk⟩)

theorem isListed_length {min max : Option Int64} (h : min.isSome ∨ max.isSome) :
    (t.emitLength n prop min max).IsListed n.graphMode t (Constraint.length min max).kinds := by
  let number (a : Int64) : Value := .int a.toInt
  cases min with
  | some a =>
    cases max with
    | some b => exact .bounds (t.isAt_query ..) number a [(.maxLength, b)] _
    | none => exact .bounds (t.isAt_query ..) number a [] _
  | none =>
    cases max with
    | some b => exact .bounds (t.isAt_query ..) number b [] _
    | none => simp at h

theorem isListed_range (r : ValueRange) :
    (t.emitRange n prop r).IsListed n.graphMode t (Constraint.range r).kinds := by
  rw [← r.kinds_bounds]
  unfold emitRange
  split
  · exact .empty _ _ _
  · next k first others hb =>
    rw [hb]
    exact .bounds (t.isAt_query ..) .number first others _

theorem isListed_emitOnPath {r : Record} {c : Constraint} (hc : r.States c) (h : t.emitOnPath n prop c = .ok e) :
    e.IsListed n.graphMode t c.kinds := by
  cases c with
  | datatype iri =>
    cases h
    exact .one (List.forall_mem_cons.2 ⟨t.isAt_query .., List.forall_mem_singleton.2 (t.isAt_query ..)⟩)
  | hasValueIris iris =>
    simp only [emitOnPath, emitHasValueIris] at h
    split at h
    · cases h; exact .empty _ _ _
    · exact IriFacet.isListed_emit h
  | hasValueLiterals literals => cases h; exact .one (List.forall_mem_singleton.2 (t.isAt_query ..))
  | nodeKind k => cases h; exact isListed_nodeKind k
  | classOf iri =>
    obtain ⟨range, -, h⟩ := bind_eq_ok.1 h
    cases h
    exact .one (List.forall_mem_cons.2 ⟨t.isAt_query .., List.forall_mem_singleton.2 (t.isAt_query ..)⟩)
  | inLiterals literals => cases h; exact .one (List.forall_mem_singleton.2 (t.isAt_query ..))
  | inIris iris => exact IriFacet.isListed_emit h
  | pattern regex => cases h; exact .one (List.forall_mem_singleton.2 (t.isAt_query ..))
  | minCount count => cases h; exact CountFacet.minCount.isListed_emit n t prop count
  | maxCount count => cases h; exact CountFacet.maxCount.isListed_emit n t prop count
  | length min max =>
    obtain ⟨hs, rfl, rfl⟩ := hc
    cases h
    exact isListed_length hs
  | range r => cases h; exact isListed_range r
  | closed _ _ => cases h; exact .empty _ _ _
  | disjoint _ => cases h; exact .empty _ _ _
  | requiredClasses _ => cases h; exact .empty _ _ _

theorem isListed_emit {r : Record} {c : Constraint} (hc : r.States c) (h : t.emit n c = .ok e) :
    e.IsListed n.graphMode t c.kinds := by
  rcases emit_cases h with rfl | ⟨defined, ignored, rfl, h⟩ | ⟨classes, rfl, h⟩ | ⟨prop, -, -, h⟩
  · exact .empty _ _ _
  · obtain ⟨types, -, h⟩ := bind_eq_ok.1 h
    obtain ⟨ignored, -, h⟩ := bind_eq_ok.1 h
    obtain ⟨defined, -, h⟩ := bind_eq_ok.1 h
    cases h
    exact .one (List.forall_mem_singleton.2 (t.isAt_query ..))
  · obtain ⟨classes, -, h⟩ := bind_eq_ok.1 h
    cases h
    refine .single ?_ ?_ ?_
    · exact List.forall_mem_map.2 fun c _ => t.isAt_query ..
    · exact List.forall_mem_map.2 fun c _ => ⟨_, rfl⟩
    · rw [List.map_eq_nil_iff, List.map_eq_nil_iff]
  · exact isListed_emitOnPath hc h

end Target

theorem Naming.Emits.isListed {n : Naming} {r : Record} {t : Target} {c : Constraint} {e : Emission}
    (h : n.Emits r t c e) : e.IsListed n.graphMode t c.kinds := by
  obtain ⟨s, hs, -, hc, he⟩ := h
  obtain ⟨focus, -, rfl⟩ := Option.map_eq_some_iff.1 hs
  exact Target.isListed_emit (Record.mem_constraints.1 hc) he

/-! ## Plans -/

/-- A component for a further bound of a length or a range, whose query, the entry, goes by the first bound. -/
def Component.IsFurtherBound (n : Naming) (rs : List Record) (d : Component) (entry : Entry) : Prop :=
  ∃ r ∈ rs, ∃ t c e, n.Emits r t c e ∧ d ∈ e.components ∧
    (∃ q ∈ e.queries, ∃ i, entry = q.entry (Context.ofConfig n.config) i) ∧
    ∃ further, c.kinds = entry.kind :: further ∧ ∃ k ∈ further, d.kind = k.nameIn n.graphMode

def Entry.IsListedBy (m : GraphMode) (entry : Entry) (d : Component) : Prop :=
  d.focusLabel = entry.focusLabel ∧ d.path = entry.path ∧ d.kind = entry.kind.nameIn m

/-- An entry for the label and the path of a component, of its own kind or of the first bound that stands for it. -/
def Component.IsQueriedBy (n : Naming) (rs : List Record) (d : Component) (entry : Entry) : Prop :=
  entry.focusLabel = d.focusLabel ∧ entry.path = d.path ∧
    (d.kind = entry.kind.nameIn n.graphMode ∨ d.IsFurtherBound n rs entry)

/-- The entries of a plan and its inventory are about the same constraints: every entry is listed, and every component
has an entry. Only a node kind that is not checked has none. -/
theorem Naming.compile_inventory_complete (n : Naming) (rs : List Record) (p : Plan) (h : n.compile rs = .ok p) :
    (∀ entry ∈ p.entries, ∃ d ∈ p.inventory, entry.IsListedBy n.graphMode d) ∧
    ∀ d ∈ p.inventory, ¬ d.IsUncheckedKind n.graphMode → ∃ entry ∈ p.entries, d.IsQueriedBy n rs entry := by
  obtain ⟨e, he, rfl⟩ := compile_eq_ok.1 h
  obtain ⟨es, rfl, hes⟩ := emitRecords_parts he
  have hentries := (Emission.join es).entries_plan (Context.ofConfig n.config)
  rw [Emission.queries_join] at hentries
  have hinventory : ((Emission.join es).plan (Context.ofConfig n.config)).inventory = es.flatMap (·.components) :=
    Emission.components_join es
  rw [hinventory]
  constructor
  · intro entry hentry
    obtain ⟨q, hq, i, rfl⟩ := exists_left_of_mem hentries hentry
    obtain ⟨f, hf, hq⟩ := List.mem_flatMap.1 hq
    obtain ⟨r, -, t, c, hemit⟩ := hes f hf
    obtain ⟨k, -, hat⟩ := hemit.isListed.queries q hq
    obtain ⟨v, hv⟩ := hemit.isListed.listed q hq
    exact ⟨_, List.mem_flatMap.2 ⟨f, hf, hv⟩, hat.1.symm, hat.2.1.symm, rfl⟩
  · intro d hd hchecked
    obtain ⟨f, hf, hd⟩ := List.mem_flatMap.1 hd
    obtain ⟨r, hr, t, c, hemit⟩ := hes f hf
    obtain ⟨k, hk, v, hv⟩ := hemit.isListed.components d hd
    have hne : f.queries ≠ [] := (hemit.isListed.queried d hd).resolve_left hchecked
    obtain ⟨q, hq⟩ := List.exists_mem_of_ne_nil _ hne
    obtain ⟨first, hfirst, hlabel, hpath, hkind⟩ := hemit.isListed.queries q hq
    obtain ⟨entry, hentry, i, rfl⟩ := exists_right_of_mem hentries (List.mem_flatMap.2 ⟨f, hf, hq⟩)
    refine ⟨_, hentry, by rw [hv]; exact hlabel, by rw [hv]; exact hpath, ?_⟩
    -- the query goes by the first kind, the component by the first or by a later one
    obtain ⟨further, hkinds⟩ := List.head?_eq_some_iff.1 hfirst
    rw [hkinds] at hk
    rcases List.mem_cons.1 hk with rfl | hk
    · refine .inl ?_
      rw [hv, ← hkind]
      rfl
    · refine .inr ⟨r, hr, t, c, f, hemit, hd, ⟨q, hq, i, rfl⟩, further, ?_, k, hk, by rw [hv]; rfl⟩
      rw [hkinds, ← hkind]
      rfl

/-- A record with a node kind that is not checked, both ends of a length and three bounds of a range. -/
def boundedRecord : Record :=
  { path := some "u:#p", targetClass := some "u:#C", nodeKind := some (Sh.term "IRI"), minLength := some 1,
    maxLength := some 9, maxInclusive := some (.int 7), minExclusive := some (.int 0), maxExclusive := some (.int 8),
    propertyShape := some "u:#S" }

theorem compile_inventory_complete_boundedRecord :
    ∃ p, plainNaming.compile [boundedRecord] = .ok p ∧
      p.entries.map (·.kind) = [.minLength, .maxInclusive] ∧
      p.inventory.map (·.kind) =
        ["nodeKind", "minLength", "maxLength", "maxInclusive", "minExclusive", "maxExclusive"] ∧
      (∀ entry ∈ p.entries, ∃ d ∈ p.inventory, entry.IsListedBy .lpg d) ∧
      ∀ d ∈ p.inventory, ¬ d.IsUncheckedKind .lpg →
        ∃ entry ∈ p.entries, d.IsQueriedBy plainNaming [boundedRecord] entry :=
  ⟨_, rfl, rfl, rfl, Naming.compile_inventory_complete plainNaming [boundedRecord] _ rfl⟩

end ShapePlan
