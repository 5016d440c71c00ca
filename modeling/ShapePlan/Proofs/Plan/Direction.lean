/-
The direction of paths. The counts of an inverse path follow incoming relationships only: in their queries the path
stands after an incoming arrow, and nowhere else. A path that is not inverse brings no incoming arrow into any query.
The other facets of a property have no text for incoming relationships, and follow an inverse path in its direction
(`compile_uses_forward`).
-/
import ShapePlan.Proofs.Plan.Inventory
import ShapePlan.Proofs.Plan.Parameters
import ShapePlan.Proofs.Query.Names

namespace ShapePlan

open Query QueryText

/-! ## Rendered queries -/

/-- A snippet is a text without sites and without incoming arrows. -/
theorem text_of_snippet {v : String} (h : v ∈ snippets) :
    ∃ t : QueryText, lex v = some (t.lexemes []) ∧ t.Undirected ∧ t.sites = [] := by
  rcases List.mem_append.1 h with hv | hv
  · have hcode : IsConstant 0 v ∧ CodeUnarrowed v := by
      simp only [List.mem_cons, List.not_mem_nil, or_false] at hv
      rcases hv with rfl | rfl | rfl | rfl | rfl | rfl | rfl | rfl | rfl | rfl | rfl | rfl | rfl | rfl | rfl | rfl <;>
        exact ⟨isConstant_ofList (by decide), codeUnarrowed_ofList (by decide)⟩
    refine ⟨[.code v], ?_, undirected_code.2 ⟨hcode.2, undirected_nil⟩, rfl⟩
    rw [lex_constant hcode.1, lexemes, lexemes, List.append_nil]
  · obtain ⟨d, hd, rfl⟩ := List.mem_map.1 hv
    refine ⟨_, lex_check hd, ?_, rfl⟩
    simp only [undirected_code, undirected_quoted, undirected_nil, and_true]
    exact ⟨codeUnarrowed_ofList (by decide), codeUnarrowed_ofList (by decide)⟩

namespace Query.Fits

variable {q : Query}

/-- The lexemes of a rendered query are those of its text with its values. -/
theorem lex_entry (h : q.Fits) (c : Context) (i : Nat) (s : Scope) :
    lex ((q.entry c i).query s) = some ((q.template.queryText c s).lexemes q.values) := by
  have hrender : (q.entry c i).query s = q.template.render c s q.values := by cases s <;> rfl
  have hform := q.template.wellFormed_queryText c s
  have hsites : List.Forall₂ Balanced (q.template.queryText c s).sites q.values := by
    rw [Template.sites_queryText]
    exact h.imp fun k v hv (hk : k = .snippet) => lex_snippet v (hv hk)
  rw [hrender, Template.render, Template.text, fill_text hform, lex, String.toList_ofList,
    scan_pieces hform.constant hform.spaced hsites]

theorem nameless (h : q.Fits) (c : Context) (s : Scope) :
    List.Forall₂ Nameless (q.template.queryText c s).sites q.values := by
  rw [Template.sites_queryText]
  refine h.imp fun k v hv hk w => ?_
  obtain ⟨t, ht, -, hsites⟩ := text_of_snippet (hv hk)
  rw [ht]
  exact name_notMem_lexemes hsites

theorem unarrowed (h : q.Fits) (hdirect : q.template.isIncoming = false) (c : Context) (s : Scope) :
    Unarrowed ((q.template.queryText c s).lexemes q.values) := by
  refine (Template.undirected_queryText hdirect c s).lexemes ?_
  rw [Template.sites_queryText]
  refine h.imp fun k v hv hk => ?_
  obtain ⟨t, ht, hundirected, hsites⟩ := text_of_snippet (hv hk)
  rw [ht]
  exact hundirected.lexemes (hsites ▸ .nil)

end Query.Fits

/-! ## Counts of an inverse path -/

namespace CountFacet

variable {f : CountFacet} {n : Naming} {t : Target} {prop : String}

/-- The names of a count of incoming relationships: the parameter set, the focus label, and the path twice. -/
theorem mentions_onInverse (hf : f = minCount ∨ f = maxCount) (t : Target) (prop : String) (c : Context) (s : Scope) :
    ∃ counted reported : Mention, mentions (f.onInverse.queryText c s) (f.values t [prop] [prop, prop]) =
        [⟨"WITH $", t.paramSet f.kind.parameter, " as params MATCH (focus:"⟩,
          ⟨" as params MATCH (focus:", t.focus, ") WHERE "⟩, counted, reported] ∧
      (counted.Tells .incoming ∧ counted.name = prop) ∧ reported.Tells .incoming ∧ reported.name = prop := by
  obtain ⟨identified, shorten, mode⟩ := c
  rcases hf with rfl | rfl
  · refine ⟨⟨" size((focus)<-[:", prop, "]-())"⟩, ⟨" + coalesce(size((focus)<-[:", prop, "]-()),0) +"⟩, ?_, ?_⟩
    · cases identified <;> cases shorten <;> cases s <;> rfl
    · exact ⟨⟨Mention.tells_ofList (by decide) _, rfl⟩, Mention.tells_ofList (by decide) _, rfl⟩
  · refine ⟨⟨"NOT size((focus)<-[:", prop, "]-()) "⟩, ⟨" + coalesce(size((focus)<-[:", prop, "]-()),0) + "⟩, ?_, ?_⟩
    · cases identified <;> cases shorten <;> cases s <;> rfl
    · exact ⟨⟨Mention.tells_ofList (by decide) _, rfl⟩, Mention.tells_ofList (by decide) _, rfl⟩

theorem followsIncoming (hf : f = minCount ∨ f = maxCount) (hinverse : t.header.isInverse = true) :
    ∀ q ∈ f.queries n t prop, ∀ c s, FollowsIncoming prop ((q.template.queryText c s).lexemes q.values) := by
  intro q hq c s
  have hfits : q.Fits := fits_queries hf n t prop q hq
  rw [queries, if_pos hinverse, List.mem_singleton] at hq
  obtain ⟨counted, reported, hmentions, hcounted, hreported⟩ := mentions_onInverse hf t prop c s
  have hall : ∀ m ∈ mentions (f.onInverse.queryText c s) (f.values t [prop] [prop, prop]),
      m.Tells .parameterSet ∨ m.Tells .label ∨ m.Tells .incoming ∧ m.name = prop := by
    rw [hmentions]
    simp only [List.forall_mem_cons]
    exact ⟨.inl (Mention.tells_ofList (by decide) _), .inr (.inl (Mention.tells_ofList (by decide) _)),
      .inr (.inr hcounted), .inr (.inr hreported), List.forall_mem_nil _⟩
  have hsome : counted ∈ mentions (f.onInverse.queryText c s) (f.values t [prop] [prop, prop]) := by
    simp [hmentions]
  subst hq
  exact QueryText.followsIncoming (hfits.nameless c s) hall ⟨counted, hsome, hcounted⟩

end CountFacet

theorem Constraint.count_of_kind {c : Constraint} {k : Kind} (h : k ∈ c.kinds) (hk : k = .minCount ∨ k = .maxCount) :
    ∃ count, c = .minCount count ∨ c = .maxCount count := by
  cases c with
  | minCount count => exact ⟨count, .inl rfl⟩
  | maxCount count => exact ⟨count, .inr rfl⟩
  | _ => rcases hk with rfl | rfl <;> simp [kinds, kind?] at h

theorem Naming.Emits.isFor {n : Naming} {r : Record} {t : Target} {c : Constraint} {e : Emission}
    (h : n.Emits r t c e) : t.IsFor n r := by
  obtain ⟨s, hs, ht, -, -⟩ := h
  obtain ⟨focus, hfocus, rfl⟩ := Option.map_eq_some_iff.1 hs
  exact isFor_of_target hfocus ht

/-- A query of the kind of a count is a query of that count. -/
theorem Naming.Emits.of_count {n : Naming} {r : Record} {t : Target} {c : Constraint} {e : Emission}
    (h : n.Emits r t c e) {q : Query} (hq : q ∈ e.queries) (hkind : q.kind = .minCount ∨ q.kind = .maxCount) :
    ∃ f prop, (f = CountFacet.minCount ∨ f = .maxCount) ∧ t.path = some prop ∧ q ∈ f.queries n t prop := by
  obtain ⟨k, hfirst, -, -, rfl⟩ := h.isListed.queries q hq
  obtain ⟨s, -, -, -, hemit⟩ := h
  obtain ⟨count, hc⟩ := Constraint.count_of_kind (List.mem_of_head? hfirst) hkind
  rcases Target.emit_cases hemit with rfl | ⟨_, _, hd, -⟩ | ⟨_, hd, -⟩ | ⟨prop, hprop, -, he⟩
  · exact absurd hq List.not_mem_nil
  · rcases hc with rfl | rfl <;> cases hd
  · rcases hc with rfl | rfl <;> cases hd
  · rcases hc with rfl | rfl
    · cases he
      exact ⟨.minCount, prop, .inl rfl, hprop, hq⟩
    · cases he
      exact ⟨.maxCount, prop, .inr rfl, hprop, hq⟩

/-- The path of a record is named, and its counts follow it against its direction. -/
theorem Naming.followsIncoming_of_emitRecords {n : Naming} {r : Record} {e : Emission} (h : n.emitRecords [r] = .ok e)
    (hinverse : r.inverse = true) {q : Query} (hq : q ∈ e.queries) (hkind : q.kind = .minCount ∨ q.kind = .maxCount) :
    ∃ iri path, r.path = some iri ∧ n.name iri = .ok path ∧
      ∀ c s, FollowsIncoming path ((q.template.queryText c s).lexemes q.values) := by
  obtain ⟨es, rfl, hes⟩ := emitRecords_parts h
  rw [Emission.queries_join] at hq
  obtain ⟨part, hpart, hq⟩ := List.mem_flatMap.1 hq
  obtain ⟨r', hr', t, c, hemits⟩ := hes part hpart
  cases List.mem_singleton.1 hr'
  obtain ⟨f, prop, hf, hprop, hqueries⟩ := hemits.of_count hq hkind
  have hfor : t.IsFor n r := hemits.isFor
  obtain ⟨iri, hiri⟩ := Option.isSome_iff_exists.1 (hfor.path_isSome hprop)
  obtain ⟨v, hname, hpath⟩ := hfor.path iri hiri
  cases hpath.symm.trans hprop
  have hheader : t.header.isInverse = true := by
    rw [hfor.isInverse_eq, hiri, hinverse]
    rfl
  exact ⟨iri, prop, hiri, hname, CountFacet.followsIncoming hf hheader q hqueries⟩

/-! ## Paths that are not inverse -/

theorem isIncoming_choicesIf {applies : Bool} {templates : List Template}
    (h : templates.all (!·.isIncoming) = true) : ∀ x ∈ choicesIf applies templates, x.template.isIncoming = false := by
  unfold choicesIf rowsIf
  split
  · rw [List.forall_mem_map]
    simpa using h
  · exact List.forall_mem_nil _

/-- Only an inverse path selects a template for incoming relationships. -/
theorem Record.isIncoming_choices (n : Naming) {r : Record} (h : r.inverse = false) :
    ∀ x ∈ r.choices n, x.template.isIncoming = false := by
  simp only [choices, countChoices, h, Bool.and_false, choicesIf_false, List.nil_append, List.forall_mem_append]
  and_intros
  all_goals try exact isIncoming_choicesIf (by decide)
  all_goals try exact forall_mem_iriRows rfl rfl rfl
  exact List.forall_mem_map.2 fun _ _ => rfl

theorem Naming.unarrowed_of_emitRecords {n : Naming} {r : Record} {e : Emission} (h : n.emitRecords [r] = .ok e)
    (hdirect : r.inverse = false) {q : Query} (hq : q ∈ e.queries) (c : Context) (s : Scope) :
    Unarrowed ((q.template.queryText c s).lexemes q.values) := by
  obtain ⟨r', hr', x, hx, hfills, -⟩ := exists_choice_of_query h hq
  cases List.mem_singleton.1 hr'
  have htemplate : q.template.isIncoming = false := by
    rw [hfills.1]
    exact Record.isIncoming_choices n hdirect x hx
  exact (fits_emitRecords h q hq).unarrowed htemplate c s

/-! ## Plans -/

/-- The counts of an inverse path follow incoming relationships and nothing else, and without an inverse path no query
has an incoming arrow outside of quotes. -/
theorem Naming.compile_follows_direction (n : Naming) (r : Record) (p : Plan) (h : n.compile [r] = .ok p) :
    (r.inverse = true → ∀ entry ∈ p.entries, entry.kind = .minCount ∨ entry.kind = .maxCount →
      ∃ iri path, r.path = some iri ∧ n.name iri = .ok path ∧
        ∀ s : Scope, ∃ ts, lex (entry.query s) = some ts ∧ FollowsIncoming path ts) ∧
    (r.inverse = false → ∀ entry ∈ p.entries, ∀ s : Scope,
      ∃ ts, lex (entry.query s) = some ts ∧ ¬ [.plain '<', .plain '-'] <:+: ts) := by
  obtain ⟨e, he, rfl⟩ := compile_eq_ok.1 h
  have hentries := e.entries_plan (Context.ofConfig n.config)
  constructor
  · intro hinverse entry hentry hkind
    obtain ⟨q, hq, i, rfl⟩ := exists_left_of_mem hentries hentry
    obtain ⟨iri, path, hiri, hname, hfollows⟩ := followsIncoming_of_emitRecords he hinverse hq hkind
    exact ⟨iri, path, hiri, hname, fun s => ⟨_, (fits_emitRecords he q hq).lex_entry _ i s, hfollows _ s⟩⟩
  · intro hdirect entry hentry s
    obtain ⟨q, hq, i, rfl⟩ := exists_left_of_mem hentries hentry
    have hunarrowed := unarrowed_of_emitRecords he hdirect hq (Context.ofConfig n.config) s
    exact ⟨_, (fits_emitRecords he q hq).lex_entry _ i s, hunarrowed.not_infix⟩

/-- A record with both counts. -/
def countedRecord (inverse : Bool) : Record :=
  { path := some "u:#p", inverse, targetClass := some "u:#C", minCount := some 1, maxCount := some 2,
    propertyShape := some "u:#S" }

theorem compile_follows_direction_countedRecord :
    (∃ p, plainNaming.compile [countedRecord true] = .ok p ∧ p.entries.length = 2 ∧
      ∀ entry ∈ p.entries, ∀ s : Scope, ∃ ts, lex (entry.query s) = some ts ∧ FollowsIncoming "p" ts) ∧
    ∃ p, plainNaming.compile [countedRecord false] = .ok p ∧ p.entries.length = 2 ∧
      ∀ entry ∈ p.entries, ∀ s : Scope, ∃ ts, lex (entry.query s) = some ts ∧ ¬ [.plain '<', .plain '-'] <:+: ts := by
  constructor
  · refine ⟨_, rfl, rfl, fun entry hentry => ?_⟩
    have hkind : entry.kind ∈ [Kind.minCount, .maxCount] := List.mem_map_of_mem (f := Entry.kind) hentry
    obtain ⟨iri, path, hiri, hname, hfollows⟩ :=
      (Naming.compile_follows_direction plainNaming (countedRecord true) _ rfl).1 rfl entry hentry
        (by simpa using hkind)
    cases hiri
    have hpath : path = "p" := Except.ok.inj (hname.symm.trans rfl)
    rw [← hpath]
    exact hfollows
  · exact ⟨_, rfl, rfl, (Naming.compile_follows_direction plainNaming (countedRecord false) _ rfl).2 rfl⟩

/-! ## Other facets of an inverse path -/

/-- The site of the path in a facet that has no text for incoming relationships, and the use of the path there. -/
def Template.forward? : Template → Option (Nat × NameUse)
  | .datatype => some (1, .property)
  | .datatypeOnRelationship => some (1, .matched)
  | .literalNodeKind => some (1, .outgoing)
  | .iriNodeKind => some (1, .property)
  | .classOf => some (1, .matched)
  | .classOnProperty => some (1, .property)
  | .pattern => some (2, .property)
  | .hasValueTypeEdge => some (2, .outgoing)
  | .hasValueIri => some (2, .outgoing)
  | .hasValueLiteral => some (2, .property)
  | .inLiterals => some (2, .property)
  | .inIris => some (2, .outgoing)
  | .inTypeEdge => some (2, .outgoing)
  | .length => some (2, .property)
  | .valueRange => some (2, .property)
  | _ => none

theorem Template.uses_of_forward {t : Template} {i : Nat} {u : NameUse} (h : t.forward? = some (i, u))
    {vs : List String} {name : String} (hname : vs[i]? = some name) (c : Context) (s : Scope) :
    Uses u name.toList ((t.queryText c s).lexemes vs) := by
  suffices hmention : ∃ m ∈ mentions (t.queryText c s) vs, m.name = name ∧ m.Tells u by
    obtain ⟨m, hm, rfl, htells⟩ := hmention
    exact uses_of_mention hm htells
  cases t with
  | datatype | datatypeOnRelationship | literalNodeKind | iriNodeKind | classOf | classOnProperty =>
    cases h
    obtain _ | ⟨focus, _ | ⟨path, vs⟩⟩ := vs
    · cases hname
    · cases hname
    cases hname
    cases s <;> exact ⟨_, .tail _ (.head _), rfl, Mention.tells_ofList (by decide) _⟩
  | pattern | inLiterals | inIris | inTypeEdge | length | valueRange =>
    cases h
    obtain _ | ⟨params, _ | ⟨focus, _ | ⟨path, vs⟩⟩⟩ := vs
    · cases hname
    · cases hname
    · cases hname
    cases hname
    cases s <;> exact ⟨_, .tail _ (.tail _ (.head _)), rfl, Mention.tells_ofList (by decide) _⟩
  | hasValueTypeEdge | hasValueIri | hasValueLiteral =>
    cases h
    obtain _ | ⟨params, _ | ⟨focus, _ | ⟨path, vs⟩⟩⟩ := vs
    · cases hname
    · cases hname
    · cases hname
    cases hname
    cases s <;> exact ⟨_, .tail _ (.tail _ (.head _)), rfl, (Mention.tells_ofList (by decide) _).append _⟩
  | _ => cases h

theorem Template.forward_use {t : Template} {x : Nat × NameUse} (h : x ∈ t.forward?) :
    x.2 ∈ [NameUse.outgoing, .matched, .property] := by
  cases t <;> cases h <;> decide

/-- A query with a path in the site for it. -/
def Query.IsForward (prop : String) (q : Query) : Prop := ∃ x ∈ q.template.forward?, q.values[x.1]? = some prop

namespace Target

variable {n : Naming} {t : Target} {prop : String} {e : Emission}

theorem isForward_emitIris {f : IriFacet} {iris : List String} (hf : f.onPath.template.forward? = some (2, .outgoing))
    (hproperty : t.header.isOnType = false) (h : f.emit n t prop iris = .ok e) : ∀ q ∈ e.queries, q.IsForward prop := by
  rw [IriFacet.emit, if_neg (by simp [hproperty])] at h
  cases h
  exact List.forall_mem_singleton.2 ⟨_, hf, rfl⟩

/-- No facet of a property but the counts asks for the direction of the path. -/
theorem isForward_emitOnPath {c : Constraint} (hcount : ∀ k, c ≠ .minCount k ∧ c ≠ .maxCount k)
    (hproperty : t.header.isOnType = false) (h : t.emitOnPath n prop c = .ok e) :
    ∀ q ∈ e.queries, q.IsForward prop := by
  cases c with
  | datatype iri =>
    cases h
    exact List.forall_mem_cons.2 ⟨⟨_, rfl, rfl⟩, List.forall_mem_singleton.2 ⟨_, rfl, rfl⟩⟩
  | hasValueIris iris =>
    simp only [emitOnPath, emitHasValueIris] at h
    split at h
    · cases h
      exact List.forall_mem_nil _
    · exact isForward_emitIris rfl hproperty h
  | hasValueLiterals literals =>
    cases h
    exact List.forall_mem_singleton.2 ⟨_, rfl, rfl⟩
  | nodeKind k =>
    cases h
    cases k with
    | literal | blankNodeOrIri => exact List.forall_mem_singleton.2 ⟨_, rfl, rfl⟩
    | _ => exact List.forall_mem_nil _
  | classOf iri =>
    obtain ⟨range, -, h⟩ := bind_eq_ok.1 h
    cases h
    exact List.forall_mem_cons.2 ⟨⟨_, rfl, rfl⟩, List.forall_mem_singleton.2 ⟨_, rfl, rfl⟩⟩
  | inLiterals literals =>
    cases h
    exact List.forall_mem_singleton.2 ⟨_, rfl, rfl⟩
  | inIris iris => exact isForward_emitIris rfl hproperty h
  | pattern regex =>
    cases h
    exact List.forall_mem_singleton.2 ⟨_, rfl, rfl⟩
  | minCount k => exact absurd rfl (hcount k).1
  | maxCount k => exact absurd rfl (hcount k).2
  | length min max =>
    cases h
    exact List.forall_mem_singleton.2 ⟨_, rfl, rfl⟩
  | range r =>
    cases h
    unfold emitRange
    split
    · exact List.forall_mem_nil _
    · exact List.forall_mem_singleton.2 ⟨_, rfl, rfl⟩
  | closed _ _ | disjoint _ | requiredClasses _ =>
    cases h
    exact List.forall_mem_nil _

end Target

theorem Naming.isForward_of_emitRecords {n : Naming} {r : Record} {e : Emission} (h : n.emitRecords [r] = .ok e)
    {iri : String} (hpath : r.path = some iri) (hproperty : iri ≠ Rdf.type) {q : Query} (hq : q ∈ e.queries)
    (hkind : q.kind ∉ [Kind.minCount, .maxCount, .ignoredProperties, .negation]) :
    ∃ path, n.name iri = .ok path ∧ q.IsForward path := by
  obtain ⟨es, rfl, hes⟩ := emitRecords_parts h
  rw [Emission.queries_join] at hq
  obtain ⟨part, hpart, hq⟩ := List.mem_flatMap.1 hq
  obtain ⟨r', hr', t, c, hemits⟩ := hes part hpart
  cases List.mem_singleton.1 hr'
  have hfor : t.IsFor n r := hemits.isFor
  -- the kind of a query is that of its constraint, which so is neither a count nor one on the focus node
  obtain ⟨k, hfirst, -, -, rfl⟩ := hemits.isListed.queries q hq
  have hc : ∀ {k}, c.kinds = [k] → k ∉ [Kind.minCount, .maxCount, .ignoredProperties, .negation] := by
    intro k hk
    rw [hk] at hfirst
    cases hfirst
    exact hkind
  obtain ⟨s, -, -, -, hemit⟩ := hemits
  rcases Target.emit_cases hemit with rfl | ⟨_, _, rfl, -⟩ | ⟨_, rfl, -⟩ | ⟨prop, hprop, -, hemit⟩
  · exact absurd hq List.not_mem_nil
  · exact absurd (by decide) (hc rfl)
  · exact absurd (by decide) (hc rfl)
  · obtain ⟨path, hname, hpath'⟩ := hfor.path iri hpath
    cases hpath'.symm.trans hprop
    have hcount : ∀ k, c ≠ .minCount k ∧ c ≠ .maxCount k := by
      intro k
      constructor <;> rintro rfl <;> exact absurd (by decide) (hc rfl)
    have htype : t.header.isOnType = false := by
      rw [hfor.isOnType_eq, Record.isOnType, hpath]
      simpa using hproperty
    exact ⟨prop, hname, Target.isForward_emitOnPath hcount htype hemit q hq⟩

/-- Every query of the facets of a property, counts apart, uses the path as a relationship from the focus node or as a
property of it, whether the path is inverse or not. -/
theorem Naming.compile_uses_forward (n : Naming) (r : Record) (p : Plan) (h : n.compile [r] = .ok p) {iri : String}
    (hpath : r.path = some iri) (hproperty : iri ≠ Rdf.type) :
    ∀ entry ∈ p.entries, entry.kind ∉ [Kind.minCount, .maxCount, .ignoredProperties, .negation] →
      ∃ path, n.name iri = .ok path ∧ ∀ s : Scope, ∃ ts, lex (entry.query s) = some ts ∧
        ∃ u ∈ [NameUse.outgoing, .matched, .property], Uses u path.toList ts := by
  obtain ⟨e, he, rfl⟩ := compile_eq_ok.1 h
  intro entry hentry hkind
  obtain ⟨q, hq, i, rfl⟩ := exists_left_of_mem (e.entries_plan (Context.ofConfig n.config)) hentry
  obtain ⟨path, hname, ⟨site, u⟩, hx, hvalue⟩ := isForward_of_emitRecords he hpath hproperty hq hkind
  exact ⟨path, hname, fun s => ⟨_, (fits_emitRecords he q hq).lex_entry _ i s, u, Template.forward_use hx,
    Template.uses_of_forward hx hvalue _ s⟩⟩

/-- Every query of a plan uses a path as a relationship from the focus node or as a property of it. -/
def Plan.UsesForward (path : String) (p : Plan) : Prop :=
  ∀ entry ∈ p.entries, ∀ s : Scope, ∃ ts, lex (entry.query s) = some ts ∧
    ∃ u ∈ [NameUse.outgoing, .matched, .property], Uses u path.toList ts

/-- A record with facets of an inverse path that are not counts. -/
def facetedRecord (nodeKind : String) : Record :=
  { path := some "u:#p", inverse := true, targetClass := some "u:#C", datatype := some Xsd.date,
    hasValueIris := some ["u:#v"], hasValueLiterals := some ["v"], nodeKind := some (Sh.term nodeKind),
    rangeClass := some "u:#D", inLiterals := some ["v"], inIris := some ["u:#v"], pattern := some "v",
    minLength := some 1, minInclusive := some (.int 1), propertyShape := some "u:#S" }

/-- Facets that are not counts follow an inverse path in its direction. -/
theorem compile_facetedRecord_forward :
    (∃ p, typedNaming.compile [facetedRecord "Literal"] = .ok p ∧ p.entries.length = 12 ∧ p.UsesForward "u:#p") ∧
    ∃ p, typedNaming.compile [facetedRecord "BlankNodeOrIRI"] = .ok p ∧ p.entries.length = 12 ∧
      p.UsesForward "u:#p" := by
  have husesForward : ∀ kind p, typedNaming.compile [facetedRecord kind] = .ok p →
      p.entries.map Entry.kind = [.datatype, .datatype, .hasValue, .hasValue, .nodeKind, .classOf, .classOf, .oneOf,
        .oneOf, .pattern, .minLength, .minInclusive] → p.UsesForward "u:#p" := by
    intro kind p h hkinds entry hentry
    have hall : ∀ k ∈ p.entries.map Entry.kind, k ∉ [Kind.minCount, .maxCount, .ignoredProperties, .negation] := by
      rw [hkinds]
      decide
    obtain ⟨path, hname, huses⟩ := Naming.compile_uses_forward typedNaming (facetedRecord kind) p h rfl (by decide)
      entry hentry (hall entry.kind (List.mem_map_of_mem hentry))
    have hpath : path = "u:#p" := Except.ok.inj (hname.symm.trans rfl)
    rw [← hpath]
    exact huses
  exact ⟨⟨_, rfl, rfl, husesForward "Literal" _ rfl rfl⟩, _, rfl, rfl, husesForward "BlankNodeOrIRI" _ rfl rfl⟩

end ShapePlan
