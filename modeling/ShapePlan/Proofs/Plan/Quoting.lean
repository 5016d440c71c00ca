/-
Compiled queries keep their quoting. The values of a query fit the sites of its template one for one; what stands
outside of quotes is one of a fixed list of snippets, so that every query, in either scope, reads as its template with
the values as the contents of strings and names, whatever the records hold.
-/
import ShapePlan.Proofs.Plan.Emitted
import ShapePlan.Proofs.Query.Template

namespace ShapePlan

open Query QueryText

/-! ## Snippets -/

/-- The datatypes that are checked by their IRI. -/
def checkedDatatypes : List String := [Xsd.date, Xsd.dateTime, Xsd.wktLiteral, Xsd.anyUri]

/-- All that can stand in a query outside of quotes: the bounds of counts, lengths and ranges, and the two ends of a
cast. None of them is made of a record. -/
def snippets : List String :=
  ["", " toInteger(params.minCount) <= ", " <= toInteger(params.maxCount) ", " params.minStrLen <= ",
    " <= params.maxStrLen ", " params.min <=", " params.min < ", " <= params.max ", " < params.max ",
    "coalesce(toBoolean(toString(", ")) = x , false)", "coalesce(toString(", "coalesce(toInteger(",
    "coalesce(toFloat(", ") = x , false)", ")"] ++
  checkedDatatypes.map fun d => "n10s.aux.dt.check('" ++ d ++ "',"

theorem lex_constant {n : Nat} {s : String} (h : IsConstant n s) : lex s = some (s.toList.map .plain) := by
  rw [lex, ← List.append_nil s.toList, scan_code (no_quotes h)]
  simp [scan]

theorem isConstant_checked {d : String} (h : d ∈ checkedDatatypes) : IsConstant 0 d := by
  have hbase : IsConstant 0 Xsd.base := isConstant_ofList (by decide)
  simp only [checkedDatatypes, List.mem_cons, List.not_mem_nil, or_false] at h
  rcases h with rfl | rfl | rfl | rfl
  · exact hbase.append (isConstant_ofList (by decide))
  · exact hbase.append (isConstant_ofList (by decide))
  · exact isConstant_ofList (by decide)
  · exact hbase.append (isConstant_ofList (by decide))

theorem lex_check {d : String} (h : d ∈ checkedDatatypes) : lex ("n10s.aux.dt.check('" ++ d ++ "',") =
    some (lexemes [.code "n10s.aux.dt.check(", .quoted d, .code ","] []) := by
  let t : QueryText := [.code "n10s.aux.dt.check(", .quoted d, .code ","]
  have hconstant : t.Constant := by
    show Constant [.code "n10s.aux.dt.check(", .quoted d, .code ","]
    simp only [constant_cons, constant_nil, and_true, Piece.fixed, Piece.least]
    exact ⟨isConstant_ofList (by decide), isConstant_checked h, isConstant_ofList (by decide)⟩
  have hspaced : t.spaced false = true := rfl
  rw [← scan_pieces hconstant hspaced .nil]
  exact congrArg (scan .outside) (by simp [t])

/-- A snippet leaves no quotes open. -/
theorem lex_snippet : ∀ v ∈ snippets, ∃ ts, lex v = some ts := by
  intro v hv
  rcases List.mem_append.1 hv with hv | hv
  · simp only [List.mem_cons, List.not_mem_nil, or_false] at hv
    have hc : IsConstant 0 v := by
      rcases hv with rfl | rfl | rfl | rfl | rfl | rfl | rfl | rfl | rfl | rfl | rfl | rfl | rfl | rfl | rfl | rfl <;>
        exact isConstant_ofList (by decide)
    exact ⟨_, lex_constant hc⟩
  · obtain ⟨d, hd, rfl⟩ := List.mem_map.1 hv
    exact ⟨_, lex_check hd⟩

theorem cast_mem_snippets (iri : String) :
    ((castOf? iri).getD ("", "")).1 ∈ snippets ∧ ((castOf? iri).getD ("", "")).2 ∈ snippets := by
  unfold castOf?
  split
  · simp [snippets]
  split
  · simp [snippets]
  split
  · simp [snippets]
  split
  · simp [snippets]
  split
  · rename_i h
    refine ⟨List.mem_append_right _ (List.mem_map.2 ⟨iri, h, rfl⟩), ?_⟩
    simp [snippets]
  · simp [snippets]

/-! ## Fitting values -/

/-- The values of a query are as many as the sites of its template, and those outside of quotes are snippets. -/
def Query.Fits (q : Query) : Prop := List.Forall₂ (Admitted snippets) q.template.sites q.values

/-- The values that stand outside of quotes. -/
def Query.unquoted (q : Query) : List String :=
  (q.template.sites.zip q.values).filterMap fun p => if p.1 = .snippet then some p.2 else none

theorem Query.Fits.of_unquoted {q : Query} (hl : q.template.sites.length = q.values.length)
    (h : ∀ v ∈ q.unquoted, v ∈ snippets) : q.Fits := by
  -- only the values at snippets are asked about, and those are the ones kept by the filter
  refine List.forall₂_iff_zip.2 ⟨hl, fun {k v} hp hk => h v ?_⟩
  exact List.mem_filterMap.2 ⟨(k, v), hp, if_pos hk⟩

theorem Query.Fits.of_quoted {q : Query} (hl : q.template.sites.length = q.values.length) (h : q.unquoted = []) :
    q.Fits :=
  .of_unquoted hl (h ▸ List.forall_mem_nil _)

/-! ## Every query fits -/

theorem IriFacet.fits_emit {f : IriFacet} (hf : f = hasValue ∨ f = oneOf) {n : Naming} {t : Target} {prop : String}
    {iris : List String} {e : Emission} (h : f.emit n t prop iris = .ok e) : ∀ q ∈ e.queries, q.Fits := by
  have hpath : ∀ q ∈ (f.followed t f.onPath prop iris).queries, q.Fits := by
    rcases hf with rfl | rfl <;> exact List.forall_mem_singleton.2 (.of_quoted rfl rfl)
  have hlabels : ∀ names, ∀ q ∈ (f.labelled t names).queries, q.Fits := by
    intro names
    rcases hf with rfl | rfl <;> exact List.forall_mem_singleton.2 (.of_quoted rfl rfl)
  have hnodes : ∀ q ∈ (if n.typesAsNodes then f.followed t f.inNodes prop iris else {}).queries, q.Fits := by
    split
    · rcases hf with rfl | rfl <;> exact List.forall_mem_singleton.2 (.of_quoted rfl rfl)
    · exact List.forall_mem_nil _
  have hlisted : ∀ shown, ∀ q ∈ (f.listed n t shown).queries, q.Fits := fun _ => List.forall_mem_nil _
  unfold emit at h
  split at h
  · rcases emitOnType_cases h with ⟨names, -, -, rfl⟩ | ⟨-, rfl⟩
    · simp only [Emission.queries_append, List.forall_mem_append]
      exact ⟨⟨hlabels names, hnodes⟩, hlisted names⟩
    · simp only [Emission.queries_append, List.forall_mem_append]
      exact ⟨hnodes, hlisted iris⟩
  · cases h
    simp only [Emission.queries_append, List.forall_mem_append]
    exact ⟨hpath, hlisted iris⟩

theorem CountFacet.fits_queries {f : CountFacet} (hf : f = minCount ∨ f = maxCount) (n : Naming) (t : Target)
    (prop : String) : ∀ q ∈ f.queries n t prop, q.Fits := by
  have hb : f.bound ∈ snippets := by
    rcases hf with rfl | rfl <;> simp [snippets, minCount, maxCount]
  have hbound : ∀ v ∈ [f.bound], v ∈ snippets := List.forall_mem_singleton.2 hb
  unfold queries
  split
  · rcases hf with rfl | rfl <;> exact List.forall_mem_singleton.2 (.of_unquoted rfl hbound)
  split
  · rw [List.forall_mem_append]
    constructor
    · split
      · rcases hf with rfl | rfl <;> exact List.forall_mem_singleton.2 (.of_unquoted rfl hbound)
      · exact List.forall_mem_nil _
    · split
      · rcases hf with rfl | rfl <;> exact List.forall_mem_singleton.2 (.of_unquoted rfl hbound)
      · exact List.forall_mem_nil _
  · rcases hf with rfl | rfl <;> exact List.forall_mem_singleton.2 (.of_unquoted rfl hbound)

namespace Target

variable {n : Naming} {t : Target} {prop : String} {e : Emission}

theorem lowerTest_mem_snippets (b : Option Bound) : lowerTest b ∈ snippets := by
  unfold lowerTest
  split
  · simp [snippets]
  · split <;> simp [snippets]

theorem upperTest_mem_snippets (b : Option Bound) : upperTest b ∈ snippets := by
  unfold upperTest
  split
  · simp [snippets]
  · split <;> simp [snippets]

theorem fits_boundValues {template : Template} (h : template = .length ∨ template = .valueRange)
    {set lower upper : String} (hl : lower ∈ snippets) (hu : upper ∈ snippets) (kind : Kind) :
    (t.query template kind (t.boundValues set prop lower upper)).Fits := by
  have hb : ∀ v ∈ [lower, upper], v ∈ snippets := by simp [hl, hu]
  rcases h with rfl | rfl <;> exact .of_unquoted rfl hb

theorem fits_emitOnPath {c : Constraint} (h : t.emitOnPath n prop c = .ok e) : ∀ q ∈ e.queries, q.Fits := by
  cases c with
  | datatype iri =>
    cases h
    have hc : ∀ v ∈ [((castOf? iri).getD ("", "")).1, ((castOf? iri).getD ("", "")).2], v ∈ snippets := by
      simp [cast_mem_snippets iri]
    exact List.forall_mem_cons.2 ⟨.of_unquoted rfl hc, List.forall_mem_singleton.2 (.of_quoted rfl rfl)⟩
  | hasValueIris iris =>
    simp only [emitOnPath, emitHasValueIris] at h
    split at h
    · cases h; exact List.forall_mem_nil _
    · exact IriFacet.fits_emit (.inl rfl) h
  | hasValueLiterals literals =>
    cases h
    exact List.forall_mem_singleton.2 (.of_quoted rfl rfl)
  | nodeKind k =>
    cases h
    cases k with
    | literal => exact List.forall_mem_singleton.2 (.of_quoted rfl rfl)
    | blankNodeOrIri => exact List.forall_mem_singleton.2 (.of_quoted rfl rfl)
    | _ => exact List.forall_mem_nil _
  | classOf iri =>
    obtain ⟨range, -, h⟩ := bind_eq_ok.1 h
    cases h
    exact List.forall_mem_cons.2 ⟨.of_quoted rfl rfl,
      List.forall_mem_singleton.2 (.of_quoted rfl rfl)⟩
  | inLiterals literals =>
    cases h
    exact List.forall_mem_singleton.2 (.of_quoted rfl rfl)
  | inIris iris => exact IriFacet.fits_emit (.inr rfl) h
  | pattern regex =>
    cases h
    exact List.forall_mem_singleton.2 (.of_quoted rfl rfl)
  | minCount count => cases h; exact CountFacet.fits_queries (.inl rfl) n t prop
  | maxCount count => cases h; exact CountFacet.fits_queries (.inr rfl) n t prop
  | length min max =>
    cases h
    refine List.forall_mem_singleton.2 (fits_boundValues (.inl rfl) ?_ ?_ _)
    · split <;> simp [snippets]
    · split <;> simp [snippets]
  | range r =>
    cases h
    unfold emitRange
    split
    · exact List.forall_mem_nil _
    · exact List.forall_mem_singleton.2
        (fits_boundValues (.inr rfl) (lowerTest_mem_snippets _) (upperTest_mem_snippets _) _)
  | closed _ _ => cases h; exact List.forall_mem_nil _
  | disjoint _ => cases h; exact List.forall_mem_nil _
  | requiredClasses _ => cases h; exact List.forall_mem_nil _

theorem fits_emit {c : Constraint} (h : t.emit n c = .ok e) : ∀ q ∈ e.queries, q.Fits := by
  rcases emit_cases h with rfl | ⟨defined, ignored, -, h⟩ | ⟨classes, -, h⟩ | ⟨prop, -, -, h⟩
  · exact List.forall_mem_nil _
  · obtain ⟨types, -, h⟩ := bind_eq_ok.1 h
    obtain ⟨ignored, -, h⟩ := bind_eq_ok.1 h
    obtain ⟨defined, -, h⟩ := bind_eq_ok.1 h
    cases h
    exact List.forall_mem_singleton.2 (.of_quoted rfl rfl)
  · obtain ⟨classes, -, h⟩ := bind_eq_ok.1 h
    cases h
    rw [List.forall_mem_map]
    exact fun c _ => .of_quoted rfl rfl
  · exact fits_emitOnPath h

end Target

namespace Naming

variable {n : Naming} {rs : List Record}

theorem fits_emitRecords {e : Emission} (h : n.emitRecords rs = .ok e) : ∀ q ∈ e.queries, q.Fits := by
  refine emitRecords_induction (motive := fun e => ∀ q ∈ e.queries, q.Fits) (List.forall_mem_nil _) ?_ ?_ h
  · intro a b ha hb
    exact List.forall_mem_append.2 ⟨ha, hb⟩
  · intro t c e he
    exact Target.fits_emit he

end Naming

/-! ## Reading queries -/

/-- A query takes as many values as its text has sites. -/
theorem Query.Fits.length_values {q : Query} (h : q.Fits) (c : Context) (s : Scope) :
    q.values.length = Query.sites (q.template.text c s).toList := by
  rw [Template.text, toList_text, sites_text (q.template.wellFormed_queryText c s).constant,
    Template.sites_queryText, h.length_eq]

/-- A rendered query reads as its template with the values in their sites. -/
theorem Query.Fits.lex_render {q : Query} (h : q.Fits) (c : Context) (s : Scope) :
    ∃ ts us, lex (q.template.text c s) = some ts ∧ lex (q.template.render c s q.values) = some us ∧
      Filled snippets ts q.values us := by
  have hv : List.Forall₂ (Admitted snippets) (q.template.queryText c s).sites q.values := by
    rw [Template.sites_queryText]
    exact h
  exact (q.template.wellFormed_queryText c s).lex_fill lex_snippet hv

/-- A query and its entry in a plan: in both scopes the query takes as many values as the text of its template has
sites, and the entry reads as the text does, with the values in their sites. -/
def Entry.ReadsAs (c : Context) (q : Query) (entry : Entry) : Prop :=
  ∀ s : Scope, entry.query s = fill (q.template.text c s) q.values ∧
    q.values.length = Query.sites (q.template.text c s).toList ∧
    ∃ ts us, lex (q.template.text c s) = some ts ∧ lex (entry.query s) = some us ∧ Filled snippets ts q.values us

/-- Nothing that a record holds is read as query code. The entries of a plan are the queries of the compiled records,
and each reads as its template does, with the values as contents of the strings and names in whose sites they stand,
and with snippets of the compiler outside of quotes. -/
theorem Naming.compile_keeps_quoting (n : Naming) (rs : List Record) (p : Plan) (h : n.compile rs = .ok p) :
    ∃ e, n.emitRecords rs = .ok e ∧
      List.Forall₂ (Entry.ReadsAs (Context.ofConfig n.config)) e.queries p.entries := by
  obtain ⟨e, he, rfl⟩ := compile_eq_ok.1 h
  refine ⟨e, he, ?_⟩
  have hq : ∀ q ∈ e.queries, q.Fits := fits_emitRecords he
  refine ((List.forall₂_and_left _ _).2 ⟨hq, e.plan_entries (Context.ofConfig n.config)⟩).imp ?_
  rintro q entry ⟨hf, hr⟩ s
  refine ⟨hr s, hf.length_values _ s, ?_⟩
  rw [hr s]
  exact hf.lex_render _ s

/-- A record whose class, path and shape hold quotes, and whose datatype is checked outside of quotes. -/
def quotedRecord : Record :=
  { path := some "u:#a`b\\'", targetClass := some "u:#C` '%s", datatype := some Xsd.date, minCount := some 1,
    propertyShape := some "' OR true //" }

theorem compile_keeps_quoting_quotedRecord :
    ∃ p, plainNaming.compile [quotedRecord] = .ok p ∧ p.entries.length = 3 ∧
      ∃ e, plainNaming.emitRecords [quotedRecord] = .ok e ∧
        List.Forall₂ (Entry.ReadsAs (Context.ofConfig none)) e.queries p.entries :=
  ⟨_, rfl, rfl, Naming.compile_keeps_quoting _ _ _ rfl⟩

end ShapePlan
