/-
The triggers of entries. Every entry comes from a row of the matrix of a record, and the row says what its triggers
are: the focus label, and for the class of values and for a disjoint class the label of that class. The labels that a
query tests by name stand in sites for the same slots, so that none of them is missing among the triggers.
-/
import ShapePlan.Proofs.Plan.Composition
import ShapePlan.Proofs.Plan.Direction
import ShapePlan.Proofs.Plan.Selection
import ShapePlan.Proofs.Query.Labels

namespace ShapePlan

open Query QueryText

/-! ## Triggers of templates -/

/-- What the triggers of the queries of a template are. -/
def Template.triggers : Template → List Slot
  | .classOf | .classOnProperty => [.focus, .range]
  | .disjoint => [.focus, .excluded]
  | _ => [.focus]

/-- Labels are tested in sites whose slots are triggers. -/
theorem Template.trigger_of_labelSite (t : Template) :
    ∀ i ∈ t.labelSites, ∃ slot ∈ t.triggers, t.slots[i]? = some slot := by
  cases t <;> decide

namespace Slot

variable {n : Naming} {r : Record} {x : Choice} {slot : Slot} {v w : String}

theorem mem_triggers_iff {t : Template} : slot ∈ t.triggers ↔
    slot = focus ∨ slot = range ∧ (t = .classOf ∨ t = .classOnProperty) ∨ slot = excluded ∧ t = .disjoint := by
  cases t <;> simp [Template.triggers]

/-- A label is the name of one class. -/
theorem Holds.unique {t : Template} (hslot : slot ∈ t.triggers) (hv : Holds n r x slot v) (hw : Holds n r x slot w) :
    v = w := by
  rcases mem_triggers_iff.1 hslot with rfl | ⟨rfl, -⟩ | ⟨rfl, -⟩
  all_goals
    obtain ⟨c, hc, hv⟩ := hv
    obtain ⟨d, hd, hw⟩ := hw
    cases hc.symm.trans hd
    exact Except.ok.inj (hv.symm.trans hw)

end Slot

/-- The triggers of a query for a choice. -/
def Query.IsTriggered (n : Naming) (r : Record) (x : Choice) (q : Query) : Prop :=
  List.Forall₂ (Slot.Holds n r x) x.template.triggers q.triggers

theorem Query.IsTriggered.mem_iff {n : Naming} {r : Record} {x : Choice} {q : Query} (h : q.IsTriggered n r x)
    {label : String} : label ∈ q.triggers ↔ ∃ slot ∈ x.template.triggers, Slot.Holds n r x slot label := by
  constructor
  · intro hl
    exact exists_left_of_mem h hl
  · rintro ⟨slot, hslot, hl⟩
    obtain ⟨v, hv, hheld⟩ := exists_right_of_mem h hslot
    rw [Slot.Holds.unique hslot hl hheld]
    exact hv

/-! ## Queries of one trigger -/

/-- A query that is triggered by the focus label alone. -/
def Query.IsPlain (t : Target) (q : Query) : Prop :=
  q.focusLabel = t.focus ∧ q.triggers = [t.focus] ∧ q.template.triggers = [.focus]

theorem Target.isPlain_query (t : Target) {template : Template} (h : template.triggers = [.focus]) (kind : Kind)
    (values : List String) : (t.query template kind values).IsPlain t :=
  ⟨rfl, rfl, h⟩

theorem IriFacet.isPlain_emit {f : IriFacet} (hf : f = hasValue ∨ f = oneOf) {n : Naming} {t : Target} {prop : String}
    {iris : List String} {e : Emission} (h : f.emit n t prop iris = .ok e) : ∀ q ∈ e.queries, q.IsPlain t := by
  have htriggers : ∀ template ∈ [f.onPath.template, f.inLabels.template, f.inNodes.template],
      template.triggers = [.focus] := by
    rcases hf with rfl | rfl <;> decide
  intro q hq
  obtain ⟨template, ht, values, rfl⟩ := query_cases h hq
  exact t.isPlain_query (htriggers template ht) _ values

theorem CountFacet.isPlain_queries {f : CountFacet} (hf : f = minCount ∨ f = maxCount) (n : Naming) (t : Target)
    (prop : String) : ∀ q ∈ f.queries n t prop, q.IsPlain t := by
  have htriggers : ∀ template ∈ [f.onPath, f.onInverse, f.inLabels, f.inNodes], template.triggers = [.focus] := by
    rcases hf with rfl | rfl <;> decide
  intro q hq
  obtain ⟨template, ht, values, rfl⟩ := query_cases hq
  exact t.isPlain_query (htriggers template ht) _ values

namespace Target

variable {n : Naming} {t : Target} {prop : String} {e : Emission}

theorem isPlain_emitOnPath {c : Constraint} (hc : ∀ iri, c ≠ .classOf iri) (h : t.emitOnPath n prop c = .ok e) :
    ∀ q ∈ e.queries, q.IsPlain t := by
  cases c with
  | datatype iri =>
    cases h
    exact List.forall_mem_cons.2 ⟨t.isPlain_query rfl _ _, List.forall_mem_singleton.2 (t.isPlain_query rfl _ _)⟩
  | hasValueIris iris =>
    simp only [emitOnPath, emitHasValueIris] at h
    split at h
    · cases h; exact List.forall_mem_nil _
    · exact IriFacet.isPlain_emit (.inl rfl) h
  | hasValueLiterals literals => cases h; exact List.forall_mem_singleton.2 (t.isPlain_query rfl _ _)
  | nodeKind k =>
    cases h
    cases k with
    | literal => exact List.forall_mem_singleton.2 (t.isPlain_query rfl _ _)
    | blankNodeOrIri => exact List.forall_mem_singleton.2 (t.isPlain_query rfl _ _)
    | _ => exact List.forall_mem_nil _
  | classOf iri => exact absurd rfl (hc iri)
  | inLiterals literals => cases h; exact List.forall_mem_singleton.2 (t.isPlain_query rfl _ _)
  | inIris iris => exact IriFacet.isPlain_emit (.inr rfl) h
  | pattern regex => cases h; exact List.forall_mem_singleton.2 (t.isPlain_query rfl _ _)
  | minCount count => cases h; exact CountFacet.isPlain_queries (.inl rfl) n t prop
  | maxCount count => cases h; exact CountFacet.isPlain_queries (.inr rfl) n t prop
  | length min max => cases h; exact List.forall_mem_singleton.2 (t.isPlain_query rfl _ _)
  | range r =>
    cases h
    unfold emitRange
    split
    · exact List.forall_mem_nil _
    · exact List.forall_mem_singleton.2 (t.isPlain_query rfl _ _)
  | closed _ _ => cases h; exact List.forall_mem_nil _
  | disjoint _ => cases h; exact List.forall_mem_nil _
  | requiredClasses _ => cases h; exact List.forall_mem_nil _

end Target

/-! ## Triggers of queries -/

/-- What fills a choice is triggered by its slots. -/
theorem Naming.Emits.isTriggered {n : Naming} {r : Record} {t : Target} {c : Constraint} {e : Emission}
    (h : n.Emits r t c e) {q : Query} (hq : q ∈ e.queries) {x : Choice} (hfills : q.Fills n r x) :
    q.focusLabel = t.focus ∧ q.IsTriggered n r x := by
  have ht := h.isFor
  obtain ⟨s, hs, -, hc, hemit⟩ := h
  obtain ⟨focus, -, rfl⟩ := Option.map_eq_some_iff.1 hs
  obtain ⟨htemplate, hvalues⟩ := hfills
  have hfocus := ht.holds_focus x
  have plain : q.IsPlain t → q.focusLabel = t.focus ∧ q.IsTriggered n r x := by
    rintro ⟨hlabel, htriggers, hslots⟩
    rw [Query.IsTriggered, ← htemplate, htriggers, hslots]
    exact ⟨hlabel, .cons hfocus .nil⟩
  rcases Target.emit_cases hemit with rfl | ⟨defined, ignored, -, he⟩ | ⟨classes, -, he⟩ | ⟨prop, -, -, he⟩
  · exact absurd hq List.not_mem_nil
  · obtain ⟨types, -, he⟩ := bind_eq_ok.1 he
    obtain ⟨ignored, -, he⟩ := bind_eq_ok.1 he
    obtain ⟨defined, -, he⟩ := bind_eq_ok.1 he
    cases he
    rw [List.mem_singleton.1 hq] at plain ⊢
    exact plain (t.isPlain_query rfl _ _)
  · obtain ⟨names, -, he⟩ := bind_eq_ok.1 he
    cases he
    obtain ⟨name, -, rfl⟩ := List.mem_map.1 hq
    rw [← htemplate] at hvalues
    obtain ⟨-, hvalues⟩ := List.forall₂_cons.1 hvalues
    obtain ⟨hexcluded, -⟩ := List.forall₂_cons.1 hvalues
    rw [Query.IsTriggered, ← htemplate]
    exact ⟨rfl, .cons hfocus (.cons hexcluded .nil)⟩
  · by_cases hclass : ∃ iri, c = .classOf iri
    · obtain ⟨iri, rfl⟩ := hclass
      obtain ⟨range, hrange, he⟩ := bind_eq_ok.1 he
      cases he
      have hheld : Slot.Holds n r x .range range := ⟨iri, (Record.mem_constraints.1 hc).1, hrange⟩
      rw [Query.IsTriggered, ← htemplate]
      simp only [List.mem_cons, List.not_mem_nil, or_false] at hq
      rcases hq with rfl | rfl
      · exact ⟨rfl, .cons hfocus (.cons hheld .nil)⟩
      · exact ⟨rfl, .cons hfocus (.cons hheld .nil)⟩
    · exact plain (Target.isPlain_emitOnPath (fun iri hi => hclass ⟨iri, hi⟩) he q hq)

/-- The queries of a record are its choices, with the triggers of the slots. -/
theorem Naming.triggers_emitRecord {n : Naming} {r : Record} {c : String} (hc : r.targetClass = some c) {e : Emission}
    (h : n.emitRecord r = .ok e) :
    List.Forall₂ (fun x q => q.Fills n r x ∧ Slot.Holds n r x .focus q.focusLabel ∧ q.IsTriggered n r x)
      (r.choices n) e.queries := by
  have hemitted : ∀ q ∈ e.queries, ∀ x, q.Fills n r x → Slot.Holds n r x .focus q.focusLabel ∧ q.IsTriggered n r x := by
    obtain ⟨es, rfl, hes⟩ := emitRecord_parts h
    intro q hq x hfills
    rw [Emission.queries_join] at hq
    obtain ⟨f, hf, hq⟩ := List.mem_flatMap.1 hq
    obtain ⟨t, c, hemits⟩ := hes f hf
    obtain ⟨hlabel, htriggered⟩ := hemits.isTriggered hq hfills
    exact ⟨hlabel ▸ hemits.isFor.holds_focus x, htriggered⟩
  have hboth := (List.forall₂_and_left _ _).2 ⟨hemitted, (fills_emitRecord hc h).flip⟩
  exact hboth.flip.imp fun x q ⟨hq, hfills⟩ => ⟨hfills, hq x hfills⟩

/-- The triggers cover the labels that the query tests. -/
theorem Query.IsTriggered.mem_of_testsLabel {n : Naming} {r : Record} {x : Choice} {q : Query} (h : q.IsTriggered n r x)
    (hfills : q.Fills n r x) (hfits : q.Fits) {c : Context} {s : Scope} {label : String}
    (htests : TestsLabel label ((q.template.queryText c s).lexemes q.values)) : label ∈ q.triggers := by
  obtain ⟨i, hi, rfl⟩ := Template.site_of_testsLabel (hfits.nameless c s) htests
  obtain ⟨htemplate, hvalues⟩ := hfills
  rw [htemplate] at hi
  obtain ⟨slot, hslot, hsite⟩ := x.template.trigger_of_labelSite i hi
  obtain ⟨hlt, rfl⟩ := List.getElem?_eq_some_iff.1 hsite
  have hlt' : i < q.values.length := hvalues.length_eq ▸ hlt
  rw [h.mem_iff, List.getD_eq_getElem?_getD, List.getElem?_eq_getElem hlt']
  exact ⟨_, hslot, hvalues.get hlt hlt'⟩

/-! ## Origins of entries -/

/-- A row of the matrix of a record. -/
structure Origin where
  record : Record
  choice : Choice

namespace Origin

/-- The class of the values is called so, and the row is for it. -/
def HasRange (n : Naming) (o : Origin) (label : String) : Prop :=
  (o.choice.template = .classOf ∨ o.choice.template = .classOnProperty) ∧
    ∃ c, o.record.rangeClass = some c ∧ n.name c = .ok label

/-- A disjoint class is called so, and the row is for it. -/
def Excludes (n : Naming) (o : Origin) (label : String) : Prop :=
  ∃ c ∈ o.record.disjointClasses.getD [], o.choice = ⟨.disjoint, some c⟩ ∧ n.name c = .ok label

/-- What an entry for the row shows: its texts, and the label of the target class. -/
def Shows (n : Naming) (o : Origin) (entry : Entry) : Prop :=
  entry.Renders n o.record o.choice ∧ ∃ c, o.record.targetClass = some c ∧ n.name c = .ok entry.focusLabel

end Origin

/-- The rows for records, in order. Records without a target have none. -/
def Naming.origins (n : Naming) (rs : List Record) : List Origin :=
  rs.flatMap fun r => if r.targetClass.isSome then (r.choices n).map (⟨r, ·⟩) else []

theorem excluded_choicesIf {cs : List String} {applies : Bool} {templates : List Template}
    (h : .disjoint ∉ templates) :
    ∀ x ∈ choicesIf applies templates, x.template = .disjoint → ∃ c ∈ cs, x = ⟨.disjoint, some c⟩ := by
  unfold choicesIf rowsIf
  split
  · rw [List.forall_mem_map]
    rintro template ht rfl
    exact absurd ht h
  · exact List.forall_mem_nil _

/-- The rows for disjoint classes are one for each class. -/
theorem Record.excluded_choices (n : Naming) (r : Record) : ∀ x ∈ r.choices n,
    x.template = .disjoint → ∃ c ∈ r.disjointClasses.getD [], x = ⟨.disjoint, some c⟩ := by
  simp only [choices, countChoices, List.forall_mem_append]
  and_intros
  all_goals try exact excluded_choicesIf (by decide)
  all_goals try exact forall_mem_iriRows (absurd · (by decide)) (absurd · (by decide)) (absurd · (by decide))
  exact List.forall_mem_map.2 fun c hc _ => ⟨c, hc, rfl⟩

theorem Origin.mem_triggers_iff {n : Naming} {o : Origin} (ho : o.choice ∈ o.record.choices n) {q : Query}
    (hfocus : Slot.Holds n o.record o.choice .focus q.focusLabel) (h : q.IsTriggered n o.record o.choice)
    {label : String} : label ∈ q.triggers ↔ label = q.focusLabel ∨ o.HasRange n label ∨ o.Excludes n label := by
  rw [h.mem_iff]
  constructor
  · rintro ⟨slot, hslot, hheld⟩
    rcases Slot.mem_triggers_iff.1 hslot with rfl | ⟨rfl, htemplate⟩ | ⟨rfl, htemplate⟩
    · exact .inl (hheld.unique hslot hfocus)
    · exact .inr (.inl ⟨htemplate, hheld⟩)
    · obtain ⟨c, hc, hx⟩ := Record.excluded_choices n o.record _ ho htemplate
      obtain ⟨d, hd, hname⟩ := hheld
      rw [hx] at hd
      cases hd
      exact .inr (.inr ⟨c, hc, hx, hname⟩)
  · rintro (rfl | ⟨htemplate, hheld⟩ | ⟨c, hc, hx, hname⟩)
    · exact ⟨.focus, Slot.mem_triggers_iff.2 (.inl rfl), hfocus⟩
    · exact ⟨.range, Slot.mem_triggers_iff.2 (.inr (.inl ⟨rfl, htemplate⟩)), hheld⟩
    · rw [hx]
      exact ⟨.excluded, List.mem_cons_of_mem _ List.mem_cons_self, c, rfl, hname⟩

/-- The queries for records are their rows, with the triggers that the rows say. -/
theorem Naming.triggers_emitRecords {n : Naming} {rs : List Record} {e : Emission} (h : n.emitRecords rs = .ok e) :
    List.Forall₂ (fun o q => q.Fills n o.record o.choice ∧ Slot.Holds n o.record o.choice .focus q.focusLabel ∧
      q.IsTriggered n o.record o.choice ∧ o.choice ∈ o.record.choices n) (n.origins rs) e.queries := by
  obtain ⟨es, hes, rfl⟩ := emitRecords_eq_ok.1 h
  rw [Emission.queries_join]
  refine List.rel_flatMap hes fun r e (hr : n.emitRecord r = .ok e) => ?_
  cases hc : r.targetClass with
  | none =>
    rw [emitRecord_none hc] at hr
    cases hr
    exact .nil
  | some c =>
    refine List.forall₂_map_left_iff.2 ?_
    have hrow := (List.forall₂_and_left _ _).2 ⟨fun x hx => hx, triggers_emitRecord hc hr⟩
    exact hrow.imp fun x q ⟨hx, hfills, hfocus, htriggered⟩ => ⟨hfills, hfocus, htriggered, hx⟩

/-! ## Plans -/

theorem Plan.mem_triggeredBy {p : Plan} {labels : List String} {entry : Entry} :
    entry ∈ p.triggeredBy labels ↔ entry ∈ p.entries ∧ ∃ label ∈ labels, label ∈ entry.triggers := by
  simp [triggeredBy, and_comm]

/-- The entries that labels select, in the order of the plan and each once, are those with the focus label, the label
of the class of values or the label of a disjoint class among them. No query tests a label by name that does not select
it. -/
theorem Naming.compile_triggers_exact (n : Naming) (rs : List Record) (p : Plan) (h : n.compile rs = .ok p)
    (labels : List String) :
    (p.triggeredBy labels).Sublist p.entries ∧ (p.triggeredBy labels).Nodup ∧
    List.Forall₂ (fun o entry => o.Shows n entry ∧
      (entry ∈ p.triggeredBy labels ↔
        entry.focusLabel ∈ labels ∨ (∃ label ∈ labels, o.HasRange n label) ∨ ∃ label ∈ labels, o.Excludes n label))
      (n.origins rs) p.entries ∧
    ∀ entry ∈ p.entries, ∀ s : Scope, ∃ ts, lex (entry.query s) = some ts ∧ ∀ label, TestsLabel label ts →
      label ∈ entry.triggers ∧ (label ∈ labels → entry ∈ p.triggeredBy labels) := by
  obtain ⟨e, he, rfl⟩ := compile_eq_ok.1 h
  have hentries := e.entries_plan (Context.ofConfig n.config)
  have horigins := triggers_emitRecords he
  refine ⟨List.filter_sublist, (e.isNumbered_plan _).nodup.of_map.filter _, ?_, ?_⟩
  · have hmem := (List.forall₂_and_left _ _).2 ⟨fun entry hentry => hentry, hentries.flip⟩
    refine forall₂_comp horigins hmem.flip ?_
    rintro o q entry ⟨⟨htemplate, hvalues⟩, hfocus, htriggered, ho⟩ ⟨hentry, i, rfl⟩
    refine ⟨⟨⟨q.values, hvalues, fun s => ?_⟩, hfocus⟩, ?_⟩
    · rw [← htemplate]
      cases s <;> rfl
    · have hiff : ∀ label, label ∈ (q.entry (Context.ofConfig n.config) i).triggers ↔
          label = q.focusLabel ∨ o.HasRange n label ∨ o.Excludes n label := fun _ =>
        Origin.mem_triggers_iff ho hfocus htriggered
      simp only [Plan.mem_triggeredBy, hentry, true_and, hiff, and_or_left, exists_or, exists_eq_right]
      rfl
  · intro entry hentry s
    obtain ⟨q, hq, i, rfl⟩ := exists_left_of_mem hentries hentry
    obtain ⟨o, -, hfills, -, htriggered, -⟩ := exists_left_of_mem horigins hq
    have hfits := fits_emitRecords he q hq
    refine ⟨_, hfits.lex_entry _ i s, fun label htests => ?_⟩
    have hlabel := htriggered.mem_of_testsLabel hfills hfits htests
    exact ⟨hlabel, fun hl => Plan.mem_triggeredBy.2 ⟨hentry, label, hl, hlabel⟩⟩

/-- A record with a class of values, a count and two disjoint classes. -/
def scopedRecord : Record :=
  { path := some "u:#p", targetClass := some "u:#C", rangeClass := some "u:#R", maxCount := some 1,
    disjointClasses := some ["u:#D", "u:#E"], propertyShape := some "u:#S" }

theorem compile_triggers_exact_scopedRecord :
    ∃ p, plainNaming.compile [scopedRecord] = .ok p ∧
      (p.triggeredBy ["R"]).map (·.id) = ["Q_1", "Q_2"] ∧ (p.triggeredBy ["E"]).map (·.id) = ["Q_5"] ∧
      (p.triggeredBy ["E", "R"]).Sublist p.entries ∧ (p.triggeredBy ["E", "R"]).Nodup ∧
      ∃ entry ∈ p.triggeredBy ["E", "R"], ∃ ts, lex (entry.query .touched) = some ts ∧ TestsLabel "R" ts := by
  have hcompile : plainNaming.compile [scopedRecord] = .ok _ := rfl
  obtain ⟨hsublist, hnodup, -, htests⟩ := Naming.compile_triggers_exact _ _ _ hcompile ["E", "R"]
  refine ⟨_, hcompile, by decide, by decide, hsublist, hnodup, ?_⟩
  obtain ⟨ts, hlex, hselected⟩ := htests _ List.mem_cons_self .touched
  have hemit : plainNaming.emitRecords [scopedRecord] = .ok _ := rfl
  have hfits := Naming.fits_emitRecords hemit _ List.mem_cons_self
  have hlabel : TestsLabel "R" ts := by
    have hmention : ∃ m ∈ (Template.classOf.queryText {} .touched).mentions
        ["C", "p", "R", "C", "u:#S", "p", Sh.violation, "R"],
        m.name = "R" ∧ ∃ mark ∈ labelMarks, mark <:+ m.before.toList := by decide
    rw [Option.some.inj (hlex.symm.trans (hfits.lex_entry {} 1 .touched))]
    obtain ⟨m, hm, hname, hmark⟩ := hmention
    rw [← hname]
    exact testsLabel_of_mention hm hmark
  exact ⟨_, (hselected "R" hlabel).2 (by decide), ts, hlex, hlabel⟩

end ShapePlan
