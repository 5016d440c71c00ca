/-
The selection of templates as a matrix. Which templates are rendered for a record depends on the facets that it has,
on whether its path is a property or the type property, and on where types are kept; what stands in the sites of a
template is the same for all of its renderings. A plan for one record has the rows of the matrix that apply, in order.
-/
import ShapePlan.Proofs.Plan.Facets

namespace ShapePlan

/-! ## Slots -/

/-- What the value of a site is. -/
inductive Slot where
  /-- The parameter set of the shape for a parameter. -/
  | params (parameter : String)
  | focus
  | path
  | shape
  | severity
  | violation
  | datatype
  | castStart
  | castEnd
  | range
  /-- A class that the focus class is disjoint from. -/
  | excluded
  | code (text : String)
  | minLength
  | maxLength
  | lower
  | upper
deriving DecidableEq, Repr

def Template.slots : Template → List Slot
  | .datatype =>
    [.focus, .path, .castStart, .castEnd, .focus, .shape, .path, .path, .severity, .datatype]
  | .datatypeOnRelationship | .literalNodeKind | .iriNodeKind | .classOnProperty =>
    [.focus, .path, .focus, .shape, .path, .severity, .path]
  | .classOf => [.focus, .path, .range, .focus, .shape, .path, .severity, .range]
  | .pattern => [.params Sh.pattern, .focus, .path, .path, .focus, .shape, .path, .severity]
  | .hasValueTypeLabel => [.params Sh.hasValue, .focus, .focus, .shape, .severity]
  | .hasValueTypeEdge | .hasValueIri | .hasValueLiteral =>
    [.params Sh.hasValue, .focus, .path, .focus, .shape, .path, .severity, .path]
  | .inTypeLabel => [.params Sh.oneOf, .focus, .focus, .shape, .severity]
  | .inTypeEdge | .inIris | .inLiterals =>
    [.params Sh.oneOf, .focus, .path, .focus, .shape, .path, .severity, .path]
  | .minCount =>
    [.params Sh.minCount, .focus, .code " toInteger(params.minCount) <= ", .path, .path, .focus, .shape, .path, .path,
      .path, .severity]
  | .minCountTypeLabel =>
    [.params Sh.minCount, .focus, .code " toInteger(params.minCount) <= ", .focus, .shape, .path, .severity]
  | .minCountTypeEdge | .minCountInverse =>
    [.params Sh.minCount, .focus, .code " toInteger(params.minCount) <= ", .path, .focus, .shape, .path, .path,
      .severity]
  | .maxCount =>
    [.params Sh.maxCount, .focus, .path, .path, .code " <= toInteger(params.maxCount) ", .focus, .shape, .path, .path,
      .path, .severity]
  | .maxCountTypeLabel =>
    [.params Sh.maxCount, .focus, .code " <= toInteger(params.maxCount) ", .focus, .shape, .path, .severity]
  | .maxCountTypeEdge | .maxCountInverse =>
    [.params Sh.maxCount, .focus, .path, .code " <= toInteger(params.maxCount) ", .focus, .shape, .path, .path,
      .severity]
  | .length =>
    [.params Sh.minLength, .focus, .path, .minLength, .maxLength, .focus, .shape, .path, .path, .severity]
  | .valueRange =>
    [.params Sh.minExclusive, .focus, .path, .lower, .upper, .focus, .shape, .path, .path, .severity]
  | .closed => [.params Sh.closed, .focus, .focus, .shape, .violation]
  | .disjoint => [.focus, .excluded, .focus, .shape, .excluded, .violation, .excluded]

/-- A template that is selected. Templates for disjoint classes are selected once for each class. -/
structure Choice where
  template : Template
  excluded : Option String
deriving DecidableEq, Repr

/-- The values of a slot in the queries for a record. -/
def Slot.Holds (n : Naming) (r : Record) (x : Choice) : Slot → String → Prop
  | .params parameter, v => v = r.uid ++ "_" ++ parameter
  | .focus, v => ∃ c, r.targetClass = some c ∧ n.name c = .ok v
  | .path, v => ∃ p, r.path = some p ∧ n.name p = .ok v
  | .shape, v => v = r.uid
  | .severity, v =>
    v = (r.severity.filter (· ∈ [Sh.violation, Sh.term "Warning", Sh.term "Info"])).getD Sh.violation
  | .violation, v => v = Sh.violation
  | .datatype, v => r.datatype = some v
  | .castStart, v => v = ((r.datatype.bind castOf?).getD ("", "")).1
  | .castEnd, v => v = ((r.datatype.bind castOf?).getD ("", "")).2
  | .range, v => ∃ c, r.rangeClass = some c ∧ n.name c = .ok v
  | .excluded, v => ∃ c, x.excluded = some c ∧ n.name c = .ok v
  | .code text, v => v = text
  | .minLength, v => v = if r.minLength.isSome then " params.minStrLen <= " else ""
  | .maxLength, v => v = if r.maxLength.isSome then " <= params.maxStrLen " else ""
  | .lower, v =>
    v = if r.minInclusive.isSome then " params.min <=" else if r.minExclusive.isSome then " params.min < " else ""
  | .upper, v =>
    v = if r.maxInclusive.isSome then " <= params.max " else if r.maxExclusive.isSome then " < params.max " else ""

/-! ## The matrix -/

/-- The templates of a row if it applies. -/
def choicesIf (applies : Bool) (templates : List Template) : List Choice :=
  rowsIf applies (templates.map (⟨·, none⟩))

@[simp] theorem choicesIf_false (templates : List Template) : choicesIf false templates = [] := rfl

namespace Record

variable (n : Naming) (r : Record)

/-- The rows for a list of IRIs. -/
def iriChoices (listed onPath : Bool) (property label node : Template) : List Choice :=
  r.iriRows n listed onPath ⟨property, none⟩ ⟨label, none⟩ ⟨node, none⟩

/-- The rows for a count. -/
def countChoices (isSet : Bool) (property inverse label node : Template) : List Choice :=
  choicesIf (r.path.isSome && isSet && r.inverse) [inverse] ++
  choicesIf (r.isOnType && isSet && !r.inverse && n.keepsLabels) [label] ++
  choicesIf (r.isOnType && isSet && !r.inverse && n.keepsNodes) [node] ++
  choicesIf (r.isOnProperty && isSet && !r.inverse) [property]

/-- The templates for a record, by its facets. -/
def choices : List Choice :=
  choicesIf (r.isOnProperty && r.datatype.isSome) [.datatype, .datatypeOnRelationship] ++
  r.iriChoices n (lists r.hasValueIris) n.config.isSome .hasValueIri .hasValueTypeLabel .hasValueTypeEdge ++
  choicesIf (r.isOnProperty && lists r.hasValueLiterals) [.hasValueLiteral] ++
  (choicesIf (r.isOnProperty && r.nodeKind = some (Sh.term "Literal")) [.literalNodeKind] ++
    choicesIf (r.isOnProperty && r.nodeKind = some (Sh.term "BlankNodeOrIRI")) [.iriNodeKind]) ++
  choicesIf (r.isOnProperty && r.rangeClass.any (· ≠ "")) [.classOf, .classOnProperty] ++
  choicesIf (r.isOnProperty && lists r.inLiterals) [.inLiterals] ++
  r.iriChoices n (lists r.inIris) true .inIris .inTypeLabel .inTypeEdge ++
  choicesIf (r.isOnProperty && r.pattern.isSome) [.pattern] ++
  r.countChoices n r.minCount.isSome .minCount .minCountInverse .minCountTypeLabel .minCountTypeEdge ++
  r.countChoices n r.maxCount.isSome .maxCount .maxCountInverse .maxCountTypeLabel .maxCountTypeEdge ++
  choicesIf (r.isOnProperty && (r.minLength.isSome || r.maxLength.isSome)) [.length] ++
  choicesIf (r.isOnProperty && r.isRanged) [.valueRange] ++
  choicesIf (r.constraintType = some "closedDefinitionPropList") [.closed] ++
  (r.disjointClasses.getD []).map fun c => ⟨.disjoint, some c⟩

end Record

/-- A query for a choice: its template, with a value for each slot. -/
def Query.Fills (n : Naming) (r : Record) (x : Choice) (q : Query) : Prop :=
  q.template = x.template ∧ List.Forall₂ (Slot.Holds n r x) x.template.slots q.values

/-! ## What the slots hold -/

namespace Target.IsFor

variable {n : Naming} {r : Record} {t : Target}

section

variable (h : t.IsFor n r) (x : Choice)

include h

theorem holds_focus : Slot.Holds n r x .focus t.focus := by
  obtain ⟨c, hc, hn, -⟩ := h.header
  exact ⟨c, hc, hn⟩

theorem holds_path {prop : String} (hp : t.path = some prop) : Slot.Holds n r x .path prop := by
  cases hr : r.path with
  | none => rw [h.noPath hr] at hp; cases hp
  | some p =>
    obtain ⟨v, hv, ht⟩ := h.path p hr
    cases ht.symm.trans hp
    exact ⟨p, hr, hv⟩

theorem holds_shape : Slot.Holds n r x .shape t.uid := h.uid_eq

theorem holds_severity : Slot.Holds n r x .severity t.severity := h.severity_eq

theorem holds_params (parameter : String) : Slot.Holds n r x (.params parameter) (t.paramSet parameter) := by
  rw [Slot.Holds, ← h.uid_eq]
  rfl

end

end Target.IsFor

/-! ## Facets -/

/-- The queries for constraints fill choices, one for one. -/
abbrev Target.Selects (n : Naming) (r : Record) (t : Target) (cs : List Constraint) (xs : List Choice) : Prop :=
  t.Yields n (·.queries) (Query.Fills n r) cs xs

namespace Target.IsFor

variable {n : Naming} {r : Record} {t : Target} {prop : String} (ht : t.IsFor n r)

include ht

theorem holds_pathValues (x : Choice) (hp : t.path = some prop) :
    List.Forall₂ (Slot.Holds n r x) [.focus, .path, .focus, .shape, .path, .severity, .path] (t.pathValues prop) := by
  simp [pathValues, ht.holds_focus, ht.holds_path x hp, ht.holds_shape, ht.holds_severity]

theorem holds_labelValues (x : Choice) (parameter : String) :
    List.Forall₂ (Slot.Holds n r x) [.params parameter, .focus, .focus, .shape, .severity]
      (t.labelValues (t.paramSet parameter)) := by
  simp [labelValues, ht.holds_params, ht.holds_focus, ht.holds_shape, ht.holds_severity]

theorem holds_boundValues {x : Choice} (hp : t.path = some prop) (parameter : String) {low high : Slot}
    {l u : String} (hl : Slot.Holds n r x low l) (hu : Slot.Holds n r x high u) :
    List.Forall₂ (Slot.Holds n r x)
      [.params parameter, .focus, .path, low, high, .focus, .shape, .path, .path, .severity]
      (t.boundValues (t.paramSet parameter) prop l u) := by
  simp [boundValues, ht.holds_params, ht.holds_focus, ht.holds_path x hp, ht.holds_shape, ht.holds_severity, hl, hu]

theorem selects_datatype : t.Selects n r (r.datatype.map .datatype).toList
    (choicesIf (r.isOnProperty && r.datatype.isSome) [.datatype, .datatypeOnRelationship]) := by
  refine .optionOnProperty rfl ht (fun _ => ⟨rfl, rfl⟩) fun iri prop e hd hp he => ?_
  cases he
  refine .cons ⟨rfl, ?_⟩ (.cons ⟨rfl, ht.holds_pathValues _ hp⟩ .nil)
  have hcast : (r.datatype.bind castOf?).getD ("", "") = (castOf? iri).getD ("", "") := by rw [hd]; rfl
  have hstart : Slot.Holds n r ⟨.datatype, none⟩ .castStart ((castOf? iri).getD ("", "")).1 := by rw [Slot.Holds, hcast]
  have hend : Slot.Holds n r ⟨.datatype, none⟩ .castEnd ((castOf? iri).getD ("", "")).2 := by rw [Slot.Holds, hcast]
  have hiri : Slot.Holds n r ⟨.datatype, none⟩ .datatype iri := hd
  simp [Template.slots, query, ht.holds_focus, ht.holds_path _ hp, ht.holds_shape, ht.holds_severity, hstart, hend,
    hiri]

theorem selects_literals {l : Option (List String)} {f : List String → Constraint} {template : Template} {kind : Kind}
    {key : String} (hf : ∀ l, (f l).isOnPath = true ∧ allowedOnType (f l) = false)
    (he : ∀ prop l, t.emitOnPath n prop (f l) = .ok (t.emitLiterals n template kind key prop l))
    (hs : template.slots = [.params kind.parameter, .focus, .path, .focus, .shape, .path, .severity, .path]) :
    t.Selects n r (Record.ofList f l) (choicesIf (r.isOnProperty && Record.lists l) [template]) := by
  refine .listOnProperty rfl ht hf fun literals prop e _ hp h => ?_
  rw [he] at h
  cases h
  refine .cons ⟨rfl, ?_⟩ .nil
  rw [hs]
  exact .cons (ht.holds_params _ _) (ht.holds_pathValues _ hp)

theorem selects_nodeKind : t.Selects n r ((r.nodeKind >>= NodeKind.ofIri?).map .nodeKind).toList
    (choicesIf (r.isOnProperty && r.nodeKind = some (Sh.term "Literal")) [.literalNodeKind] ++
      choicesIf (r.isOnProperty && r.nodeKind = some (Sh.term "BlankNodeOrIRI")) [.iriNodeKind]) := by
  have hk : ∀ k : NodeKind, r.nodeKind = some k.term ↔ r.nodeKind >>= NodeKind.ofIri? = some k := by
    intro k
    rw [Option.bind_eq_bind, Option.bind_eq_some_iff]
    simp only [NodeKind.ofIri?_eq_some, exists_eq_right]
  have hl : r.nodeKind = some (Sh.term "Literal") ↔ _ := hk .literal
  have hi : r.nodeKind = some (Sh.term "BlankNodeOrIRI") ↔ _ := hk .blankNodeOrIri
  simp only [hl, hi]
  cases r.nodeKind >>= NodeKind.ofIri? with
  | none => simpa using .nil
  | some k =>
    have hrows : choicesIf (r.isOnProperty && decide (some k = some .literal)) [.literalNodeKind] ++
        choicesIf (r.isOnProperty && decide (some k = some .blankNodeOrIri)) [.iriNodeKind] =
        choicesIf r.isOnProperty (nodeKindTemplate? k).toList := by
      cases r.isOnProperty <;> cases k <;> rfl
    rw [hrows]
    refine .onProperty (X := fun b => choicesIf b _) rfl rfl ht ⟨rfl, rfl⟩ fun prop e hp he => ?_
    cases he
    cases k with
    | literal => exact .cons ⟨rfl, ht.holds_pathValues _ hp⟩ .nil
    | blankNodeOrIri => exact .cons ⟨rfl, ht.holds_pathValues _ hp⟩ .nil
    | _ => exact .nil

theorem selects_classOf : t.Selects n r ((r.rangeClass.filter (· ≠ "")).map .classOf).toList
    (choicesIf (r.isOnProperty && r.rangeClass.any (· ≠ "")) [.classOf, .classOnProperty]) := by
  have hr : r.rangeClass.any (· ≠ "") = (r.rangeClass.filter (· ≠ "")).isSome := by
    cases r.rangeClass <;> simp [Option.isSome_filter]
  rw [hr]
  refine .optionOnProperty rfl ht (fun _ => ⟨rfl, rfl⟩) fun iri prop e hc hp he => ?_
  obtain ⟨range, hn, he⟩ := bind_eq_ok.1 he
  cases he
  refine .cons ⟨rfl, ?_⟩ (.cons ⟨rfl, ht.holds_pathValues _ hp⟩ .nil)
  have hrange : Slot.Holds n r ⟨.classOf, none⟩ .range range := ⟨iri, Option.eq_some_of_filter_eq_some hc, hn⟩
  simp [Template.slots, query, ht.holds_focus, ht.holds_path _ hp, ht.holds_shape, ht.holds_severity, hrange]

theorem selects_pattern : t.Selects n r (r.pattern.map .pattern).toList
    (choicesIf (r.isOnProperty && r.pattern.isSome) [.pattern]) := by
  refine .optionOnProperty rfl ht (fun _ => ⟨rfl, rfl⟩) fun regex prop e _ hp he => ?_
  cases he
  refine .cons ⟨rfl, .cons (ht.holds_params _ Sh.pattern) ?_⟩ .nil
  simp [ht.holds_focus, ht.holds_path _ hp, ht.holds_shape, ht.holds_severity]

theorem selects_length : t.Selects n r
    (if r.minLength.isSome || r.maxLength.isSome then [.length r.minLength r.maxLength] else [])
    (choicesIf (r.isOnProperty && (r.minLength.isSome || r.maxLength.isSome)) [.length]) := by
  refine .iteOnProperty rfl ht ⟨rfl, rfl⟩ fun prop e _ hp he => ?_
  cases he
  exact .cons ⟨rfl, ht.holds_boundValues hp Sh.minLength rfl rfl⟩ .nil

theorem selects_range : t.Selects n r (if r.valueRange.isEmpty then [] else [.range r.valueRange])
    (choicesIf (r.isOnProperty && r.isRanged) [.valueRange]) := by
  rw [r.range_constraint]
  refine .iteOnProperty rfl ht ⟨rfl, rfl⟩ fun prop e hb hp he => ?_
  cases he
  have hlower : lowerTest r.valueRange.lower? = if r.minInclusive.isSome then " params.min <=" else
      if r.minExclusive.isSome then " params.min < " else "" := by
    unfold Record.valueRange
    cases r.minInclusive <;> cases r.minExclusive <;> rfl
  have hupper : upperTest r.valueRange.upper? = if r.maxInclusive.isSome then " <= params.max " else
      if r.maxExclusive.isSome then " < params.max " else "" := by
    unfold Record.valueRange
    cases r.maxInclusive <;> cases r.maxExclusive <;> rfl
  unfold emitRange
  split
  · next hnil => exact absurd hnil (r.bounds_valueRange hb)
  · exact .cons ⟨rfl, ht.holds_boundValues hp Sh.minExclusive hlower hupper⟩ .nil

theorem hasRows_queries {f : IriFacet} (hp : t.path = some prop) (iris : List String)
    (hproperty : f.onPath.template.slots =
      [.params f.kind.parameter, .focus, .path, .focus, .shape, .path, .severity, .path])
    (hlabel : f.inLabels.template.slots = [.params f.kind.parameter, .focus, .focus, .shape, .severity])
    (hnode : f.inNodes.template.slots =
      [.params f.kind.parameter, .focus, .path, .focus, .shape, .path, .severity, .path]) :
    f.HasRows n t (·.queries) (Query.Fills n r) prop iris ⟨f.onPath.template, none⟩ ⟨f.inLabels.template, none⟩
      ⟨f.inNodes.template, none⟩ := by
  have followed : ∀ p : Reading, p.template.slots =
      [.params f.kind.parameter, .focus, .path, .focus, .shape, .path, .severity, .path] →
      List.Forall₂ (Query.Fills n r) [⟨p.template, none⟩] (f.followed t p prop iris).queries := by
    intro p hs
    refine .cons ⟨rfl, ?_⟩ .nil
    rw [hs]
    exact .cons (ht.holds_params _ _) (ht.holds_pathValues _ hp)
  refine ⟨followed _ hproperty, fun names _ => .cons ⟨rfl, ?_⟩ .nil, followed _ hnode⟩
  rw [hlabel]
  exact ht.holds_labelValues _ _

theorem selects_hasValueIris : t.Selects n r (Record.ofList .hasValueIris r.hasValueIris)
    (r.iriChoices n (Record.lists r.hasValueIris) n.config.isSome .hasValueIri .hasValueTypeLabel
      .hasValueTypeEdge) :=
  ht.yields_hasValueIris Emission.isPart_queries fun _ iris hp _ => ht.hasRows_queries hp iris rfl rfl rfl

theorem selects_inIris : t.Selects n r (Record.ofList .inIris r.inIris)
    (r.iriChoices n (Record.lists r.inIris) true .inIris .inTypeLabel .inTypeEdge) :=
  ht.yields_inIris Emission.isPart_queries fun _ iris hp _ => ht.hasRows_queries hp iris rfl rfl rfl

/-- The sites of a count on one of its four templates. -/
theorem fills_count {f : CountFacet} {template : Template} {counted reported : List Slot} {cs rs : List String}
    (hs : template.slots = [.params f.kind.parameter, .focus] ++
      (if f.isLower then .code f.bound :: counted else counted ++ [.code f.bound]) ++ [.focus, .shape] ++ reported ++
      [.severity])
    (hc : List.Forall₂ (Slot.Holds n r ⟨template, none⟩) counted cs)
    (hr : List.Forall₂ (Slot.Holds n r ⟨template, none⟩) reported rs) :
    (t.query template f.kind (f.values t cs rs)).Fills n r ⟨template, none⟩ := by
  refine ⟨rfl, ?_⟩
  show List.Forall₂ _ template.slots (f.values t cs rs)
  rw [hs]
  refine List.rel_append (List.rel_append (List.rel_append (List.rel_append ?_ ?_) ?_) hr) ?_
  · exact .cons (ht.holds_params _ _) (.cons (ht.holds_focus _) .nil)
  · split
    · exact .cons rfl hc
    · exact List.rel_append hc (.cons rfl .nil)
  · exact .cons (ht.holds_focus _) (.cons (ht.holds_shape _) .nil)
  · exact .cons (ht.holds_severity _) .nil

theorem fills_counts {f : CountFacet} (hf : f = .minCount ∨ f = .maxCount) (hp : t.path = some prop) :
    List.Forall₂ (Query.Fills n r) (r.countChoices n true f.onPath f.onInverse f.inLabels f.inNodes)
      (f.queries n t prop) := by
  have path : ∀ x k, List.Forall₂ (Slot.Holds n r x) (List.replicate k .path) (List.replicate k prop) := by
    intro x k
    induction k with
    | zero => exact .nil
    | succ k ih => exact .cons (ht.holds_path x hp) ih
  have hpath : r.path.isSome = true := ht.path_isSome hp
  have hinv : t.header.isInverse = r.inverse := by rw [ht.isInverse_eq, hpath, Bool.true_and]
  rw [Record.countChoices, ← ht.isOnType_eq, ht.isOnProperty_eq hp, hpath, n.keepsLabels_eq, n.keepsNodes_eq]
  unfold CountFacet.queries
  rw [hinv]
  cases r.inverse with
  | true =>
    simp only [Bool.not_true, Bool.and_false, Bool.false_and, Bool.and_true, choicesIf_false, List.append_nil]
    refine .cons ?_ .nil
    rcases hf with rfl | rfl <;> exact ht.fills_count rfl (path _ 1) (path _ 2)
  | false =>
    simp only [Bool.not_false, Bool.and_false, Bool.and_true, choicesIf_false, List.nil_append, Bool.false_eq_true,
      if_false]
    cases t.header.isOnType with
    | true =>
      simp only [Bool.true_and, Bool.not_true, choicesIf_false, List.append_nil, if_true]
      refine List.rel_append ?_ ?_
      · cases n.typesAsLabels with
        | true =>
          refine .cons ?_ .nil
          rcases hf with rfl | rfl <;> exact ht.fills_count rfl .nil (path _ 1)
        | false => exact .nil
      · cases n.typesAsNodes with
        | true =>
          refine .cons ?_ .nil
          rcases hf with rfl | rfl <;> exact ht.fills_count rfl (path _ 1) (path _ 2)
        | false => exact .nil
    | false =>
      simp only [Bool.false_and, Bool.not_false, choicesIf_false, List.nil_append]
      refine .cons ?_ .nil
      rcases hf with rfl | rfl <;> exact ht.fills_count rfl (path _ 2) (path _ 3)

theorem selects_count {f : CountFacet} (hf : f = .minCount ∨ f = .maxCount) {o : Option Int64}
    {g : Int64 → Constraint} (hg : ∀ k, (g k).isOnPath = true ∧ allowedOnType (g k) = true)
    (he : ∀ prop k, t.emitOnPath n prop (g k) = .ok (f.emit n t prop k)) :
    t.Selects n r (o.map g).toList (r.countChoices n o.isSome f.onPath f.onInverse f.inLabels f.inNodes) := by
  refine .option (X := fun b => r.countChoices n b _ _ _ _) (by simp [Record.countChoices]) fun k _ => ?_
  refine .onPath (hg k) rfl ht ?_ fun prop e hp h => ?_
  · intro hr
    simp [Record.countChoices, Record.isOnType, Record.isOnProperty, hr]
  · rw [he] at h
    cases h
    exact ht.fills_counts hf hp

theorem selects_closed : t.Selects n r
    (if r.isClosedDefinition then [.closed (r.definedProps.getD []) (r.ignoredProps.getD [])] else [])
    (choicesIf (r.constraintType = some "closedDefinitionPropList") [.closed]) := by
  refine .ite (X := fun b => choicesIf b _) rfl fun _ => .single fun e he => ?_
  obtain ⟨types, -, he⟩ := bind_eq_ok.1 he
  obtain ⟨ignored, -, he⟩ := bind_eq_ok.1 he
  obtain ⟨defined, -, he⟩ := bind_eq_ok.1 he
  cases he
  refine .cons ⟨rfl, .cons (ht.holds_params _ _) ?_⟩ .nil
  exact .cons (ht.holds_focus _) (.cons (ht.holds_focus _) (.cons (ht.holds_shape _) (.cons rfl .nil)))

theorem selects_disjoint : t.Selects n r (Record.ofList .disjoint r.disjointClasses)
    ((r.disjointClasses.getD []).map fun c => ⟨.disjoint, some c⟩) := by
  cases r.disjointClasses with
  | none => exact .nil
  | some classes =>
    by_cases hnil : classes = []
    · subst hnil
      exact .nil
    have hlist : Record.ofList .disjoint (some classes) = [.disjoint classes] := by
      simp [Record.ofList, Option.filter, hnil]
    rw [hlist]
    refine .single fun e he => ?_
    obtain ⟨names, hnames, he⟩ := bind_eq_ok.1 he
    cases he
    rw [Option.getD_some, List.forall₂_map_left_iff, List.forall₂_map_right_iff]
    refine (mapM_eq_ok.1 hnames).imp fun c name hc => ⟨rfl, ?_⟩
    have hname : Slot.Holds n r ⟨.disjoint, some c⟩ .excluded name := ⟨c, rfl, hc⟩
    have hviolation : Slot.Holds n r ⟨.disjoint, some c⟩ .violation Sh.violation := rfl
    simp [Template.slots, query, ht.holds_focus, ht.holds_shape, hname, hviolation]

omit ht in
theorem selects_requiredClasses : t.Selects n r (Record.ofList .requiredClasses r.requiredClasses) [] := by
  refine .list (X := fun _ => []) rfl fun classes _ => .single fun e he => ?_
  cases he
  exact .nil

theorem selects_constraints : t.Selects n r r.constraints (r.choices n) := by
  refine .skip ?_ selects_requiredClasses
  unfold Record.choices
  repeat' apply Target.Yields.append
  · exact ht.selects_datatype
  · exact ht.selects_hasValueIris
  · exact ht.selects_literals (fun _ => ⟨rfl, rfl⟩) (fun _ _ => rfl) rfl
  · exact ht.selects_nodeKind
  · exact ht.selects_classOf
  · exact ht.selects_literals (fun _ => ⟨rfl, rfl⟩) (fun _ _ => rfl) rfl
  · exact ht.selects_inIris
  · exact ht.selects_pattern
  · exact ht.selects_count (.inl rfl) (fun _ => ⟨rfl, rfl⟩) fun _ _ => rfl
  · exact ht.selects_count (.inr rfl) (fun _ => ⟨rfl, rfl⟩) fun _ _ => rfl
  · exact ht.selects_length
  · exact ht.selects_range
  · exact ht.selects_closed
  · exact ht.selects_disjoint

end Target.IsFor

/-! ## Plans -/

/-- The queries of a record are its choices. -/
theorem Naming.fills_emitRecord {n : Naming} {r : Record} {c : String} (hc : r.targetClass = some c) {e : Emission}
    (h : n.emitRecord r = .ok e) : List.Forall₂ (Query.Fills n r) (r.choices n) e.queries :=
  Target.Yields.emitRecord hc Emission.queries_join (fun _ ht => ht.selects_constraints) h

/-- The entry has the texts of a choice, in both scopes and with the same values. -/
def Entry.Renders (n : Naming) (r : Record) (x : Choice) (entry : Entry) : Prop :=
  ∃ values, List.Forall₂ (Slot.Holds n r x) x.template.slots values ∧
    ∀ s : Scope, entry.query s = x.template.render (Context.ofConfig n.config) s values

/-- The entries of a plan for one record are the renderings of the rows of the matrix that apply, in their order. -/
theorem Naming.compile_follows_matrix (n : Naming) (r : Record) (c : String) (hc : r.targetClass = some c) (p : Plan)
    (h : n.compile [r] = .ok p) : List.Forall₂ (Entry.Renders n r) (r.choices n) p.entries := by
  obtain ⟨e, he, rfl⟩ := compile_eq_ok.1 h
  obtain ⟨es, hes, rfl⟩ := emitRecords_eq_ok.1 he
  obtain ⟨e, _, hr, ⟨⟩, rfl⟩ := List.forall₂_cons_left_iff.1 hes
  have hentries := (Emission.join [e]).plan_entries (Context.ofConfig n.config)
  rw [Emission.queries_join, List.flatMap_singleton] at hentries
  refine forall₂_comp (fills_emitRecord hc hr) hentries fun x q entry hfill hrender => ?_
  obtain ⟨htemplate, hvalues⟩ := hfill
  exact ⟨q.values, hvalues, htemplate ▸ hrender⟩

/-- Names in a graph that keeps types as labels and as nodes. -/
def typedNaming : Naming where
  config := some { vocab := .keep, types := .labelsAndNodes }
  resolver := { prefixFor := fun _ => .ok none }

/-- A record on the type property, with facets that are compiled there and some that are not. -/
def typedRecord : Record :=
  { path := some Rdf.type, targetClass := some "u:#C", datatype := some "u:#D", hasValueIris := some ["u:#C"],
    inIris := some ["u:#C", "u:#E"], minCount := some 1, maxCount := some 2, disjointClasses := some ["u:#F", "u:#G"],
    propertyShape := some "u:#S" }

theorem compile_follows_matrix_typedRecord :
    ∃ p, typedNaming.compile [typedRecord] = .ok p ∧
      typedRecord.choices typedNaming =
        [⟨.hasValueTypeLabel, none⟩, ⟨.hasValueTypeEdge, none⟩, ⟨.inTypeLabel, none⟩, ⟨.inTypeEdge, none⟩,
          ⟨.minCountTypeLabel, none⟩, ⟨.minCountTypeEdge, none⟩, ⟨.maxCountTypeLabel, none⟩, ⟨.maxCountTypeEdge, none⟩,
          ⟨.disjoint, some "u:#F"⟩, ⟨.disjoint, some "u:#G"⟩] ∧
      List.Forall₂ (Entry.Renders typedNaming typedRecord) (typedRecord.choices typedNaming) p.entries :=
  ⟨_, rfl, by decide, Naming.compile_follows_matrix typedNaming typedRecord "u:#C" rfl _ rfl⟩

end ShapePlan
