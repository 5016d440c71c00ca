/-
Compiling the facets of a record. What a record contributes to a plan is said in rows: a row applies by the facets of
the record, by whether its path is a property or the type property, and by where types are kept. `Target.Yields` says
that the constraints of a record contribute the rows that apply, one for one and in order; it is proved facet by facet.
-/
import ShapePlan.Proofs.Plan.Emitted
import ShapePlan.Proofs.Vocabulary

namespace ShapePlan

/-! ## Conditions -/

/-- Types are labels, as they are in a graph without a configuration. -/
def Naming.keepsLabels (n : Naming) : Bool := n.config.all fun c => c.types ∈ [TypesPolicy.labels, .labelsAndNodes]

/-- Types are nodes. -/
def Naming.keepsNodes (n : Naming) : Bool := n.config.any fun c => c.types ∈ [TypesPolicy.nodes, .labelsAndNodes]

theorem Naming.keepsLabels_eq (n : Naming) : n.keepsLabels = n.typesAsLabels := by
  unfold keepsLabels typesAsLabels
  congr
  funext c
  cases c.types <;> rfl

theorem Naming.keepsNodes_eq (n : Naming) : n.keepsNodes = n.typesAsNodes := by
  unfold keepsNodes typesAsNodes
  congr
  funext c
  cases c.types <;> rfl

namespace Record

variable (r : Record)

def uid : String := r.shapeUid?.getD ""

def isOnProperty : Bool := r.path.any (· ≠ Rdf.type)

def isOnType : Bool := r.path = some Rdf.type

/-- A list facet that has elements. -/
def lists (l : Option (List String)) : Bool := l.any (· ≠ [])

def isRanged : Bool :=
  r.minInclusive.isSome || r.minExclusive.isSome || r.maxInclusive.isSome || r.maxExclusive.isSome

theorem range_constraint : (if r.valueRange.isEmpty then [] else [Constraint.range r.valueRange]) =
    if r.isRanged then [.range r.valueRange] else [] := by
  unfold valueRange ValueRange.isEmpty isRanged
  cases r.minInclusive <;> cases r.minExclusive <;> cases r.maxInclusive <;> cases r.maxExclusive <;> rfl

theorem bounds_valueRange (h : r.isRanged = true) : r.valueRange.bounds ≠ [] := by
  intro hnil
  simp [valueRange, ValueRange.bounds] at hnil
  simp [isRanged, hnil] at h

end Record

/-- The rows if they apply. -/
def rowsIf {α : Type} (applies : Bool) (rows : List α) : List α := if applies then rows else []

theorem rowsIf_false {α : Type} (rows : List α) : rowsIf false rows = [] := rfl

theorem rowsIf_and_false {α : Type} (b : Bool) (rows : List α) : rowsIf (b && false) rows = [] := by
  rw [Bool.and_false, rowsIf_false]

/-! ## Targets of a record -/

/-- The names of a target are those of a record. -/
structure Target.IsFor (n : Naming) (r : Record) (t : Target) : Prop where
  header : ∃ c, r.targetClass = some c ∧ n.name c = .ok t.focus ∧ t.header = r.header c
  path : ∀ p, r.path = some p → ∃ v, n.name p = .ok v ∧ t.path = some v
  noPath : r.path = none → t.path = none

theorem Naming.isFor_of_target {n : Naming} {r : Record} {c : String} (hc : r.targetClass = some c) {t : Target}
    (h : n.target (r.header c) = .ok t) : t.IsFor n r := by
  obtain ⟨focus, hf, h⟩ := bind_eq_ok.1 h
  obtain ⟨path, hp, h⟩ := bind_eq_ok.1 h
  cases h
  have hpath : (r.header c).path = r.path.map (⟨·, r.inverse⟩) := rfl
  rw [hpath] at hp
  refine ⟨⟨c, hc, hf, rfl⟩, fun p hr => ?_, fun hr => ?_⟩
  · rw [hr] at hp
    obtain ⟨v, hv, hp⟩ := map_eq_ok.1 hp
    exact ⟨v, hv, hp.symm⟩
  · rw [hr] at hp
    cases hp
    rfl

namespace Target.IsFor

variable {n : Naming} {r : Record} {t : Target}

theorem uid_eq (h : t.IsFor n r) : t.uid = r.uid := by
  obtain ⟨c, -, -, hh⟩ := h.header
  rw [uid, hh]
  rfl

theorem severity_eq (h : t.IsFor n r) : t.severity =
    (r.severity.filter (· ∈ [Sh.violation, Sh.term "Warning", Sh.term "Info"])).getD Sh.violation := by
  obtain ⟨c, -, -, hh⟩ := h.header
  rw [severity, hh]
  exact Severity.iri_ofIri? r.severity

theorem isOnType_eq (h : t.IsFor n r) : t.header.isOnType = r.isOnType := by
  obtain ⟨c, -, -, hh⟩ := h.header
  rw [hh, Header.isOnType, Record.isOnType]
  cases hp : r.path <;> simp [Record.header, hp, PathStep.isType]

theorem isInverse_eq (h : t.IsFor n r) : t.header.isInverse = (r.path.isSome && r.inverse) := by
  obtain ⟨c, -, -, hh⟩ := h.header
  rw [hh, Header.isInverse]
  cases hp : r.path <;> simp [Record.header, hp]

theorem path_isSome (h : t.IsFor n r) {prop : String} (hp : t.path = some prop) : r.path.isSome = true := by
  cases hr : r.path with
  | none => rw [h.noPath hr] at hp; cases hp
  | some p => rfl

theorem isOnProperty_eq (h : t.IsFor n r) {prop : String} (hp : t.path = some prop) :
    r.isOnProperty = !t.header.isOnType := by
  obtain ⟨p, hr⟩ := Option.isSome_iff_exists.1 (h.path_isSome hp)
  rw [h.isOnType_eq, Record.isOnProperty, Record.isOnType, hr]
  simp

end Target.IsFor

/-! ## Rows -/

/-- A constraint on the path of a record. -/
def Constraint.isOnPath : Constraint → Bool
  | .closed _ _ => false
  | .disjoint _ => false
  | .requiredClasses _ => false
  | _ => true

theorem Target.emit_onPath {n : Naming} {t : Target} {c : Constraint} (h : c.isOnPath = true) :
    t.emit n c = match t.path with
      | none => .ok {}
      | some prop => if t.header.isOnType && !allowedOnType c then .ok {} else t.emitOnPath n prop c := by
  cases c with
  | closed _ _ => cases h
  | disjoint _ => cases h
  | requiredClasses _ => cases h
  | _ => rfl

/-- A part of what the constraints contribute goes with the rows, one for one. -/
def Target.Yields {α β : Type} (n : Naming) (t : Target) (part : Emission → List β) (R : α → β → Prop)
    (cs : List Constraint) (rows : List α) : Prop :=
  ∀ es, List.Forall₂ (fun c e => t.emit n c = .ok e) cs es → List.Forall₂ R rows (es.flatMap part)

namespace Target.Yields

variable {α β : Type} {n : Naming} {t : Target} {part : Emission → List β} {R : α → β → Prop}
  {cs ds : List Constraint} {rows rows' : List α}

theorem nil : t.Yields n part R [] [] := by
  rintro _ ⟨⟩
  exact .nil

theorem single {c : Constraint} (h : ∀ e, t.emit n c = .ok e → List.Forall₂ R rows (part e)) :
    t.Yields n part R [c] rows := by
  rintro _ (_ | ⟨hc, ⟨⟩⟩)
  simpa using h _ hc

theorem append (hc : t.Yields n part R cs rows) (hd : t.Yields n part R ds rows') :
    t.Yields n part R (cs ++ ds) (rows ++ rows') := by
  intro es hes
  have hcs := List.forall₂_take cs.length hes
  have hds := List.forall₂_drop cs.length hes
  rw [List.take_left] at hcs
  rw [List.drop_left] at hds
  rw [← List.take_append_drop cs.length es, List.flatMap_append]
  exact List.rel_append (hc _ hcs) (hd _ hds)

theorem none (h : ∀ c ∈ cs, ∀ e, t.emit n c = .ok e → part e = []) : t.Yields n part R cs [] := by
  intro es hes
  have hpart : es.flatMap part = [] := by
    rw [List.flatMap_eq_nil_iff]
    intro e he
    obtain ⟨c, hc, hce⟩ := exists_left_of_mem hes he
    exact h c hc e hce
  rw [hpart]
  exact .nil

/-- Constraints without rows can be passed over. -/
theorem skip (hc : t.Yields n part R cs rows) (hd : t.Yields n part R ds []) : t.Yields n part R (cs ++ ds) rows := by
  rw [← List.append_nil rows]
  exact hc.append hd

theorem skipFirst (hc : t.Yields n part R cs []) (hd : t.Yields n part R ds rows) : t.Yields n part R (cs ++ ds) rows :=
  hc.append hd

/-- A facet that may be absent. -/
theorem option {γ : Type} {o : Option γ} {f : γ → Constraint} {X : Bool → List α} (hX : X false = [])
    (h : ∀ a, o = some a → t.Yields n part R [f a] (X true)) : t.Yields n part R (o.map f).toList (X o.isSome) := by
  cases ho : o with
  | none => rw [Option.isSome_none, hX]; exact nil
  | some a => exact h a ho

/-- A list that says something if it has elements. -/
theorem list {l : Option (List String)} {f : List String → Constraint} {X : Bool → List α} (hX : X false = [])
    (h : ∀ a, l = some a → t.Yields n part R [f a] (X true)) :
    t.Yields n part R (Record.ofList f l) (X (Record.lists l)) := by
  have hl : Record.lists l = (l.filter (· ≠ [])).isSome := by cases l <;> simp [Record.lists, Option.isSome_filter]
  rw [hl]
  exact option hX fun a ha => h a (Option.eq_some_of_filter_eq_some ha)

theorem ite {b : Bool} {c : Constraint} {X : Bool → List α} (hX : X false = [])
    (h : b = true → t.Yields n part R [c] (X true)) : t.Yields n part R (if b then [c] else []) (X b) := by
  cases b with
  | false => rw [hX]; exact nil
  | true => exact h rfl

variable {r : Record} {c : Constraint}

/-- A constraint that is not compiled on the type property. -/
theorem onProperty {X : Bool → List α} (hX : X false = []) (hpart : part {} = []) (ht : t.IsFor n r)
    (hc : c.isOnPath = true ∧ allowedOnType c = false)
    (h : ∀ prop e, t.path = some prop → t.emitOnPath n prop c = .ok e → List.Forall₂ R (X true) (part e)) :
    t.Yields n part R [c] (X r.isOnProperty) := by
  refine single fun e he => ?_
  rw [emit_onPath hc.1, hc.2, Bool.not_false, Bool.and_true] at he
  cases hp : t.path with
  | none =>
    have hr : r.isOnProperty = false := by
      cases hr : r.path with
      | none => simp [Record.isOnProperty, hr]
      | some p =>
        obtain ⟨v, -, hv⟩ := ht.path p hr
        cases hp.symm.trans hv
    rw [hp] at he
    cases he
    rw [hr, hX, hpart]
    exact .nil
  | some prop =>
    rw [hp] at he
    rw [ht.isOnProperty_eq hp]
    cases hty : t.header.isOnType with
    | true =>
      simp only [hty, if_true] at he
      cases he
      rw [Bool.not_true, hX, hpart]
      exact .nil
    | false =>
      simp only [hty, Bool.false_eq_true, if_false] at he
      exact h prop e hp he

section

variable {γ : Type} {o : Option γ} {l : Option (List String)} {b : Bool} (hpart : part {} = []) (ht : t.IsFor n r)

include hpart ht

theorem optionOnProperty {f : γ → Constraint} (hf : ∀ a, (f a).isOnPath = true ∧ allowedOnType (f a) = false)
    (h : ∀ a prop e, o = some a → t.path = some prop → t.emitOnPath n prop (f a) = .ok e →
      List.Forall₂ R rows (part e)) :
    t.Yields n part R (o.map f).toList (rowsIf (r.isOnProperty && o.isSome) rows) := by
  refine option (X := fun b => rowsIf (r.isOnProperty && b) rows) (rowsIf_and_false _ _) fun a ha => ?_
  rw [Bool.and_true]
  exact onProperty (X := fun b => rowsIf b rows) rfl hpart ht (hf a) fun prop e hp he => h a prop e ha hp he

theorem listOnProperty {f : List String → Constraint}
    (hf : ∀ a, (f a).isOnPath = true ∧ allowedOnType (f a) = false)
    (h : ∀ a prop e, l = some a → t.path = some prop → t.emitOnPath n prop (f a) = .ok e →
      List.Forall₂ R rows (part e)) :
    t.Yields n part R (Record.ofList f l) (rowsIf (r.isOnProperty && Record.lists l) rows) := by
  refine list (X := fun b => rowsIf (r.isOnProperty && b) rows) (rowsIf_and_false _ _) fun a ha => ?_
  rw [Bool.and_true]
  exact onProperty (X := fun b => rowsIf b rows) rfl hpart ht (hf a) fun prop e hp he => h a prop e ha hp he

theorem iteOnProperty (hc : c.isOnPath = true ∧ allowedOnType c = false)
    (h : ∀ prop e, b = true → t.path = some prop → t.emitOnPath n prop c = .ok e → List.Forall₂ R rows (part e)) :
    t.Yields n part R (if b then [c] else []) (rowsIf (r.isOnProperty && b) rows) := by
  refine ite (X := fun b => rowsIf (r.isOnProperty && b) rows) (rowsIf_and_false _ _) fun hb => ?_
  rw [Bool.and_true]
  exact onProperty (X := fun b => rowsIf b rows) rfl hpart ht hc fun prop e hp he => h prop e hb hp he

end

/-- A constraint that is compiled on the type property too. -/
theorem onPath (hc : c.isOnPath = true ∧ allowedOnType c = true) (hpart : part {} = []) (ht : t.IsFor n r)
    (hnone : r.path = .none → rows = [])
    (h : ∀ prop e, t.path = some prop → t.emitOnPath n prop c = .ok e → List.Forall₂ R rows (part e)) :
    t.Yields n part R [c] rows := by
  refine single fun e he => ?_
  rw [emit_onPath hc.1, hc.2, Bool.not_true, Bool.and_false] at he
  cases hp : r.path with
  | none =>
    rw [ht.noPath hp] at he
    cases he
    rw [hnone hp, hpart]
    exact .nil
  | some p =>
    obtain ⟨prop, -, hprop⟩ := ht.path p hp
    rw [hprop] at he
    exact h prop e hprop he

/-- What a record contributes, if it has a target class. -/
theorem emitRecord {focus : String} (hfocus : r.targetClass = some focus)
    (hpart : ∀ es, part (Emission.join es) = es.flatMap part)
    (h : ∀ t : Target, t.IsFor n r → t.Yields n part R r.constraints rows) {e : Emission}
    (he : n.emitRecord r = .ok e) : List.Forall₂ R rows (part e) := by
  have hset : r.constraintSet? = some ⟨r.header focus, r.constraints⟩ := by rw [Record.constraintSet?, hfocus]; rfl
  rw [Naming.emitRecord, hset] at he
  obtain ⟨t, es, ht, hes, rfl⟩ := Naming.emitSet_eq_ok.1 he
  rw [hpart]
  exact h t (Naming.isFor_of_target hfocus ht) es hes

end Target.Yields

theorem Naming.emitRecord_none {n : Naming} {r : Record} (h : r.targetClass = none) : n.emitRecord r = .ok {} := by
  rw [emitRecord, Record.constraintSet?, h]
  rfl

/-! ## Lists of IRIs -/

/-- A part of an emission to which listed components add nothing. -/
structure Emission.IsPart {β : Type} (part : Emission → List β) : Prop where
  append : ∀ a b, part (a ++ b) = part a ++ part b
  components : ∀ cs, part { components := cs } = []

theorem Emission.isPart_queries : IsPart (·.queries) := ⟨queries_append, fun _ => rfl⟩

theorem Emission.isPart_params : IsPart (·.params) := ⟨params_append, fun _ => rfl⟩

/-- The rows for a list of IRIs, which is compiled on labels, on nodes or on a property. -/
def Record.iriRows {α : Type} (n : Naming) (r : Record) (listed onPath : Bool) (property label node : α) : List α :=
  rowsIf (r.isOnType && listed && n.keepsLabels) [label] ++
  rowsIf (r.isOnType && listed && n.keepsNodes) [node] ++
  rowsIf (r.isOnProperty && listed && onPath) [property]

theorem Record.forall_mem_iriRows {α : Type} {P : α → Prop} {n : Naming} {r : Record} {listed onPath : Bool}
    {property label node : α} (hproperty : P property) (hlabel : P label) (hnode : P node) :
    ∀ x ∈ r.iriRows n listed onPath property label node, P x := by
  have hrow : ∀ b a, P a → ∀ x ∈ rowsIf b [a], P x := by
    intro b a ha
    cases b with
    | false => exact List.forall_mem_nil _
    | true => exact List.forall_mem_singleton.2 ha
  simp only [iriRows, List.forall_mem_append]
  exact ⟨⟨hrow _ _ hlabel, hrow _ _ hnode⟩, hrow _ _ hproperty⟩

/-- A list of IRIs has a row wherever it is compiled. -/
structure IriFacet.HasRows {α β : Type} (f : IriFacet) (n : Naming) (t : Target) (part : Emission → List β)
    (R : α → β → Prop) (prop : String) (iris : List String) (property label node : α) : Prop where
  property : List.Forall₂ R [property] (part (f.followed t f.onPath prop iris))
  label : ∀ names, n.names iris = .ok names → List.Forall₂ R [label] (part (f.labelled t names))
  node : List.Forall₂ R [node] (part (f.followed t f.inNodes prop iris))

namespace Target.IsFor

variable {α β : Type} {n : Naming} {r : Record} {t : Target} {part : Emission → List β} {R : α → β → Prop}
  {property label node : α} (ht : t.IsFor n r) (hpart : Emission.IsPart part)

include ht hpart

theorem rel_iriRows {f : IriFacet} {prop : String} {iris : List String} {e : Emission} {b : Bool}
    (hrows : f.HasRows n t part R prop iris property label node) (hp : t.path = some prop)
    (hb : t.header.isOnType = false → b = true) (h : f.emit n t prop iris = .ok e) :
    List.Forall₂ R (r.iriRows n true b property label node) (part e) := by
  have hlisted : ∀ shown, part (f.listed n t shown) = [] := fun _ => hpart.components _
  have hnodes : List.Forall₂ R (rowsIf n.typesAsNodes [node])
      (part (if n.typesAsNodes then f.followed t f.inNodes prop iris else {})) := by
    cases n.typesAsNodes with
    | true => exact hrows.node
    | false => rw [if_neg Bool.false_ne_true, hpart.components]; exact .nil
  rw [Record.iriRows, ← ht.isOnType_eq, ht.isOnProperty_eq hp, n.keepsLabels_eq, n.keepsNodes_eq]
  unfold IriFacet.emit at h
  split at h
  · next hty =>
    rw [hty, Bool.not_true, Bool.and_true, Bool.true_and, Bool.true_and, Bool.false_and, Bool.false_and, rowsIf_false,
      List.append_nil]
    rcases IriFacet.emitOnType_cases h with ⟨names, hl, hnames, rfl⟩ | ⟨hl, rfl⟩
    · rw [hl, hpart.append, hpart.append, hlisted, List.append_nil]
      exact List.rel_append (hrows.label names hnames) hnodes
    · rw [hl, hpart.append, hlisted, List.append_nil]
      exact hnodes
  · next hty =>
    have hty := Bool.eq_false_iff.2 hty
    cases h
    rw [hty, hb hty, hpart.append, hlisted, List.append_nil]
    exact hrows.property

theorem yields_inIris (hrows : ∀ prop iris, t.path = some prop → r.inIris = some iris →
      IriFacet.oneOf.HasRows n t part R prop iris property label node) :
    t.Yields n part R (Record.ofList .inIris r.inIris)
      (r.iriRows n (Record.lists r.inIris) true property label node) := by
  refine .list (X := fun b => r.iriRows n b _ _ _ _) (by simp [Record.iriRows, rowsIf]) fun iris hi => ?_
  refine .onPath ⟨rfl, rfl⟩ (hpart.components _) ht ?_ fun prop e hp he => ?_
  · intro hr
    simp [Record.iriRows, Record.isOnType, Record.isOnProperty, hr, rowsIf]
  · exact ht.rel_iriRows hpart (hrows prop iris hp hi) hp (fun _ => rfl) he

/-- Without a configuration nodes are not known by their IRIs, so that values of a property are not looked for. -/
theorem yields_hasValueIris (hrows : ∀ prop iris, t.path = some prop → r.hasValueIris = some iris →
      IriFacet.hasValue.HasRows n t part R prop iris property label node) :
    t.Yields n part R (Record.ofList .hasValueIris r.hasValueIris)
      (r.iriRows n (Record.lists r.hasValueIris) n.config.isSome property label node) := by
  refine .list (X := fun b => r.iriRows n b _ _ _ _) (by simp [Record.iriRows, rowsIf]) fun iris hi => ?_
  refine .onPath ⟨rfl, rfl⟩ (hpart.components _) ht ?_ fun prop e hp he => ?_
  · intro hr
    simp [Record.iriRows, Record.isOnType, Record.isOnProperty, hr, rowsIf]
  · simp only [emitOnPath, emitHasValueIris] at he
    split at he
    · next hskip =>
      cases he
      simp only [Bool.and_eq_true, Bool.not_eq_true', Option.isNone_iff_eq_none] at hskip
      have hnil : r.iriRows n true n.config.isSome property label node = [] := by
        simp [Record.iriRows, ← ht.isOnType_eq, hskip, rowsIf]
      rw [hnil, hpart.components]
      exact .nil
    · next hskip =>
      refine ht.rel_iriRows hpart (hrows prop iris hp hi) hp (fun hty => ?_) he
      cases hc : n.config with
      | none => simp [hty, hc] at hskip
      | some c => rfl

end Target.IsFor

end ShapePlan
