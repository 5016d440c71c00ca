/-
Closed shapes. A closed node shape has one record for each of its target classes, and the plan of that record allows
exactly the properties that the shape declares: the paths of its own property shapes, the properties of its ignored
lists, and the type property where types are nodes. The inventory lists the ignored ones.
-/
import ShapePlan.Proofs.Distinct
import ShapePlan.Proofs.Plan.Direction
import ShapePlan.Proofs.Plan.Failure
import ShapePlan.Proofs.Plan.Parameters
import ShapePlan.Proofs.Rdf.Members
import ShapePlan.Proofs.Shapes.PropertyRecords

namespace ShapePlan

open Query

/-! ## What a closed shape declares -/

namespace Graph

variable (g : Graph)

/-- A closed node shape and a target class: one that it names, or the shape itself. -/
def Closes (m : Node) (target : String) : Prop :=
  ⟨m, Rdf.type, .node (.iri Sh.nodeShape)⟩ ∈ g ∧ ⟨m, Sh.closed, .literal (.typed "true" Xsd.boolean)⟩ ∈ g ∧
  (⟨m, Sh.targetClass, .node (.iri target)⟩ ∈ g ∨
    m = .iri target ∧ ⟨m, Rdf.type, .node (.iri Rdf.classOfClasses)⟩ ∈ g)

/-- A path of one of the shape's own property shapes. -/
def Defines (m : Node) (iri : String) : Prop :=
  ∃ shape, ⟨m, Sh.property, .node shape⟩ ∈ g ∧ ⟨shape, Sh.path, .node (.iri iri)⟩ ∈ g

/-- A member of one of the lists of ignored properties. -/
def Ignores (m : Node) (iri : String) : Prop :=
  ∃ list, ⟨m, Sh.ignoredProperties, list⟩ ∈ g ∧ g.HasMember list (.node (.iri iri))

def Allows (n : Naming) (m : Node) (iri : String) : Prop :=
  g.Defines m iri ∨ g.Ignores m iri ∨ iri = Rdf.type ∧ n.keepsNodes = true

/-- The plan of a closed shape: one query, whose parameter set has the names of what the shape allows, and one
component, which lists the names of what it ignores. -/
def ClosesBy (n : Naming) (m : Node) (target : String) (p : Plan) : Prop :=
  ∃ (entry : Entry) (set : String) (allowed shown : List String),
    p.entries = [entry] ∧ entry.kind = .ignoredProperties ∧ n.name target = .ok entry.focusLabel ∧
    (∀ s : Scope, ∃ ts, lex (entry.query s) = some ts ∧ Binds set ts) ∧
    Param.valueIn p.params set "allAllowedProps" = some (.strings allowed) ∧
    (∃ iris, (∀ iri, iri ∈ iris ↔ g.Allows n m iri) ∧ n.names iris = .ok allowed) ∧
    p.inventory = [⟨entry.focusLabel, none, Kind.ignoredProperties.nameIn n.graphMode, .strings shown⟩] ∧
    ∃ iris, iris.Nodup ∧ (∀ iri, iri ∈ iris ↔ g.Ignores m iri) ∧ n.names iris = .ok shown

/-! ## Look-ups -/

variable {g}

theorem mem_typed_nodeShape {m : Node} :
    m ∈ g.typed [Sh.nodeShape] ↔ ⟨m, Rdf.type, .node (.iri Sh.nodeShape)⟩ ∈ g := by
  rw [typed, Node.mem_sort]
  simp [mem_subjects]

theorem isClosed_iff {m : Node} :
    g.isClosed m = true ↔ ⟨m, Sh.closed, .literal (.typed "true" Xsd.boolean)⟩ ∈ g := by
  rw [isClosed, List.contains_iff_mem, mem_objects]

theorem mem_nodeTargets {m : Node} {target : String} : target ∈ g.nodeTargets m ↔
    ⟨m, Sh.targetClass, .node (.iri target)⟩ ∈ g ∨
      m = .iri target ∧ ⟨m, Rdf.type, .node (.iri Rdf.classOfClasses)⟩ ∈ g := by
  have hm : target ∈ g.nodeTargets m ↔ target ∈ (g.iris (.node m) Sh.targetClass).elems ++
      if g.isClass m then (Term.iri? (.node m)).toList else [] := NameSet.mem_ofList
  rw [hm, List.mem_append, mem_iris, ← isClass_iff]
  refine or_congr_right ?_
  cases m with
  | blank b => simp [Term.iri?]
  | iri s =>
    cases g.isClass (.iri s) with
    | false => simp
    | true => simp [Term.iri?, eq_comm]

theorem mem_definedProps {m : Node} {iri : String} : iri ∈ g.definedProps m ↔ g.Defines m iri := by
  have hm : iri ∈ g.definedProps m ↔
      iri ∈ (g.objects m Sh.property).flatMap fun shape => (g.iris shape Sh.path).elems := NameSet.mem_ofList
  rw [hm, List.mem_flatMap]
  constructor
  · rintro ⟨shape, hs, hp⟩
    cases shape with
    | literal l => exact absurd (NameSet.mem_ofList.1 hp) List.not_mem_nil
    | node shape => exact ⟨shape, mem_objects.1 hs, mem_iris.1 hp⟩
  · rintro ⟨shape, hs, hp⟩
    exact ⟨.node shape, mem_objects.2 hs, mem_iris.2 hp⟩

theorem mem_ignoredProps {m : Node} {iri : String} : iri ∈ g.ignoredProps m ↔ g.Ignores m iri := by
  rw [ignoredProps, List.mem_eraseDups, List.mem_filterMap]
  constructor
  · rintro ⟨t, ht, hi⟩
    obtain ⟨list, hl, hm⟩ := List.mem_flatMap.1 ht
    cases t with
    | literal l => cases hi
    | node k =>
      cases k with
      | blank b => cases hi
      | iri s => cases hi; exact ⟨list, mem_objects.1 hl, mem_members.1 hm⟩
  · rintro ⟨list, hl, hm⟩
    exact ⟨_, List.mem_flatMap.2 ⟨list, mem_objects.2 hl, mem_members.2 hm⟩, rfl⟩

/-! ## Records -/

variable (g)

/-- The closed shapes with their targets, in the order of their records. -/
def closedTargets : List (Node × String) :=
  ((g.typed [Sh.nodeShape]).filter g.isClosed).flatMap fun m => (g.nodeTargets m).map (m, ·)

theorem closedRecords_eq : g.closedRecords = g.closedTargets.map fun t => g.closedRecord t.1 t.2 := by
  simp only [closedRecords, closedTargets, List.map_flatMap, List.map_map]
  rfl

theorem nodup_closedTargets : g.closedTargets.Nodup := by
  refine List.nodup_flatMap.2 ⟨fun m _ => ?_, ?_⟩
  · have hasc : (g.nodeTargets m).Pairwise (· < ·) := (NameSet.ofList _).ascending
    exact (hasc.imp fun h => String.ne_of_lt h).map _ fun _ _ h he => h (Prod.mk.inj he).2
  · refine ((Node.sort_pairwise _).filter _).imp fun hab t ha hb => ?_
    obtain ⟨_, -, rfl⟩ := List.mem_map.1 ha
    obtain ⟨_, -, he⟩ := List.mem_map.1 hb
    cases he
    exact String.lt_irrefl _ hab

variable {g}

theorem mem_closedTargets {m : Node} {target : String} : (m, target) ∈ g.closedTargets ↔ g.Closes m target := by
  simp only [closedTargets, List.mem_flatMap, List.mem_filter, mem_typed_nodeShape, isClosed_iff, List.mem_map,
    mem_nodeTargets, Prod.mk.injEq]
  constructor
  · rintro ⟨m, ⟨ht, hc⟩, _, hn, rfl, rfl⟩
    exact ⟨ht, hc, hn⟩
  · rintro ⟨ht, hc, hn⟩
    exact ⟨m, ⟨ht, hc⟩, target, hn, rfl, rfl⟩

theorem filter_records_closed (g : Graph) : g.records.filter (·.isClosedDefinition) = g.closedRecords := by
  have hprop : ∀ r ∈ g.propertyRecords, ¬ r.isClosedDefinition = true := by
    rw [propertyRecords_eq]
    obtain ⟨k, -, he, -⟩ := firstOfEach_map g.targeted g.routes_before []
    rw [he, List.map_map]
    simp only [List.mem_map]
    rintro r ⟨a, -, rfl⟩
    exact Bool.false_ne_true
  have hclosed : ∀ r ∈ g.closedRecords, r.isClosedDefinition = true := by
    rw [closedRecords_eq]
    simp only [List.mem_map]
    rintro r ⟨t, -, rfl⟩
    rfl
  have hclass : ∀ r ∈ g.classRecords, ¬ r.isClosedDefinition = true := by
    simp only [classRecords, List.mem_flatMap, List.mem_map]
    rintro r ⟨m, -, c, -, rfl⟩
    exact Bool.false_ne_true
  rw [records, List.filter_append, List.filter_append, List.filter_eq_nil_iff.2 hprop, List.filter_eq_self.2 hclosed,
    List.filter_eq_nil_iff.2 hclass, List.append_nil, List.nil_append]

/-! ## Plans -/

theorem constraintSet?_closedRecord (m : Node) (target : String) : (g.closedRecord m target).constraintSet? =
    some ⟨(g.closedRecord m target).header target, [.closed (g.definedProps m) (g.ignoredProps m)]⟩ := by
  have hconstraints : (g.closedRecord m target).constraints = [.closed (g.definedProps m) (g.ignoredProps m)] := by
    simp [Record.constraints, closedRecord, Record.ofList, Record.valueRange, ValueRange.isEmpty,
      Record.isClosedDefinition]
  rw [Record.constraintSet?, hconstraints]
  rfl

/-- What the record of a closed shape emits. -/
theorem emitRecords_closedRecord {n : Naming} {m : Node} {target : String} {e : Emission}
    (h : n.emitRecords [g.closedRecord m target] = .ok e) :
    ∃ (t : Target) (allowed ignored : List String), t.IsFor n (g.closedRecord m target) ∧
      n.names ((g.closedRecord m target).allowedProps n) = .ok allowed ∧ n.names (g.ignoredProps m) = .ok ignored ∧
      e = {
        queries := [t.query .closed .ignoredProperties [t.paramSet Sh.closed, t.focus, t.focus, t.uid, Sh.violation]]
        params := [⟨t.paramSet Sh.closed, "allAllowedProps", .strings allowed⟩]
        components := [t.component n.graphMode .ignoredProperties (.strings ignored)] } := by
  obtain ⟨es, hes, rfl⟩ := Naming.emitRecords_eq_ok.1 h
  cases hes with
  | cons hr hnil =>
    cases hnil
    rw [Naming.emitRecord, constraintSet?_closedRecord] at hr
    obtain ⟨t, es, ht, hes, rfl⟩ := Naming.emitSet_eq_ok.1 hr
    cases hes with
    | cons hc hnil =>
      cases hnil
      obtain ⟨types, htypes, hc⟩ := bind_eq_ok.1 hc
      obtain ⟨ignored, hignored, hc⟩ := bind_eq_ok.1 hc
      obtain ⟨defined, hdefined, hc⟩ := bind_eq_ok.1 hc
      cases hc
      refine ⟨t, types ++ ignored ++ defined, ignored, Naming.isFor_of_target rfl ht, ?_, hignored, rfl⟩
      rw [Record.allowedProps, n.keepsNodes_eq]
      exact mapM_eq_ok.2 (List.rel_append (List.rel_append (mapM_eq_ok.1 htypes) (mapM_eq_ok.1 hignored))
        (mapM_eq_ok.1 hdefined))

theorem mem_allowedProps {n : Naming} {m : Node} {target iri : String} :
    iri ∈ (g.closedRecord m target).allowedProps n ↔ g.Allows n m iri := by
  have happend : (g.closedRecord m target).allowedProps n =
      (if n.keepsNodes then [Rdf.type] else []) ++ g.ignoredProps m ++ g.definedProps m := rfl
  rw [happend, List.mem_append, List.mem_append, mem_ignoredProps, mem_definedProps, Allows]
  cases n.keepsNodes with
  | false => simp [or_comm]
  | true =>
    simp only [if_true, List.mem_singleton, and_true]
    rw [or_comm, or_comm (a := iri = Rdf.type)]

theorem closesBy_compile {n : Naming} {m : Node} {target : String} {p : Plan}
    (h : n.compile [g.closedRecord m target] = .ok p) : g.ClosesBy n m target p := by
  obtain ⟨e, he, rfl⟩ := Naming.compile_eq_ok.1 h
  have hfits := Naming.fits_emitRecords he
  obtain ⟨t, allowed, ignored, ht, hallowed, hignored, rfl⟩ := emitRecords_closedRecord he
  obtain ⟨c, hc, hfocus, -⟩ := ht.header
  cases hc
  refine ⟨_, t.paramSet Sh.closed, allowed, ignored, rfl, rfl, hfocus, fun s => ?_, ?_,
    ⟨_, fun iri => mem_allowedProps, hallowed⟩, ?_,
    ⟨_, (isDistinctOf_eraseDups _).nodup, fun iri => mem_ignoredProps, hignored⟩⟩
  · refine ⟨_, (hfits _ List.mem_cons_self).lex_entry _ 1 s, ?_⟩
    exact Template.binds_iff.2 ⟨rfl, rfl⟩
  · rw [Emission.plan, List.foldl_cons, List.foldl_nil, Param.valueIn_assign]
    exact if_pos ⟨rfl, rfl⟩
  · rw [← ht.noPath rfl]
    rfl

/-! ## Paths that are no predicates -/

theorem text_iri_lt_blank (s b : String) : (Node.iri s).text < (Node.blank b).text := by
  have hiri : (Node.iri s).text.toList = '<' :: (s.toList ++ ['>']) := by simp [Node.text, bracket]
  have hblank : (Node.blank b).text.toList = '_' :: ':' :: b.toList := by simp [Node.text]
  show (Node.iri s).text.toList < (Node.blank b).text.toList
  rw [hiri, hblank]
  exact .rel (by decide)

/-- A shape with an inverse or complex path defines no property. -/
theorem notMem_of_isLeastObject_blank {shape : Node} {b : String}
    (h : g.IsLeastObject shape Sh.path (.node (.blank b))) (iri : String) :
    ⟨shape, Sh.path, .node (.iri iri)⟩ ∉ g := by
  intro hm
  have hle : (Node.blank b).text ≤ (Node.iri iri).text := h.2 (.node (.iri iri)) hm
  exact String.not_lt.2 hle (text_iri_lt_blank iri b)

/-- A graph has one record for each closed node shape and target class, whose plan allows what the shape declares: the
direct paths of its own property shapes are among it, and inverse and complex paths add nothing. -/
theorem closed_shapes_allow_declared (g : Graph) :
    (∃ ts : List (Node × String), ts.Nodup ∧ (∀ m target, (m, target) ∈ ts ↔ g.Closes m target) ∧
      List.Forall₂ (fun t r => r.targetClass = some t.2 ∧ r.nodeShape = some (Term.uid (.node t.1)) ∧
        ∀ n p, Naming.compile n [r] = .ok p → g.ClosesBy n t.1 t.2 p) ts (g.records.filter (·.isClosedDefinition))) ∧
    (∀ m shape s, ⟨m, Sh.property, shape⟩ ∈ g → g.HasPath shape s false → g.Defines m s) ∧
    ∀ shape b, g.IsLeastObject shape Sh.path (.node (.blank b)) → ∀ iri, ⟨shape, Sh.path, .node (.iri iri)⟩ ∉ g := by
  refine ⟨⟨g.closedTargets, g.nodup_closedTargets, fun m target => mem_closedTargets, ?_⟩, ?_, fun shape b =>
    notMem_of_isLeastObject_blank⟩
  · rw [filter_records_closed, closedRecords_eq, List.forall₂_map_right_iff]
    exact List.forall₂_same.2 fun t _ => ⟨rfl, rfl, fun n p hp => closesBy_compile hp⟩
  · rintro m _ s hs (⟨hpath⟩ | _)
    exact ⟨_, hs, hpath.1⟩

/-- A closed class with a direct path, an inverse path and a list of ignored properties that comes back to its start. -/
def loopGraph : Graph where
  triples :=
    [⟨.iri "u:#S", Rdf.type, .node (.iri Sh.nodeShape)⟩,
      ⟨.iri "u:#S", Rdf.type, .node (.iri Rdf.classOfClasses)⟩,
      ⟨.iri "u:#S", Sh.closed, .literal (.typed "true" Xsd.boolean)⟩,
      ⟨.iri "u:#S", Sh.property, .node (.blank "p")⟩,
      ⟨.blank "p", Sh.path, .node (.iri "u:#p")⟩,
      ⟨.iri "u:#S", Sh.property, .node (.blank "q")⟩,
      ⟨.blank "q", Sh.path, .node (.blank "v")⟩,
      ⟨.blank "v", Sh.inversePath, .node (.iri "u:#q")⟩,
      ⟨.iri "u:#S", Sh.ignoredProperties, .node (.blank "l")⟩,
      ⟨.blank "l", Rdf.first, .node (.iri "u:#i")⟩,
      ⟨.blank "l", Rdf.rest, .node (.blank "k")⟩,
      ⟨.blank "k", Rdf.first, .node (.iri "u:#j")⟩,
      ⟨.blank "k", Rdf.rest, .node (.blank "l")⟩]
  nodup := by decide

/-- Local names, and types as nodes. -/
def nodesNaming : Naming where
  config := some { vocab := .ignore, types := .nodes }
  resolver := { prefixFor := fun _ => .ok none }

theorem compile_nodesNaming (rs : List Record) : ∃ p, nodesNaming.compile rs = .ok p := by
  have hname : ∀ iri, nodesNaming.name iri = .ok (Iri.localNameOf iri) := fun _ => rfl
  rw [← error?_eq_none, Naming.error?_compile, Naming.firstError?, List.findSome?_eq_none_iff]
  intro iri _
  rw [hname, error?]

theorem closed_shapes_allow_declared_loopGraph :
    ∃ r ∈ loopGraph.records, r.isClosedDefinition = true ∧ ∃ p, nodesNaming.compile [r] = .ok p ∧
      loopGraph.ClosesBy nodesNaming (.iri "u:#S") "u:#S" p ∧
      loopGraph.Allows nodesNaming (.iri "u:#S") "u:#p" ∧ loopGraph.Allows nodesNaming (.iri "u:#S") "u:#j" ∧
      loopGraph.Allows nodesNaming (.iri "u:#S") Rdf.type := by
  obtain ⟨⟨ts, -, hmem, hrel⟩, -, -⟩ := closed_shapes_allow_declared loopGraph
  have hloop : ∀ {t : Triple}, t ∈ loopGraph.triples → t ∈ loopGraph := id
  have hts : (.iri "u:#S", "u:#S") ∈ ts :=
    (hmem _ _).2 ⟨hloop (by decide), hloop (by decide), .inr ⟨rfl, hloop (by decide)⟩⟩
  obtain ⟨r, hr, -, -, hclosed⟩ := exists_right_of_mem hrel hts
  obtain ⟨hr, hdefinition⟩ := List.mem_filter.1 hr
  obtain ⟨p, hp⟩ := compile_nodesNaming [r]
  refine ⟨r, hr, hdefinition, p, hp, hclosed _ p hp, .inl ⟨.blank "p", hloop (by decide), hloop (by decide)⟩, ?_,
    .inr (.inr ⟨rfl, rfl⟩)⟩
  exact .inr (.inl ⟨.node (.blank "l"), hloop (by decide),
    .rest ⟨by decide, rfl, rfl⟩ (.first ⟨by decide, rfl, rfl⟩)⟩)

end Graph

end ShapePlan
