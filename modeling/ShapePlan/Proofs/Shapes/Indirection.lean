/-
Property shapes by reference. A node shape that refers to a node has the property shapes of that node, and to declare
one of them on the node shape as well changes no record, but for the node shapes that refer to this one in turn: a
reference is followed for one step, so the declaration brings the property shape within their reach.
-/
import ShapePlan.Proofs.Rdf.Members
import ShapePlan.Proofs.Shapes.PropertyRecords

namespace ShapePlan.Graph

variable {g : Graph}

/-! ## The records of routes -/

theorem isRecordOf_iff {a : Route} {r : Record} :
    g.IsRecordOf a r ↔ (∃ s i, g.HasPath a.shape s i) ∧ r = (g.targeted a).record := by
  constructor
  · rintro ⟨s, i, hpath, hr, -⟩
    refine ⟨⟨s, i, hpath⟩, ?_⟩
    rw [hr, targeted, path?_eq_some.2 hpath]
    rfl
  · rintro ⟨hpath, rfl⟩
    exact isRecordOf_targeted hpath

theorem mem_propertyRecords {r : Record} : r ∈ g.propertyRecords ↔ ∃ a, g.Leads a ∧ g.IsRecordOf a r := by
  obtain ⟨rs, hsub, hfirst, -, -, hall⟩ := firstOfEach_map g.targeted g.routes_before []
  rw [propertyRecords_eq, hfirst, List.map_map, List.mem_map]
  constructor
  · rintro ⟨a, ha, rfl⟩
    obtain ⟨hleads, hpath⟩ := mem_routes.1 (hsub.mem ha)
    exact ⟨a, hleads, isRecordOf_targeted hpath⟩
  · rintro ⟨a, hleads, hr⟩
    obtain ⟨hpath, rfl⟩ := isRecordOf_iff.1 hr
    obtain ⟨b, hb, hkey, -⟩ := hall a (mem_routes.2 ⟨hleads, hpath⟩) List.not_mem_nil
    -- the first route to a property shape and a class has the record of every other
    obtain ⟨hshape, htarget⟩ : b.shape = a.shape ∧ b.target = a.target := Prod.mk.inj hkey
    refine ⟨b, hb, ?_⟩
    simp only [Function.comp, targeted, hshape, htarget]

/-! ## Declarations -/

instance (t : Triple) (g : Graph) : Decidable (t ∈ g) := inferInstanceAs (Decidable (t ∈ g.triples))

/-- The graph with a property shape declared on a node shape. -/
def declare (g : Graph) (ns : Node) (ps : Term) : Graph := g.insert ⟨ns, Sh.property, ps⟩

theorem mem_declare {ns : Node} {ps : Term} {t : Triple} : t ∈ g.declare ns ps ↔ t = ⟨ns, Sh.property, ps⟩ ∨ t ∈ g :=
  mem_insert

theorem mem_declare_of_ne {ns n : Node} {p : String} {ps o : Term} (h : p ≠ Sh.property) :
    ⟨n, p, o⟩ ∈ g.declare ns ps ↔ ⟨n, p, o⟩ ∈ g := by
  rw [mem_declare]
  exact or_iff_right fun ht => h (congrArg Triple.predicate ht)

theorem mem_declare_property {ns m : Node} {ps shape : Term} :
    ⟨m, Sh.property, shape⟩ ∈ g.declare ns ps ↔ (m = ns ∧ shape = ps) ∨ ⟨m, Sh.property, shape⟩ ∈ g := by
  rw [mem_declare]
  simp

section Declared

variable {ns : Node} {ps : Term}

theorem objects_declare {p : String} (h : p ≠ Sh.property) (n : Node) :
    (g.declare ns ps).objects n p = g.objects n p := by
  unfold declare insert
  split
  · rfl
  · have hnot : ¬ (ns = n ∧ Sh.property = p) := fun ht => h ht.2.symm
    simp [objects, hnot]

theorem values_declare {p : String} (h : p ≠ Sh.property) (t : Term) : (g.declare ns ps).values t p = g.values t p := by
  cases t with
  | node n => exact objects_declare h n
  | literal l => rfl

theorem facets_declare (shape : Term) : (g.declare ns ps).facets shape = g.facets shape := by
  have hlists : (g.declare ns ps).members = g.members :=
    members_congr (objects_declare (by decide)) (objects_declare (by decide))
  have hmembers : (g.declare ns ps).allowedMembers shape = g.allowedMembers shape := by
    rw [allowedMembers, allowedMembers, hlists, values_declare (by decide)]
  obtain ⟨hvalues, hliterals, hiris⟩ := allowed_congr hmembers
  simp (disch := decide) only [facets, leastValue?, integer?, number?, literals, iris, values_declare, hvalues,
    hliterals, hiris]

theorem path?_declare (shape : Term) : (g.declare ns ps).path? shape = g.path? shape := by
  simp (disch := decide) only [path?, iris, values_declare]

/-- A declaration says where a property shape applies, and nothing about the shape. -/
theorem isRecordOf_declare {a : Route} {r : Record} : (g.declare ns ps).IsRecordOf a r ↔ g.IsRecordOf a r := by
  have hpath (s : String) (i : Bool) : (g.declare ns ps).HasPath a.shape s i ↔ g.HasPath a.shape s i := by
    rw [← path?_eq_some, ← path?_eq_some, path?_declare]
  have htargeted : (g.declare ns ps).targeted a = g.targeted a := by
    rw [targeted, targeted, facets_declare, path?_declare]
  simp only [isRecordOf_iff, hpath, htargeted]

theorem targets_declare {m : Node} {shape : Term} {target : String} :
    (g.declare ns ps).Targets m shape target ↔ g.Targets m shape target ∨
      (shape = ps ∧ ns = .iri target ∧ ⟨ns, Rdf.type, .node (.iri Rdf.classOfClasses)⟩ ∈ g) := by
  unfold Targets
  rw [mem_declare_of_ne (p := Sh.targetClass) (by decide), mem_declare_of_ne (p := Rdf.type) (by decide),
    mem_declare_property]
  constructor
  · rintro (ht | ⟨⟨rfl, rfl⟩ | hs, hc⟩)
    · exact .inl (.inl ht)
    · exact .inr ⟨rfl, rfl, hc⟩
    · exact .inl (.inr ⟨hs, hc⟩)
  · rintro ((ht | ⟨hs, hc⟩) | ⟨rfl, rfl, hc⟩)
    · exact .inl ht
    · exact .inr ⟨.inr hs, hc⟩
    · exact .inr ⟨.inl ⟨rfl, rfl⟩, hc⟩

end Declared

/-! ## References -/

def IsNodeShape (g : Graph) (n : Node) : Prop :=
  ⟨n, Rdf.type, .node (.iri Sh.nodeShape)⟩ ∈ g ∨ ⟨n, Rdf.type, .node (.iri Sh.shape)⟩ ∈ g

/-- A node shape refers to a node that has a property shape. -/
structure Refers (g : Graph) (ns n : Node) (ps : Term) : Prop where
  isNodeShape : g.IsNodeShape ns
  node : ⟨ns, Sh.node, .node n⟩ ∈ g
  property : ⟨n, Sh.property, ps⟩ ∈ g

section Refers

variable {ns n : Node} {ps : Term} (href : g.Refers ns n ps)

include href

theorem Refers.reaches : g.Reaches ns ps := ⟨href.isNodeShape, .inr ⟨n, href.node, href.property⟩⟩

/-- The declaration is news to the node shapes that refer to this one only. -/
theorem Refers.reaches_declare {m : Node} {shape : Term} : (g.declare ns ps).Reaches m shape ↔
    g.Reaches m shape ∨ (shape = ps ∧ g.IsNodeShape m ∧ ⟨m, Sh.node, .node ns⟩ ∈ g) := by
  have htype (o : Term) : ⟨m, Rdf.type, o⟩ ∈ g.declare ns ps ↔ ⟨m, Rdf.type, o⟩ ∈ g :=
    mem_declare_of_ne (by decide)
  have hnode (k : Node) : ⟨m, Sh.node, .node k⟩ ∈ g.declare ns ps ↔ ⟨m, Sh.node, .node k⟩ ∈ g :=
    mem_declare_of_ne (by decide)
  unfold Reaches
  simp only [htype, hnode, mem_declare_property]
  constructor
  · rintro ⟨hm, (⟨rfl, rfl⟩ | hs) | ⟨k, hk, ⟨rfl, rfl⟩ | hs⟩⟩
    · exact .inl href.reaches
    · exact .inl ⟨hm, .inl hs⟩
    · exact .inr ⟨rfl, hm, hk⟩
    · exact .inl ⟨hm, .inr ⟨k, hk, hs⟩⟩
  · rintro (⟨hm, hs | ⟨k, hk, hs⟩⟩ | ⟨rfl, hm, hk⟩)
    · exact ⟨hm, .inl (.inr hs)⟩
    · exact ⟨hm, .inr ⟨k, hk, .inr hs⟩⟩
    · exact ⟨hm, .inr ⟨ns, hk, .inl ⟨rfl, rfl⟩⟩⟩

end Refers

/-- To declare on a node shape what it has by reference takes no record away. It gives the records of the property shape
to the target classes of the node shapes that refer to this one, and to this one if it is a class, and no other. -/
theorem records_declare (g : Graph) (ns n : Node) (ps : Term) (href : g.Refers ns n ps) (r : Record) :
    r ∈ (g.declare ns ps).records.filter (·.propertyShape.isSome) ↔
      r ∈ g.records.filter (·.propertyShape.isSome) ∨
      (∃ m target, g.IsNodeShape m ∧ ⟨m, Sh.node, .node ns⟩ ∈ g ∧ ⟨m, Sh.targetClass, .node (.iri target)⟩ ∈ g ∧
        g.IsRecordOf ⟨m, ps, target⟩ r) ∨
      ∃ s, ns = .iri s ∧ ⟨ns, Rdf.type, .node (.iri Rdf.classOfClasses)⟩ ∈ g ∧ g.IsRecordOf ⟨ns, ps, s⟩ r := by
  rw [filter_records, filter_records, mem_propertyRecords, mem_propertyRecords]
  simp only [isRecordOf_declare]
  constructor
  · rintro ⟨⟨m, shape, target⟩, ⟨hreach', htarget'⟩, hrecord⟩
    rcases targets_declare.1 htarget' with htarget | ⟨rfl, hns, hclass⟩
    · rcases href.reaches_declare.1 hreach' with hreach | ⟨rfl, hm, hnode⟩
      · exact .inl ⟨⟨m, shape, target⟩, ⟨hreach, htarget⟩, hrecord⟩
      · rcases htarget with hclass | hself
        · exact .inr (.inl ⟨m, target, hm, hnode, hclass, hrecord⟩)
        -- a class that has the property shape itself is a target of it from `ns` as well
        · exact .inl ⟨⟨ns, shape, target⟩, ⟨href.reaches, .inr hself⟩, hrecord⟩
    · exact .inr (.inr ⟨target, hns, hclass, hrecord⟩)
  · rintro (⟨a, ⟨hreach, htarget⟩, hrecord⟩ | ⟨m, target, hm, hnode, htarget, hrecord⟩ | ⟨s, hns, hclass, hrecord⟩)
    · exact ⟨a, ⟨href.reaches_declare.2 (.inl hreach), targets_declare.2 (.inl htarget)⟩, hrecord⟩
    · exact ⟨⟨m, ps, target⟩,
        ⟨href.reaches_declare.2 (.inr ⟨rfl, hm, hnode⟩), targets_declare.2 (.inl (.inl htarget))⟩, hrecord⟩
    · exact ⟨⟨ns, ps, s⟩,
        ⟨href.reaches_declare.2 (.inl href.reaches), targets_declare.2 (.inr ⟨rfl, hns, hclass⟩)⟩, hrecord⟩

/-- A node shape with a target class refers to one that refers to a node with a property shape. -/
def chainGraph : Graph where
  triples :=
    [⟨.iri "u:#M", Rdf.type, .node (.iri Sh.nodeShape)⟩,
      ⟨.iri "u:#M", Sh.targetClass, .node (.iri "u:#C")⟩,
      ⟨.iri "u:#M", Sh.node, .node (.iri "u:#S")⟩,
      ⟨.iri "u:#S", Rdf.type, .node (.iri Sh.nodeShape)⟩,
      ⟨.iri "u:#S", Sh.node, .node (.iri "u:#N")⟩,
      ⟨.iri "u:#N", Sh.property, .node (.iri "u:#P")⟩,
      ⟨.iri "u:#P", Sh.path, .node (.iri "u:#p")⟩]
  nodup := by decide

theorem refers_chainGraph : chainGraph.Refers (.iri "u:#S") (.iri "u:#N") (.node (.iri "u:#P")) where
  isNodeShape := .inl (by decide)
  node := by decide
  property := by decide

theorem records_declare_chainGraph :
    ∃ r, chainGraph.IsRecordOf ⟨.iri "u:#M", .node (.iri "u:#P"), "u:#C"⟩ r ∧
      r ∈ (chainGraph.declare (.iri "u:#S") (.node (.iri "u:#P"))).records.filter (·.propertyShape.isSome) := by
  have hpath : chainGraph.HasPath (.node (.iri "u:#P")) "u:#p" false := by
    have honly : ∀ t ∈ chainGraph.triples, t.predicate = Sh.path → t.object = .node (.iri "u:#p") := by decide
    exact .direct ⟨by decide, fun o ho => text_le_of_eq (congrArg Term.text (honly _ ho rfl).symm)⟩
  have hrecord := isRecordOf_targeted (r := ⟨.iri "u:#M", .node (.iri "u:#P"), "u:#C"⟩) ⟨_, _, hpath⟩
  refine ⟨_, hrecord, (records_declare chainGraph _ _ _ refers_chainGraph _).2 (.inr (.inl ?_))⟩
  exact ⟨.iri "u:#M", "u:#C", .inl (by decide), by decide, by decide, hrecord⟩

/-- A class that is a node shape refers to a node with a property shape. -/
def classGraph : Graph where
  triples :=
    [⟨.iri "u:#S", Rdf.type, .node (.iri Sh.nodeShape)⟩,
      ⟨.iri "u:#S", Rdf.type, .node (.iri Rdf.classOfClasses)⟩,
      ⟨.iri "u:#S", Sh.node, .node (.iri "u:#N")⟩,
      ⟨.iri "u:#N", Sh.property, .node (.iri "u:#P")⟩,
      ⟨.iri "u:#P", Sh.path, .node (.iri "u:#p")⟩]
  nodup := by decide

theorem refers_classGraph : classGraph.Refers (.iri "u:#S") (.iri "u:#N") (.node (.iri "u:#P")) where
  isNodeShape := .inl (by decide)
  node := by decide
  property := by decide

/-- Declarations that add a record: to a node shape that is two references away from the property shape, and to a class
that has the property shape by reference. -/
theorem declare_adds_records :
    (chainGraph.Refers (.iri "u:#S") (.iri "u:#N") (.node (.iri "u:#P")) ∧
      chainGraph.records.filter (·.propertyShape.isSome) = [] ∧
      (chainGraph.declare (.iri "u:#S") (.node (.iri "u:#P"))).records.filter (·.propertyShape.isSome) ≠ []) ∧
    classGraph.Refers (.iri "u:#S") (.iri "u:#N") (.node (.iri "u:#P")) ∧
      classGraph.records.filter (·.propertyShape.isSome) = [] ∧
      (classGraph.declare (.iri "u:#S") (.node (.iri "u:#P"))).records.filter (·.propertyShape.isSome) ≠ [] := by
  simp only [filter_records]
  exact ⟨⟨refers_chainGraph, by decide, by decide⟩, refers_classGraph, by decide, by decide⟩

end ShapePlan.Graph
