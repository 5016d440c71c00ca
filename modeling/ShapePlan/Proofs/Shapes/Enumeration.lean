/-
The records of a graph do not depend on the order of its triples. What is sorted does not, since a set is sorted to one
list; what takes the first of several does not, as long as there is one to take. So a graph whose lists have one first
member and one rest at each node, and whose shapes have one list of each kind and no number that is written the same in
two datatypes (`IsUnambiguous`), has the same records in whatever order it is enumerated.
-/
import ShapePlan.Proofs.Ascending
import ShapePlan.Proofs.Rdf.Members
import ShapePlan.Proofs.Shapes.AllowedValues
import Mathlib.Data.List.Perm.Basic

namespace ShapePlan

/-! ## Sorted literals -/

/-- The first result along literals in the order of their lexical forms, where literals of one form have one result. -/
theorem findSome?_sorted_perm {β : Type} {f : Literal → Option β} {l m : List Literal} (hp : l.Perm m)
    (hf : ∀ a ∈ l, ∀ b ∈ l, a.lexical = b.lexical → f a = f b) :
    (l.mergeSort fun a b => a.lexical ≤ b.lexical).findSome? f =
      (m.mergeSort fun a b => a.lexical ≤ b.lexical).findSome? f := by
  -- forms with their results are in one order, for those that stand at one place are equal
  let form (a : Literal) : String × Option β := (a.lexical, f a)
  have hsorted (k : List Literal) :
      ((k.mergeSort fun a b => a.lexical ≤ b.lexical).map form).Pairwise (·.1 ≤ ·.1) :=
    List.pairwise_map.2 (Literal.mergeSort_pairwise k)
  have hperm : ((l.mergeSort fun a b => a.lexical ≤ b.lexical).map form).Perm
      ((m.mergeSort fun a b => a.lexical ≤ b.lexical).map form) :=
    ((l.mergeSort_perm _).trans (hp.trans (m.mergeSort_perm _).symm)).map form
  have heq := List.Perm.eq_of_pairwise ?_ (hsorted l) (hsorted m) hperm
  · have hsnd (k : List Literal) : (k.map form).findSome? Prod.snd = k.findSome? f := List.findSome?_map
    rw [← hsnd, heq, hsnd]
  · intro x y hx hy hxy hyx
    obtain ⟨a, ha, rfl⟩ := List.mem_map.1 hx
    obtain ⟨b, hb, rfl⟩ := List.mem_map.1 hy
    have ha := (l.mergeSort_perm _).subset ha
    have hb := hp.symm.subset ((m.mergeSort_perm _).subset hb)
    have hlexical : a.lexical = b.lexical := String.le_antisymm hxy hyx
    exact Prod.ext hlexical (hf a ha b hb hlexical)

namespace Graph

/-- Nothing is chosen by the order of the triples: a node of a list has one first member and one rest, a property shape
has one list of allowed values that is not empty and no bound that is written the same in two datatypes, and a node
shape has one list of ignored properties. -/
structure IsUnambiguous (g : Graph) : Prop where
  first : ∀ n a b, ⟨n, Rdf.first, a⟩ ∈ g → ⟨n, Rdf.first, b⟩ ∈ g → a = b
  rest : ∀ n a b, ⟨n, Rdf.rest, a⟩ ∈ g → ⟨n, Rdf.rest, b⟩ ∈ g → a = b
  allowed : ∀ n shape, g.Reaches n (.node shape) → ∀ a b, ⟨shape, Sh.oneOf, a⟩ ∈ g → ⟨shape, Sh.oneOf, b⟩ ∈ g →
    g.members a ≠ [] → g.members b ≠ [] → a = b
  bounds : ∀ n shape, g.Reaches n (.node shape) →
    ∀ p ∈ [Sh.minInclusive, Sh.minExclusive, Sh.maxInclusive, Sh.maxExclusive],
    ∀ a b, ⟨shape, p, .literal a⟩ ∈ g → ⟨shape, p, .literal b⟩ ∈ g → a.lexical = b.lexical → a.datatype = b.datatype
  ignored : ∀ n, ⟨n, Rdf.type, .node (.iri Sh.nodeShape)⟩ ∈ g → ∀ a b, ⟨n, Sh.ignoredProperties, a⟩ ∈ g →
    ⟨n, Sh.ignoredProperties, b⟩ ∈ g → a = b

section Enumeration

variable {g h : Graph} (hp : g.triples.Perm h.triples)

include hp

/-! ## What is sorted -/

theorem subjects_perm (p : String) (o : Term) : (g.subjects p o).Perm (h.subjects p o) := (hp.filter _).map _

theorem iris_perm (t : Term) (p : String) : g.iris t p = h.iris t p :=
  NameSet.ofList_congr fun _ => ((values_perm hp t p).filterMap _).mem_iff

theorem leastValue?_perm (shape : Term) (p : String) : g.leastValue? shape p = h.leastValue? shape p := by
  have hvalues : NameSet.ofList ((g.values shape p).filterMap Term.value?) =
      NameSet.ofList ((h.values shape p).filterMap Term.value?) :=
    NameSet.ofList_congr fun _ => ((values_perm hp shape p).filterMap _).mem_iff
  rw [leastValue?, leastValue?, hvalues]

theorem typed_perm (types : List String) : g.typed types = h.typed types := by
  have hnodes := List.Perm.flatMap_left types fun t _ => subjects_perm hp Rdf.type (.node (.iri t))
  exact Ascending.ofList_congr (fun _ _ => Node.text_inj) fun _ => hnodes.mem_iff

theorem isClass_perm (n : Node) : g.isClass n = h.isClass n := (objects_perm hp n Rdf.type).contains_eq

theorem propertyShapes_perm (n : Node) : g.propertyShapes n = h.propertyShapes n := by
  have hreferred := (objects_perm hp n Sh.node).flatMap fun m _ => values_perm hp m Sh.property
  have hshapes := (objects_perm hp n Sh.property).append hreferred
  exact Ascending.ofList_congr (fun _ _ => Term.text_inj) fun _ => hshapes.mem_iff

theorem path?_perm (shape : Term) : g.path? shape = h.path? shape := by
  have hpaths : Term.sort (g.values shape Sh.path) = Term.sort (h.values shape Sh.path) :=
    Ascending.ofList_congr (fun _ _ => Term.text_inj) fun _ => (values_perm hp shape Sh.path).mem_iff
  simp only [path?, hpaths, iris_perm hp]

theorem targets_perm (n : Node) (shape : Term) : g.targets n shape = h.targets n shape := by
  have hclasses : ((g.subjects Sh.property shape).filter g.isClass).Perm
      ((h.subjects Sh.property shape).filter h.isClass) := by
    rw [funext (isClass_perm hp)]
    exact (subjects_perm hp Sh.property shape).filter _
  have htargets := (hclasses.filterMap fun c => Term.iri? (.node c)).append_left
    (h.iris (.node n) Sh.targetClass).elems
  rw [targets, targets, iris_perm hp]
  exact congrArg NameSet.elems (NameSet.ofList_congr fun _ => htargets.mem_iff)

theorem nodeTargets_perm (n : Node) : g.nodeTargets n = h.nodeTargets n := by
  rw [nodeTargets, nodeTargets, iris_perm hp, isClass_perm hp]

theorem isClosed_perm (n : Node) : g.isClosed n = h.isClosed n := (objects_perm hp n Sh.closed).contains_eq

/-- The IRIs that the objects of a node have, all in order. -/
theorem irisOfObjects_perm (n : Node) (p q : String) :
    NameSet.ofList ((g.objects n p).flatMap fun shape => (g.iris shape q).elems) =
      NameSet.ofList ((h.objects n p).flatMap fun shape => (h.iris shape q).elems) := by
  have hiris : (fun shape => (g.iris shape q).elems) = fun shape => (h.iris shape q).elems :=
    funext fun shape => congrArg NameSet.elems (iris_perm hp shape q)
  rw [hiris]
  exact NameSet.ofList_congr fun _ => ((objects_perm hp n p).flatMap_right _).mem_iff

theorem definedProps_perm (n : Node) : g.definedProps n = h.definedProps n :=
  congrArg NameSet.elems (irisOfObjects_perm hp n Sh.property Sh.path)

theorem disjointClasses_perm (n : Node) : g.disjointClasses n = h.disjointClasses n :=
  congrArg NameSet.elems (irisOfObjects_perm hp n Sh.negation Sh.classOf)

theorem requiredClasses_perm (n : Node) : g.requiredClasses n = h.requiredClasses n :=
  congrArg NameSet.elems (iris_perm hp (.node n) Sh.classOf)

theorem classRecords_perm : g.classRecords = h.classRecords := by
  have hclasses (n : Node) : g.hasClasses n = h.hasClasses n := by
    rw [hasClasses, hasClasses, requiredClasses_perm hp, disjointClasses_perm hp]
  have hrecord (n : Node) : g.classRecord n = h.classRecord n := by
    funext target
    rw [classRecord, classRecord, requiredClasses_perm hp, disjointClasses_perm hp]
  rw [classRecords, classRecords, typed_perm hp, funext hclasses]
  exact List.flatMap_congr fun n _ => by rw [nodeTargets_perm hp, hrecord]

/-! ## What takes the first -/

theorem integer?_perm (shape : Term) (p : String) : g.integer? shape p = h.integer? shape p :=
  findSome?_sorted_perm ((values_perm hp shape p).filterMap _) fun _ _ _ _ hlexical => by rw [hlexical]

theorem number?_perm {shape : Node} {p : String} (hu : ∀ a b, ⟨shape, p, .literal a⟩ ∈ g → ⟨shape, p, .literal b⟩ ∈ g →
    a.lexical = b.lexical → a.datatype = b.datatype) : g.number? (.node shape) p = h.number? (.node shape) p := by
  refine findSome?_sorted_perm ((values_perm hp (.node shape) p).filterMap _) fun a ha b hb hlexical => ?_
  have hdatatype := hu a b (mem_literalValues.1 ha) (mem_literalValues.1 hb) hlexical
  rw [numberOf?, numberOf?, hlexical, hdatatype]

theorem members_perm (hg : g.IsUnambiguous) : g.members = h.members := members_eq_of_unique hp hg.first hg.rest

theorem allowedMembers_perm (hg : g.IsUnambiguous) {n shape : Node} (hr : g.Reaches n (.node shape)) :
    g.allowedMembers (.node shape) = h.allowedMembers (.node shape) :=
  allowedMembers_eq_of_unique hp hg.first hg.rest (hg.allowed n shape hr)

theorem ignoredProps_perm (hg : g.IsUnambiguous) {n : Node} (hn : ⟨n, Rdf.type, .node (.iri Sh.nodeShape)⟩ ∈ g) :
    g.ignoredProps n = h.ignoredProps n := by
  rw [ignoredProps, ignoredProps, members_perm hp hg, objects_eq_of_unique hp (hg.ignored n hn)]

/-! ## Records -/

theorem facets_perm (hg : g.IsUnambiguous) {n shape : Node} (hr : g.Reaches n (.node shape)) :
    g.facets (.node shape) = h.facets (.node shape) := by
  have hnumber : ∀ p ∈ [Sh.minInclusive, Sh.minExclusive, Sh.maxInclusive, Sh.maxExclusive],
      g.number? (.node shape) p = h.number? (.node shape) p :=
    fun p hmem => number?_perm hp (hg.bounds n shape hr p hmem)
  have hliterals : NameSet.ofList (((g.values (.node shape) Sh.hasValue).filterMap Term.literal?).map Literal.lexical) =
      NameSet.ofList (((h.values (.node shape) Sh.hasValue).filterMap Term.literal?).map Literal.lexical) :=
    NameSet.ofList_congr fun _ => (((values_perm hp _ Sh.hasValue).filterMap _).map _).mem_iff
  obtain ⟨hvalues, hallowsLiterals, hallowsIris⟩ := allowed_congr (allowedMembers_perm hp hg hr)
  simp only [facets, leastValue?_perm hp, integer?_perm hp, iris_perm hp, hliterals, hvalues, hallowsLiterals,
    hallowsIris, hnumber Sh.minInclusive (by simp), hnumber Sh.minExclusive (by simp),
    hnumber Sh.maxInclusive (by simp), hnumber Sh.maxExclusive (by simp)]

theorem targetsOf_perm (hg : g.IsUnambiguous) {n : Node} {shape : Term} (hr : g.Reaches n shape) :
    g.targetsOf n shape = h.targetsOf n shape := by
  rw [targetsOf, targetsOf, path?_perm hp]
  cases shape with
  | literal l => rfl
  | node m => rw [facets_perm hp hg hr, targets_perm hp]

theorem propertyRecords_perm (hg : g.IsUnambiguous) : g.propertyRecords = h.propertyRecords := by
  have hshapes : ∀ n ∈ h.typed [Sh.nodeShape, Sh.shape],
      (g.propertyShapes n).flatMap (g.targetsOf n) = (h.propertyShapes n).flatMap (h.targetsOf n) := by
    intro n hn
    rw [← propertyShapes_perm hp]
    refine List.flatMap_congr fun shape hs => targetsOf_perm hp hg ⟨?_, mem_propertyShapes.1 hs⟩
    rw [← typed_perm hp] at hn
    exact mem_typed.1 hn
  rw [propertyRecords, propertyRecords, typed_perm hp, List.flatMap_congr hshapes]

theorem closedRecords_perm (hg : g.IsUnambiguous) : g.closedRecords = h.closedRecords := by
  rw [closedRecords, closedRecords, ← typed_perm hp, ← funext (isClosed_perm hp)]
  refine List.flatMap_congr fun n hn => ?_
  have hn : ⟨n, Rdf.type, .node (.iri Sh.nodeShape)⟩ ∈ g := by
    have hmem := (List.mem_filter.1 hn).1
    rw [typed, Node.mem_sort, List.flatMap_singleton] at hmem
    exact mem_subjects.1 hmem
  have hrecord : g.closedRecord n = h.closedRecord n := by
    funext target
    rw [closedRecord, closedRecord, definedProps_perm hp, ignoredProps_perm hp hg hn]
  rw [nodeTargets_perm hp, hrecord]

end Enumeration

/-- Two enumerations of the triples of a graph have the same records in the same order. -/
theorem records_enumeration (g h : Graph) (hp : g.triples.Perm h.triples) (hg : g.IsUnambiguous) :
    g.records = h.records := by
  rw [records, records, propertyRecords_perm hp hg, closedRecords_perm hp hg, classRecords_perm hp]

/-- A closed node shape that ignores a property, and a property shape with allowed values, also in an empty list, and
with two bounds on one side. -/
def listedGraph : Graph where
  triples :=
    [⟨.iri "u:#S", Rdf.type, .node (.iri Sh.nodeShape)⟩,
      ⟨.iri "u:#S", Sh.targetClass, .node (.iri "u:#C")⟩,
      ⟨.iri "u:#S", Sh.closed, .literal (.typed "true" Xsd.boolean)⟩,
      ⟨.iri "u:#S", Sh.ignoredProperties, .node (.blank "i")⟩,
      ⟨.blank "i", Rdf.first, .node (.iri "u:#q")⟩,
      ⟨.blank "i", Rdf.rest, .node (.iri Rdf.nil)⟩,
      ⟨.iri "u:#S", Sh.property, .node (.blank "p")⟩,
      ⟨.blank "p", Sh.path, .node (.iri "u:#p")⟩,
      ⟨.blank "p", Sh.oneOf, .node (.blank "a")⟩,
      ⟨.blank "p", Sh.oneOf, .node (.iri Rdf.nil)⟩,
      ⟨.blank "a", Rdf.first, .literal (.plain "1")⟩,
      ⟨.blank "a", Rdf.rest, .node (.iri Rdf.nil)⟩,
      ⟨.blank "p", Sh.minInclusive, .literal (.plain "0.5")⟩,
      ⟨.blank "p", Sh.minInclusive, .literal (.plain "1")⟩]
  nodup := by decide

def reversed (g : Graph) : Graph := ⟨g.triples.reverse, List.nodup_reverse.2 g.nodup⟩

theorem isUnambiguous_listedGraph : listedGraph.IsUnambiguous := by
  have hunique : ∀ p ∈ [Rdf.first, Rdf.rest, Sh.ignoredProperties], ∀ s ∈ listedGraph.triples,
      ∀ t ∈ listedGraph.triples, s.predicate = p → t.predicate = p → s.subject = t.subject → s.object = t.object := by
    decide
  have hlists : ∀ t ∈ listedGraph.triples, t.predicate = Sh.oneOf →
      t.object = .node (.blank "a") ∨ t.object = .node (.iri Rdf.nil) := by decide
  have hplain : ∀ t ∈ listedGraph.triples, t.predicate ≠ Sh.closed →
      (t.object.literal?.map Literal.datatype).getD Xsd.string = Xsd.string := by decide
  have hnil : listedGraph.members (.node (.iri Rdf.nil)) = [] := by rw [members, membersFrom, if_pos rfl]
  have hne : ∀ p ∈ [Sh.minInclusive, Sh.minExclusive, Sh.maxInclusive, Sh.maxExclusive], p ≠ Sh.closed := by decide
  constructor
  case first => exact fun n a b ha hb => hunique Rdf.first (by decide) _ ha _ hb rfl rfl rfl
  case rest => exact fun n a b ha hb => hunique Rdf.rest (by decide) _ ha _ hb rfl rfl rfl
  case ignored => exact fun n _ a b ha hb => hunique Sh.ignoredProperties (by decide) _ ha _ hb rfl rfl rfl
  case allowed =>
    intro n shape _ a b ha hb hna hnb
    rcases hlists _ ha rfl with rfl | rfl
    · rcases hlists _ hb rfl with rfl | rfl
      · rfl
      · exact absurd hnil hnb
    · exact absurd hnil hna
  case bounds =>
    intro n shape _ p hmem a b ha hb _
    exact (hplain _ ha (hne p hmem)).trans (hplain _ hb (hne p hmem)).symm

theorem records_enumeration_listedGraph :
    listedGraph.triples.Perm listedGraph.reversed.triples ∧ listedGraph.IsUnambiguous ∧
      listedGraph.records = listedGraph.reversed.records :=
  have hperm : listedGraph.triples.Perm listedGraph.reversed.triples := (List.reverse_perm _).symm
  ⟨hperm, isUnambiguous_listedGraph, records_enumeration _ _ hperm isUnambiguous_listedGraph⟩

end Graph

end ShapePlan
