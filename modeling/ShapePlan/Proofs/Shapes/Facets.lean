/-
What a record has from its property shape, by the triples of the graph. A facet with one value has the least of those
that are given, a bound the least that can be read, a list all of them; so the records of property shapes lose nothing,
and have nothing that is not in the graph (`records_of_property_shapes`).
-/
import ShapePlan.Proofs.Ascending
import ShapePlan.Proofs.Decimal.Float
import ShapePlan.Proofs.Shapes.AllowedValues
import ShapePlan.Proofs.Shapes.IntegerFacets

namespace ShapePlan

open Decimal (IsInteger IsSignedTwice IsFloat)

/-! ## Values -/

/-- The text of an IRI, or of a literal without its quotes. -/
inductive Term.Writes : Term → String → Prop where
  | iri (s : String) : Writes (.node (.iri s)) s
  | literal (l : Literal) : Writes (.literal l) l.lexical

theorem Term.value?_eq_some {t : Term} {s : String} : t.value? = some s ↔ t.Writes s := by
  constructor
  · intro h
    match t, h with
    | .node (.iri _), rfl => exact .iri s
    | .literal l, rfl => exact .literal l
  · rintro ⟨⟩ <;> rfl

/-- Integer datatypes have integers, all others floats. -/
inductive Literal.Reads (l : Literal) : Number → Prop where
  | int {n : Int} : l.datatype ∈ Xsd.integers → IsInteger l.lexical n ∨ IsSignedTwice l.lexical n → Reads l (.int n)
  | float {x : Binary64} : l.datatype ∉ Xsd.integers → IsFloat l.lexical x → Reads l (.float x)

theorem Graph.numberOf?_eq_some {l : Literal} {x : Number} : Graph.numberOf? l = some x ↔ l.Reads x := by
  unfold Graph.numberOf?
  split
  · next hd =>
    rw [Option.map_eq_some_iff]
    constructor
    · rintro ⟨n, hn, rfl⟩
      exact .int hd (Decimal.map_toInt_integer?.1 (by rw [hn]; rfl))
    · rintro (⟨-, hn⟩ | ⟨hnot, -⟩)
      · obtain ⟨m, hm, rfl⟩ := Option.map_eq_some_iff.1 (Decimal.map_toInt_integer?.2 hn)
        exact ⟨m, hm, rfl⟩
      · exact absurd hd hnot
  · next hd =>
    rw [Option.map_eq_some_iff]
    constructor
    · rintro ⟨x, hx, rfl⟩
      exact .float hd (Decimal.float?_eq_some.1 hx)
    · rintro (⟨hint, -⟩ | ⟨-, hx⟩)
      · exact absurd hint hd
      · exact ⟨_, Decimal.float?_eq_some.2 hx, rfl⟩

/-- All names with a property, in order; a list only if there are any. -/
inductive Collects (p : String → Prop) : Option (List String) → Prop where
  | none : (∀ s, ¬ p s) → Collects p none
  | some {l : List String} : l ≠ [] → l.Pairwise (· < ·) → (∀ s, s ∈ l ↔ p s) → Collects p (some l)

/-- There is one such list. -/
theorem Collects.unique {p : String → Prop} {v v' : Option (List String)} (h : Collects p v) (h' : Collects p v') :
    v = v' := by
  cases h with
  | none hnone =>
    cases h' with
    | none _ => rfl
    | some hne _ hmem =>
      obtain ⟨s, hs⟩ := List.exists_mem_of_ne_nil _ hne
      exact absurd ((hmem s).1 hs) (hnone s)
  | some hne hlt hmem =>
    cases h' with
    | none hnone =>
      obtain ⟨s, hs⟩ := List.exists_mem_of_ne_nil _ hne
      exact absurd ((hmem s).1 hs) (hnone s)
    | some _ hlt' hmem' =>
      rw [@Ascending.eq_of_mem_iff String id _ _ hlt hlt' fun s => (hmem s).trans (hmem' s).symm]

theorem collects_nonempty? {p : String → Prop} (l : List String) (hp : ∀ s, s ∈ l ↔ p s) :
    Collects p (nonempty? (NameSet.ofList l).elems) := by
  have hmem : ∀ s, s ∈ (NameSet.ofList l).elems ↔ p s := fun s => NameSet.mem_ofList.trans (hp s)
  unfold nonempty?
  split
  · next h =>
    refine .none fun s hs => ?_
    rw [← hmem, List.isEmpty_iff.1 h] at hs
    cases hs
  · next h => exact .some (fun hnil => h (List.isEmpty_iff.2 hnil)) (NameSet.ofList l).ascending hmem

/-! ## Facets -/

/-- The facets that are texts. -/
inductive TextFacet where
  | rangeClass
  | nodeKind
  | datatype
  | pattern
deriving DecidableEq, Repr

namespace TextFacet

def predicate : TextFacet → String
  | .rangeClass => Sh.classOf
  | .nodeKind => Sh.nodeKind
  | .datatype => Sh.datatype
  | .pattern => Sh.pattern

def value : TextFacet → Record → Option String
  | .rangeClass => Record.rangeClass
  | .nodeKind => Record.nodeKind
  | .datatype => Record.datatype
  | .pattern => Record.pattern

theorem value_facets (f : TextFacet) (g : Graph) (shape : Term) :
    f.value (g.facets shape) = g.leastValue? shape f.predicate := by
  cases f <;> rfl

end TextFacet

/-- The facets that bound a value. -/
inductive BoundFacet where
  | minInclusive
  | minExclusive
  | maxInclusive
  | maxExclusive
deriving DecidableEq, Repr

namespace BoundFacet

def predicate : BoundFacet → String
  | .minInclusive => Sh.minInclusive
  | .minExclusive => Sh.minExclusive
  | .maxInclusive => Sh.maxInclusive
  | .maxExclusive => Sh.maxExclusive

def value : BoundFacet → Record → Option Number
  | .minInclusive => Record.minInclusive
  | .minExclusive => Record.minExclusive
  | .maxInclusive => Record.maxInclusive
  | .maxExclusive => Record.maxExclusive

theorem value_facets (f : BoundFacet) (g : Graph) (shape : Term) :
    f.value (g.facets shape) = g.number? shape f.predicate := by
  cases f <;> rfl

end BoundFacet

namespace Graph

variable {g : Graph} {shape : Node} {p : String}

/-- A text among the objects of a node. -/
def HasText (g : Graph) (shape : Node) (p s : String) : Prop := ∃ o, ⟨shape, p, o⟩ ∈ g ∧ o.Writes s

def IsLeastText (g : Graph) (shape : Node) (p s : String) : Prop :=
  g.HasText shape p s ∧ ∀ s', g.HasText shape p s' → s ≤ s'

theorem mem_texts {s : String} : s ∈ (g.values (.node shape) p).filterMap Term.value? ↔ g.HasText shape p s := by
  simp only [List.mem_filterMap, values, mem_objects, Term.value?_eq_some]
  rfl

theorem leastValue?_eq_some {s : String} : g.leastValue? (.node shape) p = some s ↔ g.IsLeastText shape p s := by
  rw [leastValue?, NameSet.head?_ofList]
  simp only [mem_texts]
  rfl

theorem leastValue?_eq_none : g.leastValue? (.node shape) p = none ↔ ∀ s, ¬ g.HasText shape p s := by
  rw [leastValue?, List.head?_eq_none_iff, List.eq_nil_iff_forall_not_mem]
  exact forall_congr' fun s => not_congr (NameSet.mem_ofList.trans mem_texts)

/-- The number of a literal with the least lexical form of those that can be read, if there are any. -/
inductive Bounds (g : Graph) (shape : Node) (p : String) : Option Number → Prop where
  | unread : (∀ l x, ⟨shape, p, .literal l⟩ ∈ g → ¬ l.Reads x) → Bounds g shape p none
  | least {l : Literal} {x : Number} : ⟨shape, p, .literal l⟩ ∈ g → l.Reads x →
      (∀ l' y, ⟨shape, p, .literal l'⟩ ∈ g → l'.Reads y → l.lexical ≤ l'.lexical) → Bounds g shape p (some x)

theorem bounds_number? (g : Graph) (shape : Node) (p : String) : g.Bounds shape p (g.number? (.node shape) p) := by
  cases h : g.number? (.node shape) p with
  | none =>
    refine .unread fun l x hl hx => ?_
    have hnone := List.findSome?_eq_none_iff.1 h l (mem_literals.2 hl)
    rw [numberOf?_eq_some.2 hx] at hnone
    cases hnone
  | some x =>
    obtain ⟨l, hl, hx, hleast⟩ := exists_least_of_findSome? (Literal.mergeSort_pairwise _) h
    refine .least (mem_literals.1 hl) (numberOf?_eq_some.1 hx) fun l' y hl' hy => ?_
    exact hleast l' (mem_literals.2 hl') (Option.isSome_of_eq_some (numberOf?_eq_some.2 hy))

/-- A bound is the only number that can be read. -/
theorem Bounds.eq_some {v : Option Number} {l : Literal} {x : Number} (h : g.Bounds shape p v)
    (hl : ⟨shape, p, .literal l⟩ ∈ g) (hx : l.Reads x)
    (hone : ∀ l' y, ⟨shape, p, .literal l'⟩ ∈ g → l'.Reads y → y = x) : v = some x := by
  cases h with
  | unread hnone => exact absurd hx (hnone l x hl)
  | least hl' hy _ => rw [hone _ _ hl' hy]

/-- The facets of a property shape, by its triples. -/
structure HasFacets (g : Graph) (shape : Node) (r : Record) : Prop where
  texts : ∀ (f : TextFacet) s, f.value r = some s ↔ g.IsLeastText shape f.predicate s
  integers : ∀ (f : IntegerFacet) n, (f.value r).map Int64.toInt = some n ↔
    g.IsLeastNumber (fun s m => IsInteger s m ∨ IsSignedTwice s m) shape f.predicate n
  bounds : ∀ f : BoundFacet, g.Bounds shape f.predicate (f.value r)
  hasValueLiterals : Collects (fun s => ∃ l, ⟨shape, Sh.hasValue, .literal l⟩ ∈ g ∧ l.lexical = s) r.hasValueLiterals
  hasValueIris : Collects (fun s => ⟨shape, Sh.hasValue, .node (.iri s)⟩ ∈ g) r.hasValueIris
  allowed : g.TakesList shape r
  severity : ∀ s, r.severity = some s ↔
    g.IsLeastText shape Sh.severity s ∨ s = Sh.violation ∧ ∀ s', ¬ g.HasText shape Sh.severity s'

theorem hasFacets_facets (g : Graph) (shape : Node) : g.HasFacets shape (g.facets (.node shape)) where
  texts f s := by rw [f.value_facets, leastValue?_eq_some]
  integers f n := by rw [f.value_facets, map_toInt_integer?]
  bounds f := by
    rw [f.value_facets]
    exact g.bounds_number? shape f.predicate
  hasValueLiterals := by
    refine collects_nonempty? _ fun s => ?_
    simp only [List.mem_map, mem_literalValues]
  hasValueIris := collects_nonempty? _ fun s => NameSet.mem_ofList.symm.trans mem_iris
  allowed := g.takesList_facets shape
  severity s := by
    have hseverity : (g.facets (.node shape)).severity =
        some ((g.leastValue? (.node shape) Sh.severity).getD Sh.violation) := rfl
    rw [hseverity, Option.some_inj]
    cases h : g.leastValue? (.node shape) Sh.severity with
    | none =>
      have hnone := leastValue?_eq_none.1 h
      rw [Option.getD_none, eq_comm, or_iff_right fun hs => hnone s hs.1]
      exact (and_iff_left hnone).symm
    | some t =>
      have hleast := leastValue?_eq_some.1 h
      rw [Option.getD_some, or_iff_left fun hs => hs.2 t hleast.1, ← leastValue?_eq_some, h, Option.some_inj]

/-- Facets do not tell the path and the target class. -/
theorem HasFacets.onRoute {r : Record} (h : g.HasFacets shape r) (path : Option String) (inverse : Bool)
    (target : Option String) :
    g.HasFacets shape { r with path := path, inverse := inverse, targetClass := target } where
  texts f := by
    have hf := h.texts f
    cases f <;> exact hf
  integers f := by
    have hf := h.integers f
    cases f <;> exact hf
  bounds f := by
    have hf := h.bounds f
    cases f <;> exact hf
  hasValueLiterals := h.hasValueLiterals
  hasValueIris := h.hasValueIris
  allowed := by
    cases h.allowed with
    | unlisted hnil hliterals hiris => exact .unlisted hnil hliterals hiris
    | literals hlist hm hvs hliterals hiris => exact .literals hlist hm hvs hliterals hiris
    | iris hlist hm hvs hliterals hiris => exact .iris hlist hm hvs hliterals hiris
  severity := h.severity

/-- The record of a route, by the triples of the graph: the path of the property shape, the target class, the facets of
the shape, and nothing else. -/
structure Describes (g : Graph) (route : Route) (r : Record) : Prop where
  path : ∃ s, r.path = some s ∧ g.HasPath route.shape s r.inverse
  target : r.targetClass = some route.target
  uid : r.propertyShape = some route.shape.uid
  facets : ∃ n, route.shape = .node n ∧ g.HasFacets n r
  unused : r.constraintType = none ∧ r.nodeShape = none ∧ r.definedProps = none ∧ r.ignoredProps = none ∧
    r.requiredClasses = none ∧ r.disjointClasses = none

theorem HasPath.exists_node {shape : Term} {s : String} {i : Bool} (h : g.HasPath shape s i) :
    ∃ n, shape = .node n := by
  cases h with
  | direct _ => exact ⟨_, rfl⟩
  | inverse _ _ => exact ⟨_, rfl⟩

theorem IsRecordOf.describes {route : Route} {r : Record} (h : g.IsRecordOf route r) : g.Describes route r := by
  obtain ⟨s, i, hpath, rfl, huid⟩ := h
  obtain ⟨n, hn⟩ := hpath.exists_node
  refine ⟨⟨s, rfl, hpath⟩, rfl, huid, ⟨n, hn, ?_⟩, rfl, rfl, rfl, rfl, rfl, rfl⟩
  rw [hn]
  exact (g.hasFacets_facets n).onRoute (some s) i (some route.target)

/-- The records of property shapes are one for each property shape with a path and each of its target classes, in the
order of the least routes to them, and have the facets that the graph gives to the shape. -/
theorem records_of_property_shapes (g : Graph) : ∃ rs : List Route,
    List.Forall₂ g.Describes rs (g.records.filter (·.propertyShape.isSome)) ∧
    (rs.map Route.subject).Nodup ∧
    (∀ shape target, (shape, target) ∈ rs.map Route.subject ↔
      (∃ n, g.Leads ⟨n, shape, target⟩) ∧ ∃ s i, g.HasPath shape s i) ∧
    (∀ r ∈ rs, g.Leads r ∧ ∀ n, g.Leads ⟨n, r.shape, r.target⟩ → r.nodeShape.text ≤ n.text) ∧
    rs.Pairwise Route.Before := by
  obtain ⟨rs, hrecords, hrest⟩ := g.exists_routes
  exact ⟨rs, hrecords.imp fun _ _ h => h.describes, hrest⟩

/-- Where there is one route, it is the one with a record. -/
theorem subjects_of_routes {route : Route} {rs : List Route} (hroutes : g.routes = [route])
    (hnodup : (rs.map Route.subject).Nodup)
    (hsubjects : ∀ shape target, (shape, target) ∈ rs.map Route.subject ↔
      (∃ n, g.Leads ⟨n, shape, target⟩) ∧ ∃ s i, g.HasPath shape s i) : rs.map Route.subject = [route.subject] := by
  have hmem : ∀ subject, subject ∈ rs.map Route.subject ↔ subject ∈ [route.subject] := by
    intro ⟨shape, target⟩
    rw [hsubjects]
    constructor
    · rintro ⟨⟨n, hn⟩, hpath⟩
      have hroute := mem_routes.2 ⟨hn, hpath⟩
      rw [hroutes, List.mem_singleton] at hroute
      cases hroute
      exact List.mem_singleton.2 rfl
    · intro h
      cases List.mem_singleton.1 h
      obtain ⟨hleads, hpath⟩ := mem_routes.1 (hroutes.symm ▸ List.mem_singleton.2 rfl)
      exact ⟨⟨_, hleads⟩, hpath⟩
  exact List.perm_singleton.1 ((List.perm_ext_iff_of_nodup hnodup (List.nodup_singleton _)).2 hmem)

/-- A property shape with two classes, bounds of which one cannot be read, and three values that it has to have. -/
def facetedGraph : Graph where
  triples :=
    [⟨.iri "u:#S", Rdf.type, .node (.iri Sh.nodeShape)⟩,
      ⟨.iri "u:#S", Sh.targetClass, .node (.iri "u:#T")⟩,
      ⟨.iri "u:#S", Sh.property, .node (.blank "p")⟩,
      ⟨.blank "p", Sh.path, .node (.iri "u:#q")⟩,
      ⟨.blank "p", Sh.classOf, .node (.iri "u:#B")⟩,
      ⟨.blank "p", Sh.classOf, .node (.iri "u:#A")⟩,
      ⟨.blank "p", Sh.pattern, .literal (.tagged "^a" "en")⟩,
      ⟨.blank "p", Sh.minInclusive, .literal (.plain " .5")⟩,
      ⟨.blank "p", Sh.maxInclusive, .literal (.plain "1.0.0")⟩,
      ⟨.blank "p", Sh.maxInclusive, .literal (.typed "10" Xsd.integer)⟩,
      ⟨.blank "p", Sh.hasValue, .literal (.plain "b")⟩,
      ⟨.blank "p", Sh.hasValue, .node (.iri "u:#V")⟩,
      ⟨.blank "p", Sh.hasValue, .literal (.plain "a")⟩]
  nodup := by decide

theorem routes_facetedGraph : facetedGraph.routes = [⟨.iri "u:#S", .node (.blank "p"), "u:#T"⟩] := by decide

theorem records_of_property_shapes_facetedGraph :
    ∃ r, facetedGraph.records.filter (·.propertyShape.isSome) = [r] ∧
      r.path = some "u:#q" ∧ r.inverse = false ∧ r.targetClass = some "u:#T" ∧ r.propertyShape = some "bnode://id/p" ∧
      r.rangeClass = some "u:#A" ∧ r.pattern = some "^a" ∧ r.minInclusive = some (.float ⟨0x3FE0000000000000⟩) ∧
      r.maxInclusive = some (.int 10) ∧ r.hasValueLiterals = some ["a", "b"] ∧ r.hasValueIris = some ["u:#V"] ∧
      r.severity = some Sh.violation := by
  obtain ⟨rs, hrecords, hnodup, hsubjects, -, -⟩ := records_of_property_shapes facetedGraph
  have hsubject := subjects_of_routes routes_facetedGraph hnodup hsubjects
  obtain ⟨route, rfl, hroute⟩ := List.map_eq_singleton_iff.1 hsubject
  obtain ⟨hshape, htarget⟩ := Prod.mk.inj hroute
  rw [List.forall₂_cons_left_iff] at hrecords
  obtain ⟨r, rest, hr, hrest, hfilter⟩ := hrecords
  cases hrest
  obtain ⟨⟨s, hs, hpath⟩, hclass, huid, ⟨n, hn, hfacets⟩, -⟩ := hr
  rw [hshape] at hpath huid hn
  cases hn
  rw [htarget] at hclass
  have hpath' := path?_eq_some.2 hpath
  have hq : facetedGraph.path? (.node (.blank "p")) = some ("u:#q", false) := by decide
  obtain ⟨rfl, hi⟩ := Prod.mk.inj (Option.some.inj (hpath'.symm.trans hq))
  have hnumber : ∀ {p x}, (∀ t ∈ facetedGraph.triples, t.predicate = p → ∀ l ∈ t.object.literal?,
      ∀ y ∈ numberOf? l, y = x) → ∀ l y, ⟨.blank "p", p, .literal l⟩ ∈ facetedGraph → l.Reads y → y = x :=
    fun h l y hl hy => h _ hl rfl l rfl y (numberOf?_eq_some.2 hy)
  have hmin : ⟨.blank "p", Sh.minInclusive, .literal (.plain " .5")⟩ ∈ facetedGraph.triples := by decide
  have hmax : ⟨.blank "p", Sh.maxInclusive, .literal (.typed "10" Xsd.integer)⟩ ∈ facetedGraph.triples := by decide
  have hvalues := facetedGraph.hasFacets_facets (.blank "p")
  refine ⟨r, hfilter, hs, hi, hclass, huid, ?_, ?_, ?_, ?_, ?_, ?_, ?_⟩
  · exact (hfacets.texts .rangeClass _).2 (leastValue?_eq_some.1 (by decide))
  · exact (hfacets.texts .pattern _).2 (leastValue?_eq_some.1 (by decide))
  · exact (hfacets.bounds .minInclusive).eq_some hmin (numberOf?_eq_some.1 (by decide)) (hnumber (by decide))
  · exact (hfacets.bounds .maxInclusive).eq_some hmax (numberOf?_eq_some.1 (by decide)) (hnumber (by decide))
  · exact (hfacets.hasValueLiterals.unique hvalues.hasValueLiterals).trans (by decide)
  · exact (hfacets.hasValueIris.unique hvalues.hasValueIris).trans (by decide)
  · exact (hfacets.severity _).2 (.inr ⟨rfl, leastValue?_eq_none.1 (by decide)⟩)

end Graph

end ShapePlan
