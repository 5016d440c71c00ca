/-
The records of property shapes. A property shape is reached from a node shape, directly or by a node that it refers to,
and has target classes there; of all routes to one shape and class the one with the least node shape counts, and it
gives one record, in the order of the routes.
-/
import ShapePlan.Proofs.Rdf.Text
import ShapePlan.Shapes.Extract
import Mathlib.Data.List.Forall2
import Mathlib.Data.List.Nodup

namespace ShapePlan

/-! ## Routes -/

/-- A property shape that is reached from a node shape, with a target class. -/
structure Route where
  nodeShape : Node
  shape : Term
  target : String
deriving DecidableEq, Repr

namespace Route

/-- What a record is about: the property shape and the class. -/
def subject (r : Route) : Term × String := (r.shape, r.target)

/-- Routes are in the order of the texts of their node shapes, then of their property shapes, then of their targets. -/
def Before (a b : Route) : Prop :=
  a.nodeShape.text < b.nodeShape.text ∨ a.nodeShape = b.nodeShape ∧
    (a.shape.text < b.shape.text ∨ a.shape = b.shape ∧ a.target < b.target)

theorem Before.nodeShape_le {a b : Route} (h : a.Before b) : a.nodeShape.text ≤ b.nodeShape.text := by
  rcases h with h | ⟨h, -⟩
  · exact text_le_of_lt h
  · exact text_le_of_eq (congrArg Node.text h)

end Route

namespace Graph

variable (g : Graph)

/-- A node shape that has a property shape, itself or by a node that it refers to. -/
def Reaches (n : Node) (shape : Term) : Prop :=
  (⟨n, Rdf.type, .node (.iri Sh.nodeShape)⟩ ∈ g ∨ ⟨n, Rdf.type, .node (.iri Sh.shape)⟩ ∈ g) ∧
  (⟨n, Sh.property, shape⟩ ∈ g ∨ ∃ m, ⟨n, Sh.node, .node m⟩ ∈ g ∧ ⟨m, Sh.property, shape⟩ ∈ g)

/-- A target class of the node shape, or a class that has the property shape itself. -/
def Targets (n : Node) (shape : Term) (target : String) : Prop :=
  ⟨n, Sh.targetClass, .node (.iri target)⟩ ∈ g ∨
  ⟨.iri target, Sh.property, shape⟩ ∈ g ∧ ⟨.iri target, Rdf.type, .node (.iri Rdf.classOfClasses)⟩ ∈ g

def Leads (r : Route) : Prop := g.Reaches r.nodeShape r.shape ∧ g.Targets r.nodeShape r.shape r.target

/-- The object with the least text. -/
def IsLeastObject (n : Node) (p : String) (o : Term) : Prop :=
  ⟨n, p, o⟩ ∈ g ∧ ∀ o', ⟨n, p, o'⟩ ∈ g → o.text ≤ o'.text

/-- The least of the objects that are IRIs. -/
def IsLeastIri (n : Node) (p : String) (s : String) : Prop :=
  ⟨n, p, .node (.iri s)⟩ ∈ g ∧ ∀ s', ⟨n, p, .node (.iri s')⟩ ∈ g → s ≤ s'

/-- The least path of a shape, which is a predicate, or a blank node for a predicate against its direction. -/
inductive HasPath : Term → String → Bool → Prop where
  | direct {n : Node} {s : String} : g.IsLeastObject n Sh.path (.node (.iri s)) → HasPath (.node n) s false
  | inverse {n : Node} {b s : String} : g.IsLeastObject n Sh.path (.node (.blank b)) →
      g.IsLeastIri (.blank b) Sh.inversePath s → HasPath (.node n) s true

/-! ## Look-ups -/

variable {g}

theorem mem_iris {n : Node} {p s : String} : s ∈ (g.iris (.node n) p).elems ↔ ⟨n, p, .node (.iri s)⟩ ∈ g := by
  have hm : s ∈ (g.iris (.node n) p).elems ↔ s ∈ (g.values (.node n) p).filterMap Term.iri? := NameSet.mem_ofList
  rw [hm, List.mem_filterMap]
  constructor
  · rintro ⟨o, ho, hs⟩
    cases o with
    | literal l => cases hs
    | node m =>
      cases m with
      | blank b => cases hs
      | iri t => cases hs; exact mem_objects.1 ho
  · exact fun h => ⟨_, mem_objects.2 h, rfl⟩

theorem mem_literalValues {n : Node} {p : String} {l : Literal} :
    l ∈ (g.values (.node n) p).filterMap Term.literal? ↔ ⟨n, p, .literal l⟩ ∈ g := by
  rw [List.mem_filterMap]
  constructor
  · rintro ⟨o, ho, hl⟩
    cases o with
    | node m => cases hl
    | literal k => cases hl; exact mem_objects.1 ho
  · exact fun h => ⟨_, mem_objects.2 h, rfl⟩

theorem head?_iris {n : Node} {p s : String} : (g.iris (.node n) p).elems.head? = some s ↔ g.IsLeastIri n p s := by
  have hm : ∀ t, t ∈ (g.values (.node n) p).filterMap Term.iri? ↔ ⟨n, p, .node (.iri t)⟩ ∈ g := fun t =>
    (NameSet.mem_ofList (l := (g.values (.node n) p).filterMap Term.iri?)).symm.trans mem_iris
  rw [iris, NameSet.head?_ofList, hm]
  simp only [hm]
  rfl

theorem head?_paths {n : Node} {o : Term} :
    (Term.sort (g.values (.node n) Sh.path)).head? = some o ↔ g.IsLeastObject n Sh.path o := by
  rw [Term.head?_sort]
  simp only [values, mem_objects]
  rfl

theorem path?_eq_some {shape : Term} {s : String} {i : Bool} : g.path? shape = some (s, i) ↔ g.HasPath shape s i := by
  constructor
  · intro h
    unfold path? at h
    cases shape with
    | literal l => cases h
    | node n =>
      split at h
      · next hp => cases h; exact .direct (head?_paths.1 hp)
      · next hp =>
        obtain ⟨t, ht, he⟩ := Option.map_eq_some_iff.1 h
        cases he
        exact .inverse (head?_paths.1 hp) (head?_iris.1 ht)
      · cases h
  · rintro (hp | ⟨hp, ht⟩)
    · rw [path?, head?_paths.2 hp]
    · rw [path?, head?_paths.2 hp]
      show Option.map _ _ = _
      rw [head?_iris.2 ht]
      rfl

theorem mem_typed {n : Node} : n ∈ g.typed [Sh.nodeShape, Sh.shape] ↔
    ⟨n, Rdf.type, .node (.iri Sh.nodeShape)⟩ ∈ g ∨ ⟨n, Rdf.type, .node (.iri Sh.shape)⟩ ∈ g := by
  rw [typed, Node.mem_sort]
  simp [mem_subjects]

theorem mem_propertyShapes {n : Node} {shape : Term} : shape ∈ g.propertyShapes n ↔
    ⟨n, Sh.property, shape⟩ ∈ g ∨ ∃ m, ⟨n, Sh.node, .node m⟩ ∈ g ∧ ⟨m, Sh.property, shape⟩ ∈ g := by
  rw [propertyShapes, Term.mem_sort, List.mem_append, mem_objects, List.mem_flatMap]
  refine or_congr_right ⟨?_, ?_⟩
  · rintro ⟨t, ht, hs⟩
    cases t with
    | literal l => exact absurd hs List.not_mem_nil
    | node m => exact ⟨m, mem_objects.1 ht, mem_objects.1 hs⟩
  · rintro ⟨m, hm, hs⟩
    exact ⟨.node m, mem_objects.2 hm, mem_objects.2 hs⟩

theorem isClass_iff {n : Node} : g.isClass n = true ↔ ⟨n, Rdf.type, .node (.iri Rdf.classOfClasses)⟩ ∈ g := by
  rw [isClass, List.contains_iff_mem, mem_objects]

theorem mem_targets {n : Node} {shape : Term} {target : String} :
    target ∈ g.targets n shape ↔ g.Targets n shape target := by
  have hm : target ∈ g.targets n shape ↔ target ∈ (g.iris (.node n) Sh.targetClass).elems ++
      ((g.subjects Sh.property shape).filter g.isClass).filterMap fun c => Term.iri? (.node c) := NameSet.mem_ofList
  rw [hm, List.mem_append, mem_iris, List.mem_filterMap]
  refine or_congr_right ⟨?_, ?_⟩
  · rintro ⟨c, hc, ht⟩
    obtain ⟨hs, hk⟩ := List.mem_filter.1 hc
    cases c with
    | blank b => cases ht
    | iri s => cases ht; exact ⟨mem_subjects.1 hs, isClass_iff.1 hk⟩
  · rintro ⟨hs, hk⟩
    exact ⟨.iri target, List.mem_filter.2 ⟨mem_subjects.2 hs, isClass_iff.2 hk⟩, rfl⟩

theorem targets_ascending (n : Node) (shape : Term) : (g.targets n shape).Pairwise (· < ·) :=
  (NameSet.ofList _).ascending

/-- The values of the list of allowed ones, and their kind, are told by its members. -/
theorem allowed_congr {h : Graph} {shape : Term} (hm : g.allowedMembers shape = h.allowedMembers shape) :
    g.allowedValues shape = h.allowedValues shape ∧ g.allowsLiterals shape = h.allowsLiterals shape ∧
      g.allowsIris shape = h.allowsIris shape := by
  simp only [allowedValues, allowsLiterals, allowsIris, hm, and_self]

/-! ## The routes of a graph -/

variable (g)

/-- The routes to the property shapes that have a path, in order. -/
def routesAt (n : Node) (shape : Term) : List Route :=
  if (g.path? shape).isSome then (g.targets n shape).map (⟨n, shape, ·⟩) else []

def routes : List Route :=
  (g.typed [Sh.nodeShape, Sh.shape]).flatMap fun n => (g.propertyShapes n).flatMap (g.routesAt n)

/-- The property shape of a route with its record. -/
def targeted (r : Route) : TargetedShape where
  shape := r.shape
  target := r.target
  record :=
    { g.facets r.shape with
      path := (g.path? r.shape).map (·.1)
      inverse := (g.path? r.shape).any (·.2)
      targetClass := some r.target }

theorem targetsOf_eq (n : Node) (shape : Term) : g.targetsOf n shape = (g.routesAt n shape).map g.targeted := by
  unfold targetsOf routesAt
  cases hp : g.path? shape with
  | none => rfl
  | some p =>
    rw [if_pos (Option.isSome_some), List.map_map]
    refine List.map_congr_left fun c _ => ?_
    simp only [Function.comp, targeted, hp]
    rfl

theorem propertyRecords_eq : g.propertyRecords = (firstOfEach [] (g.routes.map g.targeted)).map (·.record) := by
  have ht : ∀ n, g.targetsOf n = fun shape => (g.routesAt n shape).map g.targeted := fun n => funext (g.targetsOf_eq n)
  simp only [propertyRecords, routes, List.map_flatMap, ht]

variable {g}

theorem mem_routesAt {n : Node} {shape : Term} {r : Route} :
    r ∈ g.routesAt n shape ↔ r.nodeShape = n ∧ r.shape = shape ∧ (∃ s i, g.HasPath shape s i) ∧
      g.Targets n shape r.target := by
  have hp : (g.path? shape).isSome = true ↔ ∃ s i, g.HasPath shape s i := by
    rw [Option.isSome_iff_exists, Prod.exists]
    simp only [path?_eq_some]
  unfold routesAt
  split
  · next h =>
    rw [List.mem_map]
    constructor
    · rintro ⟨c, hc, rfl⟩
      exact ⟨rfl, rfl, hp.1 h, mem_targets.1 hc⟩
    · rintro ⟨rfl, rfl, -, ht⟩
      exact ⟨r.target, mem_targets.2 ht, rfl⟩
  · next h =>
    refine ⟨fun hr => absurd hr List.not_mem_nil, ?_⟩
    rintro ⟨-, -, hs, -⟩
    exact absurd (hp.2 hs) h

theorem mem_routes {r : Route} : r ∈ g.routes ↔ g.Leads r ∧ ∃ s i, g.HasPath r.shape s i := by
  simp only [routes, List.mem_flatMap, mem_typed, mem_propertyShapes, mem_routesAt]
  constructor
  · rintro ⟨n, hn, shape, hs, rfl, rfl, hp, ht⟩
    exact ⟨⟨⟨hn, hs⟩, ht⟩, hp⟩
  · rintro ⟨⟨⟨hn, hs⟩, ht⟩, hp⟩
    exact ⟨r.nodeShape, hn, r.shape, hs, rfl, rfl, hp, ht⟩

theorem routes_before (g : Graph) : g.routes.Pairwise Route.Before := by
  -- from the inside out: each of the three loops runs over an ascending list
  have targets : ∀ n shape, (g.routesAt n shape).Pairwise Route.Before := by
    intro n shape
    unfold routesAt
    split
    · rw [List.pairwise_map]
      exact (targets_ascending n shape).imp fun h => .inr ⟨rfl, .inr ⟨rfl, h⟩⟩
    · exact .nil
  have shapes : ∀ n, ((g.propertyShapes n).flatMap (g.routesAt n)).Pairwise Route.Before := by
    intro n
    refine List.pairwise_flatMap.2 ⟨fun shape _ => targets n shape, (Term.sort_pairwise _).imp ?_⟩
    intro a b hab r hr q hq
    obtain ⟨rn, rfl, -⟩ := mem_routesAt.1 hr
    obtain ⟨qn, rfl, -⟩ := mem_routesAt.1 hq
    exact .inr ⟨rn.trans qn.symm, .inl hab⟩
  refine List.pairwise_flatMap.2 ⟨fun n _ => shapes n, (Node.sort_pairwise _).imp ?_⟩
  intro a b hab r hr q hq
  obtain ⟨_, -, hr⟩ := List.mem_flatMap.1 hr
  obtain ⟨_, -, hq⟩ := List.mem_flatMap.1 hq
  obtain ⟨rfl, -⟩ := mem_routesAt.1 hr
  obtain ⟨rfl, -⟩ := mem_routesAt.1 hq
  exact .inl hab

/-! ## The first route to each subject -/

/-- What is kept of an ordered list is ordered; it has every key that was not seen, once, and with the first element
that has it. -/
theorem firstOfEach_map {α : Type} {R : α → α → Prop} (f : α → TargetedShape) {l : List α} (hl : l.Pairwise R)
    (seen : List (Term × String)) :
    ∃ k : List α, k.Sublist l ∧ firstOfEach seen (l.map f) = k.map f ∧ (k.map fun a => (f a).key).Nodup ∧
      (∀ a ∈ k, (f a).key ∉ seen) ∧
      ∀ a ∈ l, (f a).key ∉ seen → ∃ b ∈ k, (f b).key = (f a).key ∧ (b = a ∨ R b a) := by
  induction l generalizing seen with
  | nil => exact ⟨[], .slnil, rfl, List.nodup_nil, nofun, nofun⟩
  | cons x l ih =>
    obtain ⟨hx, hl⟩ := List.pairwise_cons.1 hl
    rw [List.map_cons, firstOfEach]
    by_cases hs : (f x).key ∈ seen
    · obtain ⟨k, hk, he, hn, hu, hf⟩ := ih hl seen
      refine ⟨k, hk.cons x, by rw [if_pos hs, he], hn, hu, ?_⟩
      intro a ha hns
      rcases List.mem_cons.1 ha with rfl | ha
      · exact absurd hs hns
      · exact hf a ha hns
    · obtain ⟨k, hk, he, hn, hu, hf⟩ := ih hl ((f x).key :: seen)
      refine ⟨x :: k, hk.cons_cons x, by rw [if_neg hs, he, List.map_cons], ?_, ?_, ?_⟩
      · rw [List.map_cons, List.nodup_cons]
        refine ⟨fun hm => ?_, hn⟩
        obtain ⟨a, ha, hax⟩ := List.mem_map.1 hm
        exact hu a ha (hax ▸ List.mem_cons_self)
      · rw [List.forall_mem_cons]
        exact ⟨hs, fun a ha hm => hu a ha (List.mem_cons_of_mem _ hm)⟩
      · intro a ha hns
        -- an element with the key of `x` is represented by `x`, all others as they were before
        by_cases hax : (f a).key = (f x).key
        · refine ⟨x, List.mem_cons_self, hax.symm, ?_⟩
          rcases List.mem_cons.1 ha with rfl | ha
          · exact .inl rfl
          · exact .inr (hx a ha)
        · have hal : a ∈ l := (List.mem_cons.1 ha).resolve_left fun e => hax (e ▸ rfl)
          obtain ⟨b, hb, hba⟩ := hf a hal (by simp [hax, hns])
          exact ⟨b, List.mem_cons_of_mem _ hb, hba⟩

/-! ## Records -/

theorem filter_records (g : Graph) : g.records.filter (·.propertyShape.isSome) = g.propertyRecords := by
  have hprop : ∀ r ∈ g.propertyRecords, r.propertyShape.isSome = true := by
    rw [propertyRecords_eq]
    obtain ⟨k, -, he, -⟩ := firstOfEach_map g.targeted g.routes_before []
    rw [he, List.map_map]
    simp only [List.mem_map]
    rintro r ⟨a, -, rfl⟩
    rfl
  have hclosed : ∀ r ∈ g.closedRecords, ¬ r.propertyShape.isSome = true := by
    simp only [closedRecords, List.mem_flatMap, List.mem_map]
    rintro r ⟨n, -, c, -, rfl⟩
    exact Bool.false_ne_true
  have hclass : ∀ r ∈ g.classRecords, ¬ r.propertyShape.isSome = true := by
    simp only [classRecords, List.mem_flatMap, List.mem_map]
    rintro r ⟨n, -, c, -, rfl⟩
    exact Bool.false_ne_true
  rw [records, List.filter_append, List.filter_append, List.filter_eq_self.2 hprop, List.filter_eq_nil_iff.2 hclosed,
    List.filter_eq_nil_iff.2 hclass, List.append_nil, List.append_nil]

/-- The record of a route: the facets of the property shape, with its path and the target class. -/
def IsRecordOf (g : Graph) (r : Route) (record : Record) : Prop :=
  ∃ s i, g.HasPath r.shape s i ∧
    record = { g.facets r.shape with path := some s, inverse := i, targetClass := some r.target } ∧
    record.propertyShape = some r.shape.uid

theorem isRecordOf_targeted {r : Route} (h : ∃ s i, g.HasPath r.shape s i) : g.IsRecordOf r (g.targeted r).record := by
  obtain ⟨s, i, h⟩ := h
  refine ⟨s, i, h, ?_, rfl⟩
  rw [targeted, path?_eq_some.2 h]
  rfl

/-- The records of property shapes are those of the least routes to each property shape with a path and each of its
target classes, in the order of the routes. -/
theorem exists_routes (g : Graph) : ∃ rs : List Route,
    List.Forall₂ g.IsRecordOf rs (g.records.filter (·.propertyShape.isSome)) ∧
    (rs.map Route.subject).Nodup ∧
    (∀ shape target, (shape, target) ∈ rs.map Route.subject ↔
      (∃ n, g.Leads ⟨n, shape, target⟩) ∧ ∃ s i, g.HasPath shape s i) ∧
    (∀ r ∈ rs, g.Leads r ∧ ∀ n, g.Leads ⟨n, r.shape, r.target⟩ → r.nodeShape.text ≤ n.text) ∧
    rs.Pairwise Route.Before := by
  obtain ⟨rs, hsub, he, hn, -, hf⟩ := firstOfEach_map g.targeted g.routes_before []
  have hmem : ∀ r ∈ rs, g.Leads r ∧ ∃ s i, g.HasPath r.shape s i := fun r hr => mem_routes.1 (hsub.mem hr)
  have hfirst : ∀ r, g.Leads r → (∃ s i, g.HasPath r.shape s i) →
      ∃ q ∈ rs, q.subject = r.subject ∧ (q = r ∨ q.Before r) := fun r hl hp =>
    hf r (mem_routes.2 ⟨hl, hp⟩) List.not_mem_nil
  refine ⟨rs, ?_, hn, ?_, ?_, g.routes_before.sublist hsub⟩
  · rw [filter_records, propertyRecords_eq, he, List.map_map, List.forall₂_map_right_iff]
    exact List.forall₂_same.2 fun r hr => isRecordOf_targeted (hmem r hr).2
  · intro shape target
    constructor
    · intro h
      obtain ⟨r, hr, hs⟩ := List.mem_map.1 h
      cases hs
      exact ⟨⟨r.nodeShape, (hmem r hr).1⟩, (hmem r hr).2⟩
    · rintro ⟨⟨n, hl⟩, hp⟩
      obtain ⟨q, hq, hs, -⟩ := hfirst ⟨n, shape, target⟩ hl hp
      exact List.mem_map.2 ⟨q, hq, hs⟩
  · intro r hr
    refine ⟨(hmem r hr).1, fun n hl => ?_⟩
    obtain ⟨q, hq, hs, hb⟩ := hfirst ⟨n, r.shape, r.target⟩ hl (hmem r hr).2
    -- the subject is there once, so the first route to it is `r`
    have hqr : q = r := List.inj_on_of_nodup_map hn hq hr hs
    subst hqr
    rcases hb with hb | hb
    · exact text_le_of_eq (congrArg (·.nodeShape.text) hb)
    · exact hb.nodeShape_le

end Graph

end ShapePlan
