/-
Lists of allowed values. Of the lists that a property shape refers to, the one that has members counts; its first member
tells whether it is one of literals, and its values are those of all members, each where it comes first. As long as one
list has members, the order of the triples does not matter.
-/
import ShapePlan.Proofs.Distinct
import ShapePlan.Proofs.Rdf.Members
import ShapePlan.Proofs.Shapes.PropertyRecords

namespace ShapePlan

/-! ## The list that has members -/

namespace Graph

variable {g h : Graph} {shape : Node} {list : Term}

/-- No two of the lists that a shape refers to have members. -/
def HasOneList (g : Graph) (shape : Node) : Prop :=
  ∀ a b, ⟨shape, Sh.oneOf, a⟩ ∈ g → ⟨shape, Sh.oneOf, b⟩ ∈ g → g.members a ≠ [] → g.members b ≠ [] → a = b

/-- The members are those of a list that has some. -/
theorem allowedMembers_cases (g : Graph) (shape : Node) :
    (∀ list, ⟨shape, Sh.oneOf, list⟩ ∈ g → g.members list = []) ∧ g.allowedMembers (.node shape) = [] ∨
    ∃ list, ⟨shape, Sh.oneOf, list⟩ ∈ g ∧ g.members list ≠ [] ∧ g.allowedMembers (.node shape) = g.members list := by
  rw [allowedMembers]
  cases hfind : ((g.values (.node shape) Sh.oneOf).map g.members).find? (! ·.isEmpty) with
  | none =>
    refine .inl ⟨fun list hlist => ?_, rfl⟩
    simpa using List.find?_eq_none.1 hfind _ (List.mem_map_of_mem (mem_objects.2 hlist))
  | some ms =>
    obtain ⟨list, hlist, rfl⟩ := List.mem_map.1 (List.mem_of_find?_eq_some hfind)
    exact .inr ⟨list, mem_objects.1 hlist, by simpa using List.find?_some hfind, rfl⟩

theorem allowedMembers_eq_nil (hnil : ∀ list, ⟨shape, Sh.oneOf, list⟩ ∈ g → g.members list = []) :
    g.allowedMembers (.node shape) = [] := by
  rcases g.allowedMembers_cases shape with ⟨-, he⟩ | ⟨list, hlist, hne, -⟩
  · exact he
  · exact absurd (hnil list hlist) hne

theorem allowedMembers_eq (hone : g.HasOneList shape) (hlist : ⟨shape, Sh.oneOf, list⟩ ∈ g)
    (hne : g.members list ≠ []) : g.allowedMembers (.node shape) = g.members list := by
  rcases g.allowedMembers_cases shape with ⟨hnil, -⟩ | ⟨other, hother, hne', he⟩
  · exact absurd (hnil list hlist) hne
  · rw [he, hone other list hother hlist hne' hne]

/-- The members are the same in every order of the triples. -/
theorem allowedMembers_eq_of_unique (hp : g.triples.Perm h.triples)
    (hfirst : ∀ n a b, ⟨n, Rdf.first, a⟩ ∈ g → ⟨n, Rdf.first, b⟩ ∈ g → a = b)
    (hrest : ∀ n a b, ⟨n, Rdf.rest, a⟩ ∈ g → ⟨n, Rdf.rest, b⟩ ∈ g → a = b) (hone : g.HasOneList shape) :
    g.allowedMembers (.node shape) = h.allowedMembers (.node shape) := by
  have hmembers := members_eq_of_unique hp hfirst hrest
  have hmem : ∀ {t}, t ∈ g ↔ t ∈ h := hp.mem_iff
  by_cases hnil : ∀ list, ⟨shape, Sh.oneOf, list⟩ ∈ g → g.members list = []
  · rw [allowedMembers_eq_nil hnil, allowedMembers_eq_nil fun list hlist => ?_]
    rw [← hmembers]
    exact hnil list (hmem.2 hlist)
  · obtain ⟨list, hlist⟩ := not_forall.1 hnil
    obtain ⟨hlist, hne⟩ := Classical.not_imp.1 hlist
    have hone' : h.HasOneList shape := fun a b ha hb hna hnb =>
      hone a b (hmem.2 ha) (hmem.2 hb) (hmembers ▸ hna) (hmembers ▸ hnb)
    rw [allowedMembers_eq hone hlist hne, hmembers, allowedMembers_eq hone' (hmem.1 hlist) (hmembers ▸ hne)]

/-! ## Records -/

/-- A record has the values of a list that has members, as literals or as IRIs by its first member, and none if there
is no such list. -/
inductive TakesList (g : Graph) (shape : Node) (r : Record) : Prop where
  | unlisted : (∀ list, ⟨shape, Sh.oneOf, list⟩ ∈ g → g.members list = []) →
      r.inLiterals = none → r.inIris = none → TakesList g shape r
  | literals {list : Term} {l : Literal} {ms : List Term} {vs : List String} : ⟨shape, Sh.oneOf, list⟩ ∈ g →
      g.members list = .literal l :: ms → IsDistinctOf ((.literal l :: ms).filterMap Term.value?) vs →
      r.inLiterals = some vs → r.inIris = none → TakesList g shape r
  | iris {list : Term} {n : Node} {ms : List Term} {vs : List String} : ⟨shape, Sh.oneOf, list⟩ ∈ g →
      g.members list = .node n :: ms → IsDistinctOf ((.node n :: ms).filterMap Term.value?) vs →
      r.inLiterals = none → r.inIris = some vs → TakesList g shape r

theorem takesList_facets (g : Graph) (shape : Node) : g.TakesList shape (g.facets (.node shape)) := by
  have hliterals : (g.facets (.node shape)).inLiterals =
      if g.allowsLiterals (.node shape) then some (g.allowedValues (.node shape)) else none := rfl
  have hiris : (g.facets (.node shape)).inIris =
      if g.allowsIris (.node shape) then some (g.allowedValues (.node shape)) else none := rfl
  rw [allowsLiterals, allowedValues] at hliterals
  rw [allowsIris, allowedValues] at hiris
  rcases g.allowedMembers_cases shape with ⟨hnil, he⟩ | ⟨list, hlist, hne, he⟩ <;> rw [he] at hliterals hiris
  · exact .unlisted hnil hliterals hiris
  · cases hmembers : g.members list with
    | nil => exact absurd hmembers hne
    | cons m ms =>
      rw [hmembers] at hliterals hiris
      cases m with
      | literal l => exact .literals hlist hmembers (isDistinctOf_eraseDups _) hliterals hiris
      | node n => exact .iris hlist hmembers (isDistinctOf_eraseDups _) hliterals hiris

/-- A record has the values of the list that has members, as literals or as IRIs by its first member, and none if there
is no such list. -/
structure Lists (g : Graph) (shape : Node) (r : Record) : Prop where
  one : r.inLiterals = none ∨ r.inIris = none
  listed : ∀ list m ms, ⟨shape, Sh.oneOf, list⟩ ∈ g → g.members list = m :: ms →
    ∃ vs, IsDistinctOf ((m :: ms).filterMap Term.value?) vs ∧
      ((∃ l, m = .literal l) ∧ r.inLiterals = some vs ∧ r.inIris = none ∨
        (∃ n, m = .node n) ∧ r.inLiterals = none ∧ r.inIris = some vs)
  unlisted : (∀ list, ⟨shape, Sh.oneOf, list⟩ ∈ g → g.members list = []) → r.inLiterals = none ∧ r.inIris = none

theorem Lists.congr {r r' : Record} (hr : g.Lists shape r) (hliterals : r.inLiterals = r'.inLiterals)
    (hiris : r.inIris = r'.inIris) : g.Lists shape r' := by
  obtain ⟨hone, hlisted, hunlisted⟩ := hr
  rw [hliterals, hiris] at hone hlisted hunlisted
  exact ⟨hone, hlisted, hunlisted⟩

/-- Where one list has members, it is the one that a record has the values of. -/
theorem TakesList.lists {r : Record} (hone : g.HasOneList shape) (hr : g.TakesList shape r) : g.Lists shape r := by
  have hsame : ∀ {a b m m' ms ms'}, ⟨shape, Sh.oneOf, a⟩ ∈ g → ⟨shape, Sh.oneOf, b⟩ ∈ g → g.members a = m :: ms →
      g.members b = m' :: ms' → m :: ms = m' :: ms' := by
    intro a b m m' ms ms' ha hb hma hmb
    obtain rfl := hone a b ha hb (hma ▸ List.cons_ne_nil m ms) (hmb ▸ List.cons_ne_nil m' ms')
    exact hma.symm.trans hmb
  cases hr with
  | unlisted hnil hliterals hiris =>
    refine ⟨.inl hliterals, fun list m ms hlist hm => ?_, fun _ => ⟨hliterals, hiris⟩⟩
    cases hm.symm.trans (hnil list hlist)
  | literals hlist hm hvs hliterals hiris =>
    refine ⟨.inr hiris, fun list' m' ms' hlist' hm' => ?_, fun hnil => ?_⟩
    · cases hsame hlist' hlist hm' hm
      exact ⟨_, hvs, .inl ⟨⟨_, rfl⟩, hliterals, hiris⟩⟩
    · cases hm.symm.trans (hnil _ hlist)
  | iris hlist hm hvs hliterals hiris =>
    refine ⟨.inl hliterals, fun list' m' ms' hlist' hm' => ?_, fun hnil => ?_⟩
    · cases hsame hlist' hlist hm' hm
      exact ⟨_, hvs, .inr ⟨⟨_, rfl⟩, hliterals, hiris⟩⟩
    · cases hm.symm.trans (hnil _ hlist)

/-- A property shape of which one list has members gives these to its records, in whatever order the triples come. A
list without members is the empty one, or is no list. -/
theorem allowed_values_listed (g : Graph) (shape : Node)
    (hfirst : ∀ n a b, ⟨n, Rdf.first, a⟩ ∈ g → ⟨n, Rdf.first, b⟩ ∈ g → a = b)
    (hrest : ∀ n a b, ⟨n, Rdf.rest, a⟩ ∈ g → ⟨n, Rdf.rest, b⟩ ∈ g → a = b) (hone : g.HasOneList shape) :
    (∀ h : Graph, g.triples.Perm h.triples → g.Lists shape (h.facets (.node shape)) ∧
      ∀ route r, h.IsRecordOf route r → route.shape = .node shape → g.Lists shape r) ∧
    ∀ t, g.members t = [] ↔ ∀ n, t = .node n → n ≠ .iri Rdf.nil →
      (∃ a, ⟨n, Rdf.first, a⟩ ∈ g) → ¬ ∃ b, ⟨n, Rdf.rest, b⟩ ∈ g := by
  refine ⟨fun h hp => ?_, fun t => members_eq_nil_iff⟩
  obtain ⟨hvalues, hliterals, hiris⟩ := allowed_congr (allowedMembers_eq_of_unique hp hfirst hrest hone)
  have hfacets : g.Lists shape (h.facets (.node shape)) := by
    refine ((takesList_facets g shape).lists hone).congr ?_ ?_
    · simp only [facets, hliterals, hvalues]
    · simp only [facets, hiris, hvalues]
  refine ⟨hfacets, ?_⟩
  rintro route r ⟨s, i, -, rfl, -⟩ hshape
  rw [← hshape] at hfacets
  exact hfacets.congr rfl rfl

/-- A property shape with an empty list, a literal in the place of a list, and a list of mixed members that comes back
to its start. Its first member is a blank node, and two of its members have one text. -/
def mixedGraph : Graph where
  triples :=
    [⟨.blank "p", Sh.oneOf, .node (.iri Rdf.nil)⟩,
      ⟨.blank "p", Sh.oneOf, .literal (.plain "3")⟩,
      ⟨.blank "p", Sh.oneOf, .node (.blank "a")⟩,
      ⟨.blank "a", Rdf.first, .node (.blank "x")⟩,
      ⟨.blank "a", Rdf.rest, .node (.blank "b")⟩,
      ⟨.blank "b", Rdf.first, .literal (.plain "u:#1")⟩,
      ⟨.blank "b", Rdf.rest, .node (.blank "c")⟩,
      ⟨.blank "c", Rdf.first, .literal (.plain "2")⟩,
      ⟨.blank "c", Rdf.rest, .node (.blank "d")⟩,
      ⟨.blank "d", Rdf.first, .node (.iri "u:#1")⟩,
      ⟨.blank "d", Rdf.rest, .node (.blank "a")⟩]
  nodup := by decide

theorem members_mixedGraph : mixedGraph.members (.node (.blank "a")) =
    [.node (.blank "x"), .literal (.plain "u:#1"), .literal (.plain "2"), .node (.iri "u:#1")] := by
  have hpool : (mixedGraph.triples.filter (·.predicate = Rdf.rest)).map (·.subject) =
      [.blank "a", .blank "b", .blank "c", .blank "d"] := by decide
  rw [members, hpool,
    membersFrom_cell (a := .node (.blank "x")) (b := .node (.blank "b")) ⟨by decide, rfl, rfl⟩ (by decide),
    membersFrom_cell (a := .literal (.plain "u:#1")) (b := .node (.blank "c")) ⟨by decide, rfl, rfl⟩ (by decide),
    membersFrom_cell (a := .literal (.plain "2")) (b := .node (.blank "d")) ⟨by decide, rfl, rfl⟩ (by decide),
    membersFrom_cell (a := .node (.iri "u:#1")) (b := .node (.blank "a")) ⟨by decide, rfl, rfl⟩ (by decide),
    membersFrom_of_notMem (by decide)]

theorem hasOneList_mixedGraph : mixedGraph.HasOneList (.blank "p") := by
  have hlists : ∀ t ∈ mixedGraph.triples, t.predicate = Sh.oneOf →
      t.object = .node (.iri Rdf.nil) ∨ t.object = .literal (.plain "3") ∨ t.object = .node (.blank "a") := by decide
  have hlist : ∀ list, ⟨.blank "p", Sh.oneOf, list⟩ ∈ mixedGraph → mixedGraph.members list ≠ [] →
      list = .node (.blank "a") := by
    intro list hlist hne
    rcases hlists _ hlist rfl with he | he | he
    · cases he
      exact absurd (members_eq_nil_iff.2 fun n hn hnil => absurd (Term.node.inj hn).symm hnil) hne
    · cases he
      exact absurd (members_eq_nil_iff.2 fun _ hn => by cases hn) hne
    · exact he
  exact fun a b ha hb hna hnb => (hlist a ha hna).trans (hlist b hb hnb).symm

theorem allowed_values_listed_mixedGraph :
    mixedGraph.HasOneList (.blank "p") ∧ (mixedGraph.facets (.node (.blank "p"))).inLiterals = none ∧
    (mixedGraph.facets (.node (.blank "p"))).inIris = some ["u:#1", "2"] := by
  have hunique : ∀ p ∈ [Rdf.first, Rdf.rest], ∀ s ∈ mixedGraph.triples, ∀ t ∈ mixedGraph.triples, s.predicate = p →
      t.predicate = p → s.subject = t.subject → s.object = t.object := by decide
  have hfirst : ∀ n a b, ⟨n, Rdf.first, a⟩ ∈ mixedGraph → ⟨n, Rdf.first, b⟩ ∈ mixedGraph → a = b :=
    fun n a b ha hb => hunique Rdf.first (by decide) _ ha _ hb rfl rfl rfl
  have hrest : ∀ n a b, ⟨n, Rdf.rest, a⟩ ∈ mixedGraph → ⟨n, Rdf.rest, b⟩ ∈ mixedGraph → a = b :=
    fun n a b ha hb => hunique Rdf.rest (by decide) _ ha _ hb rfl rfl rfl
  have hone := hasOneList_mixedGraph
  obtain ⟨hlists, -⟩ := (allowed_values_listed mixedGraph (.blank "p") hfirst hrest hone).1 mixedGraph (.refl _)
  have hmem : ⟨.blank "p", Sh.oneOf, .node (.blank "a")⟩ ∈ mixedGraph.triples := by decide
  obtain ⟨vs, hvs, ⟨⟨l, hl⟩, -⟩ | ⟨-, hliterals, hiris⟩⟩ := hlists.listed _ _ _ hmem members_mixedGraph
  · cases hl
  · have hdistinct := hvs.unique (isDistinctOf_eraseDups _)
    refine ⟨hone, hliterals, ?_⟩
    rw [hiris, hdistinct]
    decide

end Graph

end ShapePlan
