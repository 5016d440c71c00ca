/-
The members of lists. A walk along a list looks at the first member and the rest of each node and at nothing else, so
graphs that agree on those have the same lists; and where a node has one first member and one rest, the order of the
triples does not matter. No member is lost where a list comes back to itself.
-/
import ShapePlan.Rdf.Graph

namespace ShapePlan

/-- Lists of equal elements have one order. -/
theorem perm_eq_of_subsingleton {α : Type} {l m : List α} (hp : l.Perm m) (h : ∀ a ∈ l, ∀ b ∈ l, a = b) : l = m := by
  have hall (k : List α) : k.Pairwise fun _ _ => True := List.pairwise_of_forall fun _ _ => trivial
  exact List.Perm.eq_of_pairwise (fun a b ha hb _ _ => h a ha b (hp.symm.subset hb)) (hall l) (hall m) hp

namespace Graph

variable {g h : Graph}

/-! ## The order of the triples -/

theorem objects_perm (hp : g.triples.Perm h.triples) (s : Node) (p : String) :
    (g.objects s p).Perm (h.objects s p) := (hp.filter _).map _

theorem values_perm (hp : g.triples.Perm h.triples) (t : Term) (p : String) : (g.values t p).Perm (h.values t p) := by
  cases t with
  | node n => exact objects_perm hp n p
  | literal l => exact .nil

/-- A node with one object has it first in every order. -/
theorem objects_eq_of_unique (hp : g.triples.Perm h.triples) {s : Node} {p : String}
    (hu : ∀ a b, ⟨s, p, a⟩ ∈ g → ⟨s, p, b⟩ ∈ g → a = b) : g.objects s p = h.objects s p :=
  perm_eq_of_subsingleton (objects_perm hp s p) fun a ha b hb => hu a b (mem_objects.1 ha) (mem_objects.1 hb)

/-! ## Walks along lists -/

/-- A node of a list other than the empty one, with its first member and its rest. Of several the first one counts. -/
def IsCell (g : Graph) (n : Node) (first rest : Term) : Prop :=
  n ≠ .iri Rdf.nil ∧ (g.objects n Rdf.first).head? = some first ∧ (g.objects n Rdf.rest).head? = some rest

theorem IsCell.first_mem {n : Node} {a b : Term} (hc : g.IsCell n a b) : ⟨n, Rdf.first, a⟩ ∈ g :=
  mem_objects.1 (List.mem_of_mem_head? hc.2.1)

theorem IsCell.rest_mem {n : Node} {a b : Term} (hc : g.IsCell n a b) : ⟨n, Rdf.rest, b⟩ ∈ g :=
  mem_objects.1 (List.mem_of_mem_head? hc.2.2)

theorem mem_without {m n : Node} {pool : List Node} : m ∈ without n pool ↔ m ∈ pool ∧ m ≠ n := by
  simp [without]

theorem mem_map_subject {n : Node} {p : String} :
    n ∈ (g.triples.filter (·.predicate = p)).map (·.subject) ↔ ∃ o, ⟨n, p, o⟩ ∈ g := by
  simp only [List.mem_map, List.mem_filter, decide_eq_true_eq]
  constructor
  · rintro ⟨⟨_, _, o⟩, ⟨ht, rfl⟩, rfl⟩
    exact ⟨o, ht⟩
  · rintro ⟨o, ho⟩
    exact ⟨_, ⟨ho, rfl⟩, rfl⟩

theorem membersFrom_cell {n : Node} {a b : Term} {pool : List Node} (hc : g.IsCell n a b) (hn : n ∈ pool) :
    g.membersFrom pool (.node n) = a :: g.membersFrom (without n pool) b := by
  rw [membersFrom, if_neg hc.1, dif_pos hn, hc.2.1, hc.2.2]

theorem membersFrom_end {pool : List Node} {t : Term}
    (hend : ∀ n a b, t = .node n → n ∈ pool → ¬ g.IsCell n a b) : g.membersFrom pool t = [] := by
  fun_cases membersFrom g pool t with
  | case1 l => rfl
  | case2 => rfl
  | case3 n hnil hn first rest hr hf => exact absurd ⟨hnil, hf, hr⟩ (hend n first rest rfl hn)
  | case4 n hnil hn hnone => rfl
  | case5 n hnil hn => rfl

theorem membersFrom_of_notMem {n : Node} {pool : List Node} (hn : n ∉ pool) : g.membersFrom pool (.node n) = [] :=
  membersFrom_end fun _ _ _ hm hp _ => hn (Term.node.inj hm ▸ hp)

/-- Induction along a walk: it ends at a term that is no cell of the pool, or goes on at the rest of one without it. -/
theorem membersFrom_induction (g : Graph) {P : List Node → Term → Prop}
    (ends : ∀ pool t, (∀ n a b, t = .node n → n ∈ pool → ¬ g.IsCell n a b) → P pool t)
    (cell : ∀ pool n a b, n ∈ pool → g.IsCell n a b → P (without n pool) b → P pool (.node n))
    (pool : List Node) (t : Term) : P pool t := by
  fun_induction membersFrom g pool t with
  | case1 pool l => exact ends pool _ nofun
  | case2 pool =>
    refine ends pool _ fun n a b hn _ hc => ?_
    exact hc.1 (Term.node.inj hn).symm
  | case3 pool n hnil hn first rest hr hf ih => exact cell pool n first rest hn ⟨hnil, hf, hr⟩ ih
  | case4 pool n hnil hn hnone =>
    refine ends pool _ fun m a b hm _ hc => ?_
    cases hm
    exact hnone a b hc.2.1 hc.2.2
  | case5 pool n hnil hn =>
    refine ends pool _ fun m a b hm hp _ => ?_
    cases hm
    exact hn hp

/-! ## Lists in two graphs -/

theorem membersFrom_congr (hfirst : ∀ n, g.objects n Rdf.first = h.objects n Rdf.first)
    (hrest : ∀ n, g.objects n Rdf.rest = h.objects n Rdf.rest) {pool pool' : List Node}
    (hpool : ∀ n, n ∈ pool ↔ n ∈ pool') (t : Term) : g.membersFrom pool t = h.membersFrom pool' t := by
  have hcell : ∀ n a b, g.IsCell n a b ↔ h.IsCell n a b := fun n a b => by rw [IsCell, IsCell, hfirst, hrest]
  induction pool, t using g.membersFrom_induction generalizing pool' with
  | ends pool t hend =>
    rw [membersFrom_end hend, membersFrom_end fun n a b ht hn hc => hend n a b ht ((hpool n).2 hn) ((hcell n a b).2 hc)]
  | cell pool n a b hn hc ih =>
    have hwithout : ∀ m, m ∈ without n pool ↔ m ∈ without n pool' := fun m => by
      rw [mem_without, mem_without, hpool]
    rw [membersFrom_cell hc hn, membersFrom_cell ((hcell n a b).1 hc) ((hpool n).1 hn), ih hwithout]

theorem members_congr (hfirst : ∀ n, g.objects n Rdf.first = h.objects n Rdf.first)
    (hrest : ∀ n, g.objects n Rdf.rest = h.objects n Rdf.rest) : g.members = h.members := by
  funext t
  refine membersFrom_congr hfirst hrest (fun n => ?_) t
  simp only [mem_map_subject, ← mem_objects, hrest]

/-- Where a node has one first member and one rest, its list is the same in every order of the triples. -/
theorem members_eq_of_unique (hp : g.triples.Perm h.triples)
    (hfirst : ∀ n a b, ⟨n, Rdf.first, a⟩ ∈ g → ⟨n, Rdf.first, b⟩ ∈ g → a = b)
    (hrest : ∀ n a b, ⟨n, Rdf.rest, a⟩ ∈ g → ⟨n, Rdf.rest, b⟩ ∈ g → a = b) : g.members = h.members :=
  members_congr (fun n => objects_eq_of_unique hp (hfirst n)) fun n => objects_eq_of_unique hp (hrest n)

/-! ## Members of lists -/

/-- A member of the list that starts at a term, which may come back to itself. -/
inductive HasMember (g : Graph) : Term → Term → Prop where
  | first {n : Node} {a b : Term} : g.IsCell n a b → HasMember g (.node n) a
  | rest {n : Node} {a b x : Term} : g.IsCell n a b → HasMember g b x → HasMember g (.node n) x

theorem hasMember_of_mem_membersFrom {pool : List Node} {t x : Term} (h : x ∈ g.membersFrom pool t) :
    g.HasMember t x := by
  induction pool, t using g.membersFrom_induction with
  | ends pool t hend =>
    rw [membersFrom_end hend] at h
    cases h
  | cell pool n a b hn hc ih =>
    rw [membersFrom_cell hc hn] at h
    rcases List.mem_cons.1 h with rfl | h
    · exact .first hc
    · exact .rest hc (ih h)

/-- A term at which a walk may end: it was visited, or may not be, or is no cell. -/
def EndsAt (g : Graph) (pool visited : List Node) (t : Term) : Prop :=
  ∀ n, t = .node n → n ∈ visited ∨ n ∉ pool ∨ ∀ a b, ¬ g.IsCell n a b

/-- A walk visits nodes until it comes to an end; the first members of all of them are found. -/
theorem exists_visited (g : Graph) (pool : List Node) (t : Term) : ∃ visited, g.EndsAt pool visited t ∧
    ∀ n ∈ visited, ∀ a b, g.IsCell n a b → a ∈ g.membersFrom pool t ∧ g.EndsAt pool visited b := by
  induction pool, t using g.membersFrom_induction with
  | ends pool t hend =>
    refine ⟨[], fun n hn => ?_, List.forall_mem_nil _⟩
    by_cases hp : n ∈ pool
    · exact .inr (.inr fun a b => hend n a b hn hp)
    · exact .inr (.inl hp)
  | cell pool n first rest hn hcell ih =>
    obtain ⟨visited, hrest, hvisited⟩ := ih
    rw [membersFrom_cell hcell hn]
    have hends : ∀ {u}, g.EndsAt (without n pool) visited u → g.EndsAt pool (n :: visited) u := by
      intro u hu m hm
      rcases hu m hm with h | h | h
      · exact .inl (List.mem_cons_of_mem _ h)
      · by_cases hmn : m = n
        · exact .inl (hmn ▸ List.mem_cons_self)
        · exact .inr (.inl fun hp => h (mem_without.2 ⟨hp, hmn⟩))
      · exact .inr (.inr h)
    refine ⟨n :: visited, ?_, ?_⟩
    · rintro _ ⟨⟩
      exact .inl List.mem_cons_self
    · intro m hm a b hc
      rcases List.mem_cons.1 hm with rfl | hm
      · obtain rfl : first = a := Option.some.inj (hcell.2.1.symm.trans hc.2.1)
        obtain rfl : rest = b := Option.some.inj (hcell.2.2.symm.trans hc.2.2)
        exact ⟨List.mem_cons_self, hends hrest⟩
      · obtain ⟨ha, hb⟩ := hvisited m hm a b hc
        exact ⟨List.mem_cons_of_mem _ ha, hends hb⟩

theorem mem_membersFrom_of_hasMember {pool : List Node} (hpool : ∀ n a b, g.IsCell n a b → n ∈ pool) {t x : Term}
    (h : g.HasMember t x) : x ∈ g.membersFrom pool t := by
  obtain ⟨visited, hstart, hvisited⟩ := g.exists_visited pool t
  have hmem : ∀ {n a b}, g.IsCell n a b → g.EndsAt pool visited (.node n) → n ∈ visited := by
    intro n a b hc hend
    rcases hend n rfl with h | h | h
    · exact h
    · exact absurd (hpool n a b hc) h
    · exact absurd hc (h a b)
  have hall : ∀ {u y}, g.HasMember u y → g.EndsAt pool visited u → y ∈ g.membersFrom pool t := by
    intro u y hu hend
    induction hu with
    | first hc => exact (hvisited _ (hmem hc hend) _ _ hc).1
    | rest hc _ ih => exact ih (hvisited _ (hmem hc hend) _ _ hc).2
  exact hall h hstart

theorem mem_members {t x : Term} : x ∈ g.members t ↔ g.HasMember t x := by
  refine ⟨hasMember_of_mem_membersFrom, mem_membersFrom_of_hasMember fun n a b hc => ?_⟩
  exact mem_map_subject.2 ⟨b, hc.rest_mem⟩

theorem exists_isCell {n : Node} : (∃ a b, g.IsCell n a b) ↔
    n ≠ .iri Rdf.nil ∧ (∃ a, ⟨n, Rdf.first, a⟩ ∈ g) ∧ ∃ b, ⟨n, Rdf.rest, b⟩ ∈ g := by
  have hhead (p : String) : (∃ a, (g.objects n p).head? = some a) ↔ ∃ a, ⟨n, p, a⟩ ∈ g := by
    simp only [← mem_objects]
    cases g.objects n p with
    | nil => simp
    | cons a l => exact ⟨fun _ => ⟨a, List.mem_cons_self⟩, fun _ => ⟨a, rfl⟩⟩
  rw [← hhead, ← hhead]
  constructor
  · rintro ⟨a, b, hnil, ha, hb⟩
    exact ⟨hnil, ⟨a, ha⟩, b, hb⟩
  · rintro ⟨hnil, ⟨a, ha⟩, b, hb⟩
    exact ⟨a, b, hnil, ha, hb⟩

/-- A list without members is the empty one, or no list: a literal, or a node without a first member or a rest. -/
theorem members_eq_nil_iff {t : Term} : g.members t = [] ↔ ∀ n, t = .node n → n ≠ .iri Rdf.nil →
    (∃ a, ⟨n, Rdf.first, a⟩ ∈ g) → ¬ ∃ b, ⟨n, Rdf.rest, b⟩ ∈ g := by
  rw [List.eq_nil_iff_forall_not_mem]
  simp only [mem_members]
  constructor
  · rintro h n rfl hnil hfirst hrest
    obtain ⟨a, b, hc⟩ := exists_isCell.2 ⟨hnil, hfirst, hrest⟩
    exact h a (.first hc)
  · intro h x hx
    have hcell : ∀ {n a b}, t = .node n → ¬ g.IsCell n a b := fun {n a b} ht hc => by
      obtain ⟨hnil, hfirst, hrest⟩ := exists_isCell.1 ⟨a, b, hc⟩
      exact h n ht hnil hfirst hrest
    cases hx with
    | first hc => exact hcell rfl hc
    | rest hc _ => exact hcell rfl hc

end Graph

end ShapePlan
