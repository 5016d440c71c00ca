/-
Graphs: finite sets of triples, and the two look-ups on which everything else is built.
-/
import ShapePlan.NameSet
import ShapePlan.Rdf.Term

namespace ShapePlan

structure Triple where
  subject : Node
  predicate : String
  object : Term
deriving DecidableEq, Repr

def Triple.text (t : Triple) : String := t.subject.text ++ " " ++ bracket t.predicate ++ " " ++ t.object.text

/-- The triples of a graph, each once. -/
structure Graph where
  triples : List Triple := []
  nodup : triples.Nodup := by simp
deriving DecidableEq, Repr

namespace Graph

instance : Membership Triple Graph := ⟨fun g t => t ∈ g.triples⟩

def insert (g : Graph) (t : Triple) : Graph :=
  if h : t ∈ g.triples then g
  else ⟨t :: g.triples, List.nodup_cons.2 ⟨h, g.nodup⟩⟩

theorem mem_insert {g : Graph} {s t : Triple} : s ∈ g.insert t ↔ s = t ∨ s ∈ g := by
  simp only [insert, Membership.mem]
  split
  · rename_i h
    exact ⟨.inr, fun h' => h'.elim (fun e => e ▸ h) id⟩
  · exact List.mem_cons

def ofList (ts : List Triple) : Graph := ts.foldl insert {}

theorem mem_foldl_insert {ts : List Triple} {g : Graph} {s : Triple} :
    s ∈ ts.foldl insert g ↔ s ∈ g ∨ s ∈ ts := by
  induction ts generalizing g with
  | nil => simp
  | cons t r ih =>
    rw [List.foldl_cons, ih, mem_insert, List.mem_cons]
    grind

theorem mem_ofList {ts : List Triple} {s : Triple} : s ∈ ofList ts ↔ s ∈ ts := by
  have h : ¬ s ∈ ({} : Graph) := by
    intro h
    exact absurd h List.not_mem_nil
  rw [ofList, mem_foldl_insert]
  exact ⟨fun h' => h'.resolve_left h, Or.inr⟩

/-- The texts of the triples in order. -/
def texts (g : Graph) : List String := (NameSet.ofList (g.triples.map Triple.text)).elems

/-! ## Look-ups -/

/-- The objects of a node's triples with a predicate. -/
def objects (g : Graph) (s : Node) (p : String) : List Term :=
  (g.triples.filter fun t => t.subject = s ∧ t.predicate = p).map (·.object)

/-- The subjects of the triples with a predicate and an object. -/
def subjects (g : Graph) (p : String) (o : Term) : List Node :=
  (g.triples.filter fun t => t.predicate = p ∧ t.object = o).map (·.subject)

theorem mem_objects {g : Graph} {s : Node} {p : String} {o : Term} : o ∈ g.objects s p ↔ ⟨s, p, o⟩ ∈ g := by
  simp only [objects, List.mem_map, List.mem_filter, decide_eq_true_eq]
  constructor
  · rintro ⟨⟨_, _, _⟩, ⟨h, rfl, rfl⟩, rfl⟩
    exact h
  · exact fun h => ⟨_, ⟨h, rfl, rfl⟩, rfl⟩

theorem mem_subjects {g : Graph} {s : Node} {p : String} {o : Term} : s ∈ g.subjects p o ↔ ⟨s, p, o⟩ ∈ g := by
  simp only [subjects, List.mem_map, List.mem_filter, decide_eq_true_eq]
  constructor
  · rintro ⟨⟨_, _, _⟩, ⟨h, rfl, rfl⟩, rfl⟩
    exact h
  · exact fun h => ⟨_, ⟨h, rfl, rfl⟩, rfl⟩

/-- The objects of a term. A literal has none. -/
def values (g : Graph) (t : Term) (p : String) : List Term :=
  match t with
  | .node n => g.objects n p
  | .literal _ => []

/-- The IRIs among the objects of a term. -/
def iris (g : Graph) (t : Term) (p : String) : NameSet := NameSet.ofList ((g.values t p).filterMap Term.iri?)

def isClass (g : Graph) (n : Node) : Bool := (g.objects n Rdf.type).contains (.node (.iri Rdf.classOfClasses))

/-! ## Lists -/

def without (n : Node) (pool : List Node) : List Node := pool.filter (· ≠ n)

theorem length_without {n : Node} {pool : List Node} (h : n ∈ pool) : (without n pool).length < pool.length :=
  List.length_filter_lt_length_iff_exists.2 ⟨n, h, by simp⟩

/-- The members of the list that starts at a term. It ends at the empty list, at a node without first member or rest,
and at a node that is not in `pool`, which holds the nodes that the walk may still visit. -/
def membersFrom (g : Graph) (pool : List Node) (t : Term) : List Term :=
  match t with
  | .literal _ => []
  | .node n =>
    if n = .iri Rdf.nil then []
    else if _ : n ∈ pool then
      match (g.objects n Rdf.first).head?, (g.objects n Rdf.rest).head? with
      | some first, some rest => first :: membersFrom g (without n pool) rest
      | _, _ => []
    else []
termination_by pool.length
decreasing_by
  exact length_without (by assumption)

/-- The members of a list. Only nodes with a rest need to be visited, and each once. -/
def members (g : Graph) (t : Term) : List Term :=
  g.membersFrom ((g.triples.filter (·.predicate = Rdf.rest)).map (·.subject)) t

end Graph

end ShapePlan
