/-
Walks along lists, turn by turn. A walk remembers the terms it came by and ends when it comes back to one of them, at
the empty list, and at a term without a first member or a rest. Each turn that goes on takes one away from the nodes
with a rest that were not visited yet, so every walk ends, however the lists of the graph hang together.

What it finds are the first members of different nodes, each the rest of the one before it. If every node has at most
one rest, no longer row of such nodes starts there. A well-formed list has no node twice and is found as it is.
-/
import Mathlib.Data.List.Chain
import Mathlib.Data.List.Forall2
import Mathlib.Data.List.Nodup
import ShapePlan.Proofs.Rdf.Members

namespace ShapePlan

/-- A walk along a list: the members found, the terms visited, both in order, and the term to look at next. -/
structure Walk where
  members : List Term := []
  visited : List Term := []
  current : Term
deriving DecidableEq, Repr

namespace Walk

/-- One turn of a walk. A term without a first member or a rest is the last one visited. -/
def turn (g : Graph) (w : Walk) : ForInStep Walk :=
  if w.current = .node (.iri Rdf.nil) ∨ w.current ∈ w.visited then .done w
  else
    match (g.values w.current Rdf.first).head?, (g.values w.current Rdf.rest).head? with
    | some first, some rest => .yield ⟨w.members ++ [first], w.visited ++ [w.current], rest⟩
    | _, _ => .done { w with visited := w.visited ++ [w.current] }

/-- The walk at its end, if it ends within a number of turns. -/
def run (g : Graph) : Nat → Walk → Option Walk
  | 0, _ => none
  | k + 1, w =>
    match w.turn g with
    | .done w' => some w'
    | .yield w' => run g k w'

variable {g : Graph} {w w' : Walk} {pool : List Node}

theorem run_done (h : w.turn g = .done w') (k : Nat) : w.run g (k + 1) = some w' := by rw [run, h]

theorem run_yield (h : w.turn g = .yield w') (k : Nat) : w.run g (k + 1) = w'.run g k := by rw [run, h]

/-- More turns do not change how a walk ends. -/
theorem run_of_le {j k : Nat} (hjk : j ≤ k) (h : w.run g j = some w') : w.run g k = some w' := by
  induction j generalizing k w with
  | zero => cases h
  | succ j ih =>
    obtain ⟨k, rfl⟩ : ∃ i, k = i + 1 := ⟨k - 1, by omega⟩
    cases ht : w.turn g with
    | done v => rwa [run_done ht] at h ⊢
    | yield v =>
      rw [run_yield ht] at h ⊢
      exact ih (by omega) h

/-! ## Turns -/

theorem nodup_visit {l : List Term} {t : Term} (hl : l.Nodup) (ht : t ∉ l) : (l ++ [t]).Nodup :=
  List.concat_eq_append ▸ hl.concat ht

theorem turn_cell {n : Node} {a b : Term} (ht : w.current = .node n) (hc : g.IsCell n a b)
    (hn : .node n ∉ w.visited) : w.turn g = .yield ⟨w.members ++ [a], w.visited ++ [.node n], b⟩ := by
  have hgo : ¬ (w.current = .node (.iri Rdf.nil) ∨ w.current ∈ w.visited) := by
    rw [ht]
    rintro (h | h)
    · exact hc.1 (Term.node.inj h)
    · exact hn h
  rw [turn, if_neg hgo, ht, Graph.values, Graph.values, hc.2.1, hc.2.2]

/-- A walk ends at a term that is no node of a list, or was visited. -/
theorem turn_end (hend : ∀ n a b, w.current = .node n → g.IsCell n a b → .node n ∈ w.visited)
    (hw : w.visited.Nodup) : ∃ visited, w.turn g = .done { w with visited := visited } ∧ visited.Nodup := by
  rw [turn]
  split
  · exact ⟨w.visited, rfl, hw⟩
  · next hgo =>
    rw [not_or] at hgo
    split
    · next first rest hf hr =>
      cases ht : w.current with
      | node n =>
        rw [ht] at hgo hf hr
        exact absurd (hend n first rest ht ⟨fun h => hgo.1 (congrArg Term.node h), hf, hr⟩) hgo.2
      | literal l =>
        rw [ht] at hf
        cases hf
    · exact ⟨_, rfl, nodup_visit hw hgo.2⟩

/-! ## Whole walks -/

/-- What holds between the turns of a walk: no term was visited twice, and `pool` has the nodes with a rest that were
not visited. -/
structure Inv (g : Graph) (pool : List Node) (w : Walk) : Prop where
  nodup : w.visited.Nodup
  mem_pool : ∀ n, n ∈ pool ↔ (∃ b, ⟨n, Rdf.rest, b⟩ ∈ g) ∧ .node n ∉ w.visited

theorem Inv.visit {n : Node} (hw : Inv g pool w) (hn : n ∈ pool) (members : List Term) (rest : Term) :
    Inv g (Graph.without n pool) ⟨members, w.visited ++ [.node n], rest⟩ where
  nodup := nodup_visit hw.nodup ((hw.mem_pool n).1 hn).2
  mem_pool m := by
    rw [Graph.mem_without, hw.mem_pool, List.mem_append, List.mem_singleton, Term.node.injEq, not_or, and_assoc]

/-- A walk ends within as many turns as there are nodes to visit, and one more. -/
theorem exists_run {t : Term} {k : Nat} (ht : w.current = t) (hw : Inv g pool w) (hk : pool.length < k) :
    ∃ w', w.run g k = some w' ∧ w'.visited.Nodup ∧ w'.members = w.members ++ g.membersFrom pool t := by
  obtain ⟨k, rfl⟩ : ∃ i, k = i + 1 := ⟨k - 1, by omega⟩
  -- what is left of the pool is what was not visited, so a turn goes on where `membersFrom` does
  induction pool, t using g.membersFrom_induction generalizing w k with
  | ends pool t hend =>
    have hvisited : ∀ n a b, w.current = .node n → g.IsCell n a b → .node n ∈ w.visited := by
      intro n a b hn hc
      by_contra hnot
      exact hend n a b (ht.symm.trans hn) ((hw.mem_pool n).2 ⟨⟨b, hc.rest_mem⟩, hnot⟩) hc
    obtain ⟨visited, hturn, hnodup⟩ := turn_end hvisited hw.nodup
    exact ⟨_, run_done hturn k, hnodup, by rw [Graph.membersFrom_end hend, List.append_nil]⟩
  | cell pool n a b hn hc ih =>
    have hlt := Graph.length_without hn
    obtain ⟨j, rfl⟩ : ∃ i, k = i + 1 := ⟨k - 1, by omega⟩
    obtain ⟨w', hrun, hnodup, hmembers⟩ := ih rfl (hw.visit hn (w.members ++ [a]) b) j (by omega)
    refine ⟨w', ?_, hnodup, ?_⟩
    · rw [run_yield (turn_cell ht hc ((hw.mem_pool n).1 hn).2), hrun]
    · rw [hmembers, Graph.membersFrom_cell hc hn, List.append_assoc, List.singleton_append]

end Walk

namespace Graph

variable {g : Graph} {t : Term}

/-- The walk from a term ends, with the members of the list. -/
theorem exists_run_members (g : Graph) (t : Term) :
    ∃ w, (∀ k, g.triples.countP (·.predicate = Rdf.rest) < k → Walk.run g k { current := t } = some w) ∧
      w.visited.Nodup ∧ w.members = g.members t := by
  have hinv : Walk.Inv g ((g.triples.filter (·.predicate = Rdf.rest)).map (·.subject)) { current := t } :=
    ⟨List.nodup_nil, fun n => mem_map_subject.trans (and_iff_left List.not_mem_nil).symm⟩
  have hlen : ((g.triples.filter (·.predicate = Rdf.rest)).map (·.subject)).length =
      g.triples.countP (·.predicate = Rdf.rest) := by
    rw [List.length_map, List.countP_eq_length_filter]
  obtain ⟨w, hrun, hnodup, hmembers⟩ := Walk.exists_run rfl hinv (hlen.trans_lt (Nat.lt_succ_self _))
  exact ⟨w, fun k hk => Walk.run_of_le hk hrun, hnodup, hmembers⟩

/-! ## The nodes along a list -/

/-- Nodes in a row from a term on, each but the first the rest of the one before it: all different, none the empty list,
and each with a first member and a rest. -/
structure IsSpine (g : Graph) (t : Term) (ns : List Node) : Prop where
  start : ∀ n ∈ ns.head?, t = .node n
  next : ns.IsChain fun m n => ⟨m, Rdf.rest, .node n⟩ ∈ g
  nodup : ns.Nodup
  ne_nil : ∀ n ∈ ns, n ≠ .iri Rdf.nil
  first : ∀ n ∈ ns, ∃ a, ⟨n, Rdf.first, a⟩ ∈ g
  rest : ∀ n ∈ ns, ∃ b, ⟨n, Rdf.rest, b⟩ ∈ g

theorem isSpine_nil : g.IsSpine t [] :=
  ⟨nofun, .nil, .nil, List.forall_mem_nil _, List.forall_mem_nil _, List.forall_mem_nil _⟩

theorem IsSpine.cons {n : Node} {ns : List Node} {a b : Term} (hc : g.IsCell n a b) (hn : n ∉ ns)
    (hs : g.IsSpine b ns) : g.IsSpine (.node n) (n :: ns) where
  start := by
    rintro _ ⟨⟩
    rfl
  next := List.isChain_cons.2 ⟨fun m hm => hs.start m hm ▸ hc.rest_mem, hs.next⟩
  nodup := List.nodup_cons.2 ⟨hn, hs.nodup⟩
  ne_nil := List.forall_mem_cons.2 ⟨hc.1, hs.ne_nil⟩
  first := List.forall_mem_cons.2 ⟨⟨a, hc.first_mem⟩, hs.first⟩
  rest := List.forall_mem_cons.2 ⟨⟨b, hc.rest_mem⟩, hs.rest⟩

/-- A row goes on at the rest of its first node, if that has one rest. -/
theorem IsSpine.tail {n : Node} {ns : List Node} {b : Term} (hs : g.IsSpine t (n :: ns))
    (hb : ∀ b', ⟨n, Rdf.rest, b'⟩ ∈ g → b' = b) : g.IsSpine b ns where
  start m hm := (hb _ ((List.isChain_cons.1 hs.next).1 m hm)).symm
  next := hs.next.tail
  nodup := hs.nodup.of_cons
  ne_nil m hm := hs.ne_nil m (List.mem_cons_of_mem n hm)
  first m hm := hs.first m (List.mem_cons_of_mem n hm)
  rest m hm := hs.rest m (List.mem_cons_of_mem n hm)

theorem IsSpine.isCell {n : Node} {ns : List Node} (hs : g.IsSpine t (n :: ns)) : ∃ a b, g.IsCell n a b :=
  exists_isCell.2 ⟨hs.ne_nil n List.mem_cons_self, hs.first n List.mem_cons_self, hs.rest n List.mem_cons_self⟩

/-- A walk finds the first members of nodes in a row. No longer row of nodes of the pool starts there if every node has
at most one rest. -/
theorem exists_isSpine (g : Graph) (pool : List Node) (t : Term) : ∃ ns, g.IsSpine t ns ∧ (∀ n ∈ ns, n ∈ pool) ∧
    List.Forall₂ (fun n a => ⟨n, Rdf.first, a⟩ ∈ g) ns (g.membersFrom pool t) ∧
    ((∀ n a b, ⟨n, Rdf.rest, a⟩ ∈ g → ⟨n, Rdf.rest, b⟩ ∈ g → a = b) →
      ∀ ms, g.IsSpine t ms → (∀ m ∈ ms, m ∈ pool) → ms <+: ns) := by
  induction pool, t using g.membersFrom_induction with
  | ends pool t hend =>
    rw [membersFrom_end hend]
    refine ⟨[], isSpine_nil, List.forall_mem_nil _, .nil, fun _ ms hms hpool => ?_⟩
    cases ms with
    | nil => exact List.prefix_rfl
    | cons m ms =>
      obtain ⟨a, b, hc⟩ := hms.isCell
      exact absurd hc (hend m a b (hms.start m rfl) (hpool m List.mem_cons_self))
  | cell pool n a b hn hc ih =>
    obtain ⟨ns, hs, hpool, hfirst, hlongest⟩ := ih
    have hnot : n ∉ ns := fun h => (mem_without.1 (hpool n h)).2 rfl
    rw [membersFrom_cell hc hn]
    refine ⟨n :: ns, hs.cons hc hnot, List.forall_mem_cons.2 ⟨hn, fun m hm => (mem_without.1 (hpool m hm)).1⟩,
      .cons hc.first_mem hfirst, fun hrest ms hms hmem => ?_⟩
    cases ms with
    | nil => exact List.nil_prefix
    | cons m ms =>
      cases hms.start m rfl
      have htail : g.IsSpine b ms := hms.tail fun b' hb' => hrest n b' b hb' hc.rest_mem
      -- the first node does not come again, so the others are among those that remain
      have hmem' : ∀ m ∈ ms, m ∈ without n pool := fun m hm =>
        mem_without.2 ⟨hmem m (List.mem_cons_of_mem n hm), fun h => (List.nodup_cons.1 hms.nodup).1 (h ▸ hm)⟩
      exact (List.prefix_cons_inj n).2 (hlongest hrest ms htail hmem')

/-! ## Well-formed lists -/

/-- A term as a well-formed list: the empty one, or a node with one first member and one rest, which is such a list. -/
inductive Encodes (g : Graph) : Term → List Term → Prop where
  | nil : Encodes g (.node (.iri Rdf.nil)) []
  | cons {n : Node} {a b : Term} {l : List Term} : n ≠ .iri Rdf.nil → (∀ x, ⟨n, Rdf.first, x⟩ ∈ g ↔ x = a) →
    (∀ x, ⟨n, Rdf.rest, x⟩ ∈ g ↔ x = b) → Encodes g b l → Encodes g (.node n) (a :: l)

theorem Encodes.unique {l l' : List Term} (h : g.Encodes t l) (h' : g.Encodes t l') : l = l' := by
  induction h generalizing l' with
  | nil =>
    cases h' with
    | nil => rfl
    | cons hnil => exact absurd rfl hnil
  | @cons n a b l hnil hfirst hrest _ ih =>
    cases h' with
    | nil => exact absurd rfl hnil
    | cons _ hfirst' hrest' hl' =>
      obtain rfl := (hfirst' a).1 ((hfirst a).2 rfl)
      obtain rfl := (hrest' b).1 ((hrest b).2 rfl)
      exact congrArg (a :: ·) (ih hl')

theorem head?_objects_of_unique {n : Node} {p : String} {a : Term} (h : ∀ x, ⟨n, p, x⟩ ∈ g ↔ x = a) :
    (g.objects n p).head? = some a := by
  cases hl : g.objects n p with
  | nil =>
    have ha := mem_objects.2 ((h a).2 rfl)
    rw [hl] at ha
    cases ha
  | cons x l =>
    have hx : x ∈ g.objects n p := hl ▸ List.mem_cons_self
    exact congrArg some ((h x).1 (mem_objects.1 hx))

/-- A well-formed list does not come back to a node, as each rest encodes fewer members than the node before it. So it
is enough that the pool has the nodes that encode at most as many members. -/
theorem membersFrom_encodes {pool : List Node} {l : List Term} (h : g.Encodes t l)
    (hpool : ∀ n a l', g.Encodes (.node n) (a :: l') → l'.length < l.length → n ∈ pool) : g.membersFrom pool t = l := by
  induction h generalizing pool with
  | nil => rw [membersFrom, if_pos rfl]
  | @cons n a b l hnil hfirst hrest hl ih =>
    have hlist : g.Encodes (.node n) (a :: l) := .cons hnil hfirst hrest hl
    have hcell : g.IsCell n a b := ⟨hnil, head?_objects_of_unique hfirst, head?_objects_of_unique hrest⟩
    rw [membersFrom_cell hcell (hpool n a l hlist (Nat.lt_succ_self _)), ih]
    intro m a' l' hm hlt
    refine mem_without.2 ⟨hpool m a' l' hm (hlt.trans (Nat.lt_succ_self _)), ?_⟩
    rintro rfl
    cases hm.unique hlist
    exact Nat.lt_irrefl _ hlt

theorem members_encodes {l : List Term} (h : g.Encodes t l) : g.members t = l := by
  refine membersFrom_encodes h fun n a l' hn _ => ?_
  cases hn with
  | @cons _ _ b _ _ _ hrest _ => exact mem_map_subject.2 ⟨b, (hrest b).2 rfl⟩

/-- From every term of every graph the walk along the list ends, within one turn more than the graph has rests. It
visits no term twice and finds the members. They are the first members of nodes in a row from the term on, of the
longest such row if every node has at most one rest; those of a well-formed list are the ones that it encodes. -/
theorem walk_finds_members (g : Graph) (t : Term) :
    (∃ w, (∀ k, g.triples.countP (·.predicate = Rdf.rest) < k → Walk.run g k { current := t } = some w) ∧
      w.visited.Nodup ∧ w.members = g.members t) ∧
    (∃ ns, g.IsSpine t ns ∧ List.Forall₂ (fun n a => ⟨n, Rdf.first, a⟩ ∈ g) ns (g.members t) ∧
      ((∀ n a b, ⟨n, Rdf.rest, a⟩ ∈ g → ⟨n, Rdf.rest, b⟩ ∈ g → a = b) → ∀ ms, g.IsSpine t ms → ms <+: ns)) ∧
    ∀ l, g.Encodes t l → g.members t = l := by
  refine ⟨g.exists_run_members t, ?_, fun _ => members_encodes⟩
  obtain ⟨ns, hs, -, hfirst, hlongest⟩ := g.exists_isSpine _ t
  refine ⟨ns, hs, hfirst, fun hrest ms hms => hlongest hrest ms hms fun m hm => ?_⟩
  exact mem_map_subject.2 (hms.rest m hm)

/-- A list that comes back to its second node, and a well-formed one, of which a third list shares the tail. -/
def coiledGraph : Graph where
  triples :=
    [⟨.blank "a", Rdf.first, .literal (.plain "1")⟩,
      ⟨.blank "a", Rdf.rest, .node (.blank "b")⟩,
      ⟨.blank "b", Rdf.first, .literal (.plain "2")⟩,
      ⟨.blank "b", Rdf.rest, .node (.blank "c")⟩,
      ⟨.blank "c", Rdf.first, .literal (.plain "3")⟩,
      ⟨.blank "c", Rdf.rest, .node (.blank "b")⟩,
      ⟨.blank "d", Rdf.first, .node (.blank "a")⟩,
      ⟨.blank "d", Rdf.rest, .node (.blank "e")⟩,
      ⟨.blank "e", Rdf.first, .literal (.plain "4")⟩,
      ⟨.blank "e", Rdf.rest, .node (.iri Rdf.nil)⟩,
      ⟨.blank "f", Rdf.first, .literal (.plain "5")⟩,
      ⟨.blank "f", Rdf.rest, .node (.blank "e")⟩]
  nodup := by decide

theorem object_unique_coiledGraph : ∀ s ∈ coiledGraph.triples, ∀ t ∈ coiledGraph.triples, s.subject = t.subject →
    s.predicate = t.predicate → s.object = t.object := by decide

theorem isSpine_coiledGraph :
    coiledGraph.IsSpine (.node (.blank "a")) [.blank "a", .blank "b", .blank "c"] := by
  have hc : coiledGraph.IsSpine (.node (.blank "c")) [.blank "c"] :=
    .cons ⟨by decide, rfl, rfl⟩ (by decide) isSpine_nil
  have hb : coiledGraph.IsSpine (.node (.blank "b")) [.blank "b", .blank "c"] :=
    .cons ⟨by decide, rfl, rfl⟩ (by decide) hc
  exact .cons ⟨by decide, rfl, rfl⟩ (by decide) hb

theorem encodes_coiledGraph :
    coiledGraph.Encodes (.node (.blank "d")) [.node (.blank "a"), .literal (.plain "4")] := by
  have hone : ∀ n p a, ⟨n, p, a⟩ ∈ coiledGraph.triples → ∀ x, ⟨n, p, x⟩ ∈ coiledGraph ↔ x = a :=
    fun n p a ha x => ⟨fun hx => object_unique_coiledGraph _ hx _ ha rfl rfl, fun hx => hx ▸ ha⟩
  have he : coiledGraph.Encodes (.node (.blank "e")) [.literal (.plain "4")] :=
    .cons (by decide) (hone _ _ _ (by decide)) (hone _ _ _ (by decide)) .nil
  exact .cons (by decide) (hone _ _ _ (by decide)) (hone _ _ (.node (.blank "e")) (by decide)) he

theorem walk_finds_members_coiledGraph :
    (∀ n a b, ⟨n, Rdf.rest, a⟩ ∈ coiledGraph → ⟨n, Rdf.rest, b⟩ ∈ coiledGraph → a = b) ∧
    coiledGraph.members (.node (.blank "a")) =
      [.literal (.plain "1"), .literal (.plain "2"), .literal (.plain "3")] ∧
    coiledGraph.IsSpine (.node (.blank "a")) [.blank "a", .blank "b", .blank "c"] ∧
    (∀ ms, coiledGraph.IsSpine (.node (.blank "a")) ms → ms <+: [.blank "a", .blank "b", .blank "c"]) ∧
    coiledGraph.Encodes (.node (.blank "d")) [.node (.blank "a"), .literal (.plain "4")] ∧
    coiledGraph.members (.node (.blank "d")) = [.node (.blank "a"), .literal (.plain "4")] := by
  have hrest : ∀ n a b, ⟨n, Rdf.rest, a⟩ ∈ coiledGraph → ⟨n, Rdf.rest, b⟩ ∈ coiledGraph → a = b :=
    fun n a b ha hb => object_unique_coiledGraph _ ha _ hb rfl rfl
  obtain ⟨⟨w, hrun, -, hmembers⟩, ⟨ns, -, hfirst, hlongest⟩, -⟩ := coiledGraph.walk_finds_members (.node (.blank "a"))
  have hw : Walk.run coiledGraph 7 { current := .node (.blank "a") } = some
      ⟨[.literal (.plain "1"), .literal (.plain "2"), .literal (.plain "3")],
        [.node (.blank "a"), .node (.blank "b"), .node (.blank "c")], .node (.blank "b")⟩ := by decide
  cases (hrun 7 (by decide)).symm.trans hw
  have hns : [.blank "a", .blank "b", .blank "c"] = ns :=
    (hlongest hrest _ isSpine_coiledGraph).eq_of_length (hmembers ▸ hfirst).length_eq.symm
  exact ⟨hrest, hmembers.symm, isSpine_coiledGraph, hns ▸ hlongest hrest, encodes_coiledGraph,
    (coiledGraph.walk_finds_members (.node (.blank "d"))).2.2 _ encodes_coiledGraph⟩

end Graph

end ShapePlan
