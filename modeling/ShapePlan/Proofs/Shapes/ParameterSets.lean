/-
Parameters of the records of a graph. All that the records of one shape set is set by one record, which has the facets
of the property shape and the lists of the closed shape (`Graph.wholeRecord`), and a record sets a key once; shapes with
one name are one shape. So the parameters of a record are the same in the plan for all records.
-/
import ShapePlan.Proofs.Plan.Parameters
import ShapePlan.Proofs.Shapes.PropertyRecords

namespace ShapePlan

/-! ## Names of shapes -/

namespace Graph

def IsSubject (g : Graph) (m : Node) : Prop := ∃ p o, ⟨m, p, o⟩ ∈ g

/-- No subject is an IRI that could name a blank node. -/
def IsUnreserved (g : Graph) : Prop := ∀ s, g.IsSubject (.iri s) → ∀ label, s ≠ "bnode://id/" ++ label

variable {g : Graph}

theorem IsUnreserved.node_of_uid (h : g.IsUnreserved) {m m' : Node} (hm : g.IsSubject m) (hm' : g.IsSubject m')
    (huid : Term.uid (.node m) = Term.uid (.node m')) : m = m' := by
  cases m with
  | iri s =>
    cases m' with
    | iri s' => exact congrArg Node.iri huid
    | blank label => exact absurd huid (h s hm label)
  | blank label =>
    cases m' with
    | iri s => exact absurd huid.symm (h s hm' label)
    | blank label' => exact congrArg Node.blank ((String.append_right_inj _).1 huid)

theorem isSubject_of_hasPath {shape : Term} {s : String} {i : Bool} (h : g.HasPath shape s i) :
    ∃ m, shape = .node m ∧ g.IsSubject m := by
  cases h with
  | @direct m _ hleast => exact ⟨m, rfl, _, _, hleast.1⟩
  | @inverse m _ _ hleast _ => exact ⟨m, rfl, _, _, hleast.1⟩

theorem isSubject_of_mem_typed {types : List String} {m : Node} (h : m ∈ g.typed types) : g.IsSubject m := by
  rw [typed, Node.mem_sort, List.mem_flatMap] at h
  obtain ⟨type, -, h⟩ := h
  exact ⟨_, _, mem_subjects.1 h⟩

/-! ## Records of one shape -/

/-- All that the records of a shape say, whatever their target class. -/
def wholeRecord (g : Graph) (m : Node) : Record :=
  { g.facets (.node m) with
    path := (g.path? (.node m)).map (·.1)
    inverse := (g.path? (.node m)).any (·.2)
    constraintType := some Record.closedDefinition
    definedProps := some (g.definedProps m)
    ignoredProps := some (g.ignoredProps m) }

/-- A record that is named for a node and sets what the whole record of the node sets. -/
def IsPartOf (g : Graph) (n : Naming) (m : Node) (r : Record) : Prop :=
  g.IsSubject m ∧ r.uid = Term.uid (.node m) ∧ ∀ s ∈ r.settings n, s ∈ (g.wholeRecord m).settings n

variable {n : Naming} {r : Record}

theorem isPartOf_propertyRecord (h : r ∈ g.propertyRecords) : ∃ m, g.IsPartOf n m r := by
  rw [propertyRecords_eq] at h
  obtain ⟨k, hsub, he, -⟩ := firstOfEach_map g.targeted g.routes_before []
  rw [he, List.map_map] at h
  obtain ⟨⟨node, shape, target⟩, ha, rfl⟩ := List.mem_map.1 h
  obtain ⟨-, path, inverse, hpath⟩ := mem_routes.1 (hsub.mem ha)
  obtain ⟨m, rfl, hm⟩ := isSubject_of_hasPath hpath
  refine ⟨m, hm, rfl, fun s hs => ?_⟩
  -- the rows before the one for closed shapes are the same
  rcases List.mem_append.1 hs with hs | hs
  · exact List.mem_append_left _ hs
  · exact absurd hs List.not_mem_nil

theorem isPartOf_closedRecord (h : r ∈ g.closedRecords) : ∃ m, g.IsPartOf n m r := by
  obtain ⟨m, hm, h⟩ := List.mem_flatMap.1 h
  obtain ⟨c, -, rfl⟩ := List.mem_map.1 h
  refine ⟨m, isSubject_of_mem_typed (List.mem_filter.1 hm).1, rfl, fun s hs => ?_⟩
  rw [Record.settings_of_noPath rfl] at hs
  exact List.mem_append_right _ hs

theorem isPartOf_classRecord (h : r ∈ g.classRecords) : ∃ m, g.IsPartOf n m r := by
  obtain ⟨m, hm, h⟩ := List.mem_flatMap.1 h
  obtain ⟨c, -, rfl⟩ := List.mem_map.1 h
  refine ⟨m, isSubject_of_mem_typed (List.mem_filter.1 hm).1, rfl, fun s hs => ?_⟩
  rw [Record.settings_of_noPath rfl] at hs
  exact absurd hs List.not_mem_nil

theorem isPartOf_of_mem (h : r ∈ g.records) : ∃ m, g.IsPartOf n m r := by
  rcases List.mem_append.1 h with h | h
  · exact (List.mem_append.1 h).elim isPartOf_propertyRecord isPartOf_closedRecord
  · exact isPartOf_classRecord h

/-- Two records of a graph that set a key of one set give it one value. -/
theorem IsUnreserved.value_of_key (hg : g.IsUnreserved) {r' : Record} (hr : r ∈ g.records) (hr' : r' ∈ g.records)
    {s s' : Setting} (hs : s ∈ r.settings n) (hs' : s' ∈ r'.settings n) {a a' : Param} (ha : a.IsSet r s)
    (ha' : a'.IsSet r' s') (hset : a.set = a'.set) (hkey : a.key = a'.key) : a.value = a'.value := by
  obtain ⟨m, hm, huid, hwhole⟩ := isPartOf_of_mem (n := n) hr
  obtain ⟨m', hm', huid', hwhole'⟩ := isPartOf_of_mem (n := n) hr'
  have hkeys : s.key = s'.key := by rw [← ha.2.1, ← ha'.2.1, hkey]
  have hnames : r.uid = r'.uid := by
    rw [ha.1, ha'.1, Record.parameter_of_key hs hs' hkeys, String.append_left_inj, String.append_left_inj] at hset
    exact hset
  obtain rfl : m = m' := hg.node_of_uid hm hm' (by rw [← huid, ← huid', hnames])
  have hsame : s = s' := Record.setting_of_key (hwhole s hs) (hwhole' s' hs') hkeys
  exact Except.ok.inj (ha.2.2.symm.trans ((congrArg Setting.value hsame).trans ha'.2.2))

end Graph

/-! ## Plans -/

/-- The parameters of each record of a graph are those of the plan for all of them: no record overwrites what another
one has set. -/
theorem Graph.compile_keeps_params (g : Graph) (hg : g.IsUnreserved) (n : Naming) (p : Plan)
    (h : n.compile g.records = .ok p) :
    ∀ r ∈ g.records, ∃ q, n.compile [r] = .ok q ∧ ∀ set bag key v, q.params.get? set = some bag →
      bag.get? key = some v → ∃ bag', p.params.get? set = some bag' ∧ bag'.get? key = some v := by
  intro r hr
  obtain ⟨e, he, rfl⟩ := Naming.compile_eq_ok.1 h
  obtain ⟨es, hes, rfl⟩ := Naming.emitRecords_eq_ok.1 he
  obtain ⟨f, hf, hrf⟩ := exists_right_of_mem hes hr
  have hone : n.emitRecords [r] = .ok (Emission.join [f]) := Naming.emitRecords_eq_ok.2 ⟨[f], .cons hrf .nil, rfl⟩
  refine ⟨_, Naming.compile_eq_ok.2 ⟨_, hone, rfl⟩, fun set bag key v hbag hv => ?_⟩
  have hmem : ⟨set, key, v⟩ ∈ (Emission.join [f]).params :=
    Param.mem_of_valueIn_foldl (Option.bind_eq_some_iff.2 ⟨bag, hbag, hv⟩)
  have hall : ⟨set, key, v⟩ ∈ (Emission.join es).params := by
    rw [Emission.params_join, List.flatMap_singleton] at hmem
    rw [Emission.params_join]
    exact List.mem_flatMap.2 ⟨f, hf, hmem⟩
  obtain ⟨v', hv', hall'⟩ := Param.exists_valueIn_foldl hall
  obtain ⟨r₁, hr₁, s₁, hs₁, hset₁, -⟩ := Naming.exists_setting_of_param he hall
  obtain ⟨r₂, hr₂, s₂, hs₂, hset₂, -⟩ := Naming.exists_setting_of_param he hall'
  have hvalue : v = v' := hg.value_of_key hr₁ hr₂ hs₁ hs₂ hset₁ hset₂ rfl rfl
  rw [hvalue]
  exact Option.bind_eq_some_iff.1 hv'

/-- A closed node shape with two target classes and a property shape. -/
def sharedGraph : Graph where
  triples :=
    [⟨.iri "u:#S", Rdf.type, .node (.iri Sh.nodeShape)⟩,
      ⟨.iri "u:#S", Sh.targetClass, .node (.iri "u:#C")⟩,
      ⟨.iri "u:#S", Sh.targetClass, .node (.iri "u:#D")⟩,
      ⟨.iri "u:#S", Sh.closed, .literal (.typed "true" Xsd.boolean)⟩,
      ⟨.iri "u:#S", Sh.property, .node (.blank "p")⟩,
      ⟨.blank "p", Sh.path, .node (.iri "u:#p")⟩,
      ⟨.blank "p", Sh.pattern, .literal (.plain "a")⟩]
  nodup := by decide

theorem isUnreserved_sharedGraph : sharedGraph.IsUnreserved := by
  have hsubjects : ∀ t ∈ sharedGraph.triples, t.subject = .iri "u:#S" ∨ t.subject = .blank "p" := by decide
  rintro _ ⟨p, o, h⟩ label rfl
  rcases hsubjects _ h with h | h
  · have hlist := congrArg String.toList (Node.iri.inj h)
    simp at hlist
  · cases h

/-- Four records, and two of them set the pattern of the property shape. -/
theorem compile_keeps_params_sharedGraph :
    ∃ p, plainNaming.compile sharedGraph.records = .ok p ∧ sharedGraph.records.length = 4 ∧
      ∃ r ∈ sharedGraph.records, ∃ q, plainNaming.compile [r] = .ok q ∧
        Param.valueIn q.params "bnode://id/p_http://www.w3.org/ns/shacl#pattern" "theRegex" = some (.string "a") ∧
        Param.valueIn p.params "bnode://id/p_http://www.w3.org/ns/shacl#pattern" "theRegex" = some (.string "a") := by
  have heval : sharedGraph.records.length = 4 ∧ (plainNaming.compile sharedGraph.records).isOk = true ∧
      ∃ r ∈ sharedGraph.records, (plainNaming.compile [r]).toOption.bind
        (Param.valueIn ·.params "bnode://id/p_http://www.w3.org/ns/shacl#pattern" "theRegex") = some (.string "a") := by
    decide +kernel
  obtain ⟨hlength, hok, r, hr, hown⟩ := heval
  cases h : plainNaming.compile sharedGraph.records with
  | error e => rw [h] at hok; cases hok
  | ok p =>
    obtain ⟨q, hq, hkept⟩ :=
      Graph.compile_keeps_params sharedGraph isUnreserved_sharedGraph plainNaming p h r hr
    rw [hq, Except.toOption, Option.bind_some] at hown
    obtain ⟨bag, hbag, hvalue⟩ := Option.bind_eq_some_iff.1 hown
    exact ⟨p, rfl, hlength, r, hr, q, hq, hown, Option.bind_eq_some_iff.2 (hkept _ bag _ _ hbag hvalue)⟩

end ShapePlan
