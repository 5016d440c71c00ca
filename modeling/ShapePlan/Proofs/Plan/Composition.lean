/-
Compilation is compositional. The plan of two lists of records, one after the other, is made of the plans of both
(`Plan.append`): the entries of the second plan follow those of the first under new numbers, and a parameter that both
plans set has the value of the second. The numbers of a plan tell its entries apart.
-/
import ShapePlan.Proofs.Ascending
import ShapePlan.Proofs.Plan.Emitted

namespace ShapePlan

/-! ## Parameter sets -/

namespace Param

variable {d e : ParamSets}

/-- Parameter sets as assignments leave them: none is without a key. -/
def IsTidy (d : ParamSets) : Prop := ∀ set bag, d.get? set = some bag → bag.entries ≠ []

theorem isTidy_empty : IsTidy .empty := fun _ _ h => nomatch h

theorem IsTidy.assign (h : IsTidy d) (a : Param) : IsTidy (assign d a) := by
  intro set bag hbag
  rw [Param.assign, SortedDict.get?_insert] at hbag
  split at hbag
  · cases hbag
    have hvalue : (a.key, a.value) ∈ (((d.get? a.set).getD .empty).insert a.key a.value).entries :=
      Dict.mem_of_get? (Dict.get?_insert_self ..)
    exact List.ne_nil_of_mem hvalue
  · exact h set bag hbag

theorem IsTidy.foldl (h : IsTidy d) (ps : List Param) : IsTidy (ps.foldl Param.assign d) := by
  induction ps generalizing d with
  | nil => exact h
  | cons a ps ih => exact ih (h.assign a)

theorem valueIn_of_get? {set : String} {bag : SortedDict Value} (h : d.get? set = some bag) (key : String) :
    valueIn d set key = bag.get? key := by rw [valueIn, h, Option.bind_some]

/-- A set has a key, so that a look-up can tell that it is there. -/
theorem IsTidy.exists_valueIn (h : IsTidy d) {set : String} {bag : SortedDict Value} (hbag : d.get? set = some bag) :
    ∃ key, (valueIn d set key).isSome = true := by
  obtain ⟨⟨key, v⟩, hmem⟩ := List.exists_mem_of_ne_nil _ (h set bag hbag)
  refine ⟨key, ?_⟩
  rw [valueIn_of_get? hbag, SortedDict.get?_eq_some.2 hmem]
  rfl

theorem IsTidy.get?_isSome_of_valueIn (hd : IsTidy d) (h : ∀ set key, valueIn d set key = valueIn e set key)
    {set : String} (hs : (d.get? set).isSome = true) : (e.get? set).isSome = true := by
  obtain ⟨bag, hbag⟩ := Option.isSome_iff_exists.1 hs
  obtain ⟨key, hkey⟩ := hd.exists_valueIn hbag
  rw [h] at hkey
  obtain ⟨v, hv⟩ := Option.isSome_iff_exists.1 hkey
  obtain ⟨bag', hbag', -⟩ := Option.bind_eq_some_iff.1 hv
  rw [hbag']
  rfl

/-- Parameter sets are told by their values. -/
theorem IsTidy.ext (hd : IsTidy d) (he : IsTidy e) (h : ∀ set key, valueIn d set key = valueIn e set key) : d = e := by
  refine SortedDict.ext_get? fun set => ?_
  have hsome : (d.get? set).isSome = true ↔ (e.get? set).isSome = true :=
    ⟨hd.get?_isSome_of_valueIn h, he.get?_isSome_of_valueIn fun set key => (h set key).symm⟩
  cases hbd : d.get? set with
  | none =>
    have hnot : ¬ (e.get? set).isSome = true := fun hs => by simpa [hbd] using hsome.2 hs
    exact (Option.not_isSome_iff_eq_none.1 hnot).symm
  | some b =>
    obtain ⟨c, hbe⟩ := Option.isSome_iff_exists.1 (hsome.1 (by rw [hbd]; rfl))
    have hbc : b = c := SortedDict.ext_get? fun key => by rw [← valueIn_of_get? hbd, ← valueIn_of_get? hbe, h]
    rw [hbe, hbc]

/-- All values of parameter sets, as assignments. -/
def ofSets (d : ParamSets) : List Param := d.entries.flatMap fun s => s.2.entries.map fun x => ⟨s.1, x.1, x.2⟩

theorem mem_ofSets (d : ParamSets) (a : Param) : a ∈ ofSets d ↔ valueIn d a.set a.key = some a.value := by
  constructor
  · intro ha
    obtain ⟨⟨set, bag⟩, hs, ha⟩ := List.mem_flatMap.1 ha
    obtain ⟨⟨key, v⟩, hx, rfl⟩ := List.mem_map.1 ha
    rw [valueIn_of_get? (SortedDict.get?_eq_some.2 hs)]
    exact SortedDict.get?_eq_some.2 hx
  · intro ha
    obtain ⟨bag, hbag, hv⟩ := Option.bind_eq_some_iff.1 ha
    exact List.mem_flatMap.2 ⟨_, SortedDict.get?_eq_some.1 hbag, List.mem_map.2 ⟨_, SortedDict.get?_eq_some.1 hv, rfl⟩⟩

/-- The values of both, those of the second where both have one. -/
def union (d e : ParamSets) : ParamSets := (ofSets e).foldl assign d

theorem valueIn_union (d e : ParamSets) (set key : String) :
    valueIn (union d e) set key = (valueIn e set key).or (valueIn d set key) := by
  rw [union, valueIn_foldl]
  cases hfind : (ofSets e).reverse.find? fun a => a.set = set ∧ a.key = key with
  | some a =>
    obtain ⟨rfl, rfl⟩ : a.set = set ∧ a.key = key := by simpa using List.find?_some hfind
    have ha : a ∈ ofSets e := List.mem_reverse.1 (List.mem_of_find?_eq_some hfind)
    rw [(mem_ofSets e a).1 ha]
    rfl
  | none =>
    cases hv : valueIn e set key with
    | none => rfl
    | some v =>
      have ha : ⟨set, key, v⟩ ∈ ofSets e := (mem_ofSets e ⟨set, key, v⟩).2 hv
      exact absurd (List.find?_eq_none.1 hfind _ (List.mem_reverse.2 ha)) (by simp)

theorem foldl_append_eq_union (ps qs : List Param) :
    (ps ++ qs).foldl assign .empty = union (ps.foldl assign .empty) (qs.foldl assign .empty) := by
  have htidy (rs : List Param) : IsTidy (rs.foldl assign .empty) := isTidy_empty.foldl rs
  refine (htidy _).ext ((htidy ps).foldl _) fun set key => ?_
  rw [List.foldl_append, valueIn_foldl, valueIn_union, valueIn_foldl .empty qs]
  -- what the second list does not assign is looked up in what the first has left
  have hempty : valueIn .empty set key = none := rfl
  rw [hempty, Option.or_none]

end Param

/-! ## Plans -/

namespace Plan

/-- Entries with the numbers from `k` on. -/
def renumbered (k : Nat) (es : List Entry) : List Entry := (es.zipIdx k).map fun e => { e.1 with id := Query.idOf e.2 }

/-- A plan with another after it. -/
def append (p q : Plan) : Plan where
  entries := p.entries ++ renumbered (p.entries.length + 1) q.entries
  params := Param.union p.params q.params
  inventory := p.inventory ++ q.inventory

/-- The ids are the numbers from one on, so that each id finds its own entry. -/
structure IsNumbered (p : Plan) : Prop where
  id_eq : ∀ i (h : i < p.entries.length), p.entries[i].id = "Q_" ++ (i + 1).repr
  nodup : (p.entries.map (·.id)).Nodup
  entry?_eq : ∀ i (h : i < p.entries.length), p.entry? ("Q_" ++ (i + 1).repr) = some p.entries[i]

theorem idOf_inj {i j : Nat} (h : Query.idOf i = Query.idOf j) : i = j :=
  repr_inj ((String.append_right_inj _).1 h)

/-- It is enough that the ids are those numbers: no two numbers are written the same. -/
theorem isNumbered_of_id_eq {p : Plan} (h : ∀ i (hi : i < p.entries.length), p.entries[i].id = Query.idOf (i + 1)) :
    p.IsNumbered where
  id_eq := h
  nodup := by
    refine List.nodup_iff_injective_getElem.2 fun i j hij => ?_
    have hi : i.1 < p.entries.length := by simpa using i.2
    have hj : j.1 < p.entries.length := by simpa using j.2
    have hids : Query.idOf (i.1 + 1) = Query.idOf (j.1 + 1) := by
      rw [← h i.1 hi, ← h j.1 hj]
      simpa using hij
    have := idOf_inj hids
    omega
  entry?_eq := by
    intro i hi
    change p.entries.find? (·.id = Query.idOf (i + 1)) = some p.entries[i]
    refine List.find?_eq_some_iff_getElem.2 ⟨by simpa using h i hi, i, hi, rfl, fun j hj => ?_⟩
    have hne : Query.idOf (j + 1) ≠ Query.idOf (i + 1) := fun heq => by
      have := idOf_inj heq
      omega
    simpa [h j (by omega)] using hne

end Plan

namespace Emission

theorem isNumbered_plan (e : Emission) (c : Context) : (e.plan c).IsNumbered := by
  refine Plan.isNumbered_of_id_eq fun i hi => ?_
  simp [plan, Query.entry, Nat.add_comm]

/-- The numbers are the only part of the entries that depends on where they stand. -/
theorem renumbered_entries (qs : List Query) (c : Context) (j k : Nat) :
    Plan.renumbered k ((qs.zipIdx j).map fun q => q.1.entry c q.2) = (qs.zipIdx k).map fun q => q.1.entry c q.2 := by
  induction qs generalizing j k with
  | nil => rfl
  | cons q qs ih =>
    have htail := ih (j + 1) (k + 1)
    simp only [Plan.renumbered, List.zipIdx_cons, List.map_cons] at htail ⊢
    rw [htail]
    rfl

theorem plan_append (a b : Emission) (c : Context) : (a ++ b).plan c = (a.plan c).append (b.plan c) := by
  have hentries : ((a ++ b).plan c).entries = ((a.plan c).append (b.plan c)).entries := by
    have hlength : (a.plan c).entries.length = a.queries.length := by simp [plan]
    simp only [Plan.append, hlength]
    simp only [plan, queries_append, List.zipIdx_append, List.map_append, renumbered_entries, Nat.add_comm]
  have hparams : ((a ++ b).plan c).params = ((a.plan c).append (b.plan c)).params :=
    Param.foldl_append_eq_union a.params b.params
  calc (a ++ b).plan c = ⟨((a ++ b).plan c).entries, ((a ++ b).plan c).params, a.components ++ b.components⟩ := rfl
    _ = (a.plan c).append (b.plan c) := by rw [hentries, hparams]; rfl

end Emission

namespace Naming

variable {n : Naming}

theorem emitRecords_append (rs ss : List Record) :
    n.emitRecords (rs ++ ss) = do return (← n.emitRecords rs) ++ (← n.emitRecords ss) := by
  simp only [emitRecords, List.mapM_append]
  cases rs.mapM n.emitRecord with
  | error x => rfl
  | ok es =>
    cases ss.mapM n.emitRecord with
    | error x => rfl
    | ok fs => exact congrArg Except.ok (Emission.join_append es fs)

/-- Lists of records are compiled one after the other: the first of them that fails gives the error, and plans are
appended. The parameters of the whole are those of both, where the second list wins, and the ids of a plan number its
entries. -/
theorem compile_append (n : Naming) (rs ss : List Record) :
    (n.compile (rs ++ ss) = do return (← n.compile rs).append (← n.compile ss)) ∧
    (∀ p q, n.compile rs = .ok p → n.compile ss = .ok q → ∀ set key,
      Param.valueIn (p.append q).params set key = (Param.valueIn q.params set key).or (Param.valueIn p.params set key)) ∧
    ∀ p, n.compile rs = .ok p → p.IsNumbered := by
  refine ⟨?_, ?_, ?_⟩
  · simp only [compile, emitRecords_append]
    cases n.emitRecords rs with
    | error x => rfl
    | ok a =>
      cases n.emitRecords ss with
      | error x => rfl
      | ok b => exact congrArg Except.ok (Emission.plan_append a b _)
  · exact fun p q _ _ set key => Param.valueIn_union p.params q.params set key
  · intro p hp
    obtain ⟨e, -, rfl⟩ := compile_eq_ok.1 hp
    exact e.isNumbered_plan _

end Naming

/-- A record that bounds the length of a property from below. -/
def lengthRecord (least : Int64) : Record :=
  { path := some "u:#p", targetClass := some "u:#C", minLength := some least, propertyShape := some "u:#S" }

theorem compile_append_lengthRecord :
    ∃ p q, plainNaming.compile [lengthRecord 1] = .ok p ∧ plainNaming.compile [lengthRecord 2] = .ok q ∧
      plainNaming.compile [lengthRecord 1, lengthRecord 2] = .ok (p.append q) ∧
      Param.valueIn (p.append q).params "u:#S_http://www.w3.org/ns/shacl#minLength" "minStrLen" =
        some (.number (.int 2)) ∧
      (p.append q).IsNumbered := by
  obtain ⟨happend, hvalue, -⟩ := Naming.compile_append plainNaming [lengthRecord 1] [lengthRecord 2]
  refine ⟨_, _, rfl, rfl, happend, ?_, ?_⟩
  · rw [hvalue _ _ rfl rfl]
    decide
  · exact (Naming.compile_append plainNaming [lengthRecord 1, lengthRecord 2] []).2.2 _ happend

end ShapePlan
