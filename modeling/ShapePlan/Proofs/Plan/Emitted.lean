/-
What a successful compilation has emitted. A plan is made of one emission, which is joined of the emissions of single
constraints (`emitRecords_parts`); a property of emissions that holds of those and is kept by joining holds of the whole
(`emitRecords_induction`), and the entries of the plan are the rendered queries, one for one.
-/
import ShapePlan.Plan.Compile
import ShapePlan.Proofs.Result
import Mathlib.Data.List.Forall2

namespace ShapePlan

/-! ## Emissions -/

namespace Emission

@[simp] theorem queries_append (a b : Emission) : (a ++ b).queries = a.queries ++ b.queries := rfl
@[simp] theorem params_append (a b : Emission) : (a ++ b).params = a.params ++ b.params := rfl
@[simp] theorem components_append (a b : Emission) : (a ++ b).components = a.components ++ b.components := rfl

theorem queries_join (es : List Emission) : (join es).queries = es.flatMap (·.queries) := by
  induction es with
  | nil => rfl
  | cons e es ih => rw [List.flatMap_cons, ← ih]; rfl

theorem params_join (es : List Emission) : (join es).params = es.flatMap (·.params) := by
  induction es with
  | nil => rfl
  | cons e es ih => rw [List.flatMap_cons, ← ih]; rfl

theorem components_join (es : List Emission) : (join es).components = es.flatMap (·.components) := by
  induction es with
  | nil => rfl
  | cons e es ih => rw [List.flatMap_cons, ← ih]; rfl

theorem join_append (es fs : List Emission) : join (es ++ fs) = join es ++ join fs := by
  have parts : ∀ a b : Emission, a.queries = b.queries → a.params = b.params → a.components = b.components → a = b := by
    rintro ⟨_, _, _⟩ ⟨_, _, _⟩ rfl rfl rfl
    rfl
  apply parts
  · simp only [queries_append, queries_join, List.flatMap_append]
  · simp only [params_append, params_join, List.flatMap_append]
  · simp only [components_append, components_join, List.flatMap_append]

theorem join_induction {motive : Emission → Prop} (empty : motive {})
    (append : ∀ a b, motive a → motive b → motive (a ++ b)) {es : List Emission} (h : ∀ e ∈ es, motive e) :
    motive (join es) := by
  induction es with
  | nil => exact empty
  | cons e es ih =>
    obtain ⟨he, hes⟩ := List.forall_mem_cons.1 h
    exact append _ _ he (ih hes)

/-- The entries of a plan are its queries, each with a number. -/
theorem entries_plan (e : Emission) (c : Context) :
    List.Forall₂ (fun q entry => ∃ i, entry = q.entry c i) e.queries (e.plan c).entries := by
  have numbered : ∀ (qs : List Query) (k : Nat), List.Forall₂ (fun q entry => ∃ i, entry = q.entry c i) qs
      ((qs.zipIdx k).map fun q => q.1.entry c q.2) := by
    intro qs
    induction qs with
    | nil => exact fun _ => .nil
    | cons q qs ih => exact fun k => .cons ⟨k, rfl⟩ (ih (k + 1))
  exact numbered e.queries 1

/-- The entries of a plan are its queries, rendered in both scopes. -/
theorem plan_entries (e : Emission) (c : Context) :
    List.Forall₂ (fun q entry => ∀ s : Scope, entry.query s = q.template.render c s q.values) e.queries
      (e.plan c).entries := by
  refine (e.entries_plan c).imp ?_
  rintro q _ ⟨i, rfl⟩ s
  cases s <;> rfl

end Emission

/-! ## Assignments -/

namespace Param

variable {ps : List Param} {set key : String}

/-- The value of a key of a parameter set. -/
def valueIn (d : ParamSets) (set key : String) : Option Value := (d.get? set).bind (·.get? key)

theorem valueIn_assign (d : ParamSets) (a : Param) (set key : String) :
    valueIn (assign d a) set key = if a.set = set ∧ a.key = key then some a.value else valueIn d set key := by
  unfold valueIn assign
  rw [SortedDict.get?_insert]
  by_cases hs : set = a.set
  · subst hs
    rw [if_pos rfl, Option.bind_some, SortedDict.get?_insert]
    by_cases hk : key = a.key
    · simp [hk]
    · cases d.get? a.set <;> simp [hk, Ne.symm hk]
  · simp [hs, Ne.symm hs]

/-- The last assignment wins. -/
theorem valueIn_foldl (d : ParamSets) (ps : List Param) (set key : String) :
    valueIn (ps.foldl assign d) set key =
      ((ps.reverse.find? fun a => a.set = set ∧ a.key = key).map (·.value)).or (valueIn d set key) := by
  induction ps generalizing d with
  | nil => rfl
  | cons a ps ih =>
    rw [List.foldl_cons, ih, valueIn_assign, List.reverse_cons, List.find?_append]
    cases ps.reverse.find? fun a => a.set = set ∧ a.key = key with
    | some b => rfl
    | none => by_cases h : a.set = set ∧ a.key = key <;> simp [List.find?, h]

theorem mem_of_valueIn_foldl {v : Value} (h : valueIn (ps.foldl assign .empty) set key = some v) :
    ⟨set, key, v⟩ ∈ ps := by
  rw [valueIn_foldl] at h
  cases hfind : ps.reverse.find? fun a => a.set = set ∧ a.key = key with
  | none => rw [hfind] at h; cases h
  | some a =>
    rw [hfind] at h
    cases h
    obtain ⟨rfl, rfl⟩ : a.set = set ∧ a.key = key := by simpa using List.find?_some hfind
    exact List.mem_reverse.1 (List.mem_of_find?_eq_some hfind)

/-- What is assigned has a value, and one that was assigned to it. -/
theorem exists_valueIn_foldl {a : Param} (ha : a ∈ ps) :
    ∃ v, valueIn (ps.foldl assign .empty) a.set a.key = some v ∧ ⟨a.set, a.key, v⟩ ∈ ps := by
  have hsome : (valueIn (ps.foldl assign .empty) a.set a.key).isSome = true := by
    rw [valueIn_foldl]
    cases hfind : ps.reverse.find? fun b => b.set = a.set ∧ b.key = a.key with
    | none => exact absurd (List.find?_eq_none.1 hfind _ (List.mem_reverse.2 ha)) (by simp)
    | some b => rfl
  obtain ⟨v, hv⟩ := Option.isSome_iff_exists.1 hsome
  exact ⟨v, hv, mem_of_valueIn_foldl hv⟩

/-- A set in which every one of the keys is assigned. -/
theorem exists_bag_foldl {keys : List String} (hne : keys ≠ [])
    (h : ∀ k ∈ keys, ∃ a ∈ ps, a.set = set ∧ a.key = k) :
    ∃ bag, (ps.foldl assign .empty).get? set = some bag ∧ ∀ k ∈ keys, (bag.get? k).isSome = true := by
  have hvalue : ∀ k ∈ keys, ∃ v, valueIn (ps.foldl assign .empty) set k = some v := by
    intro k hk
    obtain ⟨a, ha, rfl, rfl⟩ := h k hk
    obtain ⟨v, hv, -⟩ := exists_valueIn_foldl ha
    exact ⟨v, hv⟩
  obtain ⟨k, hk⟩ := List.exists_mem_of_ne_nil _ hne
  obtain ⟨v, hv⟩ := hvalue k hk
  obtain ⟨bag, hbag, -⟩ := Option.bind_eq_some_iff.1 hv
  refine ⟨bag, hbag, fun k hk => ?_⟩
  obtain ⟨v, hv⟩ := hvalue k hk
  rw [valueIn, hbag, Option.bind_some] at hv
  rw [hv]
  rfl

theorem exists_of_get?_foldl {d : ParamSets} {bag : SortedDict Value} (h : (ps.foldl assign d).get? set = some bag) :
    (∃ a ∈ ps, a.set = set) ∨ (d.get? set).isSome = true := by
  induction ps generalizing d with
  | nil =>
    rw [List.foldl_nil] at h
    exact .inr (by rw [h]; rfl)
  | cons a ps ih =>
    rcases ih h with ⟨b, hb, hset⟩ | hd
    · exact .inl ⟨b, List.mem_cons_of_mem _ hb, hset⟩
    · rw [assign, SortedDict.get?_insert] at hd
      split at hd
      · next hset => exact .inl ⟨a, List.mem_cons_self, hset.symm⟩
      · exact .inr hd

end Param

/-! ## Compilation -/

/-- Types are kept somewhere. -/
theorem Naming.typesAsNodes_of_not_labels {n : Naming} (h : n.typesAsLabels = false) : n.typesAsNodes = true := by
  obtain ⟨_ | c, r⟩ := n
  · cases h
  · cases hc : c.types <;> simp_all [typesAsLabels, typesAsNodes, TypesPolicy.asLabels, TypesPolicy.asNodes]

theorem IriFacet.emitOnType_cases {f : IriFacet} {n : Naming} {t : Target} {prop : String} {iris : List String}
    {e : Emission} (h : f.emitOnType n t prop iris = .ok e) :
    let onNodes := if n.typesAsNodes then f.followed t f.inNodes prop iris else {}
    (∃ names, n.typesAsLabels = true ∧ n.names iris = .ok names ∧
      e = f.labelled t names ++ onNodes ++ f.listed n t names) ∨
    n.typesAsLabels = false ∧ e = onNodes ++ f.listed n t iris := by
  intro onNodes
  rw [emitOnType] at h
  by_cases hl : n.typesAsLabels
  · rw [if_pos hl] at h
    obtain ⟨names, hn, h⟩ := bind_eq_ok.1 h
    cases h
    exact .inl ⟨names, hl, hn, rfl⟩
  · rw [if_neg hl] at h
    cases h
    exact .inr ⟨by simpa using hl, rfl⟩

/-- The queries for a list of IRIs have the templates of the facet. -/
theorem IriFacet.query_cases {f : IriFacet} {n : Naming} {t : Target} {prop : String} {iris : List String}
    {e : Emission} (h : f.emit n t prop iris = .ok e) {q : Query} (hq : q ∈ e.queries) :
    ∃ template ∈ [f.onPath.template, f.inLabels.template, f.inNodes.template], ∃ values,
      q = t.query template f.kind values := by
  unfold emit at h
  split at h
  · have hnodes : q ∈ (if n.typesAsNodes then f.followed t f.inNodes prop iris else {}).queries →
        ∃ values, q = t.query f.inNodes.template f.kind values := by
      intro hq
      split at hq
      · exact ⟨_, List.mem_singleton.1 hq⟩
      · exact absurd hq List.not_mem_nil
    rcases emitOnType_cases h with ⟨names, -, -, rfl⟩ | ⟨-, rfl⟩
    · rw [Emission.queries_append, Emission.queries_append, List.mem_append, List.mem_append] at hq
      rcases hq with (hq | hq) | hq
      · exact ⟨f.inLabels.template, by simp, _, List.mem_singleton.1 hq⟩
      · exact ⟨f.inNodes.template, by simp, hnodes hq⟩
      · exact absurd hq List.not_mem_nil
    · rw [Emission.queries_append, List.mem_append] at hq
      rcases hq with hq | hq
      · exact ⟨f.inNodes.template, by simp, hnodes hq⟩
      · exact absurd hq List.not_mem_nil
  · cases h
    rw [Emission.queries_append, List.mem_append] at hq
    rcases hq with hq | hq
    · exact ⟨f.onPath.template, by simp, _, List.mem_singleton.1 hq⟩
    · exact absurd hq List.not_mem_nil

/-- The queries for a count have the templates of the facet. -/
theorem CountFacet.query_cases {f : CountFacet} {n : Naming} {t : Target} {prop : String} {q : Query}
    (hq : q ∈ f.queries n t prop) :
    ∃ template ∈ [f.onPath, f.onInverse, f.inLabels, f.inNodes], ∃ values, q = t.query template f.kind values := by
  unfold queries at hq
  split at hq
  · exact ⟨f.onInverse, by simp, _, List.mem_singleton.1 hq⟩
  split at hq
  · rcases List.mem_append.1 hq with hq | hq
    · split at hq
      · exact ⟨f.inLabels, by simp, _, List.mem_singleton.1 hq⟩
      · exact absurd hq List.not_mem_nil
    · split at hq
      · exact ⟨f.inNodes, by simp, _, List.mem_singleton.1 hq⟩
      · exact absurd hq List.not_mem_nil
  · exact ⟨f.onPath, by simp, _, List.mem_singleton.1 hq⟩

/-- What the emission of a constraint is: nothing, or that of a constraint on the node, or that of a constraint on the
path which the type property allows if the path is that one. -/
theorem Target.emit_cases {n : Naming} {t : Target} {c : Constraint} {e : Emission} (h : t.emit n c = .ok e) :
    e = {} ∨ (∃ defined ignored, c = .closed defined ignored ∧ t.emitClosed n defined ignored = .ok e) ∨
    (∃ classes, c = .disjoint classes ∧ t.emitDisjoint n classes = .ok e) ∨
    ∃ prop, t.path = some prop ∧ (t.header.isOnType = true → allowedOnType c = true) ∧
      t.emitOnPath n prop c = .ok e := by
  unfold emit at h
  split at h
  · exact .inr (.inl ⟨_, _, rfl, h⟩)
  · exact .inr (.inr (.inl ⟨_, rfl, h⟩))
  · cases h; exact .inl rfl
  · split at h
    · cases h; exact .inl rfl
    · rename_i prop hp
      split at h
      · cases h; exact .inl rfl
      · rename_i hon
        refine .inr (.inr (.inr ⟨prop, hp, fun ht => ?_, h⟩))
        simpa [ht] using hon

namespace Naming

variable {n : Naming}

theorem emitRecords_eq_ok {rs : List Record} {e : Emission} : n.emitRecords rs = .ok e ↔
    ∃ es, List.Forall₂ (fun r f => n.emitRecord r = .ok f) rs es ∧ e = Emission.join es := by
  rw [emitRecords, bind_eq_ok]
  refine exists_congr fun es => and_congr mapM_eq_ok ⟨fun h => by cases h; rfl, fun h => by rw [h]; rfl⟩

theorem emitSet_eq_ok {s : ConstraintSet} {e : Emission} : n.emitSet s = .ok e ↔
    ∃ t es, n.target s.header = .ok t ∧ List.Forall₂ (fun c f => t.emit n c = .ok f) s.constraints es ∧
      e = Emission.join es := by
  rw [emitSet, bind_eq_ok]
  refine exists_congr fun t => ?_
  rw [bind_eq_ok, ← exists_and_left]
  refine exists_congr fun es => and_congr_right fun _ => and_congr mapM_eq_ok ?_
  exact ⟨fun h => by cases h; rfl, fun h => by rw [h]; rfl⟩

/-- A constraint of a record emits, at the target that the header of the record names. -/
def Emits (n : Naming) (r : Record) (t : Target) (c : Constraint) (e : Emission) : Prop :=
  ∃ s, r.constraintSet? = some s ∧ n.target s.header = .ok t ∧ c ∈ s.constraints ∧ t.emit n c = .ok e

theorem emitRecord_parts {r : Record} {e : Emission} (h : n.emitRecord r = .ok e) :
    ∃ es, e = Emission.join es ∧ ∀ f ∈ es, ∃ t c, n.Emits r t c f := by
  unfold emitRecord at h
  split at h
  · cases h
    exact ⟨[], rfl, List.forall_mem_nil _⟩
  · next s hs =>
    obtain ⟨t, es, ht, hes, rfl⟩ := emitSet_eq_ok.1 h
    refine ⟨es, rfl, fun f hf => ?_⟩
    obtain ⟨c, hc, hcf⟩ := exists_left_of_mem hes hf
    exact ⟨t, c, s, hs, ht, hc, hcf⟩

/-- The emission of records is joined of the emissions of their constraints. -/
theorem emitRecords_parts {rs : List Record} {e : Emission} (h : n.emitRecords rs = .ok e) :
    ∃ es, e = Emission.join es ∧ ∀ f ∈ es, ∃ r ∈ rs, ∃ t c, n.Emits r t c f := by
  obtain ⟨es, hes, rfl⟩ := emitRecords_eq_ok.1 h
  clear h
  induction hes with
  | nil => exact ⟨[], rfl, List.forall_mem_nil _⟩
  | @cons r e rs es hr _ ih =>
    obtain ⟨fs, rfl, hfs⟩ := emitRecord_parts hr
    obtain ⟨gs, hgs, hgs'⟩ := ih
    refine ⟨fs ++ gs, ?_, List.forall_mem_append.2 ⟨fun f hf => ?_, fun g hg => ?_⟩⟩
    · rw [Emission.join_append, ← hgs]
      rfl
    · exact ⟨r, List.mem_cons_self, hfs f hf⟩
    · obtain ⟨r', hr', hg⟩ := hgs' g hg
      exact ⟨r', List.mem_cons_of_mem _ hr', hg⟩

theorem emitRecords_induction {motive : Emission → Prop} (empty : motive {})
    (append : ∀ a b, motive a → motive b → motive (a ++ b)) (emit : ∀ (t : Target) c e, t.emit n c = .ok e → motive e)
    {rs : List Record} {e : Emission} (h : n.emitRecords rs = .ok e) : motive e := by
  obtain ⟨es, rfl, hes⟩ := emitRecords_parts h
  refine Emission.join_induction empty append fun f hf => ?_
  obtain ⟨r, -, t, c, s, -, -, -, hf⟩ := hes f hf
  exact emit t c f hf

theorem compile_eq_ok {rs : List Record} {p : Plan} :
    n.compile rs = .ok p ↔ ∃ e, n.emitRecords rs = .ok e ∧ p = e.plan (Context.ofConfig n.config) := by
  rw [compile, bind_eq_ok]
  exact exists_congr fun e => and_congr_right fun _ => ⟨fun h => by cases h; rfl, fun h => by rw [h]; rfl⟩

end Naming

/-- Names in a graph without a configuration. -/
def plainNaming : Naming where
  config := none
  resolver := { prefixFor := fun _ => .ok none }

end ShapePlan
