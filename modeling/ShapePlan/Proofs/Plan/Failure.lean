/-
When compiling fails. The IRIs of a record that are named are listed in the order in which they are named
(`Record.namedIris`); the error of a compilation is that of the first IRI on the lists of its records that has no name
(`Naming.error?_compile`). Every function of the compiler has one equation, which gives its error from the IRIs that it
names.
-/
import ShapePlan.Proofs.Naming
import ShapePlan.Proofs.Plan.Facets

namespace ShapePlan

/-! ## Named IRIs -/

namespace Record

variable (n : Naming) (r : Record)

/-- The IRIs that a constraint of a record names. Types are named only where they are labels. -/
def constraintIris : Constraint → List String
  | .hasValueIris iris => if r.isOnType && n.keepsLabels then iris else []
  | .classOf iri => if r.isOnProperty then [iri] else []
  | .inIris iris => if r.isOnType && n.keepsLabels then iris else []
  | .closed defined ignored => (if n.keepsNodes then [Rdf.type] else []) ++ ignored ++ defined
  | .disjoint classes => classes
  | _ => []

/-- The IRIs that the facets of a record name. -/
def facetIris : List String :=
  (if r.isOnType && n.keepsLabels then r.hasValueIris.getD [] else []) ++
  (if r.isOnProperty then (r.rangeClass.filter (· ≠ "")).toList else []) ++
  (if r.isOnType && n.keepsLabels then r.inIris.getD [] else []) ++
  (if r.isClosedDefinition then
    (if n.keepsNodes then [Rdf.type] else []) ++ r.ignoredProps.getD [] ++ r.definedProps.getD []
  else []) ++
  r.disjointClasses.getD []

/-- The IRIs that a record names: its target class, its path and those of its facets. -/
def namedIris : List String :=
  match r.targetClass with
  | none => []
  | some c => c :: (r.path.toList ++ r.facetIris n)

/-- The record with nothing but what can be named. -/
def vocabulary : Record where
  path := r.path
  targetClass := r.targetClass
  rangeClass := r.rangeClass
  hasValueIris := r.hasValueIris
  inIris := r.inIris
  constraintType := r.constraintType
  definedProps := r.definedProps
  ignoredProps := r.ignoredProps
  disjointClasses := r.disjointClasses

theorem namedIris_vocabulary : r.vocabulary.namedIris n = r.namedIris n := rfl

theorem flatMap_ofList {f : List String → Constraint} {g : Constraint → List String} (h : g (f []) = [])
    (l : Option (List String)) : (ofList f l).flatMap g = g (f (l.getD [])) := by
  rcases l with _ | l
  · exact h.symm
  · by_cases hl : l = []
    · subst hl
      exact h.symm
    · have hfilter : (some l).filter (· ≠ []) = some l := by simp [Option.filter_some, hl]
      rw [ofList, hfilter]
      exact List.append_nil _

theorem flatMap_option {α : Type} {f : α → Constraint} {g : Constraint → List String} (h : ∀ a, g (f a) = [])
    (o : Option α) : (o.map f).toList.flatMap g = [] := by
  cases o with
  | none => rfl
  | some a => simp [h]

theorem flatMap_ite (g : Constraint → List String) (b : Bool) (c : Constraint) :
    (if b then [c] else []).flatMap g = if b then g c else [] := by
  cases b with
  | false => rfl
  | true => exact List.append_nil _

/-- The lists of the constraints, one behind the other. -/
theorem flatMap_constraintIris : r.constraints.flatMap (r.constraintIris n) = r.facetIris n := by
  have hclass : ((r.rangeClass.filter (· ≠ "")).map Constraint.classOf).toList.flatMap (r.constraintIris n) =
      if r.isOnProperty then (r.rangeClass.filter (· ≠ "")).toList else [] := by
    cases r.rangeClass.filter (· ≠ "") <;> simp [constraintIris]
  rw [constraints, range_constraint]
  simp only [List.flatMap_append, flatMap_ite, hclass]
  rw [flatMap_option (fun _ => rfl), flatMap_ofList (ite_self _), flatMap_ofList rfl, flatMap_option (fun _ => rfl),
    flatMap_ofList rfl, flatMap_ofList (ite_self _), flatMap_option (fun _ => rfl), flatMap_option (fun _ => rfl),
    flatMap_option (fun _ => rfl), flatMap_ofList rfl, flatMap_ofList rfl]
  simp only [constraintIris, facetIris, ite_self, List.nil_append, List.append_nil]

end Record

/-! ## Errors -/

/-- The error of the first IRI that has no name. -/
def Naming.firstError? (n : Naming) (iris : List String) : Option NamingError :=
  iris.findSome? fun u => error? (n.name u)

namespace Naming

variable (n : Naming)

theorem firstError?_append (l k : List String) : n.firstError? (l ++ k) = (n.firstError? l).or (n.firstError? k) :=
  List.findSome?_append

theorem firstError?_singleton (u : String) : n.firstError? [u] = error? (n.name u) := by
  rw [firstError?, List.findSome?_singleton]

theorem firstError?_flatMap {α : Type} (f : α → List String) (xs : List α) :
    n.firstError? (xs.flatMap f) = xs.findSome? fun x => n.firstError? (f x) := by
  induction xs with
  | nil => rfl
  | cons x xs ih =>
    rw [List.flatMap_cons, firstError?_append, ih, List.findSome?_cons]
    cases n.firstError? (f x) <;> rfl

theorem error?_names (iris : List String) : error? (n.names iris) = n.firstError? iris := error?_mapM n.name iris

end Naming

section

variable (n : Naming) (t : Target) (prop : String)

theorem IriFacet.error?_emit (f : IriFacet) (iris : List String) :
    error? (f.emit n t prop iris) = n.firstError? (if t.header.isOnType && n.typesAsLabels then iris else []) := by
  unfold emit emitOnType
  cases t.header.isOnType with
  | false => rfl
  | true =>
    cases n.typesAsLabels with
    | false => rfl
    | true => exact (error?_bind_pure _ _).trans (n.error?_names iris)

namespace Target

/-- Without a configuration the constraint is passed over only on a property, where it names nothing. -/
theorem error?_emitHasValueIris (iris : List String) :
    error? (t.emitHasValueIris n prop iris) =
      n.firstError? (if t.header.isOnType && n.typesAsLabels then iris else []) := by
  rw [emitHasValueIris]
  split
  · next h =>
    have hproperty : t.header.isOnType = false := by simpa using (Bool.and_eq_true_iff.1 h).1
    rw [hproperty]
    rfl
  · exact IriFacet.error?_emit n t prop _ iris

theorem error?_emitClass (iri : String) : error? (t.emitClass n prop iri) = n.firstError? [iri] := by
  rw [emitClass, error?_bind_pure, n.firstError?_singleton]

theorem error?_emitClosed (defined ignored : List String) : error? (t.emitClosed n defined ignored) =
    n.firstError? ((if n.typesAsNodes then [Rdf.type] else []) ++ ignored ++ defined) := by
  rw [emitClosed, error?_bind fun types _ => error?_bind fun ignored _ => error?_bind_pure (n.names defined) _]
  rw [n.error?_names, n.error?_names, n.error?_names, n.firstError?_append, n.firstError?_append, Option.or_assoc]

theorem error?_emitDisjoint (classes : List String) : error? (t.emitDisjoint n classes) = n.firstError? classes := by
  rw [emitDisjoint, error?_bind_pure, n.error?_names]

end Target

end

namespace Target.IsFor

variable {n : Naming} {r : Record} {t : Target}

theorem path_eq_none (h : t.IsFor n r) (hp : t.path = none) : r.path = none := by
  cases hr : r.path with
  | none => rfl
  | some p =>
    obtain ⟨v, -, hv⟩ := h.path p hr
    rw [hp] at hv
    cases hv

/-- A constraint on the path fails as it does on the path that there is, and not at all where there is none. -/
theorem error?_emit_onPath (h : t.IsFor n r) {c : Constraint} (hc : c.isOnPath = true) {iris : List String}
    (hnone : r.path = none → iris = [])
    (hsome : ∀ prop, t.path = some prop →
      error? (if t.header.isOnType && !allowedOnType c then .ok {} else t.emitOnPath n prop c) = n.firstError? iris) :
    error? (t.emit n c) = n.firstError? iris := by
  rw [emit_onPath hc]
  cases hp : t.path with
  | none => rw [hnone (h.path_eq_none hp)]; rfl
  | some prop => exact hsome prop hp

/-- A constraint fails with the first of its IRIs that has no name. -/
theorem error?_emit (h : t.IsFor n r) (c : Constraint) :
    error? (t.emit n c) = n.firstError? (r.constraintIris n c) := by
  have htype : r.path = none → r.isOnType = false := fun hr => by simp [Record.isOnType, hr]
  have hproperty : r.path = none → r.isOnProperty = false := fun hr => by simp [Record.isOnProperty, hr]
  cases c with
  | hasValueIris iris =>
    refine h.error?_emit_onPath rfl (fun hr => by simp [Record.constraintIris, htype hr]) fun prop _ => ?_
    rw [Record.constraintIris, ← h.isOnType_eq, n.keepsLabels_eq, ← error?_emitHasValueIris n t prop]
    simp [allowedOnType, emitOnPath]
  | inIris iris =>
    refine h.error?_emit_onPath rfl (fun hr => by simp [Record.constraintIris, htype hr]) fun prop _ => ?_
    rw [Record.constraintIris, ← h.isOnType_eq, n.keepsLabels_eq, ← IriFacet.error?_emit n t prop .oneOf]
    simp [allowedOnType, emitOnPath]
  | classOf iri =>
    refine h.error?_emit_onPath rfl (fun hr => by simp [Record.constraintIris, hproperty hr]) fun prop hp => ?_
    rw [Record.constraintIris, h.isOnProperty_eq hp]
    cases t.header.isOnType with
    | true => rfl
    | false => exact error?_emitClass n t prop iri
  | closed defined ignored =>
    rw [Record.constraintIris, n.keepsNodes_eq]
    exact error?_emitClosed n t defined ignored
  | disjoint classes => exact error?_emitDisjoint n t classes
  | requiredClasses classes => rfl
  | _ =>
    refine h.error?_emit_onPath rfl (fun _ => rfl) fun prop _ => ?_
    split <;> rfl

end Target.IsFor

namespace Naming

variable (n : Naming)

theorem error?_target (r : Record) (c : String) :
    error? (n.target (r.header c)) = n.firstError? (c :: r.path.toList) := by
  have hpath : error? ((r.header c).path.mapM fun p => n.name p.iri) = n.firstError? r.path.toList := by
    have heq : (r.header c).path = r.path.map (⟨·, r.inverse⟩) := rfl
    rw [heq]
    cases r.path with
    | none => rfl
    | some p => exact (error?_bind_pure _ _).trans (n.firstError?_singleton p).symm
  rw [target, error?_bind fun focus _ => error?_bind_pure _ _, hpath, ← n.firstError?_singleton,
    ← n.firstError?_append]
  rfl

theorem error?_emitRecord (r : Record) : error? (n.emitRecord r) = n.firstError? (r.namedIris n) := by
  unfold emitRecord Record.constraintSet? Record.namedIris
  cases hc : r.targetClass with
  | none => rfl
  | some c =>
    have hconstraints : ∀ t, n.target (r.header c) = .ok t →
        error? (r.constraints.mapM (t.emit n)) = n.firstError? (r.facetIris n) := by
      intro t ht
      rw [error?_mapM, ← r.flatMap_constraintIris, firstError?_flatMap]
      exact congrArg (List.findSome? · r.constraints) (funext (isFor_of_target hc ht).error?_emit)
    show error? (n.emitSet ⟨r.header c, r.constraints⟩) = _
    rw [emitSet, error?_bind fun t ht => (error?_bind_pure _ _).trans (hconstraints t ht), error?_target,
      ← firstError?_append]
    rfl

/-- Compiling fails with the first IRI that has no name. -/
theorem error?_compile (rs : List Record) :
    error? (n.compile rs) = n.firstError? (rs.flatMap (Record.namedIris n)) := by
  rw [compile, error?_bind_pure, emitRecords, error?_bind_pure, error?_mapM, firstError?_flatMap]
  exact congrArg (List.findSome? · rs) (funext n.error?_emitRecord)

theorem compile_eq_error {rs : List Record} {e : NamingError} : n.compile rs = .error e ↔
    ∃ before u after, rs.flatMap (Record.namedIris n) = before ++ u :: after ∧
      (∀ v ∈ before, ∃ m, n.name v = .ok m) ∧ n.name u = .error e := by
  rw [← error?_eq_some, error?_compile, firstError?, List.findSome?_eq_some_iff]
  simp only [error?_eq_some, error?_eq_none, and_comm]

/-- Compiling succeeds where names are not shortened. Where they are, it fails with the first IRI whose namespace has no
prefix that can be used; what a record says beyond its vocabulary makes no difference to that. -/
theorem compile_fails_first (config : Option GraphConfig) (t : PrefixTable) (rs : List Record) :
    let n : Naming := ⟨config, t.resolver⟩
    (¬ n.Shortens → ∃ p, n.compile rs = .ok p) ∧
    (n.Shortens → ∀ e, n.compile rs = .error e ↔
      ∃ before u after, rs.flatMap (Record.namedIris n) = before ++ u :: after ∧
        (∀ v ∈ before, ∃ m, n.name v = .ok m) ∧ t.Refuses u e) ∧
    (n.Shortens → ∀ u e, n.name u = .error e ↔ t.Refuses u e) ∧
    ∀ e, n.compile (rs.map Record.vocabulary) = .error e ↔ n.compile rs = .error e := by
  intro n
  have hrefuses : n.Shortens → ∀ u e, n.name u = .error e ↔ t.Refuses u e := by
    intro hs u e
    rw [name_of_shortens hs, PrefixTable.shortName_eq_error]
  refine ⟨fun hs => ?_, fun hs e => ?_, hrefuses, fun e => ?_⟩
  · rw [← error?_eq_none, error?_compile, firstError?, List.findSome?_eq_none_iff]
    exact fun u _ => error?_eq_none.2 (exists_name hs u)
  · simp only [compile_eq_error, hrefuses hs]
  · have hnamed : (rs.map Record.vocabulary).flatMap (Record.namedIris n) = rs.flatMap (Record.namedIris n) := by
      rw [List.flatMap_map]
      exact congrArg (List.flatMap · rs) (funext (Record.namedIris_vocabulary n))
    rw [compile_eq_error, compile_eq_error, hnamed]

end Naming

/-- Prefixes of which one cannot be used. -/
def faultyPrefixes : PrefixTable :=
  ((({} : PrefixTable).insert "ex" "http://example.org/").insert "rdf"
    "http://www.w3.org/1999/02/22-rdf-syntax-ns#").insert "1x" "http://example.com/"

/-- Records of which the first names no IRI of an unknown namespace, the second names one among its types, and the third
names one that has a faulty prefix. -/
def unnamedRecords : List Record :=
  [{ targetClass := some "http://example.org/Person", path := some "http://example.org/knows",
     datatype := some "http://example.net/D", hasValueIris := some ["http://example.net/V"] },
   { targetClass := some "http://example.org/Person", path := some Rdf.type,
     rangeClass := some "http://example.net/C", inIris := some ["http://example.org/A", "http://example.net/B"] },
   { targetClass := some "http://example.com/Thing" }]

theorem compile_fails_first_unnamedRecords :
    (⟨some {}, faultyPrefixes.resolver⟩ : Naming).Shortens ∧
    (∃ p, (⟨none, faultyPrefixes.resolver⟩ : Naming).compile unnamedRecords = .ok p) ∧
    (⟨some {}, faultyPrefixes.resolver⟩ : Naming).compile unnamedRecords =
      .error (.unknownNamespace "http://example.net/B" "http://example.net/") ∧
    (⟨some {}, faultyPrefixes.resolver⟩ : Naming).compile (unnamedRecords.drop 2) =
      .error (.invalidPrefix "1x" "http://example.com/") := by
  have hs : (⟨some {}, faultyPrefixes.resolver⟩ : Naming).Shortens := ⟨_, rfl, .inl rfl⟩
  have hnone : ¬ (⟨none, faultyPrefixes.resolver⟩ : Naming).Shortens := by
    rintro ⟨c, hc, -⟩
    cases hc
  refine ⟨hs, (Naming.compile_fails_first none faultyPrefixes unnamedRecords).1 hnone, ?_, ?_⟩
  · refine ((Naming.compile_fails_first (some {}) faultyPrefixes unnamedRecords).2.1 hs _).2
      ⟨["http://example.org/Person", "http://example.org/knows", "http://example.org/Person", Rdf.type,
        "http://example.org/A"], "http://example.net/B", ["http://example.com/Thing"], by decide, ?_, ?_⟩
    · have hnamed : ∀ v ∈ ["http://example.org/Person", "http://example.org/knows", "http://example.org/Person",
          Rdf.type, "http://example.org/A"], error? ((⟨some {}, faultyPrefixes.resolver⟩ : Naming).name v) = none := by
        decide
      exact fun v hv => error?_eq_none.1 (hnamed v hv)
    · exact .inl ⟨by decide, by decide⟩
  · exact ((Naming.compile_fails_first (some {}) faultyPrefixes (unnamedRecords.drop 2)).2.1 hs _).2
      ⟨[], "http://example.com/Thing", [], by decide, List.forall_mem_nil _,
        .inr ⟨"1x", by decide, by decide, by decide⟩⟩

end ShapePlan
