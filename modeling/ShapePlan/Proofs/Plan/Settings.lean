/-
The parameters of a record as a table. A row names the parameter set and the key and gives the value; the rows that
apply are what compiling the record assigns, one for one. Nothing in the table depends on the target class.
-/
import ShapePlan.Proofs.Plan.Facets
import Mathlib.Data.List.Nodup

namespace ShapePlan

/-- A value that is set for a record. It has one unless an IRI in it has no name. -/
structure Setting where
  /-- The parameter that the set is named for. -/
  parameter : String
  key : String
  value : Except NamingError Value

/-- The assignment of a setting. -/
def Param.IsSet (r : Record) (s : Setting) (a : Param) : Prop :=
  a.set = r.uid ++ "_" ++ s.parameter ∧ a.key = s.key ∧ s.value = .ok a.value

/-! ## The table -/

namespace Record

variable (n : Naming) (r : Record)

/-- The rows for a list of IRIs. Labels are listed by their names. -/
def iriSettings (listed onPath : Bool) (iris : List String) (parameter property label node : String) : List Setting :=
  r.iriRows n listed onPath ⟨parameter, property, .ok (.strings iris)⟩ ⟨parameter, label, .strings <$> n.names iris⟩
    ⟨parameter, node, .ok (.strings iris)⟩

/-- The type property is allowed where types are nodes. -/
def allowedProps : List String :=
  (if n.keepsNodes then [Rdf.type] else []) ++ r.ignoredProps.getD [] ++ r.definedProps.getD []

/-- The parameters of a record, by its facets. -/
def settings : List Setting :=
  r.iriSettings n (lists r.hasValueIris) n.config.isSome (r.hasValueIris.getD []) Sh.hasValue "theHasValueUri"
    "theHasTypeTranslatedUris" "theHasTypeUris" ++
  rowsIf (r.isOnProperty && lists r.hasValueLiterals)
    [⟨Sh.hasValue, "theHasValueLiteral", .ok (.strings (r.hasValueLiterals.getD []))⟩] ++
  rowsIf (r.isOnProperty && lists r.inLiterals)
    [⟨Sh.oneOf, "theInLiterals", .ok (.strings (r.inLiterals.getD []))⟩] ++
  r.iriSettings n (lists r.inIris) true (r.inIris.getD []) Sh.oneOf "theInUris" "theInTypeTranslatedUris"
    "theInTypeUris" ++
  rowsIf (r.isOnProperty && r.pattern.isSome) [⟨Sh.pattern, "theRegex", .ok (.string (r.pattern.getD ""))⟩] ++
  rowsIf (r.path.isSome && r.minCount.isSome)
    [⟨Sh.minCount, "minCount", .ok (.int (r.minCount.getD 0).toInt)⟩] ++
  rowsIf (r.path.isSome && r.maxCount.isSome)
    [⟨Sh.maxCount, "maxCount", .ok (.int (r.maxCount.getD 0).toInt)⟩] ++
  rowsIf (r.isOnProperty && (r.minLength.isSome || r.maxLength.isSome))
    [⟨Sh.minLength, "minStrLen", .ok (.ofOption (fun k => .int k.toInt) r.minLength)⟩,
      ⟨Sh.minLength, "maxStrLen", .ok (.ofOption (fun k => .int k.toInt) r.maxLength)⟩] ++
  rowsIf (r.isOnProperty && r.isRanged)
    [⟨Sh.minExclusive, "min", .ok (.ofOption .number (r.minInclusive.or r.minExclusive))⟩,
      ⟨Sh.minExclusive, "max", .ok (.ofOption .number (r.maxInclusive.or r.maxExclusive))⟩] ++
  rowsIf (r.constraintType = some "closedDefinitionPropList")
    [⟨Sh.closed, "allAllowedProps", .strings <$> n.names (r.allowedProps n)⟩]

end Record

/-! ## Facets -/

/-- The parameters of constraints are settings, one for one. -/
abbrev Target.Sets (n : Naming) (r : Record) (t : Target) (cs : List Constraint) (ss : List Setting) : Prop :=
  t.Yields n (·.params) (Param.IsSet r) cs ss

namespace Target.IsFor

variable {n : Naming} {r : Record} {t : Target} {prop : String} (ht : t.IsFor n r)

include ht

theorem isSet {parameter key : String} {v : Value} {w : Except NamingError Value} (h : w = .ok v) :
    Param.IsSet r ⟨parameter, key, w⟩ ⟨t.paramSet parameter, key, v⟩ :=
  ⟨by rw [← ht.uid_eq]; rfl, rfl, h⟩

theorem hasRows_params (f : IriFacet) (iris : List String) : f.HasRows n t (·.params) (Param.IsSet r) prop iris
    ⟨f.kind.parameter, f.onPath.key, .ok (.strings iris)⟩
    ⟨f.kind.parameter, f.inLabels.key, .strings <$> n.names iris⟩
    ⟨f.kind.parameter, f.inNodes.key, .ok (.strings iris)⟩ where
  property := .cons (ht.isSet rfl) .nil
  label names hnames := .cons (ht.isSet (by rw [hnames]; rfl)) .nil
  node := .cons (ht.isSet rfl) .nil

theorem sets_hasValueIris : t.Sets n r (Record.ofList .hasValueIris r.hasValueIris)
    (r.iriSettings n (Record.lists r.hasValueIris) n.config.isSome (r.hasValueIris.getD []) Sh.hasValue
      "theHasValueUri" "theHasTypeTranslatedUris" "theHasTypeUris") := by
  refine ht.yields_hasValueIris Emission.isPart_params fun prop iris _ hi => ?_
  rw [hi]
  exact ht.hasRows_params .hasValue iris

theorem sets_inIris : t.Sets n r (Record.ofList .inIris r.inIris)
    (r.iriSettings n (Record.lists r.inIris) true (r.inIris.getD []) Sh.oneOf "theInUris" "theInTypeTranslatedUris"
      "theInTypeUris") := by
  refine ht.yields_inIris Emission.isPart_params fun prop iris _ hi => ?_
  rw [hi]
  exact ht.hasRows_params .oneOf iris

theorem sets_literals (kind : Kind) {l : Option (List String)} {f : List String → Constraint} {template : Template}
    {key : String} (hf : ∀ l, (f l).isOnPath = true ∧ allowedOnType (f l) = false)
    (he : ∀ prop l, t.emitOnPath n prop (f l) = .ok (t.emitLiterals n template kind key prop l)) :
    t.Sets n r (Record.ofList f l)
      (rowsIf (r.isOnProperty && Record.lists l) [⟨kind.parameter, key, .ok (.strings (l.getD []))⟩]) := by
  refine .listOnProperty rfl ht hf fun literals prop e hl hp h => ?_
  rw [he] at h
  cases h
  rw [hl]
  exact .cons (ht.isSet rfl) .nil

theorem sets_pattern : t.Sets n r (r.pattern.map .pattern).toList
    (rowsIf (r.isOnProperty && r.pattern.isSome) [⟨Sh.pattern, "theRegex", .ok (.string (r.pattern.getD ""))⟩]) := by
  refine .optionOnProperty rfl ht (fun _ => ⟨rfl, rfl⟩) fun regex prop e hr hp he => ?_
  cases he
  rw [hr]
  exact .cons (ht.isSet rfl) .nil

theorem sets_count (f : CountFacet) {o : Option Int64} {g : Int64 → Constraint}
    (hg : ∀ k, (g k).isOnPath = true ∧ allowedOnType (g k) = true)
    (he : ∀ prop k, t.emitOnPath n prop (g k) = .ok (f.emit n t prop k)) :
    t.Sets n r (o.map g).toList
      (rowsIf (r.path.isSome && o.isSome) [⟨f.kind.parameter, f.key, .ok (.int (o.getD 0).toInt)⟩]) := by
  refine .option (X := fun b => rowsIf (r.path.isSome && b) _) (rowsIf_and_false _ _) fun k hk => ?_
  rw [Bool.and_true]
  refine .onPath (hg k) rfl ht (fun hr => by rw [hr]; rfl) fun prop e hp h => ?_
  rw [he] at h
  cases h
  rw [ht.path_isSome hp, hk]
  exact .cons (ht.isSet rfl) .nil

theorem sets_length : t.Sets n r
    (if r.minLength.isSome || r.maxLength.isSome then [.length r.minLength r.maxLength] else [])
    (rowsIf (r.isOnProperty && (r.minLength.isSome || r.maxLength.isSome))
      [⟨Sh.minLength, "minStrLen", .ok (.ofOption (fun k => .int k.toInt) r.minLength)⟩,
        ⟨Sh.minLength, "maxStrLen", .ok (.ofOption (fun k => .int k.toInt) r.maxLength)⟩]) := by
  refine .iteOnProperty rfl ht ⟨rfl, rfl⟩ fun prop e _ hp he => ?_
  cases he
  exact .cons (ht.isSet rfl) (.cons (ht.isSet rfl) .nil)

theorem sets_range : t.Sets n r (if r.valueRange.isEmpty then [] else [.range r.valueRange])
    (rowsIf (r.isOnProperty && r.isRanged)
      [⟨Sh.minExclusive, "min", .ok (.ofOption .number (r.minInclusive.or r.minExclusive))⟩,
        ⟨Sh.minExclusive, "max", .ok (.ofOption .number (r.maxInclusive.or r.maxExclusive))⟩]) := by
  rw [r.range_constraint]
  refine .iteOnProperty rfl ht ⟨rfl, rfl⟩ fun prop e hb hp he => ?_
  cases he
  have hlower : Value.ofOption (fun b => .number b.value) r.valueRange.lower? =
      .ofOption .number (r.minInclusive.or r.minExclusive) := by
    unfold Record.valueRange
    cases r.minInclusive <;> cases r.minExclusive <;> rfl
  have hupper : Value.ofOption (fun b => .number b.value) r.valueRange.upper? =
      .ofOption .number (r.maxInclusive.or r.maxExclusive) := by
    unfold Record.valueRange
    cases r.maxInclusive <;> cases r.maxExclusive <;> rfl
  unfold emitRange
  split
  · next hnil => exact absurd hnil (r.bounds_valueRange hb)
  · exact .cons (ht.isSet (congrArg _ hlower.symm)) (.cons (ht.isSet (congrArg _ hupper.symm)) .nil)

theorem sets_closed : t.Sets n r
    (if r.isClosedDefinition then [.closed (r.definedProps.getD []) (r.ignoredProps.getD [])] else [])
    (rowsIf (r.constraintType = some "closedDefinitionPropList")
      [⟨Sh.closed, "allAllowedProps", .strings <$> n.names (r.allowedProps n)⟩]) := by
  refine .ite (X := fun b => rowsIf b _) rfl fun _ => .single fun e he => ?_
  obtain ⟨types, htypes, he⟩ := bind_eq_ok.1 he
  obtain ⟨ignored, hignored, he⟩ := bind_eq_ok.1 he
  obtain ⟨defined, hdefined, he⟩ := bind_eq_ok.1 he
  cases he
  have hnames : n.names (r.allowedProps n) = .ok (types ++ ignored ++ defined) := by
    rw [Record.allowedProps, n.keepsNodes_eq]
    exact mapM_eq_ok.2 (List.rel_append (List.rel_append (mapM_eq_ok.1 htypes) (mapM_eq_ok.1 hignored))
      (mapM_eq_ok.1 hdefined))
  exact .cons (ht.isSet (by rw [hnames]; rfl)) .nil

end Target.IsFor

/-- A constraint without parameters. -/
def Constraint.setsNothing : Constraint → Bool
  | .datatype _ => true
  | .nodeKind _ => true
  | .classOf _ => true
  | .disjoint _ => true
  | .requiredClasses _ => true
  | _ => false

theorem Target.params_of_setsNothing {n : Naming} {t : Target} {c : Constraint} (hc : c.setsNothing = true)
    {e : Emission} (h : t.emit n c = .ok e) : e.params = [] := by
  rcases emit_cases h with rfl | ⟨defined, ignored, rfl, -⟩ | ⟨classes, rfl, h⟩ | ⟨prop, -, -, h⟩
  · rfl
  · cases hc
  · obtain ⟨names, -, h⟩ := bind_eq_ok.1 h
    cases h
    rfl
  · cases c with
    | datatype iri => cases h; rfl
    | nodeKind k => cases h; rfl
    | classOf iri =>
      obtain ⟨range, -, h⟩ := bind_eq_ok.1 h
      cases h
      rfl
    | disjoint _ => cases h; rfl
    | requiredClasses _ => cases h; rfl
    | _ => cases hc

theorem Target.sets_nothing {n : Naming} {r : Record} {t : Target} {α : Type} {f : α → Constraint}
    (hf : ∀ a, (f a).setsNothing = true) (o : Option α) : t.Sets n r (o.map f).toList [] := by
  refine .none fun c hc e he => ?_
  obtain ⟨a, -, rfl⟩ := Option.map_eq_some_iff.1 (Option.mem_toList.1 hc)
  exact params_of_setsNothing (hf a) he

theorem Target.IsFor.sets_constraints {n : Naming} {r : Record} {t : Target} (ht : t.IsFor n r) :
    t.Sets n r r.constraints (r.settings n) := by
  unfold Record.constraints Record.settings
  refine .skip (.skip ?_ (sets_nothing (fun _ => rfl) _)) (sets_nothing (fun _ => rfl) _)
  refine .append (.append (.append ?_ ht.sets_length) ht.sets_range) ht.sets_closed
  refine .append (.append ?_ ?minCount) (ht.sets_count .maxCount (fun _ => ⟨rfl, rfl⟩) fun _ _ => rfl)
  case minCount => exact ht.sets_count .minCount (fun _ => ⟨rfl, rfl⟩) fun _ _ => rfl
  refine .append (.append (.append ?_ ?inLiterals) ht.sets_inIris) ht.sets_pattern
  case inLiterals => exact ht.sets_literals .oneOf (fun _ => ⟨rfl, rfl⟩) fun _ _ => rfl
  refine .skip (.skip ?_ (sets_nothing (fun _ => rfl) _)) (sets_nothing (fun _ => rfl) _)
  refine .append ?_ (ht.sets_literals .hasValue (fun _ => ⟨rfl, rfl⟩) fun _ _ => rfl)
  exact .skipFirst (sets_nothing (fun _ => rfl) _) ht.sets_hasValueIris

/-- The parameters of a record are its settings. -/
theorem Naming.sets_emitRecord {n : Naming} {r : Record} {c : String} (hc : r.targetClass = some c) {e : Emission}
    (h : n.emitRecord r = .ok e) : List.Forall₂ (Param.IsSet r) (r.settings n) e.params :=
  Target.Yields.emitRecord hc Emission.params_join (fun _ ht => ht.sets_constraints) h

/-! ## Keys -/

/-- All keys, each with the parameter that its set is named for. -/
def Setting.keyTable : List (String × String) :=
  [("theHasTypeTranslatedUris", Sh.hasValue)] ++ [("theHasTypeUris", Sh.hasValue)] ++
  [("theHasValueUri", Sh.hasValue)] ++ [("theHasValueLiteral", Sh.hasValue)] ++
  [("theInLiterals", Sh.oneOf)] ++ [("theInTypeTranslatedUris", Sh.oneOf)] ++ [("theInTypeUris", Sh.oneOf)] ++
  [("theInUris", Sh.oneOf)] ++ [("theRegex", Sh.pattern)] ++ [("minCount", Sh.minCount)] ++
  [("maxCount", Sh.maxCount)] ++ [("minStrLen", Sh.minLength), ("maxStrLen", Sh.minLength)] ++
  [("min", Sh.minExclusive), ("max", Sh.minExclusive)] ++ [("allAllowedProps", Sh.closed)]

theorem Setting.nodup_keyTable : (keyTable.map (·.1)).Nodup := by simp [keyTable]

theorem map_rowsIf {α β : Type} (f : α → β) (b : Bool) (rows : List α) :
    (rowsIf b rows).map f = rowsIf b (rows.map f) := by
  cases b <;> rfl

theorem rowsIf_sublist {α : Type} (b : Bool) (rows : List α) : (rowsIf b rows).Sublist rows := by
  cases b with
  | false => exact List.nil_sublist _
  | true => exact .refl _

namespace Record

variable {n : Naming} {r r' : Record} {s s' : Setting}

theorem settings_keys (n : Naming) (r : Record) :
    ((r.settings n).map fun s => (s.key, s.parameter)).Sublist Setting.keyTable := by
  simp only [settings, iriSettings, iriRows, Setting.keyTable, List.append_assoc, List.map_append, map_rowsIf,
    List.map_cons, List.map_nil]
  repeat' refine List.Sublist.append ?_ ?_
  all_goals exact rowsIf_sublist _ _

/-- The key says for which parameter a set is. -/
theorem parameter_of_key (hs : s ∈ r.settings n) (hs' : s' ∈ r'.settings n) (h : s.key = s'.key) :
    s.parameter = s'.parameter := by
  have hmem := (r.settings_keys n).mem (List.mem_map_of_mem hs)
  have hmem' := (r'.settings_keys n).mem (List.mem_map_of_mem hs')
  exact congrArg Prod.snd (List.inj_on_of_nodup_map Setting.nodup_keyTable hmem hmem' h)

/-- A record without a path has only the parameter of closed shapes. -/
theorem settings_of_noPath (h : r.path = none) : r.settings n =
    rowsIf (r.constraintType = some "closedDefinitionPropList")
      [⟨Sh.closed, "allAllowedProps", .strings <$> n.names (r.allowedProps n)⟩] := by
  simp [settings, iriSettings, iriRows, isOnType, isOnProperty, h, rowsIf_false]

/-- A record sets each key once. -/
theorem setting_of_key (hs : s ∈ r.settings n) (hs' : s' ∈ r.settings n) (h : s.key = s'.key) : s = s' := by
  have hsub := (r.settings_keys n).map Prod.fst
  rw [List.map_map] at hsub
  exact List.inj_on_of_nodup_map (Setting.nodup_keyTable.sublist hsub) hs hs' h

end Record

end ShapePlan
