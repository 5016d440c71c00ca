/-
Reading records back. The object of a record and the list of its facets both give the record; the first facets alone
give a record that has these and none of the others. A list of strings may come as one joined string, wherever it
stands.
-/
import ShapePlan.Proofs.Config.Items
import ShapePlan.Record.Codec

namespace ShapePlan

/-! ## Values -/

theorem Value.int64?_int (n : Int64) : (Value.int n.toInt).int64? = some n := by
  have hn : Int64.minValue.toInt ≤ n.toInt ∧ n.toInt ≤ Int64.maxValue.toInt :=
    ⟨Int64.minValue_le_toInt n, Int64.toInt_le n⟩
  have hint : Number.int64? (.int n.toInt) = some n := by
    rw [Number.int64?, if_pos hn, Int64.ofInt_toInt]
  exact hint

theorem Value.strings?_strings (l : List String) : (Value.strings l).strings? = some l := by
  induction l with
  | nil => rfl
  | cons s l ih =>
    simp only [strings?, strings, list?, Option.bind_eq_bind, Option.bind_some] at ih ⊢
    rw [List.map_cons, List.mapM_cons, ih]
    rfl

namespace Record

/-! ## Facets one by one -/

section Kinds

variable (key : String) (a r : Record)

theorem text_set_get (get : Record → Option String) (set : Record → Option String → Record) :
    (text key get set).set a ((text key get set).get r) = some (set a (get r)) := by
  simp only [text]
  cases get r <;> rfl

theorem flag_set_get (get : Record → Bool) (set : Record → Bool → Record) :
    (flag key get set).set a ((flag key get set).get r) = some (set a (get r)) :=
  rfl

theorem count_set_get (get : Record → Option Int64) (set : Record → Option Int64 → Record) :
    (count key get set).set a ((count key get set).get r) = some (set a (get r)) := by
  simp only [count]
  cases get r with
  | none => rfl
  | some n =>
    have hn : absentOr Value.int64? (.int n.toInt) = some (some n) := congrArg (Option.map some) (Value.int64?_int n)
    simp [Value.ofOption, hn]

theorem bound_set_get (get : Record → Option Number) (set : Record → Option Number → Record) :
    (bound key get set).set a ((bound key get set).get r) = some (set a (get r)) := by
  simp only [bound]
  cases get r <;> rfl

theorem joined?_strings (l : List String) : joined? (.strings l) = some l := Value.strings?_strings l

theorem texts_set_get (get : Record → Option (List String)) (set : Record → Option (List String) → Record) :
    (texts key get set).set a ((texts key get set).get r) = some (set a (get r)) := by
  simp only [texts]
  cases get r with
  | none => rfl
  | some l =>
    have hl : absentOr joined? (.strings l) = some (some l) := congrArg (Option.map some) (joined?_strings l)
    simp [Value.ofOption, hl]

/-- One joined string is read as the list that it joins. -/
theorem texts_set_string (get : Record → Option (List String)) (set : Record → Option (List String) → Record)
    (s : String) : (texts key get set).set a (.string s) = (texts key get set).set a (.strings (splitValues s)) := by
  have hl : absentOr joined? (.strings (splitValues s)) = some (some (splitValues s)) :=
    congrArg (Option.map some) (joined?_strings _)
  simp only [texts, hl]
  rfl

end Kinds

/-! ## The first facets -/

/-- The record that agrees on the first facets and has none of the others. -/
def firstFacets (k : Nat) (r : Record) : Record where
  path := if 0 < k then r.path else none
  inverse := if 1 < k then r.inverse else false
  targetClass := if 2 < k then r.targetClass else none
  rangeClass := if 3 < k then r.rangeClass else none
  nodeKind := if 4 < k then r.nodeKind else none
  datatype := if 5 < k then r.datatype else none
  pattern := if 6 < k then r.pattern else none
  minCount := if 7 < k then r.minCount else none
  maxCount := if 8 < k then r.maxCount else none
  minInclusive := if 9 < k then r.minInclusive else none
  minExclusive := if 10 < k then r.minExclusive else none
  maxInclusive := if 11 < k then r.maxInclusive else none
  maxExclusive := if 12 < k then r.maxExclusive else none
  hasValueLiterals := if 13 < k then r.hasValueLiterals else none
  hasValueIris := if 14 < k then r.hasValueIris else none
  inLiterals := if 15 < k then r.inLiterals else none
  inIris := if 16 < k then r.inIris else none
  minLength := if 17 < k then r.minLength else none
  maxLength := if 18 < k then r.maxLength else none
  propertyShape := if 19 < k then r.propertyShape else none
  severity := if 20 < k then r.severity else none
  constraintType := if 21 < k then r.constraintType else none
  nodeShape := if 22 < k then r.nodeShape else none
  definedProps := if 23 < k then r.definedProps else none
  ignoredProps := if 24 < k then r.ignoredProps else none
  requiredClasses := if 25 < k then r.requiredClasses else none
  disjointClasses := if 26 < k then r.disjointClasses else none

theorem firstFacets_all (r : Record) : firstFacets 27 r = r := rfl

/-- Setting a facet adds it to those before it. -/
theorem set_firstFacets (r : Record) :
    ∀ e ∈ fields.zipIdx, e.1.set (firstFacets e.2 r) (e.1.get r) = some (firstFacets (e.2 + 1) r) := by
  simp only [fields, List.zipIdx_cons, List.zipIdx_nil, List.forall_mem_cons, List.not_mem_nil, false_imp_iff,
    implies_true, and_true]
  refine ⟨text_set_get .., flag_set_get .., text_set_get .., text_set_get .., text_set_get .., text_set_get ..,
    text_set_get .., count_set_get .., count_set_get .., bound_set_get .., bound_set_get .., bound_set_get ..,
    bound_set_get .., texts_set_get .., texts_set_get .., texts_set_get .., texts_set_get .., count_set_get ..,
    count_set_get .., text_set_get .., text_set_get .., text_set_get .., text_set_get .., texts_set_get ..,
    texts_set_get .., texts_set_get .., texts_set_get ..⟩

theorem foldlM_take_fields (r : Record) {k : Nat} (hk : k ≤ 27) :
    (fields.take k).foldlM (fun a f => f.set a (f.get r)) {} = some (firstFacets k r) := by
  induction k with
  | zero => rfl
  | succ k ih =>
    have hlt : k < fields.length := hk
    have hmem : (fields[k], k) ∈ fields.zipIdx := List.mk_mem_zipIdx_iff_getElem?.2 (List.getElem?_eq_getElem hlt)
    rw [List.take_succ_eq_append_getElem hlt, List.foldlM_append, ih (by omega)]
    simpa using set_firstFacets r _ hmem

theorem zip_take_map {α β : Type} (g : α → β) (l : List α) (k : Nat) :
    l.zip ((l.map g).take k) = (l.take k).map fun a => (a, g a) := by
  induction l generalizing k with
  | nil => simp
  | cons a l ih =>
    cases k with
    | zero => rfl
    | succ k => simp [ih k]

theorem ofValues?_take_values (r : Record) {k : Nat} (hk : k ≤ 27) :
    ofValues? (r.values.take k) = some (firstFacets k r) := by
  have hlen : (r.values.take k).length ≤ fields.length := by
    rw [List.length_take, values, List.length_map]
    omega
  rw [ofValues?, if_pos hlen, values, zip_take_map, List.foldlM_map]
  exact foldlM_take_fields r hk

theorem length_values (r : Record) : r.values.length = 27 := by
  rw [values, List.length_map]
  rfl

theorem ofValues?_values (r : Record) : ofValues? r.values = some r := by
  have htake := ofValues?_take_values r (Nat.le_refl 27)
  rwa [List.take_of_length_le (Nat.le_of_eq (length_values r)), firstFacets_all] at htake

theorem ofValue?_list (vs : List Value) : ofValue? (.list vs) = ofValues? vs := rfl

theorem ofValue?_object (b : Bag) : ofValue? (.object b) = ofBag? b := rfl

/-! ## Objects -/

/-- A bag holds the values of the facets under their keys. -/
def Holds (b : Bag) (vs : List Value) : Prop := List.Forall₂ (fun f v => b.get? f.key = some v) fields vs

/-- Steps that take the values out of the bag take them in the order of the facets. -/
theorem foldlM_holds {b : Bag} {step : Record → Field → Option Record}
    (hstep : ∀ r f v, b.get? f.key = some v → step r f = f.set r v) {fs : List Field} {vs : List Value}
    (h : List.Forall₂ (fun f v => b.get? f.key = some v) fs vs) (a : Record) :
    fs.foldlM step a = (fs.zip vs).foldlM (fun r e => e.1.set r e.2) a := by
  induction h generalizing a with
  | nil => rfl
  | cons hv _ ih =>
    rw [List.foldlM_cons, List.zip_cons_cons, List.foldlM_cons, hstep _ _ _ hv]
    exact congrArg _ (funext ih)

theorem ofBag?_eq_ofValues? {b : Bag} {vs : List Value} (h : Holds b vs) : ofBag? b = ofValues? vs := by
  rw [ofBag?, ofValues?, if_pos (Nat.le_of_eq h.length_eq.symm)]
  refine foldlM_holds (fun r f v hv => ?_) h {}
  rw [hv]

theorem nodup_keys : (fields.map Field.key).Nodup := by decide

theorem get?_toBag (r : Record) {f : Field} (hf : f ∈ fields) : r.toBag.get? f.key = some (f.get r) := by
  rw [toBag]
  exact Dict.get?_ofList_map Field.key (fun f => f.get r) nodup_keys hf

theorem holds_toBag (r : Record) : Holds r.toBag r.values :=
  List.forall₂_map_right_iff.2 (List.forall₂_same.2 fun _ hf => get?_toBag r hf)

theorem Holds.insert {b : Bag} {vs : List Value} {i : Nat} {f : Field} (h : Holds b vs) (hf : fields[i]? = some f)
    (v : Value) : Holds (b.insert f.key v) (vs.set i v) := by
  obtain ⟨hlen, h⟩ := List.forall₂_iff_get.1 h
  obtain ⟨hi, rfl⟩ := List.getElem?_eq_some_iff.1 hf
  refine List.forall₂_iff_get.2 ⟨by rw [List.length_set, hlen], fun j hj hj' => ?_⟩
  rw [List.length_set] at hj'
  have hkey : fields[j].key = fields[i].key ↔ i = j := by
    refine ⟨fun he => ?_, fun he => by subst he; rfl⟩
    have hsome : (fields.map Field.key)[i]? = (fields.map Field.key)[j]? := by
      rw [List.getElem?_map, List.getElem?_map, List.getElem?_eq_getElem hi, List.getElem?_eq_getElem hj]
      exact congrArg some he.symm
    exact (List.getElem?_inj (by rwa [List.length_map]) nodup_keys).1 hsome
  have hv := h j hj hj'
  simp only [List.get_eq_getElem, List.getElem_set, Dict.get?_insert, hkey] at hv ⊢
  split
  · rfl
  · exact hv

/-! ## Lists of strings -/

/-- The facets that are lists of strings. -/
inductive ListFacet where
  | hasValueLiterals
  | hasValueIris
  | inLiterals
  | inIris
  | definedProps
  | ignoredProps
  | requiredClasses
  | disjointClasses
deriving DecidableEq, Repr

namespace ListFacet

def key : ListFacet → String
  | .hasValueLiterals => "hasValueLiteral"
  | .hasValueIris => "hasValueUri"
  | .inLiterals => "inLiterals"
  | .inIris => "inUris"
  | .definedProps => "definedProps"
  | .ignoredProps => "ignoredProps"
  | .requiredClasses => "reqClass"
  | .disjointClasses => "disjointClass"

/-- The place among the facets. -/
def index : ListFacet → Nat
  | .hasValueLiterals => 13
  | .hasValueIris => 14
  | .inLiterals => 15
  | .inIris => 16
  | .definedProps => 23
  | .ignoredProps => 24
  | .requiredClasses => 25
  | .disjointClasses => 26

def value : ListFacet → Record → Option (List String)
  | .hasValueLiterals => Record.hasValueLiterals
  | .hasValueIris => Record.hasValueIris
  | .inLiterals => Record.inLiterals
  | .inIris => Record.inIris
  | .definedProps => Record.definedProps
  | .ignoredProps => Record.ignoredProps
  | .requiredClasses => Record.requiredClasses
  | .disjointClasses => Record.disjointClasses

/-- The record with another list in this facet. -/
def assign : ListFacet → Record → Option (List String) → Record
  | .hasValueLiterals, r, l => { r with hasValueLiterals := l }
  | .hasValueIris, r, l => { r with hasValueIris := l }
  | .inLiterals, r, l => { r with inLiterals := l }
  | .inIris, r, l => { r with inIris := l }
  | .definedProps, r, l => { r with definedProps := l }
  | .ignoredProps, r, l => { r with ignoredProps := l }
  | .requiredClasses, r, l => { r with requiredClasses := l }
  | .disjointClasses, r, l => { r with disjointClasses := l }

variable (f : ListFacet) (r : Record)

theorem getElem?_fields : fields[f.index]? = some (texts f.key f.value f.assign) := by
  cases f <;> rfl

/-- Only the one value changes. -/
theorem values_assign (l : List String) : (f.assign r (some l)).values = r.values.set f.index (.strings l) := by
  cases f <;> rfl

theorem ofValues?_set_strings (l : List String) :
    ofValues? (r.values.set f.index (.strings l)) = some (f.assign r (some l)) := by
  rw [← values_assign, ofValues?_values]

/-- A joined string may stand for its list among any other values. -/
theorem ofValues?_set_string (vs : List Value) (s : String) :
    ofValues? (vs.set f.index (.string s)) = ofValues? (vs.set f.index (.strings (splitValues s))) := by
  have hfold : ∀ {fs : List Field} {vs : List Value} {i : Nat}, fs[i]? = some (texts f.key f.value f.assign) →
      ∀ a : Record, (fs.zip (vs.set i (.string s))).foldlM (fun r e => e.1.set r e.2) a =
        (fs.zip (vs.set i (.strings (splitValues s)))).foldlM (fun r e => e.1.set r e.2) a := by
    intro fs
    induction fs with
    | nil => exact fun h => by cases h
    | cons g fs ih =>
      intro vs i hi a
      cases vs with
      | nil => rfl
      | cons v vs =>
        cases i with
        | zero =>
          cases hi
          simp only [List.set_cons_zero, List.zip_cons_cons, List.foldlM_cons, texts_set_string]
        | succ i =>
          simp only [List.set_cons_succ, List.zip_cons_cons, List.foldlM_cons]
          exact congrArg _ (funext (ih (by simpa using hi)))
  simp only [ofValues?, List.length_set]
  split
  · exact hfold f.getElem?_fields {}
  · rfl

end ListFacet

/-- A record is read back from its object and from the list of its facets; the first facets of the list give the record
with these alone. In both forms a list of strings is read as it stands, and one string as the values that it joins. -/
theorem ofValue?_lossless (r : Record) :
    ofValue? r.toValue = some r ∧
    r.values.length = 27 ∧ ofValue? (.list r.values) = some r ∧
    (∀ k ≤ 27, ofValue? (.list (r.values.take k)) = some (firstFacets k r)) ∧
    ∀ f : ListFacet,
      (∀ s, ofValue? (.object (r.toBag.insert f.key (.string s))) = some (f.assign r (some (splitValues s))) ∧
        ofValue? (.list (r.values.set f.index (.string s))) = some (f.assign r (some (splitValues s)))) ∧
      (∀ l, ofValue? (.object (r.toBag.insert f.key (.strings l))) = some (f.assign r (some l)) ∧
        ofValue? (.list (r.values.set f.index (.strings l))) = some (f.assign r (some l))) := by
  have hstring : ∀ (f : ListFacet) (s : String),
      ofValues? (r.values.set f.index (.string s)) = some (f.assign r (some (splitValues s))) := fun f s =>
    (f.ofValues?_set_string r.values s).trans (f.ofValues?_set_strings r _)
  have hobject : ∀ (f : ListFacet) (v : Value),
      ofBag? (r.toBag.insert f.key v) = ofValues? (r.values.set f.index v) := fun f v =>
    ofBag?_eq_ofValues? ((holds_toBag r).insert f.getElem?_fields v)
  refine ⟨?_, length_values r, ?_, fun k hk => ?_, fun f => ⟨fun s => ⟨?_, ?_⟩, fun l => ⟨?_, ?_⟩⟩⟩
  · rw [toValue, ofValue?_object, ofBag?_eq_ofValues? (holds_toBag r), ofValues?_values]
  · rw [ofValue?_list, ofValues?_values]
  · rw [ofValue?_list, ofValues?_take_values r hk]
  · rw [ofValue?_object, hobject, hstring]
  · rw [ofValue?_list, hstring]
  · rw [ofValue?_object, hobject, f.ofValues?_set_strings]
  · rw [ofValue?_list, f.ofValues?_set_strings]

/-- A record with an empty value and a value that holds the three hyphens. -/
def hyphenated : Record := { path := some "urn:p", minCount := some 0, inLiterals := some ["", "a---b"] }

theorem ofValue?_lossless_hyphenated :
    16 ≤ 27 ∧ ofValue? (.list (hyphenated.values.take 16)) = some hyphenated ∧
    ofValue? (.object (hyphenated.toBag.insert "inLiterals" (.string "----a---"))) =
      some { hyphenated with inLiterals := some ["-a"] } := by
  obtain ⟨-, -, -, htake, hlist⟩ := ofValue?_lossless hyphenated
  exact ⟨by decide, htake 16 (by decide), ((hlist .inLiterals).1 "----a---").1⟩

end Record

end ShapePlan
