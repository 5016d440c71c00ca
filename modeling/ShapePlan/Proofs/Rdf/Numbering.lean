/-
Blank nodes are numbered by their first appearance. The graph of a sequence of quads is the image of its triples under
one renaming of labels (`Graph.ofQuads_eq`), which is injective and onto `b0`, `b1` and so on (`IsNumbering`). The
places at which labels appear determine that renaming, so it does not matter which labels a document has chosen.
-/
import ShapePlan.Plan.Compile
import ShapePlan.Rdf.Quad
import ShapePlan.Shapes.Extract
import Mathlib.Data.Finset.Card

namespace ShapePlan

/-! ## Renaming -/

section Rename

variable (f : String → String)

def Node.rename : Node → Node
  | .blank label => .blank (f label)
  | .iri s => .iri s

def Term.rename : Term → Term
  | .node n => .node (n.rename f)
  | .literal l => .literal l

def Triple.rename (t : Triple) : Triple := ⟨t.subject.rename f, t.predicate, t.object.rename f⟩

def GraphName.rename : GraphName → GraphName
  | .named n => .named (n.rename f)
  | .default => .default
  | .anonymous => .anonymous

def Quad.rename (q : Quad) : Quad := ⟨q.triple.rename f, q.graph.rename f⟩

end Rename

/-! ## Labels -/

def Node.labels : Node → List String
  | .blank label => [label]
  | .iri _ => []

def Term.labels : Term → List String
  | .node n => n.labels
  | .literal _ => []

/-- The label of the subject comes first. -/
def Triple.labels (t : Triple) : List String := t.subject.labels ++ t.object.labels

/-- The labels of subjects and objects as they appear. Graph names do not count. -/
def Quad.labelsOf (qs : List Quad) : List String := qs.flatMap (·.triple.labels)

theorem Node.rename_congr {f g : String → String} {n : Node} (h : ∀ x ∈ n.labels, f x = g x) :
    n.rename f = n.rename g := by
  cases n with
  | iri s => rfl
  | blank label => exact congrArg Node.blank (h label List.mem_cons_self)

theorem Term.rename_congr {f g : String → String} {t : Term} (h : ∀ x ∈ t.labels, f x = g x) :
    t.rename f = t.rename g := by
  cases t with
  | literal l => rfl
  | node n => exact congrArg Term.node (Node.rename_congr h)

theorem Triple.rename_congr {f g : String → String} {t : Triple} (h : ∀ x ∈ t.labels, f x = g x) :
    t.rename f = t.rename g := by
  obtain ⟨hs, ho⟩ := List.forall_mem_append.1 h
  rw [rename, rename, Node.rename_congr hs, Term.rename_congr ho]

theorem Triple.rename_rename (s f : String → String) (t : Triple) : (t.rename s).rename f = t.rename (f ∘ s) := by
  have node : ∀ n : Node, (n.rename s).rename f = n.rename (f ∘ s) := fun n => by cases n <;> rfl
  have term : ∀ o : Term, (o.rename s).rename f = o.rename (f ∘ s) := by
    intro o
    cases o with
    | literal l => rfl
    | node n => exact congrArg Term.node (node n)
  simp only [rename, node, term]

theorem Triple.labels_rename (s : String → String) (t : Triple) : (t.rename s).labels = t.labels.map s := by
  obtain ⟨n, p, o⟩ := t
  rcases n with _ | _ <;> rcases o with (_ | _) | _ <;> rfl

theorem Quad.labelsOf_rename (s : String → String) (qs : List Quad) :
    labelsOf (qs.map (rename s)) = (labelsOf qs).map s := by
  induction qs with
  | nil => rfl
  | cons q qs ih =>
    simp only [labelsOf, List.map_cons, List.flatMap_cons, List.map_append] at ih ⊢
    rw [ih]
    exact congrArg (· ++ _) (q.triple.labels_rename s)

/-! ## Known labels -/

section Known

variable {known labels : List String} {label : String}

theorem mem_foldl_learn : label ∈ labels.foldl learn known ↔ label ∈ known ∨ label ∈ labels := by
  induction labels generalizing known with
  | nil => simp
  | cons x labels ih =>
    have hx : label ∈ learn known x ↔ label ∈ known ∨ label = x := by
      unfold learn
      split
      · exact ⟨.inl, fun h => h.elim id fun h => by rwa [h]⟩
      · simp
    rw [List.foldl_cons, ih, hx, List.mem_cons, or_assoc]

theorem prefix_learn (known : List String) (label : String) : known <+: learn known label := by
  unfold learn
  split
  · exact List.prefix_refl known
  · exact List.prefix_append known [label]

/-- Labels keep their places. -/
theorem prefix_foldl_learn (known labels : List String) : known <+: labels.foldl learn known := by
  induction labels generalizing known with
  | nil => exact List.prefix_refl known
  | cons x labels ih => exact (prefix_learn known x).trans (ih _)

theorem nodup_foldl_learn (h : known.Nodup) : (labels.foldl learn known).Nodup := by
  induction labels generalizing known with
  | nil => exact h
  | cons x labels ih =>
    apply ih
    unfold learn
    split
    · exact h
    · next hx => exact List.nodup_append_comm.1 (List.nodup_cons.2 ⟨hx, h⟩)

theorem length_foldl_learn (labels : List String) : (labels.foldl learn []).length = labels.toFinset.card := by
  have hnodup : (labels.foldl learn []).Nodup := nodup_foldl_learn List.nodup_nil
  rw [← List.toFinset_card_of_nodup hnodup]
  congr 1
  ext x
  simp [mem_foldl_learn]

/-- The number that a label gets when it is read is the one that it keeps. -/
theorem idxOf_of_prefix {final : List String} (h : learn known label <+: final) :
    final.idxOf label = known.idxOf label := by
  obtain ⟨rest, rfl⟩ := h
  unfold learn
  split
  · next hmem => exact List.idxOf_append_of_mem hmem
  · next hmem =>
    rw [List.idxOf_append_of_mem (by simp), List.idxOf_append_of_notMem hmem, List.idxOf_of_notMem hmem]
    simp

end Known

/-! ## Reading quads -/

/-- The number of a label among the known ones. -/
def numberIn (known : List String) (label : String) : String := numbered (known.idxOf label)

theorem Node.number_eq {known final : List String} {n : Node} (h : n.labels.foldl learn known <+: final) :
    n.number known = (n.rename (numberIn final), n.labels.foldl learn known) := by
  cases n with
  | iri s => rfl
  | blank label =>
    simp only [number, rename, numberIn, idxOf_of_prefix h]
    rfl

theorem Term.number_eq {known final : List String} {t : Term} (h : t.labels.foldl learn known <+: final) :
    t.number known = (t.rename (numberIn final), t.labels.foldl learn known) := by
  cases t with
  | literal l => rfl
  | node n => rw [number, Node.number_eq h]; rfl

theorem Triple.number_eq {known final : List String} {t : Triple} (h : t.labels.foldl learn known <+: final) :
    t.number known = (t.rename (numberIn final), t.labels.foldl learn known) := by
  rw [labels, List.foldl_append] at h ⊢
  -- the subject gets its number first, and keeps it when the object is read
  have hsubject : t.subject.labels.foldl learn known <+: final := (prefix_foldl_learn _ _).trans h
  rw [number, Node.number_eq hsubject, Term.number_eq h]
  rfl

/-- What is known after a run are the labels in the order of their first appearance, and every triple that was read is
renamed by the numbers that are known in the end. -/
theorem Intake.foldl_add {final : List String} (qs : List Quad) (i : Intake)
    (h : (Quad.labelsOf qs).foldl learn i.known <+: final) :
    qs.foldl Intake.add i = ⟨(qs.map fun q => q.triple.rename (numberIn final)).foldl Graph.insert i.graph,
      (Quad.labelsOf qs).foldl learn i.known⟩ := by
  induction qs generalizing i with
  | nil => rfl
  | cons q qs ih =>
    have hlabels : Quad.labelsOf (q :: qs) = q.triple.labels ++ Quad.labelsOf qs := rfl
    rw [hlabels, List.foldl_append] at h
    have hstep : i.add q =
        ⟨i.graph.insert (q.triple.rename (numberIn final)), q.triple.labels.foldl learn i.known⟩ := by
      rw [add, Triple.number_eq ((prefix_foldl_learn _ _).trans h)]
    rw [List.foldl_cons, hstep, ih _ h, hlabels, List.foldl_append]
    rfl

/-- The number of a label by the first appearance of labels in quads. -/
def Quad.numberOf (qs : List Quad) : String → String := numberIn ((labelsOf qs).foldl learn [])

theorem Graph.ofQuads_eq (qs : List Quad) :
    ofQuads qs = ofList (qs.map fun q => q.triple.rename (Quad.numberOf qs)) := by
  rw [ofQuads, Intake.foldl_add qs {} (List.prefix_refl _)]
  rfl

/-! ## Numberings -/

/-- A renaming that numbers labels from zero: a label gets the number of the different labels before it. -/
structure IsNumbering (f : String → String) (labels : List String) : Prop where
  injective : ∀ x ∈ labels, ∀ y ∈ labels, f x = f y → x = y
  image : ∀ s, (∃ x ∈ labels, f x = s) ↔ ∃ i < labels.toFinset.card, s = "b" ++ i.repr
  first : ∀ before label after, labels = before ++ label :: after → label ∉ before →
    f label = "b" ++ before.toFinset.card.repr

theorem numbered_inj {i j : Nat} (h : numbered i = numbered j) : i = j :=
  repr_inj ((String.append_right_inj _).1 h)

theorem isNumbering_numberIn (labels : List String) : IsNumbering (numberIn (labels.foldl learn [])) labels where
  injective := by
    intro x hx y _ h
    exact (List.idxOf_inj (mem_foldl_learn.2 (.inr hx))).1 (numbered_inj h)
  image := by
    intro s
    rw [← length_foldl_learn]
    constructor
    · rintro ⟨x, hx, rfl⟩
      exact ⟨_, List.idxOf_lt_length_of_mem (mem_foldl_learn.2 (.inr hx)), rfl⟩
    · rintro ⟨i, hi, rfl⟩
      have hmem : (labels.foldl learn [])[i] ∈ labels :=
        (mem_foldl_learn.1 (List.getElem_mem hi)).resolve_left List.not_mem_nil
      have hplace := (nodup_foldl_learn List.nodup_nil : (labels.foldl learn []).Nodup).idxOf_getElem i hi
      exact ⟨_, hmem, congrArg numbered hplace⟩
  first := by
    rintro before label after rfl hnew
    have hnot : label ∉ before.foldl learn [] := fun h =>
      (mem_foldl_learn.1 h).elim List.not_mem_nil hnew
    have hplace : ((before ++ label :: after).foldl learn []).idxOf label = before.toFinset.card := by
      rw [List.foldl_append, List.foldl_cons, idxOf_of_prefix (prefix_foldl_learn _ _), List.idxOf_of_notMem hnot,
        length_foldl_learn]
    rw [numberIn, hplace]
    rfl

/-- The first appearances determine the numbers, whatever the labels are called. -/
theorem IsNumbering.apply_rename {f g s : String → String} {labels : List String} (hf : IsNumbering f labels)
    (hg : IsNumbering g (labels.map s)) (hs : ∀ x ∈ labels, ∀ y ∈ labels, s x = s y → x = y) :
    ∀ x ∈ labels, g (s x) = f x := by
  intro x hx
  obtain ⟨before, after, rfl, hnew⟩ := List.eq_append_cons_of_mem hx
  have hbefore : ∀ y ∈ before, y ∈ before ++ x :: after := fun y hy => List.mem_append_left _ hy
  have hnew' : s x ∉ before.map s := by
    intro h
    obtain ⟨y, hy, heq⟩ := List.mem_map.1 h
    exact hnew (hs y (hbefore y hy) x hx heq ▸ hy)
  have hcard : (before.map s).toFinset.card = before.toFinset.card := by
    have himage : (before.map s).toFinset = before.toFinset.image s := by ext; simp
    rw [himage]
    refine Finset.card_image_of_injOn fun y hy z hz => ?_
    exact hs y (hbefore y (by simpa using hy)) z (hbefore z (by simpa using hz))
  rw [hf.first before x after rfl hnew, hg.first (before.map s) (s x) (after.map s) (by simp) hnew', hcard]

namespace Graph

/-- The graph of quads is the image of their triples under a numbering of their labels, and a renaming of blank nodes
leaves the graph, its records and their plans as they are. -/
theorem ofQuads_numbers_blanks (qs : List Quad) :
    (∃ f, IsNumbering f (Quad.labelsOf qs) ∧ ∀ t, t ∈ ofQuads qs ↔ ∃ q ∈ qs, t = q.triple.rename f) ∧
    ∀ s : String → String, (∀ x ∈ Quad.labelsOf qs, ∀ y ∈ Quad.labelsOf qs, s x = s y → x = y) →
      ofQuads (qs.map (Quad.rename s)) = ofQuads qs ∧
      (ofQuads (qs.map (Quad.rename s))).records = (ofQuads qs).records ∧
      ∀ n : Naming, n.compile (ofQuads (qs.map (Quad.rename s))).records = n.compile (ofQuads qs).records := by
  constructor
  · refine ⟨Quad.numberOf qs, isNumbering_numberIn _, fun t => ?_⟩
    rw [ofQuads_eq, mem_ofList, List.mem_map]
    exact exists_congr fun q => and_congr_right fun _ => eq_comm
  · intro s hs
    have hnumber : ∀ x ∈ Quad.labelsOf qs, Quad.numberOf (qs.map (Quad.rename s)) (s x) = Quad.numberOf qs x := by
      refine (isNumbering_numberIn _).apply_rename ?_ hs
      rw [← Quad.labelsOf_rename]
      exact isNumbering_numberIn _
    have hgraph : ofQuads (qs.map (Quad.rename s)) = ofQuads qs := by
      rw [ofQuads_eq, ofQuads_eq, List.map_map]
      refine congrArg ofList (List.map_congr_left fun q hq => ?_)
      rw [Function.comp_apply, Quad.rename, Triple.rename_rename]
      exact Triple.rename_congr fun x hx => hnumber x (List.mem_flatMap.2 ⟨q, hq, hx⟩)
    rw [hgraph]
    exact ⟨rfl, rfl, fun _ => rfl⟩

/-- Quads whose labels look like numbers, in another order. -/
def crossedQuads : List Quad :=
  [⟨⟨.blank "b1", "u:#p", .node (.blank "b0")⟩, .named (.blank "b0")⟩,
    ⟨⟨.blank "b0", "u:#p", .literal (.plain "b1")⟩, .default⟩]

def crossing (label : String) : String :=
  if label = "b0" then "b1" else if label = "b1" then "b0" else label

theorem ofQuads_numbers_blanks_crossedQuads :
    (∀ x ∈ Quad.labelsOf crossedQuads, ∀ y ∈ Quad.labelsOf crossedQuads, crossing x = crossing y → x = y) ∧
    ofQuads (crossedQuads.map (Quad.rename crossing)) = ofQuads crossedQuads ∧
    ofQuads crossedQuads =
      ofList [⟨.blank "b0", "u:#p", .node (.blank "b1")⟩, ⟨.blank "b1", "u:#p", .literal (.plain "b1")⟩] := by
  have hs : ∀ x ∈ Quad.labelsOf crossedQuads, ∀ y ∈ Quad.labelsOf crossedQuads, crossing x = crossing y → x = y := by
    decide
  exact ⟨hs, ((ofQuads_numbers_blanks crossedQuads).2 crossing hs).1, by decide⟩

end Graph

end ShapePlan
