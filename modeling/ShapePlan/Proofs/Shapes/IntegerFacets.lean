/-
Facets that are integers. Of the literals of such a facet the least that can be read counts, in the order of the lexical
forms and not of the numbers; nodes and literals that cannot be read are passed over.
-/
import ShapePlan.Proofs.Decimal.Lexical
import ShapePlan.Proofs.Shapes.PropertyRecords

namespace ShapePlan

open Decimal (IsInteger IsSignedTwice)

section Sorted

variable {α β : Type} {key : α → String} {f : α → Option β} {l : List α} {b : β}

/-- Along elements in the order of their keys, the first result is that of an element with the least key of those that
have one. -/
theorem exists_least_of_findSome? (hl : l.Pairwise (key · ≤ key ·)) (h : l.findSome? f = some b) :
    ∃ a ∈ l, f a = some b ∧ ∀ a' ∈ l, (f a').isSome = true → key a ≤ key a' := by
  obtain ⟨l₁, a, l₂, rfl, ha, hnone⟩ := List.findSome?_eq_some_iff.1 h
  refine ⟨a, by simp, ha, fun a' ha' hsome => ?_⟩
  rcases List.mem_append.1 ha' with hmem | hmem
  · rw [hnone a' hmem] at hsome
    cases hsome
  · rcases List.mem_cons.1 hmem with rfl | hmem
    · exact String.le_refl _
    · exact (List.pairwise_cons.1 (List.pairwise_append.1 hl).2.1).1 a' hmem

theorem findSome?_eq_some_of_sorted (hl : l.Pairwise (key · ≤ key ·)) (hf : ∀ a a', key a = key a' → f a = f a') :
    l.findSome? f = some b ↔ ∃ a ∈ l, f a = some b ∧ ∀ a' ∈ l, (f a').isSome = true → key a ≤ key a' := by
  refine ⟨exists_least_of_findSome? hl, ?_⟩
  rintro ⟨a, ha, hb, hleast⟩
  cases hfind : l.findSome? f with
  | none => exact absurd hb (by simp [List.findSome?_eq_none_iff.1 hfind a ha])
  | some b' =>
    -- the first that has a result has the key of the least one
    obtain ⟨a₀, ha₀, hb₀, hleast₀⟩ := exists_least_of_findSome? hl hfind
    have hkey : key a₀ = key a :=
      String.le_antisymm (hleast₀ a ha (Option.isSome_of_eq_some hb)) (hleast a₀ ha₀ (Option.isSome_of_eq_some hb₀))
    rw [← hb₀, hf _ _ hkey, hb]

end Sorted

/-! ## Facets -/

/-- The facets that are integers. -/
inductive IntegerFacet where
  | minCount
  | maxCount
  | minLength
  | maxLength
deriving DecidableEq, Repr

namespace IntegerFacet

def predicate : IntegerFacet → String
  | .minCount => Sh.minCount
  | .maxCount => Sh.maxCount
  | .minLength => Sh.minLength
  | .maxLength => Sh.maxLength

def value : IntegerFacet → Record → Option Int64
  | .minCount => Record.minCount
  | .maxCount => Record.maxCount
  | .minLength => Record.minLength
  | .maxLength => Record.maxLength

theorem value_facets (f : IntegerFacet) (g : Graph) (shape : Term) :
    f.value (g.facets shape) = g.integer? shape f.predicate := by
  cases f <;> rfl

end IntegerFacet

namespace Graph

variable {g : Graph} {shape : Node} {p : String} {n : Int}

theorem mem_literals {l : Literal} : l ∈ g.literals (.node shape) p ↔ ⟨shape, p, .literal l⟩ ∈ g := by
  rw [literals, List.mem_mergeSort, mem_literalValues]

/-- The number of the least literal that is read as one. -/
def IsLeastNumber (g : Graph) (reads : String → Int → Prop) (shape : Node) (p : String) (n : Int) : Prop :=
  ∃ l, ⟨shape, p, .literal l⟩ ∈ g ∧ reads l.lexical n ∧
    ∀ l' m, ⟨shape, p, .literal l'⟩ ∈ g → reads l'.lexical m → l.lexical ≤ l'.lexical

theorem IsLeastNumber.congr {reads reads' : String → Int → Prop}
    (h : ∀ l m, ⟨shape, p, .literal l⟩ ∈ g → (reads l.lexical m ↔ reads' l.lexical m)) :
    g.IsLeastNumber reads shape p n ↔ g.IsLeastNumber reads' shape p n := by
  refine exists_congr fun l => and_congr_right fun hl => and_congr (h l n hl) ?_
  exact forall_congr' fun l' => forall_congr' fun m => imp_congr_right fun hl' => imp_congr_left (h l' m hl')

/-- What is read as an integer in a facet. -/
theorem map_toInt_integer? : (g.integer? (.node shape) p).map Int64.toInt = some n ↔
    g.IsLeastNumber (fun s m => IsInteger s m ∨ IsSignedTwice s m) shape p n := by
  have hsorted : (g.literals (.node shape) p).Pairwise (·.lexical ≤ ·.lexical) := Literal.mergeSort_pairwise _
  rw [integer?, List.map_findSome?, findSome?_eq_some_of_sorted hsorted fun a a' h => by simp [h]]
  simp only [mem_literals, Function.comp_apply, Option.isSome_iff_exists, Decimal.map_toInt_integer?]
  refine exists_congr fun l => and_congr_right fun _ => and_congr_right fun _ => ?_
  exact ⟨fun h l' m hl' hm => h l' hl' ⟨m, hm⟩, fun h l' hl' ⟨m, hm⟩ => h l' m hl' hm⟩

theorem integer?_eq_none : g.integer? (.node shape) p = none ↔
    ∀ l m, ⟨shape, p, .literal l⟩ ∈ g → ¬ (IsInteger l.lexical m ∨ IsSignedTwice l.lexical m) := by
  simp only [integer?, List.findSome?_eq_none_iff, mem_literals, Decimal.integer?_eq_none]
  exact ⟨fun h l m hl => h l hl m, fun h l hl m => h l m hl⟩

/-- A text is read as the integer that it writes, unless a plus sign stands before its sign. So a facet has the least of
its literals that write an integer within the 64-bit range, and none if there are none, as long as no literal is signed
twice; one that is counts as if it wrote an integer. -/
theorem integer_facets_read (g : Graph) (shape : Node) (f : IntegerFacet) :
    (∀ s n, (Decimal.integer? s).map Int64.toInt = some n ↔ IsInteger s n ∨ IsSignedTwice s n) ∧
    (∀ s, (∀ n, (Decimal.integer? s).map Int64.toInt = some n ↔ IsInteger s n) ↔ ∀ n, ¬ IsSignedTwice s n) ∧
    (∀ n, (f.value (g.facets (.node shape))).map Int64.toInt = some n ↔
      g.IsLeastNumber (fun s m => IsInteger s m ∨ IsSignedTwice s m) shape f.predicate n) ∧
    ((∀ l n, ⟨shape, f.predicate, .literal l⟩ ∈ g → ¬ IsSignedTwice l.lexical n) →
      (∀ n, (f.value (g.facets (.node shape))).map Int64.toInt = some n ↔
        g.IsLeastNumber IsInteger shape f.predicate n) ∧
      (f.value (g.facets (.node shape)) = none ↔
        ∀ l n, ⟨shape, f.predicate, .literal l⟩ ∈ g → ¬ IsInteger l.lexical n)) := by
  refine ⟨fun s n => Decimal.map_toInt_integer?, fun s => ?_, fun n => ?_, fun htwice => ⟨fun n => ?_, ?_⟩⟩
  · constructor
    · intro h n hn
      exact Decimal.not_isInteger_of_isSignedTwice hn ((h n).1 (Decimal.map_toInt_integer?.2 (.inr hn)))
    · intro h n
      rw [Decimal.map_toInt_integer?, or_iff_left (h n)]
  · rw [f.value_facets, map_toInt_integer?]
  · rw [f.value_facets, map_toInt_integer?]
    exact IsLeastNumber.congr fun l m hl => or_iff_left (htwice l m hl)
  · rw [f.value_facets, integer?_eq_none]
    exact forall_congr' fun l => forall_congr' fun m => imp_congr_right fun hl =>
      not_congr (or_iff_left (htwice l m hl))

/-- A property shape with counts in different forms, and some that are no counts. -/
def countedGraph : Graph where
  triples :=
    [⟨.blank "p", Sh.minCount, .literal (.plain "9")⟩,
      ⟨.blank "p", Sh.minCount, .literal (.typed "\t+10 " Xsd.boolean)⟩,
      ⟨.blank "p", Sh.minCount, .literal (.plain "+")⟩,
      ⟨.blank "p", Sh.minCount, .node (.iri "u:#1")⟩]
  nodup := by decide

theorem integer_facets_read_countedGraph :
    (∀ l n, ⟨.blank "p", Sh.minCount, .literal l⟩ ∈ countedGraph → ¬ IsSignedTwice l.lexical n) ∧
    (countedGraph.facets (.node (.blank "p"))).minCount.map Int64.toInt = some 10 := by
  have hnine : IsInteger "9" 9 :=
    ⟨by unfold Decimal.IsInt64; omega, ['9'], ⟨[], [], rfl, nofun, nofun⟩,
      .inl ⟨by decide, List.all_eq_true.1 rfl, by decide⟩⟩
  have hten : IsInteger "\t+10 " 10 :=
    ⟨by unfold Decimal.IsInt64; omega, ['+', '1', '0'],
      ⟨['\t'], [' '], rfl, List.all_eq_true.1 rfl, List.all_eq_true.1 rfl⟩,
      .inr (.plus ⟨by decide, List.all_eq_true.1 rfl, by decide⟩)⟩
  have hnone : ∀ n, ¬ (IsInteger "+" n ∨ IsSignedTwice "+" n) := Decimal.integer?_eq_none.1 (by decide)
  have hforms : ∀ l, ⟨.blank "p", Sh.minCount, .literal l⟩ ∈ countedGraph →
      l.lexical = "9" ∨ l.lexical = "\t+10 " ∨ l.lexical = "+" := by
    have hall : ∀ t ∈ countedGraph.triples, ∀ l ∈ t.object.literal?,
        l.lexical = "9" ∨ l.lexical = "\t+10 " ∨ l.lexical = "+" := by decide
    exact fun l hl => hall _ hl l rfl
  have htwice : ∀ l n, ⟨.blank "p", Sh.minCount, .literal l⟩ ∈ countedGraph → ¬ IsSignedTwice l.lexical n := by
    intro l n hl h
    rcases hforms l hl with he | he | he <;> rw [he] at h
    · exact Decimal.not_isInteger_of_isSignedTwice h hnine
    · exact Decimal.not_isInteger_of_isSignedTwice h hten
    · exact hnone n (.inr h)
  refine ⟨htwice, (((integer_facets_read countedGraph (.blank "p") .minCount).2.2.2 htwice).1 10).2 ?_⟩
  have hmem : ⟨.blank "p", Sh.minCount, .literal (.typed "\t+10 " Xsd.boolean)⟩ ∈ countedGraph.triples := by decide
  refine ⟨.typed "\t+10 " Xsd.boolean, hmem, hten, fun l m hl hm => ?_⟩
  rcases hforms l hl with he | he | he <;> rw [he] at hm ⊢
  · decide
  · decide
  · exact absurd (.inl hm) (hnone m)

/-- A property shape with two counts, one of them signed twice. -/
def twiceSignedGraph : Graph where
  triples :=
    [⟨.blank "p", Sh.minCount, .literal (.plain "+-5")⟩, ⟨.blank "p", Sh.minCount, .literal (.plain "2")⟩]
  nodup := by decide

/-- What is signed twice is no integer, and yet is read as one, before the least integer. -/
theorem signed_twice_is_read :
    (∀ n, ¬ IsInteger "+-5" n) ∧ (Decimal.integer? "+-5").map Int64.toInt = some (-5) ∧
    twiceSignedGraph.IsLeastNumber IsInteger (.blank "p") Sh.minCount 2 ∧
    (twiceSignedGraph.facets (.node (.blank "p"))).minCount.map Int64.toInt = some (-5) := by
  have htwo : IsInteger "2" 2 :=
    ⟨by unfold Decimal.IsInt64; omega, ['2'], ⟨[], [], rfl, nofun, nofun⟩,
      .inl ⟨by decide, List.all_eq_true.1 rfl, by decide⟩⟩
  have htwice : IsSignedTwice "+-5" (-5) :=
    ⟨by unfold Decimal.IsInt64; omega, ['-', '5'], ⟨[], [], rfl, nofun, nofun⟩,
      .minus ⟨by decide, List.all_eq_true.1 rfl, by decide⟩⟩
  have hnone : ∀ n, ¬ IsInteger "+-5" n := fun n => Decimal.not_isInteger_of_isSignedTwice htwice
  have hforms : ∀ l, ⟨.blank "p", Sh.minCount, .literal l⟩ ∈ twiceSignedGraph →
      l.lexical = "+-5" ∨ l.lexical = "2" := by
    have hall : ∀ t ∈ twiceSignedGraph.triples, ∀ l ∈ t.object.literal?, l.lexical = "+-5" ∨ l.lexical = "2" := by
      decide
    exact fun l hl => hall _ hl l rfl
  have hfirst : ⟨.blank "p", Sh.minCount, .literal (.plain "+-5")⟩ ∈ twiceSignedGraph.triples := by decide
  have hsecond : ⟨.blank "p", Sh.minCount, .literal (.plain "2")⟩ ∈ twiceSignedGraph.triples := by decide
  refine ⟨hnone, by decide, ⟨.plain "2", hsecond, htwo, fun l m hl hm => ?_⟩,
    map_toInt_integer?.2 ⟨.plain "+-5", hfirst, .inr htwice, fun l m hl _ => ?_⟩⟩
  · rcases hforms l hl with he | he <;> rw [he] at hm ⊢
    · exact absurd hm (hnone m)
    · decide
  · rcases hforms l hl with he | he <;> rw [he]
    · decide
    · decide

end Graph

end ShapePlan
