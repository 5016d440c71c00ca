/-
Finite sets of strings as strictly ascending lists, in code point order. Equal sets are equal lists,
so a set has one written form whatever the order in which its elements arrive.
-/
import ShapePlan.Ascending

namespace ShapePlan

structure NameSet where
  elems : List String
  ascending : elems.Pairwise (· < ·) := by simp
deriving DecidableEq, Repr

namespace NameSet

def ofList (l : List String) : NameSet where
  elems := Ascending.ofList id l
  ascending := Ascending.ofList_pairwise l

def isEmpty (s : NameSet) : Bool := s.elems.isEmpty

instance : Membership String NameSet := ⟨fun s a => a ∈ s.elems⟩

/-- Building a set loses nothing and adds nothing. -/
theorem mem_ofList {x : String} {l : List String} : x ∈ ofList l ↔ x ∈ l :=
  Ascending.mem_ofList fun _ _ h => h

theorem head?_ofList {x : String} {l : List String} :
    (ofList l).elems.head? = some x ↔ x ∈ l ∧ ∀ y ∈ l, x ≤ y :=
  Ascending.head?_ofList fun _ _ h => h

end NameSet

end ShapePlan
