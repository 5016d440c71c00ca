/-
The texts of terms. Two terms with one text are equal, since the escapes of a literal can be undone and the end of its
quotes is found; so terms in the order of their texts are in a strict order, and sorting them loses none.
-/
import ShapePlan.Rdf.Graph

namespace ShapePlan

/-! ## Escapes -/

def unhex (c : Char) : Nat := if c.isDigit then c.toNat - 48 else c.toNat - 55

/-- The character that a text inside of quotes starts with, and what follows it. -/
def unescape : List Char → Option (Char × List Char)
  | [] => none
  | '\\' :: 'b' :: r => some (Char.ofNat 8, r)
  | '\\' :: 't' :: r => some ('\t', r)
  | '\\' :: 'n' :: r => some ('\n', r)
  | '\\' :: 'f' :: r => some (Char.ofNat 12, r)
  | '\\' :: 'r' :: r => some ('\r', r)
  | '\\' :: '"' :: r => some ('"', r)
  | '\\' :: '\\' :: r => some ('\\', r)
  | '\\' :: 'u' :: a :: b :: c :: d :: r =>
    some (Char.ofNat (unhex a * 4096 + unhex b * 256 + unhex c * 16 + unhex d), r)
  | c :: r => some (c, r)

theorem unescape_plain {c : Char} (h : c ≠ '\\') (r : List Char) : unescape (c :: r) = some (c, r) := by
  unfold unescape
  split <;> simp_all

theorem unescape_hex4 {c : Char} (h : c.toNat < 0x20 ∨ c.toNat = 0x7F ∨ c.toNat = 0xFFFE ∨ c.toNat = 0xFFFF)
    (r : List Char) : unescape ('\\' :: 'u' :: hex4 c.toNat ++ r) = some (c, r) := by
  have small : ∀ n ∈ List.range 0x20 ++ [0x7F, 0xFFFE, 0xFFFF], ∀ r,
      unescape ('\\' :: 'u' :: hex4 n ++ r) = some (Char.ofNat n, r) := by
    have digits : ∀ n ∈ List.range 0x20 ++ [0x7F, 0xFFFE, 0xFFFF],
        ((hex4 n).map unhex).foldl (fun m d => m * 16 + d) 0 = n := by decide
    intro n hn r
    have hd := digits n hn
    simp only [hex4, List.map_cons, List.map_nil, List.foldl_cons, List.foldl_nil] at hd
    simp only [hex4, List.map_cons, List.map_nil, List.cons_append, List.nil_append, unescape]
    congr 3
    omega
  rw [small c.toNat (by simpa using h), Char.ofNat_toNat]

theorem unescape_escapeChar (c : Char) (r : List Char) : unescape (escapeChar c ++ r) = some (c, r) := by
  unfold escapeChar
  split
  · next h => subst h; rfl
  split
  · next h => subst h; rfl
  split
  · next h => subst h; rfl
  split
  · next h => subst h; rfl
  split
  · next h => subst h; rfl
  split
  · next h => subst h; rfl
  split
  · next h => subst h; rfl
  split
  · next h => exact unescape_hex4 h r
  · next hb _ => exact unescape_plain hb r

theorem head_escapeChar (c : Char) (r : List Char) : (escapeChar c ++ r).head? ≠ some '"' := by
  unfold escapeChar
  iterate 8 (split; · simp)
  next hq _ _ => simpa using hq

/-- The quote that ends a literal is found. -/
theorem escaped_inj {s t a b : List Char} (h : s.flatMap escapeChar ++ '"' :: a = t.flatMap escapeChar ++ '"' :: b) :
    s = t ∧ a = b := by
  induction s generalizing t with
  | nil =>
    cases t with
    | nil => exact ⟨rfl, (List.cons.inj h).2⟩
    | cons d t =>
      rw [List.flatMap_cons, List.append_assoc] at h
      exact absurd (congrArg List.head? h).symm (head_escapeChar d _)
  | cons c s ih =>
    rw [List.flatMap_cons, List.append_assoc] at h
    cases t with
    | nil => exact absurd (congrArg List.head? h) (head_escapeChar c _)
    | cons d t =>
      rw [List.flatMap_cons, List.append_assoc] at h
      -- both texts start with the same character, and the same text follows it
      have hu := congrArg unescape h
      rw [unescape_escapeChar, unescape_escapeChar] at hu
      obtain ⟨rfl, hr⟩ := Prod.mk.inj (Option.some.inj hu)
      obtain ⟨rfl, hab⟩ := ih hr
      exact ⟨rfl, hab⟩

/-! ## Texts -/

/-- What stands after the quotes. -/
def Literal.suffix : Literal → List Char
  | .plain _ => []
  | .tagged _ tag => '@' :: tag.toList
  | .typed _ d => '^' :: '^' :: (bracket d).toList

theorem Literal.toList_text (l : Literal) :
    l.text.toList = '"' :: (l.lexical.toList.flatMap escapeChar ++ '"' :: l.suffix) := by
  cases l <;> simp [text, quoteLexical, lexical, suffix]

theorem bracket_inj {s t : String} (h : bracket s = bracket t) : s = t := by
  have hc := congrArg String.toList h
  simp only [bracket, String.toList_append] at hc
  exact String.toList_inj.1 (List.append_cancel_left (List.append_cancel_right hc))

theorem Literal.text_inj {l m : Literal} (h : l.text = m.text) : l = m := by
  have hc := congrArg String.toList h
  rw [toList_text, toList_text] at hc
  obtain ⟨hl, hs⟩ := escaped_inj (List.cons.inj hc).2
  have hl := String.toList_inj.1 hl
  cases l <;> cases m <;> simp only [suffix, lexical] at hl hs <;> subst hl
  case plain.plain => rfl
  case tagged.tagged => rw [String.toList_inj.1 (List.cons.inj hs).2]
  case typed.typed => rw [bracket_inj (String.toList_inj.1 (List.cons.inj (List.cons.inj hs).2).2)]
  all_goals simp at hs

theorem Node.head_text (n : Node) : n.text.toList.head? = some '<' ∨ n.text.toList.head? = some '_' := by
  cases n <;> simp [text, bracket]

theorem Node.text_inj {n m : Node} (h : n.text = m.text) : n = m := by
  cases n with
  | iri s =>
    cases m with
    | iri t => rw [bracket_inj h]
    | blank l => exact absurd (congrArg (·.toList.head?) h) (by simp [text, bracket])
  | blank l =>
    cases m with
    | iri t => exact absurd (congrArg (·.toList.head?) h) (by simp [text, bracket])
    | blank k =>
      have hc := congrArg String.toList h
      simp only [text, String.toList_append] at hc
      rw [String.toList_inj.1 (List.append_cancel_left hc)]

/-- A term is told by its text. -/
theorem Term.text_inj {s t : Term} (h : s.text = t.text) : s = t := by
  have quoted : ∀ (n : Node) (l : Literal), n.text ≠ l.text := by
    intro n l he
    have hh := n.head_text
    rw [he, l.toList_text] at hh
    simp at hh
  cases s with
  | node n =>
    cases t with
    | node m => rw [Node.text_inj h]
    | literal l => exact absurd h (quoted n l)
  | literal l =>
    cases t with
    | node n => exact absurd h.symm (quoted n l)
    | literal m => rw [Literal.text_inj h]

/-! ## Sorted terms -/

namespace Term

theorem mem_sort {t : Term} {ts : List Term} : t ∈ sort ts ↔ t ∈ ts := Ascending.mem_ofList fun _ _ => text_inj

theorem sort_pairwise (ts : List Term) : (sort ts).Pairwise (·.text < ·.text) := Ascending.ofList_pairwise ts

theorem head?_sort {t : Term} {ts : List Term} : (sort ts).head? = some t ↔ t ∈ ts ∧ ∀ u ∈ ts, t.text ≤ u.text :=
  Ascending.head?_ofList fun _ _ => text_inj

end Term

namespace Node

theorem mem_sort {n : Node} {ns : List Node} : n ∈ sort ns ↔ n ∈ ns := Ascending.mem_ofList fun _ _ => text_inj

theorem sort_pairwise (ns : List Node) : (sort ns).Pairwise (·.text < ·.text) := Ascending.ofList_pairwise ns

end Node

/-- Literals are put in the order of their lexical forms. -/
theorem Literal.mergeSort_pairwise (ls : List Literal) :
    (ls.mergeSort fun a b => a.lexical ≤ b.lexical).Pairwise (·.lexical ≤ ·.lexical) := by
  refine (List.pairwise_mergeSort ?_ ?_ ls).imp fun h => of_decide_eq_true h
  · intro a b c hab hbc
    exact decide_eq_true (String.le_trans (of_decide_eq_true hab) (of_decide_eq_true hbc))
  · intro a b
    simpa using String.le_total a.lexical b.lexical

end ShapePlan
