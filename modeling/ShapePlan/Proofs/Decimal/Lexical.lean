/-
Integers written as text. A text is read as an integer exactly if it is the written form of one within the 64-bit range,
with white space around it, or such a form with a plus sign before its own sign (`map_toInt_integer?`): the plus sign
that is taken off first is not missed where a sign follows it.
-/
import ShapePlan.Decimal.Lexical
import Mathlib.Data.List.TakeWhile
import Mathlib.Data.Nat.Digits.Defs

namespace ShapePlan

/-! ## White space -/

namespace Text

variable {cs body : List Char}

/-- A text with white space, or none, at its two ends. -/
def Surrounds (cs body : List Char) : Prop :=
  ∃ l r, cs = l ++ (body ++ r) ∧ (∀ c ∈ l, isBlank c = true) ∧ ∀ c ∈ r, isBlank c = true

theorem surrounds_trim (cs : List Char) : Surrounds cs (trim cs) := by
  refine ⟨cs.takeWhile isBlank, ((cs.dropWhile isBlank).reverse.takeWhile isBlank).reverse, ?_, ?_, ?_⟩
  · rw [trim, ← List.reverse_append, List.takeWhile_append_dropWhile, List.reverse_reverse,
      List.takeWhile_append_dropWhile]
  · exact fun c hc => List.mem_takeWhile_imp hc
  · exact fun c hc => List.mem_takeWhile_imp (List.mem_reverse.1 hc)

theorem dropWhile_isBlank_append {l r : List Char} (hl : ∀ c ∈ l, isBlank c = true)
    (hr : ∀ c, r.head? = some c → isBlank c = false) : (l ++ r).dropWhile isBlank = r := by
  rw [List.dropWhile_append_of_pos hl]
  cases r with
  | nil => rfl
  | cons c r => rw [List.dropWhile_cons_of_neg (by simp [hr c rfl])]

/-- Trimming gives back a text without white space. -/
theorem trim_eq_of_surrounds (h : Surrounds cs body) (hne : body ≠ []) (hbody : ∀ c ∈ body, isBlank c = false) :
    trim cs = body := by
  obtain ⟨l, r, rfl, hl, hr⟩ := h
  have hleft : (l ++ (body ++ r)).dropWhile isBlank = body ++ r := by
    obtain ⟨c, b, rfl⟩ := List.exists_cons_of_ne_nil hne
    exact dropWhile_isBlank_append hl fun d hd => hbody d (List.mem_of_head? hd)
  have hright : (r.reverse ++ body.reverse).dropWhile isBlank = body.reverse :=
    dropWhile_isBlank_append (fun c hc => hr c (List.mem_reverse.1 hc)) fun c hc =>
      hbody c (List.mem_reverse.1 (List.mem_of_head? hc))
  rw [trim, hleft, List.reverse_append, hright, List.reverse_reverse]

end Text

/-! ## Written integers -/

namespace Decimal

open Reader (natOf digitValue)

variable {cs ds : List Char} {n : Int}

/-- Decimal digits, at least one, and the number that they write. -/
structure IsDigits (ds : List Char) (n : Int) : Prop where
  ne_nil : ds ≠ []
  digits : ∀ c ∈ ds, c.isDigit = true
  value : n = (Nat.ofDigits 10 (ds.reverse.map digitValue) : Nat)

/-- Digits with one sign before them. -/
inductive IsSigned : List Char → Int → Prop where
  | plus {ds : List Char} {n : Int} : IsDigits ds n → IsSigned ('+' :: ds) n
  | minus {ds : List Char} {n : Int} : IsDigits ds n → IsSigned ('-' :: ds) (-n)

/-- Digits with one sign or none before them. -/
def IsNumeral (cs : List Char) (n : Int) : Prop := IsDigits cs n ∨ IsSigned cs n

theorem natOf_eq_ofDigits (ds : List Char) : natOf ds = Nat.ofDigits 10 (ds.reverse.map digitValue) := by
  have hfold : ∀ es : List Char,
      es.foldr (fun c n => 10 * n + digitValue c) 0 = Nat.ofDigits 10 (es.map digitValue) := by
    intro es
    induction es with
    | nil => rfl
    | cons c es ih => rw [List.foldr_cons, ih, List.map_cons, Nat.ofDigits_cons, Nat.add_comm]
  rw [← hfold, ← List.foldl_reverse, List.reverse_reverse]
  rfl

theorem toNat_of_isDigit {c : Char} (h : c.isDigit = true) : 48 ≤ c.toNat ∧ c.toNat ≤ 57 := by
  obtain ⟨hle, hge⟩ := Bool.and_eq_true_iff.1 h
  exact ⟨UInt32.le_iff_toNat_le.1 (of_decide_eq_true hle), UInt32.le_iff_toNat_le.1 (of_decide_eq_true hge)⟩

/-! No character of a numeral is white space. -/

theorem IsDigits.isBlank_eq_false (h : IsDigits ds n) : ∀ c ∈ ds, Text.isBlank c = false := by
  intro c hc
  have hrange := toNat_of_isDigit (h.digits c hc)
  simp only [Text.isBlank, Bool.or_eq_false_iff, Bool.and_eq_false_imp, decide_eq_true_eq, decide_eq_false_iff_not]
  omega

theorem IsSigned.isBlank_eq_false (h : IsSigned cs n) : ∀ c ∈ cs, Text.isBlank c = false := by
  cases h with
  | plus h => exact List.forall_mem_cons.2 ⟨by decide, h.isBlank_eq_false⟩
  | minus h => exact List.forall_mem_cons.2 ⟨by decide, h.isBlank_eq_false⟩

theorem IsNumeral.isBlank_eq_false (h : IsNumeral cs n) : ∀ c ∈ cs, Text.isBlank c = false := by
  rcases h with h | h
  · exact h.isBlank_eq_false
  · exact h.isBlank_eq_false

theorem IsNumeral.ne_nil (h : IsNumeral cs n) : cs ≠ [] := by
  rcases h with h | ⟨-⟩ | ⟨-⟩
  · exact h.ne_nil
  · exact List.cons_ne_nil _ _
  · exact List.cons_ne_nil _ _

theorem IsDigits.sign_ne {c : Char} (h : IsDigits (c :: ds) n) : c ≠ '+' ∧ c ≠ '-' := by
  have hc := h.digits c List.mem_cons_self
  constructor
  · rintro rfl
    exact absurd hc (by decide)
  · rintro rfl
    exact absurd hc (by decide)

theorem isDigits_iff : IsDigits ds n ↔ ¬ (ds = [] ∨ ¬ ds.all Char.isDigit = true) ∧ n = natOf ds := by
  rw [natOf_eq_ofDigits, not_or, not_not, List.all_eq_true]
  exact ⟨fun h => ⟨⟨h.ne_nil, h.digits⟩, h.value⟩, fun h => ⟨h.1.1, h.1.2, h.2⟩⟩

/-! ## Reading -/

theorem isNumeral_iff : IsNumeral cs n ↔ IsDigits (cutSign cs).2 (if (cutSign cs).1 then -n else n) := by
  unfold cutSign
  split
  · next r =>
    constructor
    · rintro (h | h)
      · exact absurd rfl h.sign_ne.2
      · cases h with
        | minus h => simpa using h
    · intro h
      have hminus := IsSigned.minus h
      rw [if_pos rfl, neg_neg] at hminus
      exact .inr hminus
  · next r =>
    constructor
    · rintro (h | h)
      · exact absurd rfl h.sign_ne.1
      · cases h with
        | plus h => exact h
    · exact fun h => .inr (.plus h)
  · next hminus hplus =>
    constructor
    · rintro (h | h)
      · exact h
      · cases h with
        | plus h => exact absurd rfl (hplus _)
        | minus h => exact absurd rfl (hminus _)
    · exact .inl

theorem signed?_eq_some : signed? cs = some n ↔ IsNumeral cs n := by
  rw [isNumeral_iff, isDigits_iff]
  have hsigned : signed? cs = if (cutSign cs).2 = [] ∨ ¬ (cutSign cs).2.all Char.isDigit = true then none
      else some (if (cutSign cs).1 then -(natOf (cutSign cs).2 : Int) else natOf (cutSign cs).2) := rfl
  rw [hsigned]
  generalize cutSign cs = sign
  split
  · next hbad => exact ⟨nofun, fun h => absurd hbad h.1⟩
  · next hok =>
    rw [Option.some_inj, and_iff_right hok]
    split
    · omega
    · exact eq_comm

/-- A plus sign may stand before digits, and also before a sign. -/
theorem signed?_dropPlus :
    signed? (dropPlus cs) = some n ↔ IsNumeral cs n ∨ ∃ r, cs = '+' :: r ∧ IsSigned r n := by
  rw [signed?_eq_some]
  unfold dropPlus
  split
  · next r =>
    constructor
    · rintro (h | h)
      · exact .inl (.inr (.plus h))
      · exact .inr ⟨r, rfl, h⟩
    · rintro ((h | h) | ⟨r', hr, h⟩)
      · exact absurd rfl h.sign_ne.1
      · cases h with
        | plus h => exact .inl h
      · cases hr
        exact .inr h
  · next hplus =>
    refine ⟨.inl, ?_⟩
    rintro (h | ⟨r, rfl, -⟩)
    · exact h
    · exact absurd rfl (hplus r)

/-! ## Texts of integers -/

variable {s : String}

def IsInt64 (n : Int) : Prop := -2 ^ 63 ≤ n ∧ n ≤ 2 ^ 63 - 1

/-- A text that writes an integer within the 64-bit range: one sign or none and digits, with white space around them. -/
def IsInteger (s : String) (n : Int) : Prop :=
  IsInt64 n ∧ ∃ cs, Text.Surrounds s.toList cs ∧ IsNumeral cs n

/-- A text that is no integer for a plus sign that stands before another sign. -/
def IsSignedTwice (s : String) (n : Int) : Prop :=
  IsInt64 n ∧ ∃ cs, Text.Surrounds s.toList ('+' :: cs) ∧ IsSigned cs n

theorem trim_of_isNumeral (hs : Text.Surrounds s.toList cs) (h : IsNumeral cs n) : Text.trim s.toList = cs :=
  Text.trim_eq_of_surrounds hs h.ne_nil h.isBlank_eq_false

theorem trim_of_isSigned (hs : Text.Surrounds s.toList ('+' :: cs)) (h : IsSigned cs n) :
    Text.trim s.toList = '+' :: cs :=
  Text.trim_eq_of_surrounds hs (List.cons_ne_nil _ _) (List.forall_mem_cons.2 ⟨by decide, h.isBlank_eq_false⟩)

theorem not_isInteger_of_isSignedTwice {m : Int} (h : IsSignedTwice s n) : ¬ IsInteger s m := by
  obtain ⟨-, cs, hs, hsigned⟩ := h
  rintro ⟨-, ds, hs', hnumeral⟩
  obtain rfl := (trim_of_isSigned hs hsigned).symm.trans (trim_of_isNumeral hs' hnumeral)
  rcases hnumeral with hdigits | hplus
  · exact hdigits.sign_ne.1 rfl
  · cases hplus with
    | plus hdigits =>
      cases hsigned with
      | plus _ => exact hdigits.sign_ne.1 rfl
      | minus _ => exact hdigits.sign_ne.2 rfl

theorem fitsInt64_iff : fitsInt64 n = true ↔ IsInt64 n := by
  rw [fitsInt64, Bool.and_eq_true_iff, decide_eq_true_eq, decide_eq_true_eq, Int64.toInt_minValue, Int64.toInt_maxValue,
    IsInt64]

theorem toInt_ofInt_of_isInt64 (h : IsInt64 n) : (Int64.ofInt n).toInt = n :=
  Int64.toInt_ofInt_of_le h.1 (Int.lt_of_le_sub_one h.2)

/-- What is read as an integer. -/
theorem map_toInt_integer? : (integer? s).map Int64.toInt = some n ↔ IsInteger s n ∨ IsSignedTwice s n := by
  have hread : (integer? s).map Int64.toInt = some n ↔
      signed? (dropPlus (Text.trim s.toList)) = some n ∧ IsInt64 n := by
    rw [integer?, Option.map_map, Option.map_eq_some_iff]
    simp only [Option.filter_eq_some_iff, fitsInt64_iff]
    constructor
    · rintro ⟨m, ⟨hm, hrange⟩, hn⟩
      obtain rfl : m = n := (toInt_ofInt_of_isInt64 hrange).symm.trans hn
      exact ⟨hm, hrange⟩
    · exact fun ⟨hn, hrange⟩ => ⟨n, ⟨hn, hrange⟩, toInt_ofInt_of_isInt64 hrange⟩
  rw [hread, signed?_dropPlus]
  constructor
  · rintro ⟨h | ⟨r, hr, h⟩, hrange⟩
    · exact .inl ⟨hrange, _, Text.surrounds_trim _, h⟩
    · exact .inr ⟨hrange, r, hr ▸ Text.surrounds_trim _, h⟩
  · rintro (⟨hrange, cs, hs, h⟩ | ⟨hrange, cs, hs, h⟩)
    · rw [trim_of_isNumeral hs h]
      exact ⟨.inl h, hrange⟩
    · rw [trim_of_isSigned hs h]
      exact ⟨.inr ⟨cs, rfl, h⟩, hrange⟩

theorem integer?_eq_none : integer? s = none ↔ ∀ n, ¬ (IsInteger s n ∨ IsSignedTwice s n) := by
  simp only [← map_toInt_integer?]
  cases integer? s <;> simp

end Decimal

end ShapePlan
