/-
Floats written as text. A text is read as a float exactly if it is a decimal with white space around it (`IsFloat`), and
then it is the nearest finite value; a decimal that has none is not read.
-/
import ShapePlan.Proofs.Decimal.Lexical
import ShapePlan.Proofs.Decimal.Nearest

namespace ShapePlan.Decimal

open Reader (natOf)

variable {cs : List Char}

/-! ## Written decimals -/

/-- A sign, or none. -/
inductive IsSign : List Char → Bool → Prop where
  | none : IsSign [] false
  | plus : IsSign ['+'] false
  | minus : IsSign ['-'] true

/-- Digits before and after a point, or without one. -/
inductive IsPointed (whole : List Char) : List Char → List Char → Prop where
  | whole : IsPointed whole [] whole
  | point (fraction : List Char) : IsPointed whole fraction (whole ++ '.' :: fraction)

/-- A power of ten, or none. -/
inductive IsExponent : List Char → Int → Prop where
  | none : IsExponent [] 0
  | some {c : Char} {cs : List Char} {n : Int} : c = 'e' ∨ c = 'E' → IsNumeral cs n → IsExponent (c :: cs) n

/-- A written decimal, which is `n * 10 ^ e` without its sign. -/
inductive IsDecimal : List Char → Bool → Nat → Int → Prop where
  | mk {sign whole fraction pointed power : List Char} {neg : Bool} {n : Nat} {e : Int} : IsSign sign neg →
      IsDigits (whole ++ fraction) n → IsPointed whole fraction pointed → IsExponent power e →
      IsDecimal (sign ++ (pointed ++ power)) neg n (e - fraction.length)

/-! No character of a decimal is white space. -/

theorem IsDecimal.isBlank_eq_false {neg : Bool} {n : Nat} {e : Int} (h : IsDecimal cs neg n e) :
    ∀ c ∈ cs, Text.isBlank c = false := by
  obtain ⟨hsign, hdigits, hpointed, hpower⟩ := h
  have hblank := hdigits.isBlank_eq_false
  simp only [List.mem_append]
  rintro c (hc | hc | hc)
  · cases hsign with
    | none => cases hc
    | plus => cases List.mem_singleton.1 hc; decide
    | minus => cases List.mem_singleton.1 hc; decide
  · cases hpointed with
    | whole => exact hblank c (List.mem_append_left _ hc)
    | point =>
      rcases List.mem_append.1 hc with hc | hc
      · exact hblank c (List.mem_append_left _ hc)
      · rcases List.mem_cons.1 hc with rfl | hc
        · decide
        · exact hblank c (List.mem_append_right _ hc)
  · cases hpower with
    | none => cases hc
    | some hletter hnumeral =>
      rcases List.mem_cons.1 hc with rfl | hc
      · rcases hletter with rfl | rfl <;> decide
      · exact hnumeral.isBlank_eq_false c hc

theorem IsDecimal.ne_nil {neg : Bool} {n : Nat} {e : Int} (h : IsDecimal cs neg n e) : cs ≠ [] := by
  obtain ⟨-, hdigits, hpointed, -⟩ := h
  have hne := hdigits.ne_nil
  cases hpointed with
  | whole => simp_all
  | point => simp

/-! ## Reading -/

theorem cutSign_append {sign : List Char} {neg : Bool} (hsign : IsSign sign neg)
    (hcs : ∀ c ∈ cs.head?, c ≠ '+' ∧ c ≠ '-') : cutSign (sign ++ cs) = (neg, cs) := by
  cases hsign with
  | plus => rfl
  | minus => rfl
  | none =>
    rw [List.nil_append, cutSign]
    · rintro r rfl
      exact (hcs '-' rfl).2 rfl
    · rintro r rfl
      exact (hcs '+' rfl).1 rfl

theorem exists_isSign (cs : List Char) : ∃ sign, IsSign sign (cutSign cs).1 ∧ cs = sign ++ (cutSign cs).2 := by
  unfold cutSign
  split
  · exact ⟨_, .minus, rfl⟩
  · exact ⟨_, .plus, rfl⟩
  · exact ⟨_, .none, rfl⟩

/-- Digits end where something else starts. -/
theorem span_isDigit {ds : List Char} (hds : ∀ c ∈ ds, c.isDigit = true) (hcs : ∀ c ∈ cs.head?, c.isDigit = false) :
    (ds ++ cs).takeWhile Char.isDigit = ds ∧ (ds ++ cs).dropWhile Char.isDigit = cs := by
  rw [List.takeWhile_append_of_pos hds, List.dropWhile_append_of_pos hds]
  cases cs with
  | nil => simp
  | cons c cs => simp [hcs c rfl]

theorem cutPoint_append {whole fraction pointed : List Char} (hds : ∀ c ∈ whole ++ fraction, c.isDigit = true)
    (hpointed : IsPointed whole fraction pointed) (hcs : ∀ c ∈ cs.head?, c ≠ '.' ∧ c.isDigit = false) :
    cutPoint (pointed ++ cs) = (whole, fraction, cs) := by
  have hwhole : ∀ c ∈ whole, c.isDigit = true := fun c hc => hds c (List.mem_append_left _ hc)
  unfold cutPoint
  cases hpointed with
  | whole =>
    obtain ⟨htake, hdrop⟩ := span_isDigit hwhole fun c hc => (hcs c hc).2
    rw [htake, hdrop]
    split
    · exact absurd rfl (hcs '.' rfl).1
    · rfl
  | point =>
    have hfraction : ∀ c ∈ fraction, c.isDigit = true := fun c hc => hds c (List.mem_append_right _ hc)
    obtain ⟨htake, hdrop⟩ := span_isDigit hfraction fun c hc => (hcs c hc).2
    rw [List.append_assoc, List.cons_append]
    have hpoint : ∀ c ∈ ('.' :: (fraction ++ cs)).head?, c.isDigit = false := by simp
    obtain ⟨htake', hdrop'⟩ := span_isDigit hwhole hpoint
    rw [htake', hdrop']
    simp only [htake, hdrop]

theorem exists_isPointed (cs : List Char) : ∃ pointed,
    IsPointed (cutPoint cs).1 (cutPoint cs).2.1 pointed ∧ cs = pointed ++ (cutPoint cs).2.2 ∧
      ∀ c ∈ (cutPoint cs).1 ++ (cutPoint cs).2.1, c.isDigit = true := by
  have hdigit : ∀ ds : List Char, ∀ c ∈ ds.takeWhile Char.isDigit, c.isDigit = true := fun ds c hc =>
    List.mem_takeWhile_imp hc
  have hcut : cs.takeWhile Char.isDigit ++ cs.dropWhile Char.isDigit = cs := List.takeWhile_append_dropWhile
  unfold cutPoint
  split
  · next r hr =>
    refine ⟨_, .point _, ?_, fun c hc => (List.mem_append.1 hc).elim (hdigit _ c) (hdigit _ c)⟩
    rw [List.append_assoc, List.cons_append, List.takeWhile_append_dropWhile, ← hr, hcut]
  · refine ⟨_, .whole, hcut.symm, ?_⟩
    rw [List.append_nil]
    exact hdigit cs

theorem exponent?_eq_some {n : Int} : exponent? cs = some n ↔ IsExponent cs n := by
  cases cs with
  | nil =>
    constructor
    · rintro ⟨⟩
      exact .none
    · rintro ⟨⟩
      rfl
  | cons c cs =>
    rw [exponent?]
    split
    · next hc =>
      rw [signed?_eq_some]
      exact ⟨.some hc, fun | .some _ h => h⟩
    · next hc => exact ⟨nofun, fun | .some h _ => absurd h hc⟩

theorem IsExponent.head_ne {n : Int} (h : IsExponent cs n) : ∀ c ∈ cs.head?, c ≠ '.' ∧ c.isDigit = false := by
  cases h with
  | none => nofun
  | some hletter _ =>
    rintro _ ⟨⟩
    rcases hletter with rfl | rfl <;> decide

/-- What follows a sign starts with a digit or a point. -/
theorem IsPointed.head_ne {whole fraction pointed : List Char} (h : IsPointed whole fraction pointed)
    (hne : whole ++ fraction ≠ []) (hds : ∀ c ∈ whole ++ fraction, c.isDigit = true) :
    ∀ c ∈ (pointed ++ cs).head?, c ≠ '+' ∧ c ≠ '-' := by
  have hdigit : ∀ c : Char, c.isDigit = true → c ≠ '+' ∧ c ≠ '-' := by
    intro c hc
    constructor <;> rintro rfl <;> exact absurd hc (by decide)
  cases whole with
  | cons d ds =>
    cases h <;>
    · rintro _ ⟨⟩
      exact hdigit d (hds d List.mem_cons_self)
  | nil =>
    cases h with
    | whole => exact absurd rfl hne
    | point =>
      rintro _ ⟨⟩
      decide

theorem float?_eq (s : String) (sign : Bool × List Char) (parts : List Char × List Char × List Char)
    (hsign : cutSign (Text.trim s.toList) = sign) (hparts : cutPoint sign.2 = parts) :
    float? s = if parts.1 = [] ∧ parts.2.1 = [] then none else (exponent? parts.2.2).bind fun e =>
      Binary64.ofDecimal? sign.1 (natOf (parts.1 ++ parts.2.1)) (e - parts.2.1.length) := by
  subst hsign hparts
  rfl

/-- A text that writes a decimal, with white space around it, and the finite value nearest to that. -/
def IsFloat (s : String) (x : Binary64) : Prop :=
  ∃ cs neg n e, Text.Surrounds s.toList cs ∧ IsDecimal cs neg n e ∧ Binary64.IsRounded neg (n * 10 ^ e) x

theorem float?_eq_some {s : String} {x : Binary64} : float? s = some x ↔ IsFloat s x := by
  constructor
  · rw [float?_eq s _ _ rfl rfl]
    obtain ⟨sign, hsign, htrim⟩ := exists_isSign (Text.trim s.toList)
    obtain ⟨pointed, hpointed, hcut, hds⟩ := exists_isPointed (cutSign (Text.trim s.toList)).2
    generalize cutSign (Text.trim s.toList) = signed at *
    obtain ⟨neg, cs⟩ := signed
    generalize cutPoint cs = parts at *
    obtain ⟨whole, fraction, power⟩ := parts
    split
    · nofun
    · next hne =>
      intro h
      obtain ⟨e, he, hx⟩ := Option.bind_eq_some_iff.1 h
      have hdigits : IsDigits (whole ++ fraction) (natOf (whole ++ fraction)) :=
        ⟨fun hnil => hne (List.append_eq_nil_iff.1 hnil), hds, congrArg Nat.cast (natOf_eq_ofDigits _)⟩
      refine ⟨_, neg, _, _, Text.surrounds_trim s.toList, ?_, Binary64.ofDecimal?_eq_some.1 hx⟩
      rw [htrim, hcut]
      exact ⟨hsign, hdigits, hpointed, exponent?_eq_some.1 he⟩
  · rintro ⟨cs, neg, n, e, hs, h, hx⟩
    have htrim := Text.trim_eq_of_surrounds hs h.ne_nil h.isBlank_eq_false
    obtain @⟨sign, whole, fraction, pointed, power, _, _, e, hsign, hdigits, hpointed, hpower⟩ := h
    have hvalue : natOf (whole ++ fraction) = n := (Int.ofNat_inj.1 (isDigits_iff.1 hdigits).2).symm
    have hcut : cutSign (sign ++ (pointed ++ power)) = (neg, pointed ++ power) :=
      cutSign_append hsign (hpointed.head_ne hdigits.ne_nil hdigits.digits)
    rw [← htrim] at hcut
    rw [float?_eq s _ _ hcut (cutPoint_append hdigits.digits hpointed hpower.head_ne),
      if_neg fun hnil => hdigits.ne_nil (List.append_eq_nil_iff.2 hnil), exponent?_eq_some.2 hpower, Option.bind_some,
      hvalue]
    exact Binary64.ofDecimal?_eq_some.2 hx

end ShapePlan.Decimal
