/-
Rounding to binary64, against the rationals. A finite value is the nearest to a decimal, a half goes to the even one
(`ofDecimal?_eq_some`), and what is nearer to the power of two after the largest finite value has no result. The values
of the magnitudes ascend, so the nearest is one of the two on either side.
-/
import ShapePlan.Decimal.Binary64
import Mathlib.Algebra.Order.Field.Power
import Mathlib.Data.Rat.Cast.Order
import Mathlib.Tactic.FieldSimp
import Mathlib.Tactic.GCongr
import Mathlib.Tactic.Linarith
import Mathlib.Tactic.LinearCombination
import Mathlib.Tactic.NormNum
import Mathlib.Tactic.Positivity
import Mathlib.Tactic.Ring

namespace ShapePlan.Binary64

/-! ## Values of magnitudes -/

/-- The absolute value that a magnitude stands for. The steps go on beyond the finite values, so that the least
magnitude that is not finite stands for the next power of two. -/
def value (mag : Nat) : ℚ :=
  if mag < 2 ^ 52 then mag * 2 ^ (-1074 : ℤ)
  else (2 ^ 52 + mag % 2 ^ 52 : ℕ) * 2 ^ ((mag / 2 ^ 52 : ℕ) - 1075 : ℤ)

/-- Within a binade, its upper end included, the values grow by equal steps. -/
theorem value_binade {k m : Nat} (hk : k = 0 ∨ 2 ^ 52 ≤ m) (hm : m ≤ 2 ^ 53) :
    value (k * 2 ^ 52 + m) = m * 2 ^ (k - 1074 : ℤ) := by
  unfold value
  split
  · next h =>
    obtain rfl : k = 0 := by omega
    simp
  · next h =>
    rcases Nat.lt_or_ge m (2 ^ 53) with hlt | hge
    · have hdiv : (k * 2 ^ 52 + m) / 2 ^ 52 = k + 1 := by omega
      have hmod : 2 ^ 52 + (k * 2 ^ 52 + m) % 2 ^ 52 = m := by omega
      rw [hdiv, hmod]
      congr 2
      push_cast
      ring
    · obtain rfl : m = 2 ^ 53 := Nat.le_antisymm hm hge
      have hdiv : (k * 2 ^ 52 + 2 ^ 53) / 2 ^ 52 = k + 2 := by omega
      have hmod : (k * 2 ^ 52 + 2 ^ 53) % 2 ^ 52 = 0 := by omega
      have hexp : ((k + 2 : ℕ) - 1075 : ℤ) = (k - 1074) + 1 := by push_cast; ring
      rw [hdiv, hmod, hexp, zpow_add_one₀ two_ne_zero]
      push_cast
      ring

theorem exists_binade (k : Nat) : ∃ j m, (j = 0 ∨ 2 ^ 52 ≤ m) ∧ m < 2 ^ 53 ∧ k = j * 2 ^ 52 + m := by
  rcases Nat.lt_or_ge k (2 ^ 52) with h | h
  · exact ⟨0, k, .inl rfl, by omega, by omega⟩
  · exact ⟨k / 2 ^ 52 - 1, 2 ^ 52 + k % 2 ^ 52, .inr (by omega), by omega, by omega⟩

theorem value_strictMono : StrictMono value := by
  refine strictMono_nat_of_lt_succ fun k => ?_
  obtain ⟨j, m, hj, hm, rfl⟩ := exists_binade k
  have hnext : j = 0 ∨ 2 ^ 52 ≤ m + 1 := hj.imp_right fun h => Nat.le_succ_of_le h
  rw [Nat.add_assoc, value_binade hj hm.le, value_binade hnext hm]
  have hpow : (0 : ℚ) < 2 ^ (j - 1074 : ℤ) := by positivity
  push_cast
  linarith

/-! ## The nearest magnitude -/

/-- No value is nearer, and the magnitude is even if there is another as near. -/
def IsNearest (q : ℚ) (mag : Nat) : Prop :=
  ∀ k, |value mag - q| ≤ |value k - q| ∧ (|value mag - q| = |value k - q| → k = mag ∨ mag % 2 = 0)

theorem lt_abs_of_lt {q : ℚ} {j k : Nat} (hk : value k ≤ q) (h : j < k) : |value k - q| < |value j - q| := by
  have hlt := value_strictMono h
  rw [abs_sub_comm, abs_of_nonneg (by linarith), abs_sub_comm, abs_of_nonneg (by linarith)]
  linarith

theorem lt_abs_of_gt {q : ℚ} {j k : Nat} (hk : q ≤ value k) (h : k < j) : |value k - q| < |value j - q| := by
  have hlt := value_strictMono h
  rw [abs_of_nonneg (by linarith), abs_of_nonneg (by linarith)]
  linarith

/-- Only the two neighbours count: all other values lie beyond them. -/
theorem isNearest_of_neighbours {q : ℚ} {k m : Nat} (hlo : value k ≤ q) (hhi : q ≤ value (k + 1))
    (h : ∀ j, j = k ∨ j = k + 1 →
      |value m - q| ≤ |value j - q| ∧ (|value m - q| = |value j - q| → j = m ∨ m % 2 = 0)) : IsNearest q m := by
  have hbeyond : ∀ i j, i = k ∨ i = k + 1 → |value i - q| < |value j - q| →
      |value m - q| ≤ |value j - q| ∧ (|value m - q| = |value j - q| → j = m ∨ m % 2 = 0) := by
    intro i j hi hlt
    have hfar : |value m - q| < |value j - q| := (h i hi).1.trans_lt hlt
    exact ⟨hfar.le, fun he => absurd he hfar.ne⟩
  intro j
  rcases Nat.lt_trichotomy j k with hj | hj | hj
  · exact hbeyond k j (.inl rfl) (lt_abs_of_lt hlo hj)
  · exact h j (.inl hj)
  · rcases Nat.eq_or_lt_of_le (Nat.succ_le_of_lt hj) with hj | hj
    · exact h j (.inr hj.symm)
    · exact hbeyond (k + 1) j (.inr rfl) (lt_abs_of_gt hhi hj)

/-- Between two neighbours it is the nearer one. -/
theorem isNearest_of_mem_step {q : ℚ} {k : Nat} (hlo : value k ≤ q) (hhi : q ≤ value (k + 1)) :
    (2 * q < value k + value (k + 1) ∨ 2 * q = value k + value (k + 1) ∧ k % 2 = 0 → IsNearest q k) ∧
    (value k + value (k + 1) < 2 * q ∨ 2 * q = value k + value (k + 1) ∧ k % 2 = 1 → IsNearest q (k + 1)) := by
  have hbelow : |value k - q| = q - value k := by rw [abs_sub_comm, abs_of_nonneg (by linarith)]
  have habove : |value (k + 1) - q| = value (k + 1) - q := abs_of_nonneg (by linarith)
  constructor
  · refine fun h => isNearest_of_neighbours hlo hhi ?_
    rintro j (rfl | rfl)
    · exact ⟨le_rfl, fun _ => .inl rfl⟩
    · rw [hbelow, habove]
      rcases h with h | ⟨h, hk⟩
      · exact ⟨by linarith, fun he => absurd he (by linarith)⟩
      · exact ⟨by linarith, fun _ => .inr hk⟩
  · refine fun h => isNearest_of_neighbours hlo hhi ?_
    rintro j (rfl | rfl)
    · rw [hbelow, habove]
      rcases h with h | ⟨h, hk⟩
      · exact ⟨by linarith, fun he => absurd he (by linarith)⟩
      · exact ⟨by linarith, fun _ => .inr (by omega)⟩
    · exact ⟨le_rfl, fun _ => .inl rfl⟩

theorem isNearest_zero {q : ℚ} (h0 : 0 ≤ q) (hq : 2 * q < 2 ^ (-1074 : ℤ)) : IsNearest q 0 := by
  have hzero : value 0 = 0 := by simp [value]
  have hone : value 1 = 2 ^ (-1074 : ℤ) := by simp [value]
  exact (isNearest_of_mem_step (by linarith) (by linarith)).1 (.inl (by linarith))

theorem IsNearest.not_lt {q : ℚ} {m k : Nat} (h : IsNearest q m) (hk : value k ≤ q) : ¬ m < k :=
  fun hlt => absurd (h k).1 (not_le.2 (lt_abs_of_lt hk hlt))

/-- Of two magnitudes as near as each other one is odd, or there is one between them. -/
theorem IsNearest.not_both {q : ℚ} {m m' : Nat} (h : IsNearest q m) (h' : IsNearest q m') : ¬ m < m' := by
  intro hlt
  have heq : |value m - q| = |value m' - q| := le_antisymm (h m').1 (h' m).1
  have heven : m % 2 = 0 := ((h m').2 heq).resolve_left hlt.ne'
  have heven' : m' % 2 = 0 := ((h' m).2 heq.symm).resolve_left hlt.ne
  have hlo : value m < value (m + 1) := value_strictMono (Nat.lt_succ_self m)
  have hhi : value (m + 1) < value m' := value_strictMono (by omega)
  have hbetween : |value (m + 1) - q| < |value m - q| := by
    rw [abs_lt]
    constructor
    · linarith [neg_abs_le (value m - q)]
    · rw [heq]
      linarith [le_abs_self (value m' - q)]
  exact absurd (h (m + 1)).1 (not_le.2 hbetween)

theorem IsNearest.unique {q : ℚ} {m m' : Nat} (h : IsNearest q m) (h' : IsNearest q m') : m = m' :=
  Nat.le_antisymm (Nat.not_lt.1 (h'.not_both h)) (Nat.not_lt.1 (h.not_both h'))

/-! ## Ratios -/

theorem pow_toNat {b : ℚ} (hb : b ≠ 0) (e : ℤ) : b ^ e.toNat = b ^ e * b ^ (-e).toNat := by
  rcases Int.le_total 0 e with h | h
  · obtain ⟨n, rfl⟩ := Int.eq_ofNat_of_zero_le h
    simp
  · obtain ⟨n, hn⟩ := Int.eq_ofNat_of_zero_le (Int.neg_nonneg_of_nonpos h)
    obtain rfl : e = -n := by omega
    simp [inv_mul_cancel₀ (pow_ne_zero n hb)]

/-- Numbers on the two sides of a ratio may be compared without fractions. -/
theorem scaled_lt_scaled {a b : Nat} (e : ℤ) :
    a * 2 ^ (-e).toNat < b * 2 ^ e.toNat ↔ (a : ℚ) < b * 2 ^ e := by
  have hpow : (0 : ℚ) < 2 ^ (-e).toNat := by positivity
  rw [← Nat.cast_lt (α := ℚ)]
  push_cast
  rw [pow_toNat two_ne_zero e, ← mul_assoc, mul_lt_mul_iff_left₀ hpow]

theorem floorLog2_spec {num den : Nat} (hnum : num ≠ 0) (hden : den ≠ 0) :
    (den : ℚ) * 2 ^ floorLog2 num den ≤ num ∧ (num : ℚ) < den * 2 ^ (floorLog2 num den + 1) := by
  have hlo : ∀ n : Nat, n ≠ 0 → (2 : ℚ) ^ (n.log2 : ℤ) ≤ n := fun n hn => by
    rw [zpow_natCast]
    exact_mod_cast Nat.log2_self_le hn
  have hhi : ∀ n : Nat, (n : ℚ) < 2 ^ (n.log2 + 1 : ℤ) := fun n => by
    have hlt : n < 2 ^ (n.log2 + 1) := Nat.lt_log2_self
    exact_mod_cast hlt
  -- by their logarithms the ratio is less than one binade off
  have hbelow : (den : ℚ) * 2 ^ ((num.log2 : ℤ) - den.log2 - 1) ≤ num := by
    calc (den : ℚ) * 2 ^ ((num.log2 : ℤ) - den.log2 - 1)
        ≤ 2 ^ (den.log2 + 1 : ℤ) * 2 ^ ((num.log2 : ℤ) - den.log2 - 1) := by
          gcongr
          exact (hhi den).le
      _ = 2 ^ (num.log2 : ℤ) := by
          rw [← zpow_add₀ two_ne_zero]
          congr 1
          ring
      _ ≤ num := hlo num hnum
  have habove : (num : ℚ) < den * 2 ^ ((num.log2 : ℤ) - den.log2 + 1) := by
    calc (num : ℚ) < 2 ^ (num.log2 + 1 : ℤ) := hhi num
      _ = 2 ^ (den.log2 : ℤ) * 2 ^ ((num.log2 : ℤ) - den.log2 + 1) := by
          rw [← zpow_add₀ two_ne_zero]
          congr 1
          ring
      _ ≤ den * 2 ^ ((num.log2 : ℤ) - den.log2 + 1) := by
          gcongr
          exact hlo den hden
  simp only [floorLog2, Nat.pow_eq, scaled_lt_scaled]
  split
  · next h =>
    rw [sub_add_cancel]
    exact ⟨hbelow, h⟩
  · next h => exact ⟨not_lt.1 h, habove⟩

/-- The remainder tells which neighbour is nearer. -/
theorem isNearest_of_remainder {q : ℚ} {k r den : Nat} (hden : 0 < den) (hr : r < den)
    (hq : (q - value k) * den = r * (value (k + 1) - value k)) :
    IsNearest q (if 2 * r < den ∨ 2 * r = den ∧ k % 2 = 0 then k else k + 1) := by
  have hstep := isNearest_of_mem_step (q := q) (k := k)
  have hlt := value_strictMono (Nat.lt_succ_self k)
  generalize value k = lo at hq hstep hlt
  generalize value (k + 1) = hi at hq hstep hlt
  have hd : (0 : ℚ) < den := by exact_mod_cast hden
  have hr : (r : ℚ) < den := by exact_mod_cast hr
  have hr0 : (0 : ℚ) ≤ r := by positivity
  obtain ⟨hdown, hup⟩ := hstep (by nlinarith) (by nlinarith)
  have hdiff : (2 * q - (lo + hi)) * den = (2 * r - den) * (hi - lo) := by linear_combination 2 * hq
  rcases Nat.lt_trichotomy (2 * r) den with h | h | h
  · rw [if_pos (.inl h)]
    have h : 2 * (r : ℚ) < den := by exact_mod_cast h
    exact hdown (.inl (by nlinarith))
  · have heq : 2 * q = lo + hi := by
      have h : 2 * (r : ℚ) = den := by exact_mod_cast h
      rw [h, sub_self, zero_mul, mul_eq_zero, sub_eq_zero] at hdiff
      exact hdiff.resolve_right hd.ne'
    by_cases heven : k % 2 = 0
    · rw [if_pos (.inr ⟨h, heven⟩)]
      exact hdown (.inr ⟨heq, heven⟩)
    · rw [if_neg (by omega)]
      exact hup (.inr ⟨heq, by omega⟩)
  · rw [if_neg (by omega)]
    have h : (den : ℚ) < 2 * r := by exact_mod_cast h
    exact hup (.inl (by nlinarith))

/-- Rounding a ratio to a natural gives the nearest magnitude of its binade. -/
theorem isNearest_roundRatio {q : ℚ} {k num den : Nat} (hden : 0 < den)
    (hq : q * den = num * 2 ^ (k - 1074 : ℤ)) (hk : k = 0 ∨ 2 ^ 52 * den ≤ num) (hlt : num < 2 ^ 53 * den) :
    IsNearest q (k * 2 ^ 52 + roundRatio num den) := by
  have hf : num / den < 2 ^ 53 := Nat.div_lt_of_lt_mul (by rwa [Nat.mul_comm])
  have hk' : k = 0 ∨ 2 ^ 52 ≤ num / den := hk.imp_right (Nat.le_div_iff_mul_le hden).2
  have hvalue : value (k * 2 ^ 52 + num / den) = (num / den : ℕ) * 2 ^ (k - 1074 : ℤ) := value_binade hk' hf.le
  have hnext : value (k * 2 ^ 52 + num / den + 1) = ((num / den : ℕ) + 1) * 2 ^ (k - 1074 : ℤ) := by
    rw [Nat.add_assoc, value_binade (hk'.imp_right fun h => Nat.le_succ_of_le h) hf]
    push_cast
    ring
  have hnum : (num : ℚ) = den * (num / den : ℕ) + (num % den : ℕ) := by exact_mod_cast (Nat.div_add_mod num den).symm
  have hnear := isNearest_of_remainder (q := q) (k := k * 2 ^ 52 + num / den) hden (Nat.mod_lt num hden)
    (by rw [hvalue, hnext, sub_mul, hq, hnum]; ring)
  have hparity : (k * 2 ^ 52 + num / den) % 2 = num / den % 2 := by omega
  rw [hparity] at hnear
  simp only [roundRatio]
  split at hnear
  · next h => rwa [if_pos h]
  · next h => rwa [if_neg h, ← Nat.add_assoc]

/-- What is rounded is the nearest magnitude, and it has to be finite. -/
theorem exists_ofRatio?_eq (neg : Bool) (num : Nat) {den : Nat} (hden : 0 < den) :
    ∃ m, IsNearest (num / den) m ∧ ofRatio? neg num den = if m < infinity then some (ofMagnitude neg m) else none := by
  by_cases hnum : num = 0
  · refine ⟨0, isNearest_zero (by positivity) ?_, by rw [ofRatio?, if_pos hnum, if_pos (by decide)]⟩
    rw [hnum, Nat.cast_zero, zero_div, mul_zero]
    positivity
  · obtain ⟨hlo, hhi⟩ := floorLog2_spec hnum hden.ne'
    simp only [ofRatio?, if_neg hnum, Nat.pow_eq]
    obtain ⟨k, hk⟩ : ∃ k : Nat, max (floorLog2 num den) (-1022) - 52 = k - 1074 :=
      ⟨(max (floorLog2 num den) (-1022) + 1022).toNat, by omega⟩
    rw [hk, sub_add_cancel, Int.toNat_natCast]
    have hscale : ∀ j : Nat, ((2 ^ j * den : ℕ) : ℚ) * 2 ^ (k - 1074 : ℤ) = den * 2 ^ (j + k - 1074 : ℤ) := by
      intro j
      rw [add_sub_assoc, zpow_add₀ two_ne_zero, zpow_natCast]
      push_cast
      ring
    refine ⟨_, isNearest_roundRatio (by positivity) ?_ ?_ ?_, rfl⟩
    · have hd : (den : ℚ) ≠ 0 := by exact_mod_cast hden.ne'
      push_cast
      rw [pow_toNat two_ne_zero (k - 1074)]
      field_simp
    · refine or_iff_not_imp_left.2 fun hzero => ?_
      have hlog : floorLog2 num den = (52 : ℕ) + k - 1074 := by omega
      rw [← Nat.mul_assoc, ← Nat.not_lt, scaled_lt_scaled, hscale, not_lt, ← hlog]
      exact hlo
    · rw [← Nat.mul_assoc, scaled_lt_scaled, hscale]
      refine hhi.trans_le ?_
      gcongr
      · exact one_le_two
      · omega

/-! ## Decimals -/

theorem value_infinity : value infinity = 2 ^ 1024 := by
  have hbinade := value_binade (k := 2046) (m := 2 ^ 52) (.inr le_rfl) (by decide)
  have hpow : ((2 ^ 52 : ℕ) : ℚ) * 2 ^ ((2046 : ℕ) - 1074 : ℤ) = 2 ^ 1024 := by
    rw [Nat.cast_pow, Nat.cast_ofNat, ← zpow_natCast, ← zpow_natCast, ← zpow_add₀ two_ne_zero]
    rfl
  rw [← hpow, ← hbinade]
  rfl

/-- A power of ten that is larger, from the binary logarithm. -/
theorem lt_ten_pow (n : Nat) : n < 10 ^ (n.log2 / 3 + 1) := by
  calc n < 2 ^ (n.log2 + 1) := Nat.lt_log2_self
    _ ≤ 2 ^ (3 * (n.log2 / 3 + 1)) := Nat.pow_le_pow_right (by decide) (by omega)
    _ = 8 ^ (n.log2 / 3 + 1) := Nat.pow_mul 2 3 _
    _ ≤ 10 ^ (n.log2 / 3 + 1) := Nat.pow_le_pow_left (by decide) _

/-- A decimal with an exponent far below zero is nearest to zero. -/
theorem isNearest_zero_of_exp {digits : Nat} {exp : ℤ} (h : exp + (digits.log2 / 3 + 1 : ℤ) < -340) :
    IsNearest (digits * 10 ^ exp) 0 := by
  have hdigits : (digits : ℚ) < 10 ^ (digits.log2 / 3 + 1 : ℤ) := by exact_mod_cast lt_ten_pow digits
  refine isNearest_zero (by positivity) ?_
  calc 2 * (digits * 10 ^ exp : ℚ) ≤ 2 * (10 ^ (digits.log2 / 3 + 1 : ℤ) * 10 ^ exp) := by gcongr
    _ = 2 * 10 ^ (exp + (digits.log2 / 3 + 1) : ℤ) := by rw [← zpow_add₀ (by norm_num), add_comm]
    _ ≤ 2 * 10 ^ (-340 : ℤ) := by
      gcongr
      norm_num
    _ = 2 * ((10 ^ 4) ^ 85)⁻¹ := by
      rw [← pow_mul, zpow_neg]
      rfl
    _ ≤ 2 * ((2 ^ 13) ^ 85)⁻¹ := by
      gcongr
      norm_num
    _ = 2 ^ (1 + -1105 : ℤ) := by
      rw [← pow_mul, zpow_add₀ two_ne_zero, zpow_neg]
      rfl
    _ < 2 ^ (-1074 : ℤ) := zpow_lt_zpow_right₀ one_lt_two (by norm_num)

theorem value_infinity_le {digits : Nat} {exp : ℤ} (hdigits : digits ≠ 0) (h : 400 < exp) :
    value infinity ≤ digits * 10 ^ exp := by
  have hone : (1 : ℚ) ≤ digits := by exact_mod_cast Nat.one_le_iff_ne_zero.2 hdigits
  calc value infinity = 2 ^ 1024 := value_infinity
    _ ≤ 2 ^ (3 * 401) := pow_le_pow_right₀ one_le_two (by norm_num)
    _ = (2 ^ 3) ^ 401 := pow_mul _ _ _
    _ ≤ 10 ^ 401 := by
      gcongr
      norm_num
    _ = 1 * 10 ^ (401 : ℤ) := (one_mul _).symm
    _ ≤ digits * 10 ^ exp := by
      gcongr
      · norm_num
      · omega

/-- Exponents far out of range are settled as the others would be. -/
theorem exists_ofDecimal?_eq (neg : Bool) (digits : Nat) (exp : ℤ) : ∃ m, IsNearest (digits * 10 ^ exp) m ∧
    ofDecimal? neg digits exp = if m < infinity then some (ofMagnitude neg m) else none := by
  have hden : 0 < 10 ^ (-exp).toNat := by positivity
  obtain ⟨m, hm, hratio⟩ := exists_ofRatio?_eq neg (digits * 10 ^ exp.toNat) hden
  have hq : ((digits * 10 ^ exp.toNat : ℕ) : ℚ) / (10 ^ (-exp).toNat : ℕ) = digits * 10 ^ exp := by
    push_cast
    rw [pow_toNat (by norm_num) exp, ← mul_assoc, mul_div_cancel_right₀ _ (by positivity)]
  rw [hq] at hm
  simp only [ofDecimal?, Nat.pow_eq]
  split
  · next h =>
    refine ⟨0, ?_, by rw [if_pos (by decide)]⟩
    rcases h with rfl | h
    · refine isNearest_zero (by positivity) ?_
      rw [Nat.cast_zero, zero_mul, mul_zero]
      positivity
    · exact isNearest_zero_of_exp h
  · next hsmall =>
    split
    · next h => exact ⟨m, hm, (if_neg (hm.not_lt (value_infinity_le (fun h => hsmall (.inl h)) h))).symm⟩
    · exact ⟨m, hm, hratio⟩

theorem isNegative_magnitude_ofMagnitude {mag : Nat} (neg : Bool) (h : mag < infinity) :
    (ofMagnitude neg mag).isNegative = neg ∧ (ofMagnitude neg mag).magnitude = mag := by
  have hinf : infinity = 2047 * 2 ^ 52 := rfl
  have hpow : Nat.pow 2 63 = 2 ^ 63 := rfl
  simp only [isNegative, magnitude, ofMagnitude, UInt64.toNat_ofNat', hpow]
  cases neg with
  | false => exact ⟨decide_eq_false (by simp only [Bool.false_eq_true, if_false]; omega), by simp; omega⟩
  | true => exact ⟨decide_eq_true (by simp only [if_true]; omega), by simp; omega⟩

theorem ofMagnitude_isNegative_magnitude (x : Binary64) : ofMagnitude x.isNegative x.magnitude = x := by
  obtain ⟨bits⟩ := x
  have hpow : Nat.pow 2 63 = 2 ^ 63 := rfl
  have hlt : bits.toNat < 2 ^ 64 := bits.toNat_lt
  have hbits : (if isNegative ⟨bits⟩ then 2 ^ 63 else 0) + magnitude ⟨bits⟩ = bits.toNat := by
    simp only [isNegative, magnitude, hpow, decide_eq_true_eq]
    split <;> omega
  rw [ofMagnitude, hpow, hbits, UInt64.ofNat_toNat]

/-- The finite value nearest to a rational with a sign, a half to the even one. -/
structure IsRounded (neg : Bool) (q : ℚ) (x : Binary64) : Prop where
  sign : x.isNegative = neg
  finite : x.magnitude < infinity
  nearest : IsNearest q x.magnitude

theorem ofDecimal?_eq_some {neg : Bool} {digits : Nat} {exp : ℤ} {x : Binary64} :
    ofDecimal? neg digits exp = some x ↔ IsRounded neg (digits * 10 ^ exp) x := by
  obtain ⟨m, hm, he⟩ := exists_ofDecimal?_eq neg digits exp
  rw [he, Option.ite_none_right_eq_some, Option.some_inj]
  constructor
  · rintro ⟨hlt, rfl⟩
    obtain ⟨hneg, hmag⟩ := isNegative_magnitude_ofMagnitude neg hlt
    exact ⟨hneg, hmag.symm ▸ hlt, hmag.symm ▸ hm⟩
  · rintro ⟨hneg, hlt, hnear⟩
    obtain rfl := hm.unique hnear
    exact ⟨hlt, hneg ▸ ofMagnitude_isNegative_magnitude x⟩

end ShapePlan.Binary64
