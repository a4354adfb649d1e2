import DrawScript.Proofs.Number.Rounding
import Mathlib.Algebra.Order.Field.Power
import Mathlib.Algebra.Order.Field.Rat
import Mathlib.Tactic.FieldSimp
import Mathlib.Tactic.NormNum
import Mathlib.Tactic.Positivity

/-!
The shortest decimal of a number reads back as the number. Whether a decimal reads back depends only
on the rational that it stands for, so any other way to write the same rational reads back too. A
rational between the midpoints of a finite number is neither so small nor so large that reading would
cut it short.
-/

namespace DrawScript

namespace Decimal

def toRat (d : Decimal) : ℚ := d.digits * 10 ^ d.exponent

theorem units_pos (d : Decimal) : 0 < d.units.2 := by
  unfold units
  split
  · exact Nat.one_pos
  · exact Nat.pow_pos (by decide)

theorem units_ratio (d : Decimal) : (d.units.1 : ℚ) / d.units.2 = d.toRat * 2 ^ 1074 := by
  obtain ⟨digits, exponent⟩ := d
  cases exponent with
  | ofNat e =>
    simp only [units, toRat, Nat.pow_eq, Int.ofNat_eq_natCast, zpow_natCast, Nat.cast_mul,
      Nat.cast_pow, Nat.cast_ofNat, Nat.cast_one, div_one]
  | negSucc e =>
    simp only [units, toRat, Nat.pow_eq, zpow_negSucc, Nat.cast_mul, Nat.cast_pow, Nat.cast_ofNat]
    rw [div_eq_mul_inv, mul_right_comm]

theorem lt_ten_pow_lead (d : Decimal) : d.toRat < 10 ^ d.lead := by
  have hlt := (Nat.length_toDigits_le_iff (n := d.digits) (by decide) Nat.length_toDigits_pos).mp
    (Nat.le_refl (Nat.toDigits 10 d.digits).length)
  have hcast : (d.digits : ℚ) < 10 ^ (Nat.toDigits 10 d.digits).length := by exact_mod_cast hlt
  rw [toRat, lead, zpow_add₀ (by norm_num), zpow_natCast]
  exact mul_lt_mul_of_pos_right hcast (by positivity)

theorem ten_pow_lead_le {d : Decimal} (h : d.digits ≠ 0) : 10 ^ (d.lead - 1) ≤ d.toRat := by
  obtain ⟨k, hk⟩ : ∃ k, (Nat.toDigits 10 d.digits).length = k + 1 :=
    Nat.exists_eq_add_one.mpr Nat.length_toDigits_pos
  have hle : 10 ^ k ≤ d.digits := by
    rcases Nat.eq_zero_or_pos k with rfl | hpos
    · exact Nat.one_le_iff_ne_zero.mpr h
    · refine Nat.le_of_not_lt fun hlt => ?_
      have := (Nat.length_toDigits_le_iff (by decide) hpos).mpr hlt
      omega
  have hcast : (10 : ℚ) ^ k ≤ d.digits := by exact_mod_cast hle
  have hlead : d.lead - 1 = k + d.exponent := by
    rw [lead, hk]
    push_cast
    ring
  rw [toRat, hlead, zpow_add₀ (by norm_num), zpow_natCast]
  exact mul_le_mul_of_nonneg_right hcast (by positivity)

end Decimal

namespace Binary64

def Reaches (x : Binary64) (q : ℚ) : Prop :=
  if x.significand % 2 = 0 then (x.lower : ℚ) ≤ q ∧ q ≤ x.upper
  else (x.lower : ℚ) < q ∧ q < x.upper

theorem readsBack_iff {x : Binary64} {num den : Nat} (hden : 0 < den) :
    x.readsBack num den = true ↔ x.Reaches ((num : ℚ) / den) := by
  have hpos : (0 : ℚ) < den := by exact_mod_cast hden
  unfold readsBack Reaches
  split
  · rw [le_div_iff₀ hpos, div_le_iff₀ hpos, Bool.and_eq_true, decide_eq_true_eq, decide_eq_true_eq]
    exact_mod_cast Iff.rfl
  · rw [lt_div_iff₀ hpos, div_lt_iff₀ hpos, Bool.and_eq_true, decide_eq_true_eq, decide_eq_true_eq]
    exact_mod_cast Iff.rfl

theorem readsBack_units {x : Binary64} {d : Decimal} :
    x.readsBack (4 * d.units.1) d.units.2 = true ↔ x.Reaches (4 * (d.toRat * 2 ^ 1074)) := by
  rw [readsBack_iff d.units_pos, ← d.units_ratio, Nat.cast_mul, mul_div_assoc, Nat.cast_ofNat]

theorem Reaches.le {x : Binary64} {q : ℚ} (h : x.Reaches q) : (x.lower : ℚ) ≤ q ∧ q ≤ x.upper := by
  unfold Reaches at h
  split at h
  · exact h
  · exact ⟨h.1.le, h.2.le⟩

theorem two_le_lower {x : Binary64} (h : 0 < x.magnitude) : 2 ≤ x.lower := by
  have hsignificand : 0 < x.significand := Nat.pos_of_mul_pos_right h
  have hle : Nat.pow 2 x.scale ≤ x.magnitude := Nat.le_mul_of_pos_left _ hsignificand
  have hpos := Nat.two_pow_pos x.scale
  have hpow : Nat.pow 2 x.scale = 2 ^ x.scale := rfl
  unfold lower quadruple
  split <;> omega

theorem upper_le_of_scale {x : Binary64} {k : Nat} (h : x.scale ≤ k) :
    x.upper ≤ 8 * fieldSize * Nat.pow 2 k := by
  have hpow : Nat.pow 2 x.scale ≤ Nat.pow 2 k := Nat.pow_le_pow_right (by decide) h
  have hsignificand : 4 * x.significand + 2 ≤ 8 * fieldSize := by
    have := x.significand_lt
    omega
  calc
    x.upper = (4 * x.significand + 2) * Nat.pow 2 x.scale := by
      unfold upper quadruple magnitude
      ring
    _ ≤ 8 * fieldSize * Nat.pow 2 k := Nat.mul_le_mul hsignificand hpow

theorem upper_lt {x : Binary64} (h : x.isFinite = true) :
    x.upper < 4 * (10 ^ 310 * 2 ^ 1074) := by
  have hcode : x.code.val < 2047 * fieldSize := of_decide_eq_true h
  have hscale : x.scale ≤ 2045 := by
    unfold scale fieldSize at *
    omega
  exact Nat.lt_of_le_of_lt (upper_le_of_scale hscale) (by decide +kernel)

/-- Reading does not cut short a decimal that lies between the midpoints of a finite number. -/
theorem lead_of_reaches {x : Binary64} {d : Decimal} (hfin : x.isFinite = true)
    (hpos : 0 < x.magnitude) (h : x.Reaches (4 * (d.toRat * 2 ^ 1074))) :
    d.digits ≠ 0 ∧ -330 ≤ d.lead ∧ d.lead ≤ 310 := by
  have hlower : (2 : ℚ) ≤ x.lower := by exact_mod_cast two_le_lower hpos
  have hupper : (x.upper : ℚ) < 4 * (10 ^ 310 * 2 ^ 1074) := by exact_mod_cast upper_lt hfin
  have hconst : 2 * 2 ^ 1074 ≤ 10 ^ 331 := by decide +kernel
  have hunit : (2 : ℚ) * 2 ^ 1074 ≤ 10 ^ 331 := by exact_mod_cast hconst
  have hu : (0 : ℚ) < 2 ^ 1074 := by positivity
  obtain ⟨hlow, hhigh⟩ := h.le
  -- From here on only the bounds on the unit count, and not its digits.
  generalize (2 : ℚ) ^ 1074 = u at hlow hhigh hupper hunit hu
  have hnonneg : 0 ≤ d.toRat := by
    unfold Decimal.toRat
    positivity
  have hdigits : d.digits ≠ 0 := by
    intro hzero
    rw [Decimal.toRat, hzero, Nat.cast_zero, zero_mul, zero_mul, mul_zero] at hlow
    exact absurd (hlower.trans hlow) (by norm_num)
  refine ⟨hdigits, ?_, ?_⟩
  · by_contra hlead
    have hsmall : d.toRat < 10 ^ (-((331 : ℕ) : ℤ)) :=
      lt_of_lt_of_le d.lt_ten_pow_lead (zpow_le_zpow_right₀ (by norm_num) (by omega))
    rw [zpow_neg, zpow_natCast, ← one_div, lt_div_iff₀ (by positivity)] at hsmall
    have hhalf : d.toRat * (2 * u) < 1 :=
      lt_of_le_of_lt (mul_le_mul_of_nonneg_left hunit hnonneg) hsmall
    linarith
  · by_contra hlead
    have hlarge : (10 : ℚ) ^ ((310 : ℕ) : ℤ) ≤ d.toRat :=
      le_trans (zpow_le_zpow_right₀ (by norm_num) (by omega)) (Decimal.ten_pow_lead_le hdigits)
    rw [zpow_natCast] at hlarge
    have hmul := mul_le_mul_of_nonneg_right hlarge hu.le
    exact absurd (hhigh.trans_lt hupper) (not_lt.mpr (mul_le_mul_of_nonneg_left hmul (by norm_num)))

theorem toBinary64_of_reaches {x : Binary64} {d : Decimal} (hfin : x.isFinite = true)
    (hpos : 0 < x.magnitude) (h : x.Reaches (4 * (d.toRat * 2 ^ 1074))) :
    d.toBinary64 x.negative = x := by
  obtain ⟨hdigits, hlow, hhigh⟩ := lead_of_reaches hfin hpos h
  unfold Decimal.toBinary64
  rw [if_neg (by omega), if_neg (by omega)]
  exact nearest_of_between hfin d.units_pos (between_of_readsBack (readsBack_units.mpr h))

theorem units_gridUnit (digits : Nat) (exponent : Int) :
    digits * (gridUnit exponent).1 = 4 * (Decimal.mk digits exponent).units.1 ∧
      (gridUnit exponent).2 = (Decimal.mk digits exponent).units.2 := by
  have hpow : Nat.pow 2 1076 = 4 * Nat.pow 2 1074 := by decide +kernel
  cases exponent with
  | ofNat e =>
    refine ⟨?_, rfl⟩
    simp only [gridUnit, Decimal.units]
    rw [hpow]
    ring
  | negSucc e =>
    refine ⟨?_, rfl⟩
    simp only [gridUnit, Decimal.units]
    rw [hpow]
    ring

theorem readsBack_of_onGrid? {tie : Tie} {x : Binary64} {exponent : Int} {digits : Nat}
    (h : x.onGrid? tie exponent = some digits) :
    x.readsBack (digits * (gridUnit exponent).1) (gridUnit exponent).2 = true := by
  unfold onGrid? at h
  dsimp only at h
  split at h
  next => cases h
  next hbelow _ =>
    cases h
    exact hbelow
  next _ habove =>
    cases h
    exact habove
  next hbelow habove =>
    split at h
    next =>
      cases h
      exact hbelow
    next =>
      split at h
      next =>
        cases h
        exact habove
      next =>
        cases tie with
        | up =>
          cases h
          exact habove
        | toEven =>
          cases h
          split
          · exact hbelow
          · exact habove

theorem toRat_expansion (m k : Nat) {e : ℤ} (he : e = -(k : ℤ)) :
    (Decimal.mk (m * Nat.pow 5 k) e).toRat * 2 ^ k = m := by
  have hten : (10 : ℚ) ^ k = 5 ^ k * 2 ^ k := by
    rw [← mul_pow]
    norm_num
  subst he
  simp only [Decimal.toRat, Nat.pow_eq, Nat.cast_mul, Nat.cast_pow, Nat.cast_ofNat, zpow_neg,
    zpow_natCast]
  rw [hten]
  field_simp

theorem reaches_quadruple {x : Binary64} (hpos : 0 < x.magnitude) : x.Reaches (4 * x.magnitude) := by
  have hpow : 0 < Nat.pow 2 x.scale := Nat.two_pow_pos _
  have hlower : x.lower < 4 * x.magnitude := by
    unfold lower quadruple
    split <;> omega
  have hupper : 4 * x.magnitude < x.upper := by
    unfold upper quadruple
    omega
  have hlow : (x.lower : ℚ) < 4 * x.magnitude := by exact_mod_cast hlower
  have hhigh : (4 * x.magnitude : ℚ) < x.upper := by exact_mod_cast hupper
  unfold Reaches
  split
  · exact ⟨hlow.le, hhigh.le⟩
  · exact ⟨hlow, hhigh⟩

theorem readsBack_searchGrids {x : Binary64} (hpos : 0 < x.magnitude) (tie : Tie) (steps : Nat)
    (exponent : Int) :
    x.readsBack (4 * (x.searchGrids tie steps exponent).units.1)
      (x.searchGrids tie steps exponent).units.2 = true := by
  induction steps generalizing exponent with
  | zero =>
    -- No grid was fine enough, and the decimal is the exact value.
    have hexponent : (-1074 : ℤ) = -((1074 : ℕ) : ℤ) := by norm_num
    rw [readsBack_units, searchGrids, toRat_expansion x.magnitude 1074 hexponent]
    exact reaches_quadruple hpos
  | succ steps ih =>
    rw [searchGrids]
    split
    next digits hdigits =>
      have hgrid := readsBack_of_onGrid? hdigits
      obtain ⟨hnum, hden⟩ := units_gridUnit digits exponent
      rwa [hnum, hden] at hgrid
    next => exact ih (exponent - 1)

theorem reaches_shortest {x : Binary64} (hpos : 0 < x.magnitude) (tie : Tie) :
    x.Reaches (4 * ((x.shortest tie).toRat * 2 ^ 1074)) := by
  rw [← readsBack_units, shortest, if_neg (Nat.ne_of_gt hpos)]
  exact readsBack_searchGrids hpos tie _ _

end Binary64

end DrawScript
