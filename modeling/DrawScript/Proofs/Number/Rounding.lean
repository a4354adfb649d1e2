import DrawScript.Number.Shortest
import Mathlib.Tactic.Linarith
import Mathlib.Tactic.Ring

/-!
Rounding inverts the choice of midpoints: every fraction that lies between the midpoints around a
binary number rounds to that number. The one case with two scales is a number at the bottom of its
binary order, where fractions just below it are rounded on the finer scale and carry into its
exponent.
-/

namespace DrawScript.Binary64

theorem roundHalfEven_eq {num den q : Nat} (hden : 0 < den)
    (hlow : 2 * (q * den) ≤ 2 * num + den) (hhigh : 2 * num ≤ 2 * (q * den) + den)
    (hodd : q % 2 = 1 → 2 * (q * den) < 2 * num + den ∧ 2 * num < 2 * (q * den) + den) :
    roundHalfEven num den = q := by
  have hsplit : num / den * den + num % den = num := by
    rw [Nat.mul_comm]
    exact Nat.div_add_mod num den
  have hmod := Nat.mod_lt num hden
  unfold roundHalfEven
  dsimp only
  generalize num / den = k at hsplit ⊢
  generalize num % den = r at hsplit hmod ⊢
  have hle : k ≤ q := by
    by_contra hlt
    have hmul := Nat.mul_le_mul_right den (Nat.not_le.mp hlt)
    rw [Nat.succ_mul] at hmul
    omega
  have hge : q ≤ k + 1 := by
    by_contra hlt
    have hmul := Nat.mul_le_mul_right den (Nat.not_le.mp hlt)
    rw [Nat.succ_mul, Nat.succ_mul] at hmul
    omega
  rcases Nat.eq_or_lt_of_le hle with rfl | hlt
  · rw [if_neg (by omega)]
  · have hq : q = k + 1 := by omega
    subst hq
    rw [Nat.add_one_mul k] at hlow hhigh hodd
    rw [if_pos (by omega)]

theorem ofCode_code {x : Binary64} (h : x.isFinite = true) : ofCode x.negative x.code.val = x := by
  obtain ⟨negative, code, hcode⟩ := x
  have hle : code ≤ infinityCode := Nat.le_of_lt (by simpa [isFinite] using h)
  simp [ofCode, Nat.min_eq_left hle]

theorem significand_lt (x : Binary64) : x.significand < 2 * fieldSize := by
  unfold significand fieldSize
  split <;> omega

theorem le_significand {x : Binary64} (h : 0 < x.scale) : fieldSize ≤ x.significand := by
  unfold scale significand fieldSize at *
  split <;> omega

structure Between (x : Binary64) (num den : Nat) : Prop where
  low : 2 * (x.significand * (den * Nat.pow 2 x.scale)) ≤ 2 * num + den * Nat.pow 2 x.scale
  high : 2 * num ≤ 2 * (x.significand * (den * Nat.pow 2 x.scale)) + den * Nat.pow 2 x.scale
  odd : x.significand % 2 = 1 →
    2 * (x.significand * (den * Nat.pow 2 x.scale)) < 2 * num + den * Nat.pow 2 x.scale ∧
    2 * num < 2 * (x.significand * (den * Nat.pow 2 x.scale)) + den * Nat.pow 2 x.scale
  bottom : x.significand = fieldSize → 0 < x.scale →
    4 * (x.significand * (den * Nat.pow 2 x.scale)) ≤ 4 * num + den * Nat.pow 2 x.scale

theorem upper_mul (x : Binary64) (den : Nat) :
    x.upper * den =
      4 * (x.significand * (den * Nat.pow 2 x.scale)) + 2 * (den * Nat.pow 2 x.scale) := by
  unfold upper quadruple magnitude
  ring

theorem lower_mul (x : Binary64) (den : Nat) :
    x.lower * den =
      if x.significand = fieldSize ∧ 0 < x.scale then
        4 * (x.significand * (den * Nat.pow 2 x.scale)) - den * Nat.pow 2 x.scale
      else
        4 * (x.significand * (den * Nat.pow 2 x.scale)) - 2 * (den * Nat.pow 2 x.scale) := by
  have hprod : x.quadruple * den = 4 * (x.significand * (den * Nat.pow 2 x.scale)) := by
    unfold quadruple magnitude
    ring
  unfold lower
  split
  · rw [Nat.sub_mul, hprod, Nat.mul_comm (Nat.pow 2 x.scale)]
  · rw [Nat.sub_mul, hprod, Nat.mul_assoc, Nat.mul_comm (Nat.pow 2 x.scale)]

theorem between_of_readsBack {x : Binary64} {num den : Nat}
    (h : x.readsBack (4 * num) den = true) : Between x num den := by
  have heven : x.significand = fieldSize → x.significand % 2 = 0 := by
    intro hx
    rw [hx]
    decide
  unfold readsBack at h
  rw [upper_mul, lower_mul] at h
  -- What is left is linear in the two products, so these become variables.
  constructor <;> generalize x.significand * (den * Nat.pow 2 x.scale) = g at h ⊢ <;>
    generalize den * Nat.pow 2 x.scale = d at h ⊢ <;> split at h <;>
    simp only [Bool.and_eq_true, decide_eq_true_eq] at h <;> split at h <;> omega

theorem log2_div_eq {num den k : Nat} (hlow : Nat.pow 2 k * den ≤ num)
    (hhigh : num < Nat.pow 2 (k + 1) * den) : (num / den).log2 = k := by
  have hden : 0 < den := Nat.pos_of_mul_pos_left (Nat.zero_lt_of_lt hhigh)
  have hle : Nat.pow 2 k ≤ num / den := (Nat.le_div_iff_mul_le hden).mpr hlow
  have hlt : num / den < Nat.pow 2 (k + 1) := (Nat.div_lt_iff_lt_mul hden).mpr hhigh
  have hne : num / den ≠ 0 := Nat.ne_of_gt (Nat.lt_of_lt_of_le (Nat.two_pow_pos k) hle)
  exact (Nat.log2_eq_iff hne).mpr ⟨hle, hlt⟩

theorem log2_div_lt {num den k : Nat} (hk : k ≠ 0) (hlt : num < Nat.pow 2 k * den) :
    (num / den).log2 < k := by
  have hden : 0 < den := Nat.pos_of_mul_pos_left (Nat.zero_lt_of_lt hlt)
  have hdiv : num / den < Nat.pow 2 k := (Nat.div_lt_iff_lt_mul hden).mpr hlt
  rcases Nat.eq_zero_or_pos (num / den) with hzero | hpos
  · rw [hzero]
    exact Nat.pos_of_ne_zero hk
  · exact (Nat.log2_lt (Nat.ne_of_gt hpos)).mpr hdiv

theorem mul_pow_two_succ (den s : Nat) :
    den * Nat.pow 2 (s + 1) = 2 * (den * Nat.pow 2 s) := by
  change den * (Nat.pow 2 s * 2) = _
  ring

theorem pow_two_field_mul (den s : Nat) :
    Nat.pow 2 (52 + s) * den = fieldSize * (den * Nat.pow 2 s) := by
  have hpow : Nat.pow 2 (52 + s) = fieldSize * Nat.pow 2 s := Nat.pow_add 2 52 s
  rw [hpow]
  ring

theorem nearest_of_scale {x : Binary64} {num den s q : Nat} (hfin : x.isFinite = true)
    (hscale : (num / den).log2 - 52 = s) (hround : roundHalfEven num (den * Nat.pow 2 s) = q)
    (hcode : s * fieldSize + q = x.code.val) : nearest x.negative num den = x := by
  unfold nearest
  dsimp only
  rw [hscale, hround, hcode, ofCode_code hfin]

theorem log2_of_between {x : Binary64} {num den : Nat} (h : Between x num den)
    (hge : fieldSize * (den * Nat.pow 2 x.scale) ≤ num) (hden : 0 < den) :
    (num / den).log2 = 52 + x.scale := by
  have hmul := Nat.mul_le_mul_right (den * Nat.pow 2 x.scale) x.significand_lt
  have hpos : 0 < den * Nat.pow 2 x.scale := Nat.mul_pos hden (Nat.two_pow_pos _)
  have hhigh := h.high
  apply log2_div_eq
  · rw [pow_two_field_mul]
    exact hge
  · rw [Nat.add_assoc, pow_two_field_mul, mul_pow_two_succ, Nat.mul_left_comm]
    rw [Nat.succ_mul, Nat.mul_assoc] at hmul
    omega

/-- Just below the least number of a binary order, the finer scale carries. -/
theorem nearest_bottom {x : Binary64} {num den : Nat} (hfin : x.isFinite = true) (hden : 0 < den)
    (h : Between x num den) (hscale : 0 < x.scale)
    (hlt : num < fieldSize * (den * Nat.pow 2 x.scale)) : nearest x.negative num den = x := by
  obtain ⟨hlow, -, -, hbottom⟩ := h
  have hcode := x.code_eq
  have hge := le_significand hscale
  -- A larger significand would leave a whole unit down to the bound that `num` is below.
  have hsignificand : x.significand = fieldSize := by
    refine Nat.le_antisymm (Nat.le_of_not_lt fun hgt => ?_) hge
    have hmul := Nat.mul_le_mul_right (den * Nat.pow 2 x.scale) hgt
    rw [Nat.succ_mul] at hmul
    omega
  have hhalf := hbottom hsignificand hscale
  rw [hsignificand] at hhalf hcode
  obtain ⟨t, ht⟩ : ∃ t, x.scale = t + 1 := ⟨x.scale - 1, by omega⟩
  rw [ht, mul_pow_two_succ, Nat.mul_left_comm fieldSize] at hhalf hlt
  rw [ht, Nat.add_one_mul] at hcode
  have hpos : 0 < den * Nat.pow 2 t := Nat.mul_pos hden (Nat.two_pow_pos _)
  have hle : den * Nat.pow 2 t ≤ fieldSize * (den * Nat.pow 2 t) :=
    Nat.le_mul_of_pos_left _ (by decide)
  have hlog : (num / den).log2 = 52 + t := by
    apply log2_div_eq
    · rw [pow_two_field_mul]
      omega
    · rw [Nat.add_assoc, pow_two_field_mul, mul_pow_two_succ, Nat.mul_left_comm]
      exact hlt
  have hround : roundHalfEven num (den * Nat.pow 2 t) = 2 * fieldSize := by
    apply roundHalfEven_eq hpos
    · rw [Nat.mul_assoc 2 fieldSize]
      omega
    · rw [Nat.mul_assoc 2 fieldSize]
      omega
    · omega
  have hcarry : t * fieldSize + 2 * fieldSize = x.code.val := by
    rw [← hcode, Nat.two_mul, Nat.add_assoc]
  exact nearest_of_scale hfin (by omega) hround hcarry

theorem nearest_of_between {x : Binary64} {num den : Nat} (hfin : x.isFinite = true)
    (hden : 0 < den) (h : Between x num den) : nearest x.negative num den = x := by
  have hpos : 0 < den * Nat.pow 2 x.scale := Nat.mul_pos hden (Nat.two_pow_pos _)
  have hround := roundHalfEven_eq hpos h.low h.high h.odd
  have hcode := x.code_eq
  -- The fraction is rounded on the scale of `x`, unless it lies below the binary order of `x`.
  rcases Nat.lt_or_ge num (fieldSize * (den * Nat.pow 2 x.scale)) with hlt | hge
  · rcases Nat.eq_zero_or_pos x.scale with hzero | hscale
    · have hlog : (num / den).log2 < 52 := by
        refine log2_div_lt (by decide) ?_
        rw [hzero] at hlt
        simpa using hlt
      rw [hzero] at hround hcode
      exact nearest_of_scale hfin (by omega) hround hcode
    · exact nearest_bottom hfin hden h hscale hlt
  · have hlog := log2_of_between h hge hden
    exact nearest_of_scale hfin (by omega) hround hcode

end DrawScript.Binary64
