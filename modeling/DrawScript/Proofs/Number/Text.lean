import DrawScript.Number.Layout
import DrawScript.Proofs.Number.Shortest
import Mathlib.Data.List.TakeWhile

/-!
Plain text of a finite number reads back as the number. The text is a sign, digits and perhaps a
point and more digits; read as a numeral, it stands for the same rational as the shortest decimal of
the number, whatever zeros were cut off or filled in to place the point.
-/

namespace DrawScript

def Digits (cs : List Char) : Prop := ∀ c ∈ cs, c.isDigit = true

theorem Digits.append {as bs : List Char} (ha : Digits as) (hb : Digits bs) : Digits (as ++ bs) :=
  List.forall_mem_append.mpr ⟨ha, hb⟩

namespace Decimal

theorem digits_zeros (n : Nat) : Digits (zeros n) := by
  intro c hc
  rw [List.eq_of_mem_replicate hc]
  rfl

@[simp] theorem length_zeros (n : Nat) : (zeros n).length = n := List.length_replicate

theorem digits_zero : Digits ['0'] := digits_zeros 1

end Decimal

namespace Numeral

theorem natOfDigits_append (as bs : List Char) :
    natOfDigits (as ++ bs) = natOfDigits as * 10 ^ bs.length + natOfDigits bs := by
  change Nat.ofDigitChars 10 (as ++ bs) 0 = _
  rw [Nat.ofDigitChars_append, Nat.ofDigitChars_eq_ofDigitChars_zero, Nat.mul_comm]
  rfl

theorem natOfDigits_zeros (n : Nat) : natOfDigits (Decimal.zeros n) = 0 := by
  change Nat.ofDigitChars 10 (List.replicate n '0') 0 = 0
  rw [Nat.ofDigitChars_replicate_zero, Nat.mul_zero]

theorem natOfDigits_toDigits (n : Nat) : natOfDigits (Nat.toDigits 10 n) = n :=
  Nat.ofDigitChars_toDigits (by decide) (by decide)

end Numeral

open Numeral

namespace Decimal

theorem stripZeros_spec (rs : List Char) (e : Int) :
    ∃ k : Nat, rs.reverse = (stripZeros rs e).1 ++ zeros k ∧ (stripZeros rs e).2 = e + k := by
  fun_induction stripZeros rs e with
  | case1 rs e ih =>
    obtain ⟨k, hrs, he⟩ := ih
    refine ⟨k + 1, ?_, by rw [he]; push_cast; ring⟩
    rw [List.reverse_cons, hrs, List.append_assoc, zeros, ← List.replicate_succ']
    rfl
  | case2 rs e => exact ⟨0, by simp [zeros], by simp⟩

structure Written (q : ℚ) (ds : List Char) (exponent : Int) : Prop where
  digits : Digits ds
  ne_nil : ds ≠ []
  value : (natOfDigits ds : ℚ) * 10 ^ exponent = q

theorem written_significant (d : Decimal) : Written d.toRat d.significant.1 d.significant.2 := by
  unfold significant
  split
  next hzero =>
    refine ⟨digits_zero, by decide, ?_⟩
    rw [toRat, hzero]
    simp [natOfDigits]
  next hzero =>
    obtain ⟨k, hdigits, hexponent⟩ := stripZeros_spec (Nat.toDigits 10 d.digits).reverse d.exponent
    rw [List.reverse_reverse] at hdigits
    generalize stripZeros (Nat.toDigits 10 d.digits).reverse d.exponent = r at hdigits hexponent ⊢
    have hnat : d.digits = natOfDigits r.1 * 10 ^ k := by
      have hall := natOfDigits_toDigits d.digits
      rw [hdigits, natOfDigits_append, natOfDigits_zeros, Nat.add_zero, length_zeros] at hall
      exact hall.symm
    refine ⟨?_, ?_, ?_⟩
    · intro c hc
      refine Nat.isDigit_of_mem_toDigits (b := 10) (n := d.digits) (by decide) (by decide) ?_
      rw [hdigits]
      exact List.mem_append_left _ hc
    · intro hnil
      rw [hnil] at hnat
      exact hzero (by simpa [natOfDigits] using hnat)
    · rw [toRat, hnat, hexponent, zpow_add₀ (by norm_num), zpow_natCast]
      push_cast
      ring

structure Placed (q : ℚ) (whole fraction : List Char) : Prop where
  digits_whole : Digits whole
  ne_nil : whole ≠ []
  digits_fraction : Digits fraction
  value : (natOfDigits (whole ++ fraction) : ℚ) * 10 ^ (-(fraction.length : ℤ)) = q

theorem placed_positional {q : ℚ} {ds : List Char} {exponent : Int} (h : Written q ds exponent) :
    Placed q (positional ds exponent).1 (positional ds exponent).2 := by
  obtain ⟨hdigits, hne, hvalue⟩ := h
  cases exponent with
  | ofNat e =>
    refine ⟨hdigits.append (digits_zeros e), ?_, nofun, ?_⟩
    · simp [positional, hne]
    · rw [← hvalue]
      simp [positional, natOfDigits_append, natOfDigits_zeros]
  | negSucc e =>
    rw [Int.negSucc_eq] at hvalue
    unfold positional
    dsimp only
    split
    next hlt =>
      refine ⟨fun c hc => hdigits c (List.mem_of_mem_take hc), ?_,
        fun c hc => hdigits c (List.mem_of_mem_drop hc), ?_⟩
      · rw [ne_eq, List.take_eq_nil_iff, not_or]
        exact ⟨by omega, hne⟩
      · have hlength : (ds.drop (ds.length - (e + 1))).length = e + 1 := by
          rw [List.length_drop]
          omega
        rw [List.take_append_drop, hlength, ← hvalue]
        push_cast
        rfl
    next hle =>
      refine ⟨digits_zero, List.cons_ne_nil _ _, (digits_zeros _).append hdigits, ?_⟩
      have hlength : (zeros (e + 1 - ds.length) ++ ds).length = e + 1 := by
        rw [List.length_append, length_zeros]
        omega
      have hnat : natOfDigits (['0'] ++ (zeros (e + 1 - ds.length) ++ ds)) = natOfDigits ds := by
        rw [natOfDigits_append, natOfDigits_append, natOfDigits_zeros]
        simp [natOfDigits]
      rw [hnat, hlength, ← hvalue]
      push_cast
      rfl

end Decimal

namespace Numeral

theorem takeSign_digits {cs : List Char} (h : Digits cs) (hne : cs ≠ []) (rest : List Char) :
    takeSign (cs ++ rest) = (false, cs ++ rest) := by
  cases cs with
  | nil => exact absurd rfl hne
  | cons c cs =>
    have hc := h c List.mem_cons_self
    unfold takeSign
    split
    next heq =>
      cases heq
      cases hc
    next heq =>
      cases heq
      cases hc
    next => rfl

def fractionText (fraction : List Char) : List Char :=
  if fraction.isEmpty then [] else '.' :: fraction

theorem parse?_unsigned {q : ℚ} {whole fraction text : List Char} {negative : Bool}
    (h : Decimal.Placed q whole fraction)
    (hsign : takeSign text = (negative, whole ++ fractionText fraction)) :
    ∃ n, Numeral.parse? text = some n ∧ n.negative = negative ∧ n.value.toRat = q := by
  obtain ⟨hwhole, hne, hfraction, hvalue⟩ := h
  have htake : (whole ++ fractionText fraction).takeWhile Char.isDigit = whole := by
    rw [List.takeWhile_append_of_pos hwhole, fractionText]
    split <;> simp
  have hdrop : (whole ++ fractionText fraction).dropWhile Char.isDigit = fractionText fraction := by
    rw [List.dropWhile_append_of_pos hwhole, fractionText]
    split <;> simp
  have hrest : takeFraction (fractionText fraction) = (fraction, []) := by
    unfold fractionText
    split
    next hempty =>
      rw [List.isEmpty_iff.mp hempty]
      rfl
    next =>
      change (fraction.takeWhile Char.isDigit, fraction.dropWhile Char.isDigit) = (fraction, [])
      rw [List.takeWhile_eq_self_iff.mpr hfraction, List.dropWhile_eq_nil_iff.mpr hfraction]
  have hempty : whole.isEmpty = false := by simpa using hne
  refine ⟨⟨negative, ⟨natOfDigits (whole ++ fraction), 0 - fraction.length⟩⟩, ?_, rfl, ?_⟩
  · simp [Numeral.parse?, hsign, htake, hdrop, hrest, hempty, exponent?]
  · rw [← hvalue, Decimal.toRat, zero_sub]

end Numeral

namespace Binary64

theorem toList_plainText (d : Decimal) :
    (NumberLayout.plain.magnitudeText d).toList =
      (Decimal.positional d.significant.1 d.significant.2).1 ++
        fractionText (Decimal.positional d.significant.1 d.significant.2).2 := by
  have hpositional : ∀ k, NumberLayout.plain.isPositional k = true := fun _ => rfl
  have hend : NumberLayout.plain.wholeEnd = "" := rfl
  unfold NumberLayout.magnitudeText
  dsimp only
  rw [if_pos (hpositional _), hend]
  generalize Decimal.positional d.significant.1 d.significant.2 = r
  obtain ⟨whole, fraction⟩ := r
  cases fraction <;> simp [fractionText]

/-- The text of a finite number: a sign if it is negative, digits, and perhaps a point and more
digits. -/
theorem exists_toList_text {x : Binary64} (h : x.isFinite = true) :
    ∃ whole fraction, Decimal.Placed (x.shortest .up).toRat whole fraction ∧
      x.text.toList = (if x.negative then ['-'] else []) ++ (whole ++ fractionText fraction) := by
  refine ⟨_, _, Decimal.placed_positional (x.shortest .up).written_significant, ?_⟩
  rw [text, NumberLayout.text, if_pos h, String.toList_append, toList_plainText]
  cases x.negative <;> rfl

theorem eq_zero_of_magnitude {x : Binary64} (h : x.magnitude = 0) : x = zero x.negative := by
  obtain ⟨negative, code, hcode⟩ := x
  have hsignificand : (Binary64.mk negative ⟨code, hcode⟩).significand = 0 := by
    rcases Nat.mul_eq_zero.mp h with h | h
    · exact h
    · exact absurd h (Nat.ne_of_gt (Nat.two_pow_pos _))
  have hzero : code = 0 := by
    unfold significand fieldSize at hsignificand
    dsimp only at hsignificand
    split at hsignificand <;> omega
  subst hzero
  rfl

theorem parse?_toList_text {x : Binary64} (h : x.isFinite = true) :
    Binary64.parse? x.text.toList = some x := by
  obtain ⟨whole, fraction, hplaced, htext⟩ := exists_toList_text h
  have hsign : takeSign x.text.toList = (x.negative, whole ++ fractionText fraction) := by
    rw [htext]
    cases x.negative with
    | true => rfl
    | false => exact takeSign_digits hplaced.digits_whole hplaced.ne_nil _
  obtain ⟨n, hparse, hnegative, hvalue⟩ := parse?_unsigned hplaced hsign
  have hbinary : n.toBinary64 = x := by
    unfold Numeral.toBinary64
    rw [hnegative]
    -- Zero has no midpoints around it, and keeps its sign on the way.
    rcases Nat.eq_zero_or_pos x.magnitude with hzero | hpos
    · have hdigits : n.value.digits = 0 := by
        rw [shortest, if_pos hzero] at hvalue
        simpa [Decimal.toRat, zpow_ne_zero] using hvalue
      rw [Decimal.toBinary64, if_pos (.inl hdigits)]
      exact (eq_zero_of_magnitude hzero).symm
    · refine toBinary64_of_reaches h hpos ?_
      rw [hvalue]
      exact reaches_shortest hpos .up
  rw [Binary64.parse?, hparse]
  dsimp only
  rw [hbinary, if_pos h]

def isNumeralChar (c : Char) : Bool := c.isDigit || c == '.' || c == '-'

theorem isNumeralChar_of_mem_text {x : Binary64} (h : x.isFinite = true) {c : Char}
    (hc : c ∈ x.text.toList) : isNumeralChar c = true := by
  obtain ⟨whole, fraction, hplaced, htext⟩ := exists_toList_text h
  have hdigit : ∀ ds, Digits ds → c ∈ ds → isNumeralChar c = true := by
    intro ds hds hmem
    simp [isNumeralChar, hds c hmem]
  rw [htext] at hc
  rcases List.mem_append.mp hc with hc | hc
  · cases hneg : x.negative <;> simp [hneg] at hc
    rw [hc]
    rfl
  · rcases List.mem_append.mp hc with hc | hc
    · exact hdigit _ hplaced.digits_whole hc
    · unfold fractionText at hc
      split at hc
      next => cases hc
      next =>
        rcases List.mem_cons.mp hc with rfl | hc
        · rfl
        · exact hdigit _ hplaced.digits_fraction hc

theorem toList_text_ne_nil {x : Binary64} (h : x.isFinite = true) : x.text.toList ≠ [] := by
  obtain ⟨whole, fraction, hplaced, htext⟩ := exists_toList_text h
  rw [htext]
  simp [hplaced.ne_nil]

end Binary64

end DrawScript
