import ShapeMend.Number.Binary64
import ShapeMend.Number.Decimal

/-!
# Integers among binary64 numbers

Natural numbers up to the fifty-third power of two are magnitudes without
rounding, and their decimal digits read back as the same magnitude.  Every
magnitude that is a whole number is the one nearest to that number.
-/

namespace ShapeMend.Number

/-! ## Exact magnitudes -/

namespace Magnitude

theorem roundQuotient_mul (quotient den : Nat) (hden : 0 < den) :
    roundQuotient (quotient * den) den = quotient := by
  have hdiv : quotient * den / den = quotient := Nat.mul_div_cancel _ hden
  simp [roundQuotient, hdiv, hden]

/-- A bit pattern with an exponent and a leading bit counts its fraction in the
units of the exponent. -/
private theorem unitsOfBits_eq (exponent fraction : Nat)
    (hlow : twoTo 52 ≤ fraction) (hhigh : fraction < 2 * twoTo 52) :
    unitsOfBits (exponent * twoTo 52 + fraction) =
      fraction * twoTo exponent := by
  have hdiv : (exponent * twoTo 52 + fraction) / twoTo 52 = exponent + 1 := by
    simp only [twoTo, Nat.pow_eq] at hlow hhigh ⊢
    omega
  have hmod : (exponent * twoTo 52 + fraction) % twoTo 52 =
      fraction - twoTo 52 := by
    simp only [twoTo, Nat.pow_eq] at hlow hhigh ⊢
    omega
  have hnormal : ¬ exponent * twoTo 52 + fraction < twoTo 52 := by omega
  unfold unitsOfBits
  rw [if_neg hnormal, hdiv, hmod, Nat.add_sub_cancel, Nat.add_sub_of_le hlow]

/-- A number of units that fits in fifty-three bits above its exponent has them
as its pattern. -/
theorem bits_ofUnitRatio_one {exponent fraction : Nat}
    (hlow : twoTo 52 ≤ fraction) (hhigh : fraction < 2 * twoTo 52)
    (hexponent : exponent < 2046) :
    (ofUnitRatio (fraction * twoTo exponent) 1).bits = exponent * twoTo 52 +
      fraction := by
  have hpower : 0 < twoTo exponent := Nat.two_pow_pos exponent
  have hpositive : 0 < fraction := Nat.lt_of_lt_of_le (Nat.two_pow_pos 52) hlow
  have hlog : (fraction * twoTo exponent).log2 = exponent + 52 := by
    rw [Nat.log2_eq_iff (Nat.ne_of_gt (Nat.mul_pos hpositive hpower))]
    refine ⟨?_, ?_⟩
    · rw [Nat.add_comm, Nat.pow_add]
      exact Nat.mul_le_mul_right _ hlow
    · rw [Nat.add_assoc, Nat.add_comm, Nat.pow_add]
      exact Nat.mul_lt_mul_of_pos_right hhigh hpower
  have hbits : exponent * twoTo 52 + fraction < infinityBits := by
    simp only [infinityBits, twoTo, Nat.pow_eq] at hlow hhigh ⊢
    omega
  simp only [ofUnitRatio, clamp, Nat.div_one, hlog, Nat.add_sub_cancel,
    Nat.one_mul, roundQuotient_mul _ _ hpower]
  exact Nat.min_eq_left (Nat.le_of_lt hbits)

private theorem units_ofUnitRatio_one {exponent fraction : Nat}
    (hlow : twoTo 52 ≤ fraction) (hhigh : fraction < 2 * twoTo 52)
    (hexponent : exponent < 2046) :
    (ofUnitRatio (fraction * twoTo exponent) 1).units =
      fraction * twoTo exponent ∧
      (ofUnitRatio (fraction * twoTo exponent) 1).isInfinite = false := by
  have hpattern := bits_ofUnitRatio_one hlow hhigh hexponent
  have hbits : exponent * twoTo 52 + fraction ≠ infinityBits := by
    simp only [infinityBits, twoTo, Nat.pow_eq] at hlow hhigh ⊢
    omega
  refine ⟨?_, ?_⟩
  · rw [units, hpattern]
    exact unitsOfBits_eq exponent fraction hlow hhigh
  · rw [isInfinite, hpattern, decide_eq_false_iff_not]
    exact hbits

private theorem mul_twoTo (n total : Nat) {shift : Nat} (h : shift ≤ total) :
    n * twoTo total = n * twoTo shift * twoTo (total - shift) := by
  have hsum : twoTo total = twoTo shift * twoTo (total - shift) := by
    simp only [twoTo, Nat.pow_eq]
    rw [← Nat.pow_add, Nat.add_sub_of_le h]
  rw [hsum, Nat.mul_assoc]

theorem units_ofNat {n : Nat} (h : n ≤ twoTo 53) :
    (ofNat n).units = n * unitsPerOne ∧ (ofNat n).isInfinite = false := by
  unfold ofNat ofRatio
  rcases Nat.eq_zero_or_pos n with rfl | hpositive
  · rw [Nat.zero_mul]
    decide +kernel
  · rcases Nat.lt_or_eq_of_le h with hlt | rfl
    · have hne : n ≠ 0 := Nat.ne_of_gt hpositive
      have hlog : n.log2 < 53 := (Nat.log2_lt hne).mpr hlt
      have hsplit : n * unitsPerOne =
          n * twoTo (52 - n.log2) * twoTo (1074 - (52 - n.log2)) := by
        unfold unitsPerOne
        exact mul_twoTo n 1074 (by omega)
      rw [hsplit]
      apply units_ofUnitRatio_one
      · have hself : 2 ^ n.log2 * 2 ^ (52 - n.log2) ≤ n * 2 ^ (52 - n.log2) :=
          Nat.mul_le_mul_right _ (Nat.log2_self_le hne)
        rw [← Nat.pow_add, Nat.add_sub_of_le (by omega)] at hself
        exact hself
      · have hself :
            n * 2 ^ (52 - n.log2) < 2 ^ (n.log2 + 1) * 2 ^ (52 - n.log2) :=
          Nat.mul_lt_mul_of_pos_right Nat.lt_log2_self (Nat.two_pow_pos _)
        have hsum : n.log2 + 1 + (52 - n.log2) = 53 := by omega
        rw [← Nat.pow_add, hsum] at hself
        exact hself
      · omega
    · have hsplit : twoTo 53 * unitsPerOne = twoTo 52 * twoTo 1075 := by
        decide +kernel
      rw [hsplit]
      apply units_ofUnitRatio_one
      · exact Nat.le_refl _
      · decide
      · omega

theorem toNat?_ofNat {n : Nat} (h : n ≤ twoTo 53) :
    (ofNat n).toNat? = some n := by
  obtain ⟨hunits, hfinite⟩ := units_ofNat h
  have hone : 0 < unitsPerOne := by decide +kernel
  unfold toNat?
  rw [hfinite, hunits, Nat.mul_mod_left, Nat.mul_div_cancel n hone]
  rfl

/-! ## Magnitudes that are whole numbers -/

private theorem ofUnitRatio_one_of_lt {count : Nat} (h : count < twoTo 52) :
    (ofUnitRatio count 1).bits = count := by
  have hlog : count.log2 - 52 = 0 := by
    rcases Nat.eq_zero_or_pos count with rfl | hpositive
    · rfl
    · have := (Nat.log2_lt (Nat.ne_of_gt hpositive)).mpr h
      omega
  have hround : roundQuotient count 1 = count := by
    simpa using roundQuotient_mul count 1 Nat.one_pos
  simp only [ofUnitRatio, clamp, Nat.div_one, hlog, Nat.zero_mul, Nat.zero_add,
    Nat.one_mul, twoTo, Nat.pow_eq, Nat.pow_zero, hround]
  simp only [infinityBits, twoTo, Nat.pow_eq] at h ⊢
  omega

private theorem ofUnitRatio_units {m : Magnitude} (h : m.isInfinite = false) :
    ofUnitRatio m.units 1 = m := by
  have hbits : m.bits < infinityBits :=
    Nat.lt_of_le_of_ne m.bits_le (by simpa [isInfinite] using h)
  suffices hsame : (ofUnitRatio m.units 1).bits = m.bits by
    cases m
    cases hratio : ofUnitRatio (units _) 1
    simp_all
  unfold units unitsOfBits
  split
  · next hlow => exact ofUnitRatio_one_of_lt hlow
  · next hnormal =>
      rw [bits_ofUnitRatio_one]
      all_goals
        simp only [infinityBits, twoTo, Nat.pow_eq] at hbits hnormal ⊢
        omega

theorem ofNat_of_toNat? {m : Magnitude} {n : Nat}
    (h : m.toNat? = some n) : ofNat n = m := by
  unfold toNat? at h
  split at h
  · simp at h
  · next hfinite =>
      split at h
      · next hmod =>
          have hunits : n * unitsPerOne = m.units := by
            rw [← Option.some.inj h]
            exact Nat.div_mul_cancel (Nat.dvd_of_mod_eq_zero hmod)
          rw [ofNat, ofRatio, hunits]
          exact ofUnitRatio_units (by simpa using hfinite)
      · simp at h

end Magnitude

/-! ## Decimal digits -/

namespace Decimal

theorem natOfDigits_toDigits (n : Nat) :
    natOfDigits 0 (Nat.toDigits 10 n) = n := by
  have hfold : ∀ (digits : List Char) (start : Nat),
      natOfDigits start digits = Nat.ofDigitChars 10 digits start := by
    intro digits
    induction digits with
    | nil => intro start; rfl
    | cons c digits ih =>
        intro start
        rw [Nat.ofDigitChars_cons, ← ih]
        unfold natOfDigits
        rw [List.foldl_cons, Nat.mul_comm]
  rw [hfold, Nat.ofDigitChars_ten_toDigits]

theorem isDigit_of_mem {n : Nat} {c : Char}
    (h : c ∈ Nat.toDigits 10 n) : c.isDigit :=
  Nat.isDigit_of_mem_toDigits (by decide) (by decide) h

theorem ofText?_toDigits (n : Nat) :
    ofText? (Nat.toDigits 10 n) = some ⟨n, 0⟩ := by
  have hwhole :
      (Nat.toDigits 10 n).takeWhile Char.isDigit = Nat.toDigits 10 n := by
    have happend : (Nat.toDigits 10 n ++ []).takeWhile Char.isDigit =
        Nat.toDigits 10 n ++ [].takeWhile Char.isDigit :=
      List.takeWhile_append_of_pos fun c hc => isDigit_of_mem hc
    simpa using happend
  have hmore : natOfDigits n [] = n := rfl
  unfold ofText?
  simp [hwhole, natOfDigits_toDigits, hmore, Nat.toDigits_ne_nil]

theorem toMagnitude_ofNat {n : Nat} (h : n ≤ twoTo 53) :
    toMagnitude ⟨n, 0⟩ = .ofNat n := by
  have hlength : (Nat.toDigits 10 n).length ≤ 16 := by
    rw [Nat.length_toDigits_le_iff (by decide) (by decide)]
    exact Nat.lt_of_le_of_lt h (by decide)
  unfold toMagnitude
  rcases Nat.eq_zero_or_pos n with rfl | hpositive
  · decide +kernel
  · have hdigits : ¬ (310 : Int) < 0 + (Nat.toDigits 10 n).length := by omega
    have hplaces : ¬ (0 : Int) + (Nat.toDigits 10 n).length < -330 := by omega
    simp only [Nat.ne_of_gt hpositive, if_false, hdigits, hplaces]
    simp

end Decimal

end ShapeMend.Number
