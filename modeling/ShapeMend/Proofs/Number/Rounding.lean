import ShapeMend.Json.Scan
import ShapeMend.Proofs.Number.Spacing

/-!
# Rounding keeps the order

A greater quotient rounds to a magnitude that is no less, and so do products.
What is collected of a decimal that rounds to a finite magnitude can therefore
be scaled: it is enough to look at the greatest number of each exponent that
lies below the middle between the two greatest finite magnitudes.
-/

namespace ShapeMend.Number.Magnitude

/-! ## Quotients -/

theorem le_roundQuotient (num den : Nat) :
    num / den ≤ roundQuotient num den := by
  unfold roundQuotient
  grind

theorem roundQuotient_le (num den : Nat) :
    roundQuotient num den ≤ num / den + 1 := by
  unfold roundQuotient
  grind

private theorem roundQuotient_mono {num more den : Nat} (h : num ≤ more) :
    roundQuotient num den ≤ roundQuotient more den := by
  rcases Nat.lt_or_eq_of_le (Nat.div_le_div_right (c := den) h)
    with hless | hsame
  · exact Nat.le_trans (roundQuotient_le num den)
      (Nat.le_trans hless (le_roundQuotient more den))
  · have hremainder : num % den ≤ more % den := by
      have hnum := Nat.div_add_mod num den
      have hmore := Nat.div_add_mod more den
      rw [hsame] at hnum
      omega
    unfold roundQuotient
    simp only [hsame]
    grind

/-- The digits above the exponent: fifty-three bits, or fewer where the exponent
is zero. -/
private theorem roundQuotient_bounds (num den : Nat) :
    roundQuotient num (den * twoTo ((num / den).log2 - 52)) ≤ 2 * twoTo 52 ∧
      ((num / den).log2 - 52 ≠ 0 →
        twoTo 52 ≤
          roundQuotient num (den * twoTo ((num / den).log2 - 52))) := by
  have hdiv : num / (den * twoTo ((num / den).log2 - 52)) =
      num / den / twoTo ((num / den).log2 - 52) :=
        (Nat.div_div_eq_div_mul _ _ _).symm
  generalize num / den = quotient at hdiv ⊢
  refine ⟨?_, fun hexponent => ?_⟩
  · refine Nat.le_trans (roundQuotient_le _ _) (Nat.succ_le_of_lt ?_)
    rw [hdiv, Nat.div_lt_iff_lt_mul (twoTo_pos _)]
    refine Nat.lt_of_lt_of_le Nat.lt_log2_self ?_
    calc 2 ^ (quotient.log2 + 1) ≤ 2 ^ (53 + (quotient.log2 - 52)) :=
          Nat.pow_le_pow_right (by decide) (by omega)
      _ = 2 * twoTo 52 * twoTo (quotient.log2 - 52) := Nat.pow_add 2 53 _
  · have hpositive : quotient ≠ 0 := by
      rintro rfl
      exact hexponent rfl
    refine Nat.le_trans ?_ (le_roundQuotient _ _)
    rw [hdiv, Nat.le_div_iff_mul_le (twoTo_pos _)]
    calc twoTo 52 * twoTo (quotient.log2 - 52) =
      2 ^ (52 + (quotient.log2 - 52)) :=
          (Nat.pow_add 2 52 _).symm
      _ = 2 ^ quotient.log2 := by rw [Nat.add_sub_of_le (by omega)]
      _ ≤ quotient := Nat.log2_self_le hpositive

theorem bits_ofUnitRatio_mono {num more den : Nat} (h : num ≤ more) :
    (ofUnitRatio num den).bits ≤ (ofUnitRatio more den).bits := by
  have hquotient : num / den ≤ more / den := Nat.div_le_div_right h
  have hlog : (num / den).log2 ≤ (more / den).log2 := by
    by_cases hzero : num / den = 0
    · rw [hzero]
      exact Nat.zero_le _
    · rw [Nat.le_log2
        (Nat.ne_of_gt
        (Nat.lt_of_lt_of_le (Nat.pos_of_ne_zero hzero) hquotient))]
      exact Nat.le_trans (Nat.log2_self_le hzero) hquotient
  obtain ⟨hhigh, -⟩ := roundQuotient_bounds num den
  obtain ⟨-, hlow⟩ := roundQuotient_bounds more den
  have hpattern : ((num / den).log2 - 52) * twoTo 52 +
        roundQuotient num (den * twoTo ((num / den).log2 - 52)) ≤
      ((more / den).log2 - 52) * twoTo 52 +
        roundQuotient more (den * twoTo ((more / den).log2 - 52)) := by
    by_cases hsame : (num / den).log2 - 52 = (more / den).log2 - 52
    · rw [hsame]
      exact Nat.add_le_add_left (roundQuotient_mono h) _
    · have hleast := hlow (by omega)
      have hstep : ((num / den).log2 - 52 + 1) * twoTo 52 ≤
          ((more / den).log2 - 52) * twoTo 52 :=
        Nat.mul_le_mul_right _ (by omega)
      rw [Nat.succ_mul] at hstep
      omega
  have hbits (num den : Nat) : (ofUnitRatio num den).bits =
      min (((num / den).log2 - 52) * twoTo 52 +
        roundQuotient num (den * twoTo ((num / den).log2 - 52)))
          infinityBits := rfl
  rw [hbits, hbits]
  exact min_le_min_right _ hpattern

theorem bits_ofNat_mono {n m : Nat} (h : n ≤ m) :
    (ofNat n).bits ≤ (ofNat m).bits := by
  unfold ofNat ofRatio
  exact bits_ofUnitRatio_mono (Nat.mul_le_mul_right _ h)

/-! ## Products -/

theorem isInfinite_iff (m : Magnitude) :
    m.isInfinite = false ↔ m.bits < infinityBits := by
  have hle := m.bits_le
  simp only [isInfinite, decide_eq_false_iff_not]
  omega

private theorem units_mono {a b : Magnitude}
    (h : a.bits ≤ b.bits) : a.units ≤ b.units :=
  unitsOfBits_strictMono.monotone h

theorem isInfinite_mul_of_le {a b more other : Magnitude}
    (ha : a.bits ≤ more.bits) (hb : b.bits ≤ other.bits)
    (h : (more.mul other).isInfinite = false) :
    (a.mul b).isInfinite = false := by
  have hinfinite : infinity.isInfinite = true := by decide +kernel
  have hfactors : more.isInfinite = false ∧ other.isInfinite = false := by
    unfold mul at h
    split at h
    · rw [hinfinite] at h
      cases h
    · next hnone => simpa using hnone
  have hless : a.isInfinite = false ∧ b.isInfinite = false := by
    simp only [isInfinite_iff] at hfactors ⊢
    omega
  simp only [mul, hfactors, hless, Bool.or_self, Bool.false_eq_true, if_false,
    isInfinite_iff] at h ⊢
  exact Nat.lt_of_le_of_lt
    (bits_ofUnitRatio_mono (Nat.mul_le_mul (units_mono ha) (units_mono hb))) h

/-! ## Scaling -/

def topMiddle : Nat :=
  (unitsOfBits (infinityBits - 2) + unitsOfBits (infinityBits - 1)) /
    (2 * unitsPerOne)

private theorem topMiddle_eq :
    2 * unitsPerOne * topMiddle = unitsOfBits (infinityBits - 2) +
      unitsOfBits (infinityBits - 1) := by
  decide +kernel

theorem topMiddle_lt : topMiddle < tenTo 309 := by decide +kernel

open Json.Scan

theorem tenTo_mono {places more : Nat} (h : places ≤ more) :
    tenTo places ≤ tenTo more :=
  Nat.pow_le_pow_right (by decide) h

def greatestWord (exponent : Nat) : Nat :=
  min maxWord (topMiddle / tenTo exponent)

private theorem isInfinite_greatestWord {exponent : Nat} (h : exponent ≤ 308) :
    ((ofNat (greatestWord exponent)).mul (powerOfTen exponent)).isInfinite =
      false := by
  have htable : ∀ exponent ∈ List.range' 288 21,
      ((ofNat (greatestWord exponent)).mul (powerOfTen exponent)).isInfinite =
        false := by
    decide +kernel
  by_cases hsmall : exponent < 288
  · have hword : (ofNat (greatestWord exponent)).bits ≤
        (ofNat (greatestWord 288)).bits := by
      have hgreatest : greatestWord 288 = maxWord := by decide +kernel
      rw [hgreatest]
      exact bits_ofNat_mono (Nat.min_le_left _ _)
    have hpower : (powerOfTen exponent).bits ≤ (powerOfTen 288).bits :=
      bits_ofNat_mono (tenTo_mono (by omega))
    exact isInfinite_mul_of_le hword hpower (htable 288 (by decide))
  · exact htable exponent (List.mem_range'_1.mpr (by omega))

/-- What stands for no more than the middle between the two greatest finite
magnitudes can be scaled. -/
theorem isSome_scale? {significand : Nat} (hword : significand ≤ maxWord)
    {exponent : Int} (h : (significand : ℚ) * (10 : ℚ) ^ exponent ≤ topMiddle) :
    (scale? significand exponent).isSome := by
  unfold scale?
  simp only
  by_cases hneg : 0 ≤ exponent
  · obtain ⟨places, rfl⟩ := Int.eq_ofNat_of_zero_le hneg
    rw [if_pos hneg]
    have hbelow : significand * tenTo places ≤ topMiddle := by
      rw [zpow_natCast] at h
      exact_mod_cast h
    by_cases hplaces : places ≤ 308
    · have hle : significand ≤ greatestWord places :=
        Nat.le_min.mpr
          ⟨hword, (Nat.le_div_iff_mul_le (tenTo_pos places)).mpr hbelow⟩
      have hfinite := isInfinite_mul_of_le (bits_ofNat_mono hle) (Nat.le_refl _)
        (isInfinite_greatestWord hplaces)
      rw [if_pos (by omega), Int.toNat_natCast, hfinite]
      rfl
    · have hzero : significand = 0 := by
        refine Nat.eq_zero_of_not_pos fun hpositive => ?_
        have hgreat : tenTo 309 ≤ tenTo places := tenTo_mono (by omega)
        have hmul := Nat.le_mul_of_pos_left (tenTo places) hpositive
        exact absurd topMiddle_lt
          (Nat.not_lt.mpr (Nat.le_trans hgreat (Nat.le_trans hmul hbelow)))
      rw [if_neg (by omega), if_pos hzero]
      rfl
  · rw [if_neg hneg]
    rfl

/-! ## Finite magnitudes -/

private theorem value_le_of_covers {m : Magnitude}
    (h : m.bits + 1 < infinityBits) {d : Decimal} (hcovers : m.covers d) :
    d.value ≤ topMiddle := by
  have hbounds := (covers_bounds hcovers).2
  have hunits : m.units ≤ unitsOfBits (infinityBits - 2) :=
    unitsOfBits_strictMono.monotone (by omega)
  have hnext : unitsOfBits (m.bits + 1) ≤ unitsOfBits (infinityBits - 1) :=
    unitsOfBits_strictMono.monotone (by omega)
  have hsum : ((m.units + unitsOfBits (m.bits + 1) : Nat) : ℚ) ≤
      (2 * unitsPerOne * topMiddle : Nat) := by
    rw [topMiddle_eq]
    exact_mod_cast Nat.add_le_add hunits hnext
  have hone : (0 : ℚ) < 2 * unitsPerOne := by
    exact_mod_cast Nat.mul_pos (by decide) unitsPerOne_pos
  push_cast at hsum
  exact le_of_mul_le_mul_left (hbounds.trans hsum) hone

def greatest : Magnitude := clamp (infinityBits - 1)

theorem shortest_greatest : greatest.shortest = ⟨17976931348623157, 292⟩ := by
  decide +kernel

/-- The shortest decimal of the greatest magnitude alone may lie beyond the
middle to the next one. -/
theorem value_shortest_le_topMiddle {m : Magnitude} (h : m.bits ≠ 0)
    (hfinite : m.isInfinite = false) (hother : m ≠ greatest) :
    m.shortest.value ≤ topMiddle := by
  refine value_le_of_covers ?_ (covers_shortest h)
  have hbelow := (isInfinite_iff m).mp hfinite
  have hgreatest : greatest.bits = infinityBits - 1 := by decide
  have hapart : m.bits ≠ greatest.bits := fun hsame => hother (by
    cases m
    simpa [greatest, clamp] using hsame)
  omega

theorem value_shortest_lt {m : Magnitude} (h : m.bits ≠ 0)
    (hfinite : m.isInfinite = false) : m.shortest.value < tenTo 309 := by
  by_cases hgreatest : m = greatest
  · have hsplit : (tenTo 309 : ℚ) = 10 ^ 17 * 10 ^ (292 : Int) := by
      rw [cast_tenTo, zpow_ofNat, ← pow_add, zpow_natCast]
    rw [hgreatest, shortest_greatest, Decimal.value, hsplit]
    exact mul_lt_mul_of_pos_right (by norm_num) (by positivity)
  · exact lt_of_le_of_lt (value_shortest_le_topMiddle h hfinite hgreatest)
      (Nat.cast_lt.mpr topMiddle_lt)

end ShapeMend.Number.Magnitude
