import Mathlib.Algebra.Order.Field.Power
import Mathlib.Data.Rat.Cast.Order
import Mathlib.Tactic.FieldSimp
import Mathlib.Tactic.Linarith
import Mathlib.Tactic.NormNum
import Mathlib.Tactic.Positivity
import Mathlib.Tactic.Ring
import ShapeMend.Proofs.Number.Shortest

/-!
# The spacing of magnitudes

Neighbouring magnitudes are a power of two apart, so the numbers that round to
two of them do not overlap.  The distance is also so large beside the magnitude
that a grid of seventeen digits always has a point that rounds to it.
-/

namespace ShapeMend.Number

/-! ## Steps from one magnitude to the next -/

namespace Magnitude

def stepOfBits (bits : Nat) : Nat := twoTo (bits / twoTo 52 - 1)

theorem stepOfBits_pos (bits : Nat) : 0 < stepOfBits bits := twoTo_pos _

/-- The step is that of the exponent, also where the fraction overflows into the
next one. -/
theorem unitsOfBits_succ (bits : Nat) :
    unitsOfBits (bits + 1) = unitsOfBits bits + stepOfBits bits := by
  unfold unitsOfBits stepOfBits
  by_cases hlow : bits < twoTo 52
  · have hzero : bits / twoTo 52 - 1 = 0 := by rw [Nat.div_eq_of_lt hlow]
    rw [if_pos hlow, hzero]
    split
    · rfl
    · have hfirst : bits + 1 = twoTo 52 := by omega
      rw [hfirst, Nat.mod_self, Nat.div_self (twoTo_pos 52)]
      simp [twoTo]
  · rw [if_neg hlow, if_neg (by omega)]
    by_cases hlast : bits % twoTo 52 + 1 = twoTo 52
    · have hdiv : (bits + 1) / twoTo 52 - 1 = bits / twoTo 52 - 1 + 1 := by
        simp only [twoTo, Nat.pow_eq] at hlow hlast ⊢
        omega
      have hmod : (bits + 1) % twoTo 52 = 0 := by
        simp only [twoTo, Nat.pow_eq] at hlow hlast ⊢
        omega
      have hfull : twoTo 52 + bits % twoTo 52 + 1 = 2 * twoTo 52 := by omega
      rw [hdiv, hmod, ← Nat.succ_mul, Nat.succ_eq_add_one, hfull]
      simp only [twoTo, Nat.pow_eq, Nat.pow_succ]
      ring
    · have hdiv : (bits + 1) / twoTo 52 = bits / twoTo 52 := by
        simp only [twoTo, Nat.pow_eq] at hlow hlast ⊢
        omega
      have hmod : (bits + 1) % twoTo 52 = bits % twoTo 52 + 1 := by
        simp only [twoTo, Nat.pow_eq] at hlow hlast ⊢
        omega
      rw [hdiv, hmod]
      ring

theorem unitsOfBits_strictMono : StrictMono unitsOfBits :=
  strictMono_nat_of_lt_succ fun bits => by
    rw [unitsOfBits_succ]
    exact Nat.lt_add_of_pos_right (stepOfBits_pos bits)

/-- Fifty-two bits of fraction: the distance between the neighbours is not small
beside the magnitude. -/
private theorem unitsOfBits_le_mul_gap {bits : Nat} (h : bits ≠ 0) :
    unitsOfBits bits ≤ twoTo 52 *
      (unitsOfBits (bits + 1) - unitsOfBits (bits - 1)) := by
  obtain ⟨below, rfl⟩ := Nat.exists_eq_succ_of_ne_zero h
  have hgap : unitsOfBits (below + 1 + 1) - unitsOfBits below =
      stepOfBits (below + 1) + stepOfBits below := by
    rw [unitsOfBits_succ, unitsOfBits_succ]
    omega
  rw [Nat.succ_eq_add_one, Nat.add_sub_cancel, hgap]
  unfold unitsOfBits
  split
  · next hlow =>
      have hone := stepOfBits_pos below
      have hmul : twoTo 52 * 1 ≤ twoTo 52 *
          (stepOfBits (below + 1) + stepOfBits below) :=
        Nat.mul_le_mul_left _ (by omega)
      omega
  · next hnormal =>
      by_cases hfirst : (below + 1) % twoTo 52 = 0
      · rw [hfirst, Nat.add_zero]
        exact Nat.mul_le_mul_left _ (Nat.le_add_right _ _)
      · have hsame : stepOfBits below = stepOfBits (below + 1) := by
          unfold stepOfBits
          congr 2
          simp only [twoTo, Nat.pow_eq] at hfirst ⊢
          omega
        have hfraction : (below + 1) % twoTo 52 < twoTo 52 :=
          Nat.mod_lt _ (twoTo_pos 52)
        rw [hsame, ← Nat.two_mul, ← Nat.mul_assoc, stepOfBits]
        exact Nat.mul_le_mul_right _ (by omega)

end Magnitude

/-! ## Values of decimals -/

namespace Decimal

def value (d : Decimal) : ℚ := d.digits * (10 : ℚ) ^ d.exponent

end Decimal

namespace Magnitude

theorem cast_tenTo (n : Nat) : (tenTo n : ℚ) = (10 : ℚ) ^ (n : Int) := by
  simp [tenTo]

private theorem quarterUnits_eq (d : Decimal) :
    ((quarterUnits d).1 : ℚ) = 4 * unitsPerOne * d.value * (quarterUnits d).2 ∧
      0 < (quarterUnits d).2 := by
  unfold quarterUnits Decimal.value
  split
  · next hexponent =>
      refine ⟨?_, Nat.one_pos⟩
      push_cast
      rw [cast_tenTo, Int.toNat_of_nonneg hexponent]
      ring
  · next hexponent =>
      refine ⟨?_, tenTo_pos _⟩
      push_cast
      have hten : (10 : ℚ) ^ d.exponent ≠ 0 := zpow_ne_zero _ (by norm_num)
      rw [cast_tenTo, Int.toNat_of_nonneg (by omega), zpow_neg, ← mul_assoc,
        mul_inv_cancel_right₀ hten]
      ring

/-- A decimal rounds to a magnitude if it lies between the middles of the way to
its neighbours. -/
theorem covers_iff (m : Magnitude) (d : Decimal) :
    m.covers d ↔
      if m.bits % 2 = 0 then
        (unitsOfBits (m.bits - 1) + m.units : ℚ) ≤ 2 * unitsPerOne * d.value ∧
          2 * unitsPerOne * d.value ≤ (m.units + unitsOfBits (m.bits + 1) : ℚ)
      else
        (unitsOfBits (m.bits - 1) + m.units : ℚ) < 2 * unitsPerOne * d.value ∧
          2 * unitsPerOne * d.value <
            (m.units + unitsOfBits (m.bits + 1) : ℚ) := by
  obtain ⟨hvalue, hden⟩ := quarterUnits_eq d
  unfold covers
  generalize quarterUnits d = quarters at hvalue hden
  obtain ⟨num, den⟩ := quarters
  simp only at hvalue hden ⊢
  have hscale : (0 : ℚ) < 2 * den := by positivity
  have hnum : (num : ℚ) = 2 * den * (2 * unitsPerOne * d.value) := by
    rw [hvalue]
    ring
  have hmiddle (a b : Nat) :
      ((2 * (a + b) * den : Nat) : ℚ) = 2 * den * (a + b) := by
    push_cast
    ring
  split
  all_goals
    simp only [Bool.and_eq_true, decide_eq_true_eq, ← Nat.cast_le (α := ℚ),
      ← Nat.cast_lt (α := ℚ), hnum, hmiddle, mul_le_mul_iff_right₀ hscale,
      mul_lt_mul_iff_right₀ hscale]

private theorem covers_congr {m : Magnitude} {d other : Decimal}
    (h : d.value = other.value) : m.covers d = m.covers other := by
  rw [Bool.eq_iff_iff, covers_iff, covers_iff, h]

theorem covers_bounds {m : Magnitude} {d : Decimal} (h : m.covers d) :
    (unitsOfBits (m.bits - 1) + m.units : ℚ) ≤ 2 * unitsPerOne * d.value ∧
      2 * unitsPerOne * d.value ≤ (m.units + unitsOfBits (m.bits + 1) : ℚ) := by
  rw [covers_iff] at h
  split at h
  · exact h
  · exact ⟨h.1.le, h.2.le⟩

private theorem covers_of_between {m : Magnitude} {d : Decimal}
    (hlow : (unitsOfBits (m.bits - 1) + m.units : ℚ) < 2 * unitsPerOne *
      d.value)
    (hhigh : 2 * unitsPerOne * d.value <
      (m.units + unitsOfBits (m.bits + 1) : ℚ)) : m.covers d := by
  rw [covers_iff]
  split
  · exact ⟨hlow.le, hhigh.le⟩
  · exact ⟨hlow, hhigh⟩

/-- No decimal rounds to two magnitudes: the middle between neighbours goes to
the even one. -/
private theorem not_covers_of_lt {m other : Magnitude} (h : m.bits < other.bits)
    {d : Decimal} (hm : m.covers d) : ¬ other.covers d := by
  intro hother
  have hhigh := (covers_bounds hm).2
  have hlow := (covers_bounds hother).1
  have hnext : unitsOfBits (m.bits + 1) ≤ other.units :=
    unitsOfBits_strictMono.monotone h
  have hprevious : m.units ≤ unitsOfBits (other.bits - 1) :=
    unitsOfBits_strictMono.monotone (by omega)
  have hnextValue : (unitsOfBits (m.bits + 1) : ℚ) ≤ other.units := by
    exact_mod_cast hnext
  have hpreviousValue : (m.units : ℚ) ≤ unitsOfBits (other.bits - 1) := by
    exact_mod_cast hprevious
  rcases Nat.lt_or_eq_of_le h with hapart | hneighbour
  · have hstrict : unitsOfBits (m.bits + 1) < other.units :=
      unitsOfBits_strictMono hapart
    have hstrictValue : (unitsOfBits (m.bits + 1) : ℚ) < other.units := by
      exact_mod_cast hstrict
    linarith
  · rw [covers_iff] at hm hother
    rw [Nat.succ_eq_add_one] at hneighbour
    split at hm
    · rw [if_neg (by omega)] at hother
      linarith [hother.1]
    · linarith [hm.2]

private theorem eq_of_covers {m other : Magnitude} {d : Decimal}
    (hm : m.covers d) (hother : other.covers d) : m = other := by
  have hbits : m.bits = other.bits := by
    rcases Nat.lt_trichotomy m.bits other.bits with hlt | heq | hgt
    · exact absurd hother (not_covers_of_lt hlt hm)
    · exact heq
    · exact absurd hm (not_covers_of_lt hgt hother)
  cases m
  cases other
  simpa using hbits

/-! ## Grids -/

private theorem gridBelow_bounds (m : Magnitude) (exponent : Int) :
    unitsPerOne * (m.gridBelow exponent).value ≤ m.units ∧
      m.units < unitsPerOne *
        ((m.gridBelow exponent).value + (10 : ℚ) ^ exponent) := by
  unfold gridBelow Decimal.value
  have hone : (0 : ℚ) < unitsPerOne := by exact_mod_cast unitsPerOne_pos
  split
  · next hexponent =>
      have hpower : (tenTo exponent.toNat : ℚ) = (10 : ℚ) ^ exponent := by
        rw [cast_tenTo, Int.toNat_of_nonneg hexponent]
      have hden : 0 < unitsPerOne * tenTo exponent.toNat :=
        Nat.mul_pos unitsPerOne_pos (tenTo_pos _)
      have hlow :=
        Nat.div_mul_le_self m.units (unitsPerOne * tenTo exponent.toNat)
      have hhigh := Nat.lt_div_mul_add hden (a := m.units)
      generalize m.units / (unitsPerOne * tenTo exponent.toNat) =
        digits at hlow hhigh ⊢
      rw [← Nat.cast_le (α := ℚ)] at hlow
      rw [← Nat.cast_lt (α := ℚ)] at hhigh
      push_cast [hpower] at hlow hhigh
      simp only
      constructor <;> linarith
  · next hexponent =>
      have hpower :
          (tenTo (-exponent).toNat : ℚ) * (10 : ℚ) ^ exponent = 1 := by
        rw [cast_tenTo, Int.toNat_of_nonneg (by omega),
          ← zpow_add₀ (by norm_num), neg_add_cancel, zpow_zero]
      have hlow :=
        Nat.div_mul_le_self (m.units * tenTo (-exponent).toNat) unitsPerOne
      have hhigh :=
        Nat.lt_div_mul_add unitsPerOne_pos
          (a := m.units * tenTo (-exponent).toNat)
      generalize m.units * tenTo (-exponent).toNat / unitsPerOne =
        digits at hlow hhigh ⊢
      rw [← Nat.cast_le (α := ℚ)] at hlow
      rw [← Nat.cast_lt (α := ℚ)] at hhigh
      push_cast at hlow hhigh
      have hscale : (0 : ℚ) < (10 : ℚ) ^ exponent := by positivity
      have hunits : (m.units : ℚ) = m.units * tenTo (-exponent).toNat *
          (10 : ℚ) ^ exponent := by
        rw [mul_assoc, hpower, mul_one]
      simp only
      rw [hunits]
      constructor
      · calc unitsPerOne * (digits * (10 : ℚ) ^ exponent)
            = digits * unitsPerOne * (10 : ℚ) ^ exponent := by ring
          _ ≤ _ := mul_le_mul_of_nonneg_right hlow hscale.le
      · calc m.units * tenTo (-exponent).toNat * (10 : ℚ) ^ exponent
            < (digits * unitsPerOne + unitsPerOne) * (10 : ℚ) ^ exponent :=
              mul_lt_mul_of_pos_right hhigh hscale
          _ = _ := by ring

theorem tenTo_length_le {n : Nat} (h : n ≠ 0) :
    tenTo ((Nat.toDigits 10 n).length - 1) ≤ n := by
  by_cases hone : (Nat.toDigits 10 n).length - 1 = 0
  · rw [hone]
    exact Nat.pos_of_ne_zero h
  · refine Nat.le_of_not_lt fun hlt => ?_
    have hlength :=
      (Nat.length_toDigits_le_iff (by decide) (Nat.pos_of_ne_zero hone)).mpr hlt
    omega

private theorem leadingExponent_bound {m : Magnitude} (h : m.bits ≠ 0) :
    unitsPerOne * (10 : ℚ) ^ m.leadingExponent ≤ m.units := by
  by_cases hwhole : m.units / unitsPerOne = 0
  · have hrange : unitsPerOne ≤ m.units * tenTo 400 := by
      have htable : unitsPerOne ≤ tenTo 400 := by decide +kernel
      exact Nat.le_trans htable (Nat.le_mul_of_pos_left _ (units_pos h))
    have hplaces := unitsPerOne_le_mul_tenTo hrange
    unfold leadingExponent
    simp only [hwhole, if_true]
    generalize placesBelowOne 400 m.units = places at hplaces
    rw [zpow_neg, ← div_eq_mul_inv, div_le_iff₀ (by positivity), ← cast_tenTo]
    exact_mod_cast hplaces
  · have hlength : 0 < (Nat.toDigits 10 (m.units / unitsPerOne)).length :=
      List.length_pos_iff.mpr Nat.toDigits_ne_nil
    have hleading : m.leadingExponent =
        ((Nat.toDigits 10 (m.units / unitsPerOne)).length - 1 : Nat) := by
      unfold leadingExponent
      simp only [if_neg hwhole]
      omega
    rw [hleading, ← cast_tenTo]
    have hmul : unitsPerOne *
        tenTo ((Nat.toDigits 10 (m.units / unitsPerOne)).length - 1) ≤
        m.units :=
      Nat.le_trans (Nat.mul_le_mul_left _ (tenTo_length_le hwhole))
        (Nat.mul_div_le _ _)
    exact_mod_cast hmul

private theorem value_next_gridBelow (m : Magnitude) (exponent : Int) :
    Decimal.value ⟨(m.gridBelow exponent).digits + 1, exponent⟩ =
      (m.gridBelow exponent).value + (10 : ℚ) ^ exponent := by
  have hgrid : (m.gridBelow exponent).exponent = exponent := by
    unfold gridBelow
    split
    · rfl
    · rfl
  unfold Decimal.value
  rw [hgrid]
  push_cast
  ring

/-- Sixteen places behind the first digit the grid is finer than the numbers
that round to a magnitude. -/
private theorem covers_below_or_above {m : Magnitude} (h : m.bits ≠ 0)
    {exponent : Int} (hexponent : exponent ≤ m.leadingExponent - 16) :
    m.covers (m.gridBelow exponent) ∨
      m.covers ⟨(m.gridBelow exponent).digits + 1, exponent⟩ := by
  obtain ⟨hbelow, habove⟩ := gridBelow_bounds m exponent
  have hnext := value_next_gridBelow m exponent
  have hfine :
      (10 : ℚ) ^ exponent * 10 ^ 16 ≤ (10 : ℚ) ^ m.leadingExponent := by
    rw [← zpow_natCast (10 : ℚ) 16, ← zpow_add₀ (by norm_num)]
    exact zpow_le_zpow_right₀ (by norm_num) (by omega)
  have hstep : (unitsPerOne : ℚ) * (10 : ℚ) ^ exponent * 10 ^ 16 ≤ m.units := by
    refine le_trans ?_ (leadingExponent_bound h)
    rw [mul_assoc]
    exact mul_le_mul_of_nonneg_left hfine (Nat.cast_nonneg _)
  have hprevious : unitsOfBits (m.bits - 1) < m.units :=
    unitsOfBits_strictMono (by omega)
  have hfollowing : m.units < unitsOfBits (m.bits + 1) :=
    unitsOfBits_strictMono (by omega)
  have hgap : (m.units : ℚ) ≤
      2 ^ 52 * ((unitsOfBits (m.bits + 1) : ℚ) - unitsOfBits (m.bits - 1)) := by
    have hmul := unitsOfBits_le_mul_gap h
    rw [← Nat.cast_le (α := ℚ), Nat.cast_mul,
      Nat.cast_sub (hprevious.trans hfollowing).le] at hmul
    have hpower : (twoTo 52 : ℚ) = 2 ^ 52 := by norm_num [twoTo]
    rwa [hpower] at hmul
  have hpreviousValue : (unitsOfBits (m.bits - 1) : ℚ) < m.units := by
    exact_mod_cast hprevious
  have hfollowingValue : (m.units : ℚ) < unitsOfBits (m.bits + 1) := by
    exact_mod_cast hfollowing
  -- Two steps of the grid are less than the distance of the neighbours, so one
  -- of the points lies between the middles.
  have hnarrow : 2 * ((unitsPerOne : ℚ) * (10 : ℚ) ^ exponent) <
      (unitsOfBits (m.bits + 1) : ℚ) - unitsOfBits (m.bits - 1) := by
    linarith
  by_cases hinside : (unitsOfBits (m.bits - 1) + m.units : ℚ) <
      2 * unitsPerOne * (m.gridBelow exponent).value
  · exact .inl (covers_of_between hinside (by linarith))
  · refine .inr (covers_of_between ?_ ?_)
    · rw [hnext]
      linarith
    · rw [hnext]
      linarith

/-! ## Shortest decimals -/

private theorem isSome_onGrid? {m : Magnitude} (h : m.bits ≠ 0) {exponent : Int}
    (hexponent : exponent ≤ m.leadingExponent - 16) :
    (m.onGrid? exponent).isSome := by
  unfold onGrid?
  simp only
  split
  · next hbelow habove =>
      rcases covers_below_or_above h hexponent with hcovers | hcovers
      · rw [hcovers] at hbelow
        cases hbelow
      · rw [hcovers] at habove
        cases habove
  all_goals
    repeat' split
    all_goals rfl

private theorem covers_shortestFrom {m : Magnitude} (h : m.bits ≠ 0)
    (fuel : Nat) {exponent : Int}
    (hfuel : exponent - fuel ≤ m.leadingExponent - 16) :
    m.covers (m.shortestFrom (fuel + 1) exponent) := by
  induction fuel generalizing exponent with
  | zero =>
      have hsome : (m.onGrid? exponent).isSome :=
        isSome_onGrid? h (by simpa using hfuel)
      obtain ⟨d, hgrid⟩ := Option.isSome_iff_exists.mp hsome
      rw [shortestFrom, hgrid]
      exact covers_of_onGrid? hgrid
  | succ fuel ih =>
      rw [shortestFrom]
      split
      · next d hgrid => exact covers_of_onGrid? hgrid
      · exact ih (by push_cast at hfuel; omega)

theorem covers_shortest {m : Magnitude} (h : m.bits ≠ 0) :
    m.covers m.shortest := by
  rw [shortest, if_neg h]
  exact covers_shortestFrom h 16 (by omega)

theorem eq_of_value_shortest {m other : Magnitude} (hm : m.bits ≠ 0)
    (hother : other.bits ≠ 0) (h : m.shortest.value = other.shortest.value) :
    m = other :=
  eq_of_covers (covers_shortest hm)
    ((covers_congr h).trans (covers_shortest hother))

end Magnitude

end ShapeMend.Number
