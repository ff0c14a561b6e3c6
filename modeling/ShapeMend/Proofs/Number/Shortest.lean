import ShapeMend.Number.Shortest
import ShapeMend.Proofs.Number.Integers

/-!
# Shortest decimals are positive

The shortest decimal of a magnitude other than zero has a digit other than zero,
also where no grid holds a decimal that rounds to the magnitude.
-/

namespace ShapeMend.Number.Magnitude

theorem twoTo_pos (n : Nat) : 0 < twoTo n := Nat.pow_pos (by decide)

theorem units_pos {m : Magnitude} (h : m.bits ≠ 0) : 0 < m.units := by
  unfold units unitsOfBits
  split
  · exact Nat.pos_of_ne_zero h
  · exact Nat.mul_pos (Nat.add_pos_left (twoTo_pos 52) _) (twoTo_pos _)

theorem tenTo_pos (n : Nat) : 0 < tenTo n := Nat.pow_pos (by decide)

theorem unitsPerOne_pos : 0 < unitsPerOne := by decide +kernel

private theorem digits_pos_of_covers {m : Magnitude} (h : m.bits ≠ 0)
    {d : Decimal} (hcovers : m.covers d) : 0 < d.digits := by
  rw [Nat.pos_iff_ne_zero]
  intro hzero
  have hden : 0 < (quarterUnits d).2 := by
    unfold quarterUnits
    split
    · exact Nat.one_pos
    · exact tenTo_pos _
  have hnum : (quarterUnits d).1 = 0 := by
    unfold quarterUnits
    split <;> simp [hzero]
  have hlow :
      0 < 2 * (unitsOfBits (m.bits - 1) + m.units) * (quarterUnits d).2 :=
    Nat.mul_pos
      (Nat.mul_pos (by decide) (Nat.add_pos_right _ (units_pos h))) hden
  unfold covers at hcovers
  simp only [hnum] at hcovers
  split at hcovers
  all_goals
    rw [Bool.and_eq_true, decide_eq_true_eq] at hcovers
    omega

theorem covers_of_onGrid? {m : Magnitude} {exponent : Int} {d : Decimal}
    (h : m.onGrid? exponent = some d) : m.covers d := by
  unfold onGrid? at h
  simp only at h
  split at h
  · cases h
  · next hbelow _ =>
      cases h
      exact hbelow
  · next habove =>
      cases h
      exact habove
  · next hbelow habove =>
      split at h
      · cases h
        exact hbelow
      split at h
      · cases h
        exact habove
      split at h
      · cases h
        exact hbelow
      · cases h
        exact habove

private theorem digits_pos_of_onGrid? {m : Magnitude} (h : m.bits ≠ 0)
    {exponent : Int} {d : Decimal} (hgrid : m.onGrid? exponent = some d) :
    0 < d.digits :=
  digits_pos_of_covers h (covers_of_onGrid? hgrid)

theorem unitsPerOne_le_mul_tenTo {fuel n : Nat}
    (h : unitsPerOne ≤ n * tenTo fuel) :
    unitsPerOne ≤ n * tenTo (placesBelowOne fuel n) := by
  induction fuel generalizing n with
  | zero => exact h
  | succ fuel ih =>
      rw [placesBelowOne]
      split
      · next hone => simpa [tenTo] using hone
      · have hstep : ∀ k, n * 10 * tenTo k = n * tenTo (k + 1) := by
          intro k
          rw [Nat.mul_assoc, Nat.mul_comm 10]
          rfl
        rw [← hstep]
        exact ih (by rw [hstep]; exact h)

/-- Seventeen places behind the first digit the grid is fine enough for any
number but zero. -/
private theorem digits_gridBelow_pos {m : Magnitude} (h : m.bits ≠ 0) :
    0 < (m.gridBelow (m.leadingExponent - 17)).digits := by
  have hunits := units_pos h
  by_cases hwhole : m.units / unitsPerOne = 0
  · have hrange : unitsPerOne ≤ m.units * tenTo 400 := by
      have htable : unitsPerOne ≤ tenTo 400 := by decide +kernel
      exact Nat.le_trans htable (Nat.le_mul_of_pos_left _ hunits)
    have hplaces := unitsPerOne_le_mul_tenTo hrange
    have hleading :
        m.leadingExponent = -(placesBelowOne 400 m.units : Int) := by
      unfold leadingExponent
      rw [if_pos hwhole]
    generalize placesBelowOne 400 m.units = places at hplaces hleading
    have hfine : tenTo places ≤ tenTo (places + 17) :=
      Nat.pow_le_pow_right (by decide) (by omega)
    have hexponent : (-(m.leadingExponent - 17)).toNat = places + 17 := by omega
    unfold gridBelow
    rw [if_neg (by omega), hexponent]
    exact Nat.div_pos (Nat.le_trans hplaces (Nat.mul_le_mul_left _ hfine))
      unitsPerOne_pos
  · have hone : unitsPerOne ≤ m.units := by
      refine Nat.le_of_not_lt fun hlt => ?_
      exact hwhole (Nat.div_eq_of_lt hlt)
    have hleading : m.leadingExponent =
        ((Nat.toDigits 10 (m.units / unitsPerOne)).length : Int) - 1 := by
      unfold leadingExponent
      rw [if_neg hwhole]
    unfold gridBelow
    split
    · next hexponent =>
        have hpower :
            tenTo (m.leadingExponent - 17).toNat ≤ m.units / unitsPerOne := by
          by_cases hzero : (m.leadingExponent - 17).toNat = 0
          · rw [hzero]
            exact Nat.pos_of_ne_zero hwhole
          · refine Nat.le_of_not_lt fun hlt => ?_
            have hlength :=
              (Nat.length_toDigits_le_iff (by decide)
                (Nat.pos_of_ne_zero hzero)).mpr hlt
            omega
        refine Nat.div_pos ?_ (Nat.mul_pos unitsPerOne_pos (tenTo_pos _))
        exact Nat.le_trans (Nat.mul_le_mul_left _ hpower) (Nat.mul_div_le _ _)
    · exact Nat.div_pos
        (Nat.le_trans hone (Nat.le_mul_of_pos_right _ (tenTo_pos _)))
        unitsPerOne_pos

private theorem digits_shortestFrom_pos {m : Magnitude} (h : m.bits ≠ 0)
    {fuel : Nat} {exponent : Int}
    (hlast : 0 < (m.gridBelow (exponent - fuel)).digits) :
    0 < (m.shortestFrom fuel exponent).digits := by
  induction fuel generalizing exponent with
  | zero => simpa [shortestFrom] using hlast
  | succ fuel ih =>
      rw [shortestFrom]
      split
      · next decimal hgrid => exact digits_pos_of_onGrid? h hgrid
      · refine ih ?_
        have hexponent : exponent - 1 - (fuel : Int) =
            exponent - (fuel + 1 : Nat) := by omega
        rwa [hexponent]

theorem digits_shortest_pos {m : Magnitude} (h : m.bits ≠ 0) :
    0 < m.shortest.digits := by
  rw [shortest, if_neg h]
  exact digits_shortestFrom_pos h (digits_gridBelow_pos h)

end ShapeMend.Number.Magnitude
