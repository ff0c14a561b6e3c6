import ShapeMend.Mend.Primitive
import ShapeMend.Proofs.Number.Integers
import ShapeMend.Schema.Descriptor

/-!
# Literals as JSON values

A finite number is written as an integer if it is one of sixty-four bits, and
what is written has the value of the number.  JSON has no infinite numbers, so
null is written for those.
-/

namespace ShapeMend

open ShapeMend.Number

namespace Number.Binary64

theorem sameValue_refl (x : Binary64) : x.sameValue x := by
  simp [sameValue]

theorem sameValue_trans {x y z : Binary64} (hxy : x.sameValue y)
    (hyz : y.sameValue z) : x.sameValue z := by
  simp only [sameValue, Bool.or_eq_true, Bool.and_eq_true, decide_eq_true_eq]
    at *
  rcases hxy with rfl | hxy
  · exact hyz
  · rcases hyz with rfl | hyz
    · exact .inr hxy
    · exact .inr ⟨hxy.1, hyz.2⟩

theorem sameValue_symm {x y : Binary64}
    (h : x.sameValue y) : y.sameValue x := by
  simp only [sameValue, Bool.or_eq_true, Bool.and_eq_true, decide_eq_true_eq]
    at h ⊢
  exact h.imp Eq.symm And.symm

theorem exists_size_of_toInt? {x : Binary64} {n : Int} (h : x.toInt? = some n) :
    ∃ size : Nat, x.magnitude.toNat? = some size ∧
      (if x.negative then -(size : Int) else size) = n := by
  cases hsize : x.magnitude.toNat? with
  | none => simp [toInt?, hsize] at h
  | some size => exact ⟨size, rfl, by simpa [toInt?, hsize] using h⟩

/-- A number that is an integer is the one nearest to it, but perhaps for the
sign of zero. -/
theorem sameValue_ofInt {x : Binary64} {n : Int} (h : x.toInt? = some n) :
    x.sameValue (ofInt n) := by
  obtain ⟨negative, magnitude⟩ := x
  obtain ⟨size, hsize, hn⟩ := exists_size_of_toInt? h
  simp only at hsize hn
  have hsame : n.natAbs = size := by
    cases negative <;> simp at hn <;> omega
  have hmagnitude : Magnitude.ofNat n.natAbs = magnitude := by
    rw [hsame]
    exact Magnitude.ofNat_of_toNat? hsize
  unfold sameValue ofInt
  rw [hmagnitude]
  rcases Nat.eq_zero_or_pos size with rfl | hpositive
  · have hzero : magnitude.bits = 0 := by
      rw [← hmagnitude, hsame]
      decide +kernel
    simp [isZero, hzero]
  · have hsign : decide (n < 0) = negative := by
      cases negative <;> simp at hn <;> simp <;> omega
    simp [hsign]

end Number.Binary64

namespace Literal

def isFinite : Literal → Bool
  | number value => value.isFinite
  | notANumber => false
  | _ => true

theorem exists_numberToJson {x : Binary64} (h : x.isFinite) :
    ∃ written,
      numberToJson x = .number written ∧ x.sameValue written.toBinary64 := by
  unfold numberToJson
  cases hint : x.toInt? with
  | none => exact ⟨.real x, by simp [h], x.sameValue_refl⟩
  | some n =>
      by_cases hword : -(twoTo 63 : Int) ≤ n ∧ n ≤ twoTo 63
      · refine ⟨.integer (min n (twoTo 63 - 1)), by
          simp only [if_pos hword], ?_⟩
        have hvalue := Binary64.sameValue_ofInt hint
        rcases Int.lt_or_eq_of_le hword.2 with hlt | rfl
        · rwa [Int.min_eq_left (by omega)]
        · have hround :
              JsonNumber.toBinary64
              (.integer (min (twoTo 63 : Int) (twoTo 63 - 1))) =
              .ofInt (twoTo 63 : Int) := by
            decide +kernel
          rwa [hround]
      · exact ⟨.real x, by simp only [if_neg hword], x.sameValue_refl⟩

theorem numberToJson_of_isFinite_eq_false {x : Binary64}
    (h : x.isFinite = false) : numberToJson x = .null := by
  have hint : x.toInt? = none := by
    unfold Binary64.toInt? Magnitude.toNat?
    rw [if_pos (by simpa [Binary64.isFinite] using h)]
    rfl
  simp [numberToJson, hint, h]

theorem accepts_toJson {literal : Literal} (h : literal.isFinite) :
    literal.accepts literal.toJson := by
  cases literal with
  | string value => simp [toJson, accepts]
  | boolean value => simp [toJson, accepts]
  | notANumber => cases h
  | number value =>
      obtain ⟨written, hwritten, hvalue⟩ := exists_numberToJson h
      simpa [toJson, hwritten, accepts] using hvalue

end Literal

end ShapeMend
