import Mathlib.Data.List.TakeWhile
import ShapeMend.Json.Writer
import ShapeMend.Proofs.Number.Shortest
import ShapeMend.Proofs.Script.Numerals

/-!
# Written numbers are decimals

The text of a JSON number is a decimal numeral of scripts, perhaps behind a
sign.
-/

namespace ShapeMend

open ShapeMend.Number ShapeMend.Script

/-! ## Digits -/

namespace Number.Decimal

private theorem natOfDigits_zeros {digits : List Char}
    (h : ∀ c ∈ digits, c = '0') : natOfDigits 0 digits = 0 := by
  induction digits with
  | nil => rfl
  | cons c digits ih =>
      obtain rfl : c = '0' := h c List.mem_cons_self
      exact ih fun d hd => h d (List.mem_cons_of_mem _ hd)

theorem trim_ne_nil {d : Decimal} (h : 0 < d.digits) : d.trim.1 ≠ [] := by
  intro hnil
  have hzeros : ∀ c ∈ Nat.toDigits 10 d.digits, c = '0' := by
    have hdropped :
        (Nat.toDigits 10 d.digits).reverse.dropWhile (· = '0') = [] :=
      List.reverse_eq_nil_iff.mp hnil
    simpa [List.dropWhile_eq_nil_iff] using hdropped
  have hvalue := natOfDigits_zeros hzeros
  rw [natOfDigits_toDigits] at hvalue
  omega

theorem isDigit_of_mem_trim {d : Decimal} {c : Char}
    (h : c ∈ d.trim.1) : c.isDigit := by
  refine isDigit_of_mem (n := d.digits) ?_
  have hdropped := (List.dropWhile_suffix _).subset (List.mem_reverse.mp h)
  exact List.mem_reverse.mp hdropped

end Number.Decimal

/-! ## Layouts -/

namespace JsonNumber

variable {digits : List Char}

def laidOut (digits : List Char) (exponent : Int) : DecimalText :=
  let leading := exponent + digits.length - 1
  if -5 ≤ leading ∧ leading ≤ 15 then
    if 0 ≤ exponent then
      ⟨digits ++ List.replicate exponent.toNat '0', ['0'], none⟩
    else if 0 ≤ leading then
      ⟨digits.take (leading.toNat + 1), digits.drop (leading.toNat + 1), none⟩
    else ⟨['0'], List.replicate (-leading - 1).toNat '0' ++ digits, none⟩
  else
    ⟨digits.take 1, digits.drop 1,
      some (decide (leading < 0), Nat.toDigits 10 leading.natAbs)⟩

private theorem isWritten_laidOut (hne : digits ≠ [])
    (hdigits : ∀ c ∈ digits, c.isDigit) (exponent : Int) :
    (laidOut digits exponent).isWritten := by
  have hall : digits.all Char.isDigit := List.all_eq_true.mpr hdigits
  have hparts (count : Nat) : (digits.take count).all Char.isDigit ∧
      (digits.drop count).all Char.isDigit := by
    rwa [← Bool.and_eq_true, ← List.all_append, List.take_append_drop]
  simp only [laidOut, DecimalText.isWritten]
  split
  · split
    · simp [hne, hall]
    split
    · simp [hne, hparts]
    · simp [hall]
  · have hexponent : (Nat.toDigits 10 (exponent + digits.length - 1).natAbs).all
        Char.isDigit :=
      List.all_eq_true.mpr fun _ => Decimal.isDigit_of_mem
    simp only [Bool.and_eq_true, Option.all_some, decide_eq_true_eq]
    exact ⟨⟨⟨by simpa using hne, (hparts 1).1⟩, (hparts 1).2⟩,
      Nat.toDigits_ne_nil, hexponent⟩

theorem layout_eq_text (hne : digits ≠ []) (exponent : Int) :
    layout digits exponent = (laidOut digits exponent).text := by
  simp only [layout, laidOut]
  split
  · split
    · simp [DecimalText.text, DecimalText.fractionText,
        DecimalText.exponentText]
    split
    · have hfraction : digits.drop ((exponent + digits.length - 1).toNat + 1) ≠
          [] := by
        rw [Ne, List.drop_eq_nil_iff]
        omega
      simp only [DecimalText.text, DecimalText.fractionText,
        DecimalText.exponentText, if_neg hfraction, List.append_nil]
    · simp [DecimalText.text, DecimalText.fractionText,
        DecimalText.exponentText, hne]
  · obtain ⟨first, more, rfl⟩ := List.exists_cons_of_ne_nil hne
    cases more <;>
      simp [DecimalText.text, DecimalText.fractionText,
        DecimalText.exponentText]

def integerDecimal (value : Int) : DecimalText :=
  ⟨Nat.toDigits 10 value.natAbs, [], none⟩

theorem isWritten_integerDecimal (value : Int) :
    (integerDecimal value).isWritten := by
  simpa [integerDecimal, DecimalText.isWritten, Nat.toDigits_ne_nil] using
    fun _ => Decimal.isDigit_of_mem

theorem text_integerDecimal (value : Int) :
    (integerDecimal value).text = Nat.toDigits 10 value.natAbs := by
  simp [integerDecimal, DecimalText.text, DecimalText.fractionText,
    DecimalText.exponentText]

theorem toList_integer (value : Int) : (text (.integer value)).toList =
    (if decide (value < 0) then ['-'] else []) ++
      (integerDecimal value).text := by
  rw [text_integerDecimal]
  cases value with
  | ofNat n => exact String.toList_ofList
  | negSucc n =>
      change ("-" ++ String.ofList (Nat.toDigits 10 (n + 1))).toList = _
      simp

def realDecimal (x : Binary64) : DecimalText :=
  laidOut x.magnitude.shortest.trim.1 x.magnitude.shortest.trim.2

variable {x : Binary64}

theorem trim_shortest_ne_nil (h : ¬ x.isZero) :
    x.magnitude.shortest.trim.1 ≠ [] :=
  Decimal.trim_ne_nil
    (Magnitude.digits_shortest_pos (by simpa [Binary64.isZero] using h))

theorem isWritten_realDecimal (h : ¬ x.isZero) : (realDecimal x).isWritten :=
  isWritten_laidOut (trim_shortest_ne_nil h)
    (fun _ => Decimal.isDigit_of_mem_trim) _

theorem toList_realText (h : ¬ x.isZero) : (realText x).toList =
    (if x.negative then ['-'] else []) ++ (realDecimal x).text := by
  simp only [realText, if_neg h, layout_eq_text (trim_shortest_ne_nil h),
    String.toList_ofList, realDecimal]
  cases x.negative <;> rfl

theorem exists_text (number : JsonNumber) :
    ∃ (negative : Bool) (d : DecimalText), d.isWritten ∧
    number.text.toList = (if negative then ['-'] else []) ++ d.text := by
  cases number with
  | integer value =>
      exact ⟨_, _, isWritten_integerDecimal value, toList_integer value⟩
  | real x =>
      by_cases hzero : x.isZero
      · refine ⟨x.negative, ⟨['0'], ['0'], none⟩, by decide, ?_⟩
        simp only [text, realText, if_pos hzero, String.toList_ofList]
        cases x.negative <;> rfl
      · exact ⟨_, _, isWritten_realDecimal hzero, toList_realText hzero⟩

end JsonNumber

end ShapeMend
