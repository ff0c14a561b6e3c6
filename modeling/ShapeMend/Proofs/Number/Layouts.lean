import ShapeMend.Proofs.Module.Numbers
import ShapeMend.Proofs.Number.Spacing
import ShapeMend.Proofs.Schema.Literals

/-!
# The text of a number tells its value

Read back as a decimal, the digits that are laid out for a number have the value
of its shortest decimal, and the shortest decimal tells the magnitude.  An
integer is laid out without a point and without an exponent, and nothing else
is.
-/

namespace ShapeMend

open ShapeMend.Number ShapeMend.Script

/-! ## Reading decimals back -/

namespace Script.DecimalText

variable {d : DecimalText}

def places (d : DecimalText) : Int :=
  match d.exponent with
  | none => 0
  | some (negative, digits) =>
    if negative then -Decimal.natOfDigits 0 digits
    else Decimal.natOfDigits 0 digits

def decimal (d : DecimalText) : Decimal :=
  ⟨Decimal.natOfDigits 0 (d.whole ++ d.fraction), d.places - d.fraction.length⟩

private theorem takeWhile_digits {digits rest : List Char}
    (hdigits : ∀ c ∈ digits, c.isDigit)
    (hrest : ∀ c ∈ rest.head?, c = '.' ∨ c = 'e') :
    (digits ++ rest).takeWhile Char.isDigit = digits ∧
      (digits ++ rest).dropWhile Char.isDigit = rest := by
  have hstop : ∀ c ∈ rest.head?, c.isDigit = false := by
    intro c hc
    rcases hrest c hc with rfl | rfl <;> decide
  rw [List.takeWhile_append_of_pos hdigits,
    List.dropWhile_append_of_pos hdigits]
  cases rest with
  | nil => simp
  | cons c rest => simp [hstop c rfl]

private theorem exponentOfText?_digits (negative : Bool) {digits : List Char}
    (hne : digits ≠ []) (hdigits : ∀ c ∈ digits, c.isDigit) :
    Decimal.exponentOfText? ((if negative then '-' else '+') :: digits) =
      some (if negative then -(Decimal.natOfDigits 0 digits : Int)
        else Decimal.natOfDigits 0 digits) := by
  have hall : digits.all Char.isDigit := List.all_eq_true.mpr hdigits
  cases negative <;> simp [Decimal.exponentOfText?, hne, hall]

private theorem ofText?_text (h : d.isWritten) :
    Decimal.ofText? d.text = some d.decimal := by
  obtain ⟨hne, hwhole, hfraction, hexponent⟩ := of_isWritten h
  obtain ⟨htake, -⟩ := takeWhile_digits hwhole fun c hc =>
      head?_tail (d := d) hc
  have hdrop : d.text.drop d.whole.length = d.fractionText ++
      d.exponentText := by simp [text]
  have hsum : Decimal.natOfDigits (Decimal.natOfDigits 0 d.whole) d.fraction =
      Decimal.natOfDigits 0 (d.whole ++ d.fraction) := by
    simp [Decimal.natOfDigits]
  have hdigits := takeWhile_digits hfraction fun c hc =>
      .inr (head?_exponentText (d := d) hc)
  simp only [text] at hdrop
  simp only [Decimal.ofText?, text, htake, hdrop]
  unfold fractionText decimal places
  rw [← hsum]
  by_cases hnone : d.fraction = []
  · cases hcase : d.exponent with
    | none => simp [hnone, hne, exponentText, hcase]
    | some exponent =>
        obtain ⟨negative, digits⟩ := exponent
        obtain ⟨hnonempty, hall⟩ := hexponent _ hcase
        simp [hnone, hne, exponentText, hcase,
          exponentOfText?_digits negative hnonempty hall]
  · cases hcase : d.exponent with
    | none =>
        simp only [exponentText, hcase, List.append_nil] at hdigits
        simp [hnone, exponentText, hcase, hdigits]
    | some exponent =>
        obtain ⟨negative, digits⟩ := exponent
        obtain ⟨hnonempty, hall⟩ := hexponent _ hcase
        simp only [exponentText, hcase] at hdigits
        simp [hnone, exponentText, hcase, hdigits,
          exponentOfText?_digits negative hnonempty hall]

end Script.DecimalText

/-! ## Layouts -/

namespace Number.Decimal

theorem natOfDigits_append (start : Nat) (digits more : List Char) :
    natOfDigits start (digits ++ more) =
      natOfDigits (natOfDigits start digits) more := by
  simp [natOfDigits]

theorem natOfDigits_replicate (n count : Nat) :
    natOfDigits n (List.replicate count '0') = n * 10 ^ count := by
  induction count generalizing n with
  | zero => simp [natOfDigits]
  | succ count ih =>
      have hfirst : natOfDigits n ('0' :: List.replicate count '0') =
          natOfDigits (n * 10) (List.replicate count '0') := rfl
      rw [List.replicate_succ, hfirst, ih, Nat.pow_succ]
      ring

theorem exists_toDigits_eq (d : Decimal) :
    ∃ count,
      Nat.toDigits 10 d.digits = d.trim.1 ++ List.replicate count '0' := by
  refine ⟨((Nat.toDigits 10 d.digits).reverse.takeWhile (· = '0')).length, ?_⟩
  have hall : (Nat.toDigits 10 d.digits).reverse.takeWhile (· = '0') =
      List.replicate
        ((Nat.toDigits 10 d.digits).reverse.takeWhile (· = '0')).length
        '0' := by
    rw [List.eq_replicate_iff]
    exact ⟨rfl, fun c hc => by simpa using List.mem_takeWhile_imp hc⟩
  have hsplit := congrArg List.reverse (List.takeWhile_append_dropWhile
    (p := (· = '0')) (l := (Nat.toDigits 10 d.digits).reverse))
  rw [List.reverse_append, List.reverse_reverse, hall, List.reverse_replicate]
    at hsplit
  exact hsplit.symm

theorem value_trim (d : Decimal) :
    d.value = natOfDigits 0 d.trim.1 * (10 : ℚ) ^ d.trim.2 := by
  obtain ⟨zeros, hzeros⟩ := exists_toDigits_eq d
  have hdigits : d.digits = natOfDigits 0 d.trim.1 * 10 ^ zeros := by
    rw [← natOfDigits_replicate, ← natOfDigits_append, ← hzeros,
      natOfDigits_toDigits]
  have hexponent : d.trim.2 = d.exponent + zeros := by
    have hlength := congrArg List.length hzeros
    rw [List.length_append, List.length_replicate] at hlength
    simp only [trim] at hlength ⊢
    omega
  rw [value, hdigits, hexponent, zpow_add₀ (by norm_num), zpow_natCast]
  push_cast
  ring

end Number.Decimal

namespace JsonNumber

variable {digits : List Char}

/-- Wherever the point is put and whether an exponent is written, the value is
that of the digits. -/
private theorem value_laidOut (hne : digits ≠ []) (exponent : Int) :
    (laidOut digits exponent).decimal.value =
      Decimal.natOfDigits 0 digits * (10 : ℚ) ^ exponent := by
  have hlength : 0 < digits.length := List.length_pos_iff.mpr hne
  simp only [laidOut]
  split
  · split
    · next hexponent =>
        have hzeros :
            Decimal.natOfDigits 0
            (digits ++ List.replicate exponent.toNat '0' ++ ['0']) =
            Decimal.natOfDigits 0 digits * 10 ^ (exponent.toNat + 1) := by
          rw [List.append_assoc, ← List.replicate_succ',
            Decimal.natOfDigits_append, Decimal.natOfDigits_replicate]
        have hpower : (10 : ℚ) ^ exponent = 10 ^ exponent.toNat := by
          rw [← zpow_natCast, Int.toNat_of_nonneg hexponent]
        simp only [DecimalText.decimal, DecimalText.places, Decimal.value,
          hzeros, hpower]
        push_cast
        norm_num [pow_succ]
        ring
    split
    · next hexponent hleading =>
        have hplaces : (0 : Int) -
            (digits.drop ((exponent + digits.length - 1).toNat + 1)).length =
            exponent := by
          rw [List.length_drop]
          omega
        simp only [DecimalText.decimal, DecimalText.places, Decimal.value,
          List.take_append_drop, hplaces]
    · next hexponent hleading =>
        have hplaces : (0 : Int) -
            (List.replicate (-(exponent + digits.length - 1) - 1).toNat '0' ++
            digits).length = exponent := by
          rw [List.length_append, List.length_replicate]
          omega
        have hzeros : Decimal.natOfDigits 0 (['0'] ++
            (List.replicate (-(exponent + digits.length - 1) - 1).toNat '0' ++
              digits)) =
              Decimal.natOfDigits 0 digits := by
          rw [← List.append_assoc, List.singleton_append, ← List.replicate_succ,
            Decimal.natOfDigits_append, Decimal.natOfDigits_replicate,
              Nat.zero_mul]
        simp only [DecimalText.decimal, DecimalText.places, Decimal.value,
          hplaces, hzeros]
  · have hplaces : (if decide (exponent + digits.length - 1 < 0) = true then
        -(Decimal.natOfDigits 0
          (Nat.toDigits 10 (exponent + digits.length - 1).natAbs) : Int)
        else
          Decimal.natOfDigits 0
            (Nat.toDigits 10 (exponent + digits.length - 1).natAbs)) -
          (digits.drop 1).length = exponent := by
      rw [Decimal.natOfDigits_toDigits, List.length_drop]
      split
      all_goals
        next hsign =>
          rw [decide_eq_true_eq] at hsign
          omega
    simp only [DecimalText.decimal, DecimalText.places, Decimal.value,
      List.take_append_drop, hplaces]

variable {x y : Binary64}

theorem value_realDecimal (h : ¬ x.isZero) :
    (realDecimal x).decimal.value = x.magnitude.shortest.value := by
  rw [realDecimal, value_laidOut (trim_shortest_ne_nil h), ← Decimal.value_trim]

theorem sign_append_inj {d other : DecimalText} (hd : d.isWritten)
    (hother : other.isWritten) {negative negated : Bool}
    (h : (if negative then ['-'] else []) ++
      d.text = (if negated then ['-'] else []) ++ other.text) :
    negative = negated ∧ d.text = other.text := by
  have hfirst {e : DecimalText} (he : e.isWritten) {rest : List Char} :
      e.text ≠ '-' :: rest := by
    intro heq
    have hend : ∀ c ∈ ([] : List Char).head?, Numeral.isRun c = false := by simp
    obtain ⟨c, tail, htext, hdigit, -⟩ := e.exists_text he hend
    rw [htext] at heq
    exact absurd ((List.cons.inj heq).1 ▸ hdigit) (by decide)
  cases negative <;> cases negated
  · exact ⟨rfl, h⟩
  · exact absurd h (hfirst hd)
  · exact absurd h.symm (hfirst hother)
  · exact ⟨rfl, (List.cons.inj h).2⟩

private theorem realText_injective (hx : ¬ x.isZero) (hy : ¬ y.isZero)
    (h : realText x = realText y) : x = y := by
  have hlist := congrArg String.toList h
  rw [toList_realText hx, toList_realText hy] at hlist
  obtain ⟨hsign, htext⟩ :=
    sign_append_inj (isWritten_realDecimal hx) (isWritten_realDecimal hy) hlist
  have hdecimal : (realDecimal x).decimal = (realDecimal y).decimal := by
    have hread := congrArg Decimal.ofText? htext
    rw [DecimalText.ofText?_text (isWritten_realDecimal hx),
      DecimalText.ofText?_text (isWritten_realDecimal hy)] at hread
    exact Option.some.inj hread
  have hvalue := congrArg Decimal.value hdecimal
  rw [value_realDecimal hx, value_realDecimal hy] at hvalue
  have hmagnitude : x.magnitude = y.magnitude := by
    refine Magnitude.eq_of_value_shortest ?_ ?_ hvalue
    · simpa [Binary64.isZero] using hx
    · simpa [Binary64.isZero] using hy
  cases x
  cases y
  simp_all

private theorem integer_injective {a b : Int}
    (h : text (.integer a) = text (.integer b)) : a = b := by
  have hlist := congrArg String.toList h
  rw [toList_integer, toList_integer] at hlist
  obtain ⟨hsign, htext⟩ :=
    sign_append_inj (isWritten_integerDecimal a)
      (isWritten_integerDecimal b) hlist
  rw [text_integerDecimal, text_integerDecimal] at htext
  have hsize := congrArg (Decimal.natOfDigits 0) htext
  rw [Decimal.natOfDigits_toDigits, Decimal.natOfDigits_toDigits] at hsize
  rw [decide_eq_decide] at hsign
  omega

/-- The digits of a number that is laid out have a point or an exponent among
them. -/
private theorem exists_not_isDigit (digits : List Char) (exponent : Int) :
    ∃ c ∈ layout digits exponent, ¬ c.isDigit := by
  simp only [layout]
  split
  · refine ⟨'.', ?_, by decide⟩
    split
    · simp
    split
    · simp
    · simp
  · exact ⟨'e', by simp, by decide⟩

private theorem text_integer_ne_realText (hx : ¬ x.isZero) (a : Int) :
    text (.integer a) ≠ realText x := by
  intro h
  have hlist := congrArg String.toList h
  rw [toList_integer, toList_realText hx] at hlist
  obtain ⟨-, htext⟩ :=
    sign_append_inj (isWritten_integerDecimal a)
      (isWritten_realDecimal hx) hlist
  obtain ⟨c, hc, hdigit⟩ :=
    exists_not_isDigit x.magnitude.shortest.trim.1 x.magnitude.shortest.trim.2
  rw [layout_eq_text (trim_shortest_ne_nil hx), ← realDecimal, ← htext,
    text_integerDecimal] at hc
  exact hdigit (Decimal.isDigit_of_mem hc)

end JsonNumber

/-! ## Literals -/

namespace Number.Binary64

private theorem toInt?_of_isZero {x : Binary64} (h : x.isZero) :
    x.toInt? = some 0 := by
  obtain ⟨negative, bits, hle⟩ := x
  obtain rfl : bits = 0 := by simpa [isZero] using h
  have hzero : Magnitude.toNat? ⟨0, hle⟩ = some 0 :=
    (by decide +kernel : Magnitude.zero.toNat? = some 0)
  cases negative <;> simp [toInt?, hzero]

private theorem toInt?_ne_maxWord (x : Binary64) :
    x.toInt? ≠ some (twoTo 63 - 1 : Int) := by
  intro h
  obtain ⟨size, hsize, hn⟩ := exists_size_of_toInt? h
  have hmax : size = twoTo 63 - 1 := by
    simp only [twoTo, Nat.pow_eq] at hn ⊢
    split at hn <;> omega
  have hround : (Magnitude.ofNat (twoTo 63 - 1)).toNat? = some (twoTo 63) := by
    decide +kernel
  rw [← hmax, Magnitude.ofNat_of_toNat? hsize, hsize, hmax] at hround
  exact absurd hround (by decide)

end Number.Binary64

namespace Literal

open JsonNumber

variable {x y : Binary64}

/-- A finite number is written as the word that it is, or else with a point or
an exponent. -/
private theorem compact_numberToJson (h : x.isFinite) :
    (∃ n : Int, x.toInt? = some n ∧ n ≤ twoTo 63 ∧
        (numberToJson x).compact = text (.integer (min n (twoTo 63 - 1)))) ∨
      ¬ x.isZero ∧ (numberToJson x).compact = realText x := by
  have hnonzero : x.toInt? ≠ some 0 → ¬ x.isZero :=
    fun hne hzero => hne (Binary64.toInt?_of_isZero hzero)
  unfold numberToJson
  cases hint : x.toInt? with
  | none =>
      exact .inr ⟨hnonzero (by simp [hint]), by simp [h, Json.compact, text]⟩
  | some n =>
      by_cases hword : -(twoTo 63 : Int) ≤ n ∧ n ≤ twoTo 63
      · exact .inl ⟨n, rfl, hword.2, by simp only [if_pos hword, Json.compact]⟩
      · refine .inr
          ⟨hnonzero ?_, by simp only [if_neg hword, Json.compact, text]⟩
        rintro hzero
        obtain rfl : n = 0 := Option.some.inj (hint.symm.trans hzero)
        exact hword (by decide)

theorem sameValue_of_compact_eq (hx : x.isFinite) (hy : y.isFinite)
    (h : (numberToJson x).compact = (numberToJson y).compact) :
    x.sameValue y := by
  rcases compact_numberToJson hx with ⟨a, ha, hmaxA, htextA⟩ | ⟨hzeroX, htextX⟩
  · rcases compact_numberToJson hy
      with ⟨b, hb, hmaxB, htextB⟩ | ⟨hzeroY, htextY⟩
    · rw [htextA, htextB] at h
      have hmin := integer_injective h
      have hneA : a ≠ twoTo 63 - 1 := by
        rintro rfl
        exact Binary64.toInt?_ne_maxWord x ha
      have hneB : b ≠ twoTo 63 - 1 := by
        rintro rfl
        exact Binary64.toInt?_ne_maxWord y hb
      obtain rfl : a = b := by omega
      exact Binary64.sameValue_trans (Binary64.sameValue_ofInt ha)
        (Binary64.sameValue_symm (Binary64.sameValue_ofInt hb))
    · rw [htextA, htextY] at h
      exact absurd h (text_integer_ne_realText hzeroY _)
  · rcases compact_numberToJson hy
      with ⟨b, hb, hmaxB, htextB⟩ | ⟨hzeroY, htextY⟩
    · rw [htextX, htextB] at h
      exact absurd h.symm (text_integer_ne_realText hzeroX _)
    · rw [htextX, htextY] at h
      rw [realText_injective hzeroX hzeroY h]
      exact y.sameValue_refl

end Literal

end ShapeMend
