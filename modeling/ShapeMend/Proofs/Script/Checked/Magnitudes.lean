import ShapeMend.Proofs.Script.Checked.Machine
import ShapeMend.Proofs.Script.Numerals

/-!
# Magnitudes of numerals

What a scan takes for a numeral has a magnitude, unless it is a big integer:
without its underscores it has the mark of a radix, or is a decimal that can be
read.
-/

namespace ShapeMend.Script.Numeral

open ShapeMend.Number

def significant (text : List Char) : List Char := text.filter (· ≠ '_')

theorem significant_cons {c : Char} (rest : List Char) (h : c ≠ '_') :
    significant (c :: rest) = c :: significant rest :=
  List.filter_cons_of_pos (by simpa using h)

/-! ## Runs of digits -/

private theorem digits_cons {digit : Char → Bool} {c : Char}
    {rest left : List Char} (hc : digit c)
    (h : ∃ digits, significant rest = digits ++ significant left ∧ ∀ c ∈ digits,
      digit c) :
    ∃ digits, significant (c :: rest) = digits ++ significant left ∧
      ∀ c ∈ digits, digit c := by
  obtain ⟨digits, hdigits, hall⟩ := h
  by_cases hscore : c = '_'
  · refine ⟨digits, ?_, hall⟩
    rw [hscore, ← hdigits]
    rfl
  · refine ⟨c :: digits, ?_, List.forall_mem_cons.mpr ⟨hc, hall⟩⟩
    rw [significant_cons _ hscore, hdigits, List.cons_append]

private theorem exists_skipDigits (digit : Char → Bool) (text : List Char) :
    ∃ digits, significant text = digits ++ significant (skipDigits digit text) ∧
      ∀ c ∈ digits, digit c := by
  fun_induction skipDigits digit text with
  | case2 c rest hdigit ih => exact digits_cons hdigit ih
  | case3 d rest hdigit hscore ih =>
      have hdigits := digits_cons hdigit ih
      exact hdigits
  | _ => exact ⟨[], rfl, by simp⟩

theorem exists_skipDigits? {text left : List Char}
    (h : skipDigits? Char.isDigit text = some left) :
    ∃ digits, significant text = digits ++ significant left ∧ digits ≠ [] ∧
      ∀ c ∈ digits, c.isDigit := by
  cases text with
  | nil => cases h
  | cons c rest =>
      rw [skipDigits?] at h
      split at h
      · next hdigit =>
          obtain rfl := Option.some.inj h
          obtain ⟨digits, hdigits, hall⟩ := exists_skipDigits Char.isDigit rest
          have hscore : c ≠ '_' := fun hscore => by simp [hscore] at hdigit
          refine ⟨c :: digits, ?_, List.cons_ne_nil _ _,
            List.forall_mem_cons.mpr ⟨hdigit, hall⟩⟩
          rw [significant_cons _ hscore, hdigits, List.cons_append]
      · cases h

/-! ## Decimals -/

def IsFraction (part : List Char) : Prop :=
  part = [] ∨ ∃ digits, part = '.' :: digits ∧ ∀ c ∈ digits, c.isDigit

def IsExponent (part : List Char) : Prop :=
  part = [] ∨ ∃ mark rest, part = mark :: rest ∧ (mark = 'e' ∨ mark = 'E') ∧
    (Decimal.exponentOfText? rest).isSome

private theorem IsExponent.head? {part : List Char} (h : IsExponent part) :
    ∀ c ∈ part.head?, c = 'e' ∨ c = 'E' := by
  rcases h with rfl | ⟨mark, rest, rfl, hmark, -⟩
  · simp
  · intro c hc
    obtain rfl : mark = c := Option.some.inj hc
    exact hmark

private theorem span_digits {digits rest : List Char}
    (hdigits : ∀ c ∈ digits, c.isDigit)
    (hrest : ∀ c ∈ rest.head?, c.isDigit = false) :
    (digits ++ rest).takeWhile Char.isDigit = digits ∧
      (digits ++ rest).dropWhile Char.isDigit = rest := by
  rw [List.takeWhile_append_of_pos hdigits,
    List.dropWhile_append_of_pos hdigits]
  cases rest with
  | nil => simp
  | cons c rest => simp [hrest c rfl]

private theorem ofText?_isSome {whole fraction exponent : List Char}
    (hwhole : ∀ c ∈ whole, c.isDigit) (hfraction : IsFraction fraction)
    (hexponent : IsExponent exponent)
    (hsome : ∃ c ∈ whole ++ fraction, c.isDigit) :
    (Decimal.ofText? (whole ++ (fraction ++ exponent))).isSome := by
  have hmark {c : Char} (h : c ∈ exponent.head?) : c.isDigit = false := by
    rcases hexponent.head? c h with rfl | rfl <;> decide
  have hbehind : ∀ c ∈ (fraction ++ exponent).head?, c.isDigit = false := by
    rcases hfraction with rfl | ⟨digits, rfl, -⟩
    · exact fun c => hmark
    · intro c hc
      obtain rfl : '.' = c := Option.some.inj hc
      rfl
  obtain ⟨htake, -⟩ := span_digits hwhole hbehind
  unfold Decimal.ofText?
  simp only [htake, List.drop_left]
  rcases hfraction with rfl | ⟨digits, rfl, hdigits⟩
  · have hne : whole ≠ [] := by
      rintro rfl
      simp at hsome
    rcases hexponent with rfl | ⟨mark, rest, rfl, rfl | rfl, hrest⟩ <;> simp [*]
  · obtain ⟨htakes, hdrops⟩ := span_digits hdigits fun c => hmark
    have hne : ¬(whole = [] ∧ digits = []) := by
      rintro ⟨rfl, rfl⟩
      simp at hsome
    simp only [List.cons_append, htakes, hdrops]
    rcases hexponent with rfl | ⟨mark, rest, rfl, rfl | rfl, hrest⟩ <;> simp [*]

private theorem exists_skipFraction (text : List Char) :
    ∃ fraction, significant text = fraction ++ significant (skipFraction text) ∧
      IsFraction fraction := by
  fun_cases skipFraction text with
  | case1 rest =>
      have hpoint : significant ('.' :: rest) = '.' :: significant rest :=
        significant_cons rest (by decide)
      cases hskip : skipDigits? Char.isDigit rest with
      | none => exact ⟨['.'], hpoint, .inr ⟨[], rfl, by simp⟩⟩
      | some left =>
          obtain ⟨digits, hdigits, -, hall⟩ := exists_skipDigits? hskip
          exact ⟨'.' :: digits, hpoint.trans (congrArg (List.cons '.') hdigits),
            .inr ⟨digits, rfl, hall⟩⟩
  | case2 => exact ⟨[], rfl, .inl rfl⟩

private theorem exponentOfText?_isSome {digits : List Char} (hne : digits ≠ [])
    (hdigits : ∀ c ∈ digits, c.isDigit) :
    (Decimal.exponentOfText? digits).isSome ∧
      (Decimal.exponentOfText? ('+' :: digits)).isSome ∧
      (Decimal.exponentOfText? ('-' :: digits)).isSome := by
  refine ⟨?_, by simpa [Decimal.exponentOfText?, hne] using hdigits,
    by simpa [Decimal.exponentOfText?, hne] using hdigits⟩
  unfold Decimal.exponentOfText?
  split
  next negative rest hsplit =>
  split at hsplit
  · exact absurd (hdigits '-' List.mem_cons_self) (by decide)
  · exact absurd (hdigits '+' List.mem_cons_self) (by decide)
  · obtain ⟨rfl, rfl⟩ := Prod.mk.inj hsplit
    simpa [hne] using hdigits

private theorem exists_exponent {mark : Char} {rest left : List Char}
    (hmark : mark = 'e' ∨ mark = 'E')
    (h : skipDigits? Char.isDigit (skipSign rest) = some left) :
    ∃ exponent, significant (mark :: rest) = exponent ++ significant left ∧
      IsExponent exponent := by
  obtain ⟨digits, hdigits, hne, hall⟩ := exists_skipDigits? h
  obtain ⟨hplain, hplus, hminus⟩ := exponentOfText?_isSome hne hall
  have hfirst (tail : List Char) :
      significant (mark :: tail) = mark :: significant tail :=
    significant_cons tail (by rcases hmark with rfl | rfl <;> decide)
  revert hdigits
  fun_cases skipSign rest with
  | case1 rest =>
      intro hdigits
      refine ⟨mark :: '+' :: digits, ?_, .inr ⟨mark, _, rfl, hmark, hplus⟩⟩
      rw [hfirst, significant_cons rest (by decide), hdigits]
      rfl
  | case2 rest =>
      intro hdigits
      refine ⟨mark :: '-' :: digits, ?_, .inr ⟨mark, _, rfl, hmark, hminus⟩⟩
      rw [hfirst, significant_cons rest (by decide), hdigits]
      rfl
  | case3 =>
      intro hdigits
      refine ⟨mark :: digits, ?_, .inr ⟨mark, _, rfl, hmark, hplain⟩⟩
      rw [hfirst, hdigits]
      rfl

private theorem exists_skipExponent {text left : List Char}
    (h : skipExponent text = some left) :
    ∃ exponent, significant text = exponent ++ significant left ∧
      IsExponent exponent := by
  revert h
  fun_cases skipExponent text with
  | case1 rest => exact exists_exponent (.inl rfl)
  | case2 rest => exact exists_exponent (.inr rfl)
  | case3 =>
      intro h
      obtain rfl := Option.some.inj h
      exact ⟨[], rfl, .inl rfl⟩

private theorem atEnd_significant {text : List Char} (h : atEnd text) :
    significant text = [] ∨ significant text = ['n'] := by
  simp only [atEnd, Bool.or_eq_true, decide_eq_true_eq] at h
  rcases h with rfl | rfl
  · exact .inl rfl
  · exact .inr rfl

private theorem exists_mantissa {text left : List Char} (h : (match text with
      | '.' :: rest => skipDigits? Char.isDigit rest
      | _ => (skipDigits? Char.isDigit text).map skipFraction) = some left) :
    ∃ whole fraction, significant text =
      whole ++ (fraction ++ significant left) ∧ (∀ c ∈ whole, c.isDigit) ∧
      IsFraction fraction ∧ ∃ c ∈ whole ++ fraction, c.isDigit := by
  split at h
  · next rest =>
      obtain ⟨digits, hdigits, hne, hall⟩ := exists_skipDigits? h
      refine ⟨[], '.' :: digits, ?_, by simp, .inr ⟨digits, rfl, hall⟩, ?_⟩
      · rw [significant_cons rest (by decide), hdigits]
        rfl
      · obtain ⟨c, hc⟩ := List.exists_mem_of_ne_nil digits hne
        exact ⟨c, List.mem_cons_of_mem _ hc, hall c hc⟩
  · obtain ⟨behind, hbehind, rfl⟩ := Option.map_eq_some_iff.mp h
    obtain ⟨digits, hdigits, hne, hall⟩ := exists_skipDigits? hbehind
    obtain ⟨fraction, hsplit, hfraction⟩ := exists_skipFraction behind
    refine ⟨digits, fraction, by rw [hdigits, hsplit], hall, hfraction, ?_⟩
    obtain ⟨c, hc⟩ := List.exists_mem_of_ne_nil digits hne
    exact ⟨c, List.mem_append_left _ hc, hall c hc⟩

private theorem atEnd_of_isDecimal {mantissa : Option (List Char)}
    (h : ((mantissa.bind skipExponent).map atEnd).getD false) :
    ∃ tail last, mantissa = some tail ∧ skipExponent tail = some last ∧
      atEnd last := by
  cases mantissa with
  | none => cases h
  | some tail =>
      cases hlast : skipExponent tail with
      | none => simp [hlast] at h
      | some last => exact ⟨tail, last, rfl, hlast, by simpa [hlast] using h⟩

theorem ofText?_of_isDecimal {text : List Char} (h : isDecimal text) :
    (significant text).getLast? = some 'n' ∨
      (Decimal.ofText? (significant text)).isSome := by
  obtain ⟨tail, last, hmantissa, hexponent, hend⟩ := atEnd_of_isDecimal h
  obtain ⟨whole, fraction, htext, hwhole, hfraction, hsome⟩ :=
    exists_mantissa hmantissa
  obtain ⟨exponent, htail, hexponent⟩ := exists_skipExponent hexponent
  rw [htext, htail]
  rcases atEnd_significant hend with hlast | hlast
  · rw [hlast, List.append_nil]
    exact .inr (ofText?_isSome hwhole hfraction hexponent hsome)
  · rw [hlast, ← List.append_assoc, ← List.append_assoc]
    exact .inl List.getLast?_concat

theorem isDecimal_of_isWellFormed {text : List Char} (h : isWellFormed text)
    (hradix : LiteralValue.radixOfMark (significant text) = none) :
    isDecimal text := by
  unfold isWellFormed at h
  split at h
  case h_7 => exact h
  all_goals
    exact absurd hradix (by simp [significant, LiteralValue.radixOfMark])

private theorem dropBytes?_of_radixOfMark {digits : List Char} {radix : Nat}
    (h : LiteralValue.radixOfMark digits = some radix) :
    Text.dropBytes? 2 digits = some (digits.drop 2) := by
  unfold LiteralValue.radixOfMark at h
  split at h
  · next mark rest =>
      have hmark : mark ∈ radixMarks := by
        by_contra hnot
        simp only [radixMarks, List.mem_cons, List.not_mem_nil, or_false,
          not_or] at hnot
        simp [hnot] at h
      have hone : mark.utf8Size = 1 := by
        simp only [radixMarks, List.mem_cons, List.not_mem_nil, or_false]
          at hmark
        rcases hmark with rfl | rfl | rfl | rfl | rfl | rfl <;> rfl
      have hzero : '0'.utf8Size = 1 := rfl
      simp [Text.dropBytes?, hzero, hone]
  · cases h

theorem exists_magnitude {text : List Char} (h : isWellFormed text) :
    (significant text).getLast? = some 'n' ∨ ∃ magnitude,
      Checked.Machine.magnitude? (significant text) = some magnitude ∧
        LiteralValue.magnitude? (significant text) = some magnitude := by
  unfold Checked.Machine.magnitude? LiteralValue.magnitude?
  cases hradix : LiteralValue.radixOfMark (significant text) with
  | none =>
      refine (ofText?_of_isDecimal
        (isDecimal_of_isWellFormed h hradix)).imp_right fun hread => ?_
      obtain ⟨decimal, hdecimal⟩ := Option.isSome_iff_exists.mp hread
      have hmagnitude := congrArg (Option.map Decimal.toMagnitude) hdecimal
      exact ⟨decimal.toMagnitude, hmagnitude, hmagnitude⟩
  | some radix =>
      have hdigits := dropBytes?_of_radixOfMark hradix
      exact .inr ⟨_,
        congrArg (Option.map (LiteralValue.ofRadixDigits radix)) hdigits, rfl⟩

end ShapeMend.Script.Numeral
