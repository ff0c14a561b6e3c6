import ShapeMend.Script.Token.Scan

/-!
# Decimal numerals

A decimal is written as digits, perhaps a fraction and perhaps an exponent with
its sign.  A scan takes all of that, up to a character that no numeral goes on
with.
-/

namespace ShapeMend.Script

open ShapeMend.Text

def radixMarks : List Char := ['x', 'X', 'o', 'O', 'b', 'B']

theorem of_isDigit {c : Char} (h : c.isDigit) :
    startsWord c = false ∧ isBlank c = false ∧
    Quoted.isQuote c = false ∧ Numeral.isRun c ∧ c ∉ radixMarks ∧
    c ∉ ['\x60', '/', 'e', 'E', 'n', '_', '.'] := by
  have htable : ∀ n ∈ List.range' 48 10, startsWord (Char.ofNat n) = false ∧
      isBlank (Char.ofNat n) = false ∧ Quoted.isQuote (Char.ofNat n) = false ∧
      Numeral.isRun (Char.ofNat n) ∧ Char.ofNat n ∉ radixMarks ∧
      Char.ofNat n ∉ ['\x60', '/', 'e', 'E', 'n', '_', '.'] := by
    decide +kernel
  have hmem : c.toNat ∈ List.range' 48 10 := by
    have hzero : '0'.toNat = 48 := rfl
    have hnine : '9'.toNat = 57 := rfl
    have hle := Char.isDigit_iff_toNat.mp h
    rw [List.mem_range'_1]
    omega
  have hcode := htable c.toNat hmem
  rwa [Char.ofNat_toNat] at hcode

/-- The digits of a decimal.  The fraction and the exponent are left out if they
have none; the exponent has a sign, which is `true` for a negative one. -/
structure DecimalText where
  whole : List Char
  fraction : List Char
  exponent : Option (Bool × List Char)

namespace DecimalText

def exponentText (d : DecimalText) : List Char :=
  match d.exponent with
  | none => []
  | some (negative, digits) => 'e' :: (if negative then '-' else '+') :: digits

def fractionText (d : DecimalText) : List Char :=
  if d.fraction = [] then [] else '.' :: d.fraction

def text (d : DecimalText) : List Char :=
  d.whole ++ (d.fractionText ++ d.exponentText)

def isWritten (d : DecimalText) : Bool :=
  d.whole ≠ [] && d.whole.all Char.isDigit && d.fraction.all Char.isDigit &&
    d.exponent.all fun exponent =>
      exponent.2 ≠ [] && exponent.2.all Char.isDigit

end DecimalText

namespace Numeral

variable {after : List Char}

/-! ## The run of a numeral -/

private theorem runLength_stop (radix : Bool)
    (hafter : ∀ c ∈ after.head?, isRun c = false) :
    runLength radix after = 0 := by
  match after with
  | [] => rfl
  | [c] => simp [runLength, hafter c rfl]
  | c :: d :: rest => simp [runLength, hafter c rfl]

theorem runLength_cons (radix : Bool) {c : Char} (rest : List Char)
    (hrun : isRun c) (hmark : c ∉ ['e', 'E']) :
    runLength radix (c :: rest) = runLength radix rest + 1 := by
  simp only [List.mem_cons, not_or] at hmark
  cases rest with
  | nil => simp [runLength, hrun]
  | cons d rest =>
      rw [runLength, if_pos hrun]
      simp [hmark]

private theorem runLength_digits (radix : Bool) {digits : List Char}
    (hdigits : ∀ c ∈ digits, c.isDigit) (rest : List Char) :
    runLength radix (digits ++ rest) = digits.length +
      runLength radix rest := by
  induction digits with
  | nil => simp
  | cons c digits ih =>
      obtain ⟨-, -, -, hrun, -, hmarks⟩ :=
        of_isDigit (hdigits c List.mem_cons_self)
      simp only [List.mem_cons, not_or] at hmarks
      rw [List.cons_append, runLength_cons radix _ hrun (by simp [hmarks]),
        ih fun d hd => hdigits d (List.mem_cons_of_mem _ hd), List.length_cons]
      omega

/-! ## Written forms -/

private theorem isWellFormed_of_not_mem {s : List Char}
    (h : ∀ c d rest, s = c :: d :: rest → d ∉ radixMarks) :
    isWellFormed s = isDecimal s := by
  unfold isWellFormed
  split
  case h_7 => rfl
  all_goals exact absurd (h _ _ _ rfl) (by decide)

private theorem skipDigits_digits {digits rest : List Char}
    (hdigits : ∀ c ∈ digits, c.isDigit)
    (hrest : ∀ c ∈ rest.head?, c.isDigit = false ∧ c ≠ '_') :
    skipDigits Char.isDigit (digits ++ rest) = rest := by
  induction digits with
  | nil =>
      cases rest with
      | nil => rfl
      | cons c rest =>
          obtain ⟨hdigit, hscore⟩ := hrest c rfl
          rw [List.nil_append, skipDigits.eq_def]
          simp [hdigit, hscore]
  | cons c digits ih =>
      rw [List.cons_append, skipDigits.eq_def]
      simp only [hdigits c List.mem_cons_self, if_true]
      exact ih fun d hd => hdigits d (List.mem_cons_of_mem _ hd)

private theorem skipDigits?_digits {digits rest : List Char} (hne : digits ≠ [])
    (hdigits : ∀ c ∈ digits, c.isDigit)
    (hrest : ∀ c ∈ rest.head?, c.isDigit = false ∧ c ≠ '_') :
    skipDigits? Char.isDigit (digits ++ rest) = some rest := by
  obtain ⟨c, digits, rfl⟩ := List.exists_cons_of_ne_nil hne
  rw [List.cons_append, skipDigits?, if_pos (hdigits c List.mem_cons_self),
    skipDigits_digits (fun d hd => hdigits d (List.mem_cons_of_mem _ hd)) hrest]

end Numeral

namespace DecimalText

open Numeral

variable {d : DecimalText} {after : List Char}

theorem of_isWritten (h : d.isWritten) :
    d.whole ≠ [] ∧ (∀ c ∈ d.whole, c.isDigit) ∧
    (∀ c ∈ d.fraction, c.isDigit) ∧ ∀ exponent ∈ d.exponent, exponent.2 ≠ [] ∧
      ∀ c ∈ exponent.2, c.isDigit := by
  simpa [isWritten, and_assoc, Option.all_eq_true] using h

theorem head?_exponentText {c : Char}
    (h : c ∈ d.exponentText.head?) : c = 'e' := by
  unfold exponentText at h
  split at h
  · cases h
  · simpa using h.symm

/-- What stands behind the first digits begins with a point or an exponent
marker. -/
theorem head?_tail {c : Char}
    (h : c ∈ (d.fractionText ++ d.exponentText).head?) : c = '.' ∨ c = 'e' := by
  unfold fractionText at h
  split at h
  · exact .inr (head?_exponentText h)
  · exact .inl (by simpa using h.symm)

private theorem runLength_text (h : d.isWritten)
    (hafter : ∀ c ∈ after.head?, isRun c = false) :
    runLength false (d.text ++ after) = d.text.length := by
  obtain ⟨-, hwhole, hfraction, hexponent⟩ := of_isWritten h
  have hend :
      runLength false (d.exponentText ++ after) = d.exponentText.length := by
    unfold exponentText
    split
    · simpa using runLength_stop false hafter
    · next negative digits hsome =>
        have hdigits := runLength_digits false (hexponent _ hsome).2 after
        rw [runLength_stop false hafter] at hdigits
        cases negative <;> simp [runLength, isRun, hdigits]
  have htail : runLength false (d.fractionText ++ (d.exponentText ++ after)) =
      d.fractionText.length + d.exponentText.length := by
    unfold fractionText
    split
    · simpa using hend
    · rw [List.cons_append, runLength_cons false _ (by decide) (by decide),
        runLength_digits false hfraction, hend, List.length_cons]
      omega
  rw [text, List.append_assoc, List.append_assoc, runLength_digits false hwhole,
    htail, List.length_append, List.length_append]

private theorem isDecimal_text (h : d.isWritten) : isDecimal d.text := by
  obtain ⟨hne, hwhole, hfraction, hexponent⟩ := of_isWritten h
  have hmantissa : skipDigits? Char.isDigit d.text =
      some (d.fractionText ++ d.exponentText) := by
    refine skipDigits?_digits hne hwhole fun c hc => ?_
    rcases head?_tail hc with rfl | rfl <;> decide
  have hpoint : skipFraction (d.fractionText ++ d.exponentText) =
      d.exponentText := by
    unfold fractionText
    split
    · rw [List.nil_append, skipFraction.eq_def]
      split
      · next rest heq =>
            exact absurd (head?_exponentText (congrArg List.head? heq))
              (by decide)
      · rfl
    · next hsome =>
        have hdigits : skipDigits? Char.isDigit (d.fraction ++ d.exponentText) =
            some d.exponentText := by
          refine skipDigits?_digits hsome hfraction fun c hc => ?_
          rw [head?_exponentText hc]
          decide
        rw [List.cons_append, skipFraction, hdigits]
        rfl
  have hend : skipExponent d.exponentText = some [] := by
    unfold exponentText
    split
    · rfl
    · next negative digits hsome =>
        obtain ⟨hne, hdigits⟩ := hexponent _ hsome
        have hall : skipDigits? Char.isDigit (digits ++ []) = some [] :=
          skipDigits?_digits hne hdigits (by simp)
        rw [List.append_nil] at hall
        cases negative <;> simpa [skipExponent, skipSign] using hall
  obtain ⟨c, digits, hdigits⟩ := List.exists_cons_of_ne_nil hne
  have hfirst : c.isDigit := hwhole c (hdigits ▸ List.mem_cons_self)
  unfold isDecimal
  split
  · next rest heq =>
      rw [text, hdigits, List.cons_append] at heq
      exact absurd ((List.cons.inj heq).1 ▸ hfirst) (by decide)
  · simp [hmantissa, hpoint, hend, atEnd]

/-- A decimal in front of a text begins with a digit, has no mark of a radix,
and ends where the text begins. -/
theorem exists_text (h : d.isWritten)
    (hafter : ∀ c ∈ after.head?, isRun c = false) :
    ∃ c tail, d.text = c :: tail ∧ c.isDigit ∧
      hasRadixMark (c :: (tail ++ after)) = false ∧
      isWellFormed (c :: tail) ∧ runLength false (c :: (tail ++ after)) =
        tail.length + 1 := by
  obtain ⟨hne, hwhole, -⟩ := of_isWritten h
  obtain ⟨c, digits, hdigits⟩ := List.exists_cons_of_ne_nil hne
  have hfirst : c.isDigit := hwhole c (hdigits ▸ List.mem_cons_self)
  have htext :
      d.text = c :: (digits ++ (d.fractionText ++ d.exponentText)) := by
    rw [text, hdigits, List.cons_append]
  have hsecond :
      ∀ e ∈ (digits ++ (d.fractionText ++ d.exponentText) ++ after).head?,
      e ∉ radixMarks := by
    intro e he
    cases digits with
    | cons digit digits =>
        obtain rfl : digit = e := Option.some.inj he
        exact (of_isDigit (hwhole digit (hdigits ▸ by simp))).2.2.2.2.1
    | nil =>
        rw [List.nil_append, List.head?_append] at he
        rcases Option.or_eq_some_iff.mp he with htail | ⟨-, hlater⟩
        · rcases head?_tail htail with rfl | rfl <;> decide
        · intro hmark
          have hruns : radixMarks.all isRun := by decide
          exact Bool.false_ne_true
            ((hafter e hlater).symm.trans (List.all_eq_true.mp hruns e hmark))
  have hrun := runLength_text h hafter
  have hform := isDecimal_text h
  rw [htext] at hrun hform
  refine ⟨c, _, htext, hfirst, ?_, ?_, hrun⟩
  · unfold hasRadixMark
    split
    · next e rest heq =>
        have hmark := hsecond e (by rw [(List.cons.inj heq).2]; rfl)
        simpa [radixMarks] using hmark
    · rfl
  · rw [isWellFormed_of_not_mem]
    · exact hform
    · intro b e rest heq
      refine hsecond e ?_
      rw [(List.cons.inj heq).2]
      rfl

end DecimalText

theorem Token.measure_decimal {d : DecimalText} (h : d.isWritten)
    {after : List Char} (hafter : ∀ c ∈ after.head?, Numeral.isRun c = false) :
    ∃ c tail, d.text = c :: tail ∧ c.isDigit ∧ ∀ previous,
      measure previous c (tail ++ after) = .ok (.numeral, tail.length + 1) := by
  obtain ⟨c, tail, htext, hdigit, hradix, hform, hrun⟩ :=
    DecimalText.exists_text h hafter
  obtain ⟨-, -, hquote, -, -, hmarks⟩ := of_isDigit hdigit
  have htake : (c :: (tail ++ after)).take (tail.length + 1) = c :: tail := by
    rw [List.take_succ_cons, List.take_left]
  simp only [List.mem_cons, not_or] at hmarks
  refine ⟨c, tail, htext, hdigit, fun previous => ?_⟩
  unfold measure
  rw [hquote, if_neg Bool.false_ne_true, if_neg hmarks.1,
    if_pos (Or.inl hdigit)]
  simp only [hradix, hrun, htake, hform, if_true]

end ShapeMend.Script
