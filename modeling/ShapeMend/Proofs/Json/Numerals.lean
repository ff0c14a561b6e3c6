import ShapeMend.Proofs.Json.Strings
import ShapeMend.Proofs.Number.Layouts
import ShapeMend.Proofs.Number.Rounding

/-!
# Reading numbers back

The digits of a decimal text are collected as long as they fit a word, and the
rest of them only move the exponent, so what is collected stands for no more
than the decimal.  The text is read as a number if that can be scaled.
-/

namespace ShapeMend.Json

open ShapeMend.Number ShapeMend.Script

/-! ## Digits -/

section Digits

variable {digits : List Char}

theorem isDigit_of_mem_bytes (h : ∀ c ∈ digits, c.isDigit) {byte : UInt8}
    (hbyte : byte ∈ bytes digits) : Scan.isDigit byte := by
  obtain ⟨c, hc, hbyte⟩ := List.mem_flatMap.mp hbyte
  obtain ⟨hcode, hdigit, -⟩ := encode_digit (h c hc)
  rw [hcode, List.mem_singleton] at hbyte
  exact hbyte ▸ hdigit

theorem bytes_digits (h : ∀ c ∈ digits, c.isDigit) :
    bytes digits = digits.map fun c => UInt8.ofNat c.toNat := by
  induction digits with
  | nil => rfl
  | cons c digits ih =>
      obtain ⟨hdigit, hmore⟩ := List.forall_mem_cons.mp h
      rw [bytes_cons, (encode_digit hdigit).1, ih hmore]
      rfl

theorem natOfDigits_cons (start : Nat) (c : Char) (digits : List Char) :
    Decimal.natOfDigits start (c :: digits) =
      Decimal.natOfDigits (start * 10 + (c.toNat - '0'.toNat)) digits :=
  List.foldl_cons

theorem le_natOfDigits (start : Nat) (digits : List Char) :
    start * 10 ^ digits.length ≤ Decimal.natOfDigits start digits := by
  induction digits generalizing start with
  | nil => exact Nat.le_of_eq (Nat.mul_one start)
  | cons c digits ih =>
      rw [natOfDigits_cons, List.length_cons, Nat.pow_succ']
      refine Nat.le_trans ?_ (ih _)
      rw [← Nat.mul_assoc]
      exact Nat.mul_le_mul_right _ (Nat.le_add_right _ _)

private theorem foldl_bytes (h : ∀ c ∈ digits, c.isDigit) (start : Nat) :
    (bytes digits).foldl (fun n digit => n * 10 + Scan.digitValue digit) start =
      Decimal.natOfDigits start digits := by
  induction digits generalizing start with
  | nil => rfl
  | cons c digits ih =>
      obtain ⟨hdigit, hmore⟩ := List.forall_mem_cons.mp h
      obtain ⟨hcode, -, hvalue⟩ := encode_digit hdigit
      rw [bytes_cons, hcode, List.singleton_append, List.foldl_cons, hvalue,
        ih hmore, natOfDigits_cons]

/-- What is collected fits a word and is no more than what the digits write; it
is the same if that fits. -/
theorem appendDigits_bytes (h : ∀ c ∈ digits, c.isDigit) {start : Nat}
    (hstart : start ≤ Scan.maxWord) {significand left : Nat}
    (hcollected : Scan.appendDigits start (bytes digits) =
      (significand, left)) :
    significand ≤ Scan.maxWord ∧ left ≤ digits.length ∧
      significand * 10 ^ left ≤ Decimal.natOfDigits start digits ∧
      (Decimal.natOfDigits start digits ≤ Scan.maxWord →
        significand = Decimal.natOfDigits start digits ∧ left = 0) := by
  induction digits generalizing start with
  | nil =>
      obtain ⟨rfl, rfl⟩ := Prod.mk.inj hcollected
      exact ⟨hstart, Nat.le_refl _, Nat.le_of_eq (Nat.mul_one _),
        fun _ => ⟨rfl, rfl⟩⟩
  | cons c digits ih =>
      obtain ⟨hdigit, hmore⟩ := List.forall_mem_cons.mp h
      obtain ⟨hcode, -, hvalue⟩ := encode_digit hdigit
      rw [bytes_cons, hcode, List.singleton_append, Scan.appendDigits, hvalue]
        at hcollected
      rw [natOfDigits_cons]
      split at hcollected
      · next hlarge =>
          obtain ⟨rfl, rfl⟩ := Prod.mk.inj hcollected
          have hlength : (bytes digits).length = digits.length := by
            rw [bytes_digits hmore, List.length_map]
          have hgrown :=
            le_natOfDigits (start * 10 + (c.toNat - '0'.toNat)) digits
          rw [hlength]
          refine ⟨hstart, Nat.le_refl _, ?_, fun hfits => ?_⟩
          · refine Nat.le_trans ?_ hgrown
            rw [Nat.pow_succ', ← Nat.mul_assoc]
            exact Nat.mul_le_mul_right _ (Nat.le_add_right _ _)
          · have hone :=
              Nat.le_mul_of_pos_right (start * 10 + (c.toNat - '0'.toNat))
              (Nat.pow_pos (n := digits.length) (by decide : 0 < 10))
            omega
      · next hsmall =>
          obtain ⟨hword, hleft, hle, hsame⟩ :=
            ih hmore (Nat.le_of_not_lt hsmall) hcollected
          exact ⟨hword, Nat.le_succ_of_le hleft, hle, hsame⟩

end Digits

namespace Scan

variable {path : Path} {negative : Bool} {significand : Nat} {exponent : Int}

/-! ## Numbers -/

theorem Reads.real (h : (scale? significand exponent).isSome) :
    Reads (real path negative significand exponent) [] Any True fun _ =>
      True := by
  obtain ⟨magnitude, hscale⟩ := Option.isSome_iff_exists.mp h
  rw [Scan.real, hscale]
  exact Reads.pure trivial

theorem closed_isDigit {rest : List UInt8} (h : Closed rest) :
    ∀ byte ∈ rest.head?, isDigit byte = false :=
  fun byte hbyte => (h byte hbyte).1

def scaleBy (path : Path) (negative : Bool) (significand : Nat) (exponent : Int)
    (down : Bool) (digits : List UInt8) : Scan JsonNumber :=
  match exponentOf? digits with
  | some n => do
    skip digits.length
    real path negative significand (if down then exponent - n else exponent + n)
  | none =>
    if significand ≠ 0 && !down then do
      skip (digitsToLimit 0 digits)
      failHere path .numberRange
    else do
      skip digits.length
      return .real ⟨negative, .zero⟩

section Exponents

variable {down : Bool} {digits : List Char} (hdigits : ∀ c ∈ digits, c.isDigit)
  (hsmall : down = false → Decimal.natOfDigits 0 digits ≤ maxExponent)
  (hscale :
    (scale? significand (if down then exponent - Decimal.natOfDigits 0 digits
    else exponent + Decimal.natOfDigits 0 digits)).isSome)

include hdigits hsmall hscale

/-- An exponent is read if it is no greater than can be counted and the number
can be scaled by it. -/
private theorem Reads.scaleBy :
    Reads (scaleBy path negative significand exponent down (bytes digits))
    (bytes digits) Any True fun _ => True := by
  have hvalue :
      (bytes digits).foldl (fun n digit => n * 10 + digitValue digit) 0 = _ :=
    foldl_bytes hdigits 0
  unfold Scan.scaleBy
  rw [exponentOf?, hvalue]
  by_cases hfits : Decimal.natOfDigits 0 digits ≤ maxExponent
  · rw [if_pos hfits]
    exact (Reads.skip rfl).last (fun _ _ => Reads.real hscale) fun _ h => h
  · have hdown : down = true := by
      cases down with
      | true => rfl
      | false => exact absurd (hsmall rfl) hfits
    rw [if_neg hfits, hdown, if_neg (by simp)]
    exact (Reads.skip rfl).last (fun _ _ => Reads.pure trivial) fun _ h => h

private theorem Reads.exponentPart (hne : digits ≠ []) :
    Reads (exponentPart path negative significand exponent)
      (bytes ('e' :: (if down then '-' else '+') :: digits)) Closed True
        fun _ => True := by
  obtain ⟨c, more, hcons⟩ := List.exists_cons_of_ne_nil hne
  obtain ⟨hcode, hbyte, -⟩ :=
    encode_digit (hdigits c (hcons ▸ List.mem_cons_self))
  have hfront : bytes digits = UInt8.ofNat c.toNat :: bytes more := by
    rw [hcons, bytes_cons, hcode, List.singleton_append]
  have hread {next : Option UInt8 → Scan JsonNumber}
      (hnext : next (some (UInt8.ofNat c.toNat)) = (do
        Scan.scaleBy path negative significand exponent down
          ((← get).ahead.takeWhile isDigit))) :
      Reads (do next (← Scan.peek)) (bytes digits) Closed True fun _ =>
        True := by
    have hrun : Reads (do
          Scan.scaleBy path negative significand exponent down
            ((← get).ahead.takeWhile isDigit))
        (bytes digits) Closed True fun _ => True :=
      Reads.run (fun _ => isDigit_of_mem_bytes hdigits)
        (fun _ => closed_isDigit)
        ((Reads.scaleBy hdigits hsmall hscale).imp Iff.rfl (fun _ h => h)
          fun _ _ => trivial)
    rw [hfront] at hrun ⊢
    refine Reads.peek ?_
    rwa [hnext]
  have hplain : ¬ (!isDigit (UInt8.ofNat c.toNat)) = true := by simp [hbyte]
  refine (Reads.advance 0x65).andThen (fun _ _ => ?_) fun _ _ => trivial
  cases down with
  | true =>
      refine Reads.peek ?_
      exact (Reads.advance 0x2D).andThen (fun _ _ => hread (if_neg hplain))
        fun _ _ => trivial
  | false =>
      refine Reads.peek ?_
      exact (Reads.advance 0x2B).andThen (fun _ _ => hread (if_neg hplain))
        fun _ _ => trivial

end Exponents

def Scales (d : Decimal) : Prop :=
  ∀ significand exponent,
    significand ≤ maxWord → (significand : ℚ) * 10 ^ exponent ≤ d.value →
    (d.digits ≤ maxWord → significand = d.digits ∧ exponent = d.exponent) →
      (scale? significand exponent).isSome

structure IsNumber (d : DecimalText) : Prop where
  written : d.isWritten
  leading : d.whole = ['0'] ∨ ∀ c ∈ d.whole.head?, c ≠ '0'
  whole : Decimal.natOfDigits 0 d.whole ≤ maxWord
  exponent : ∀ digits, d.exponent = some (false, digits) →
    Decimal.natOfDigits 0 digits ≤ maxExponent
  scales : Scales d.decimal

variable {d : DecimalText}

theorem exists_exponentText (path : Path) (negative : Bool) (hd : IsNumber d)
    (hsome : d.exponent.isSome)
    (hscale : (scale? significand (exponent + d.places)).isSome) :
    ∃ rest, bytes d.exponentText = 0x65 :: rest ∧
      Reads (exponentPart path negative significand exponent) (0x65 :: rest)
        Closed True
        fun _ => True := by
  obtain ⟨⟨down, digits⟩, hcase⟩ := Option.isSome_iff_exists.mp hsome
  obtain ⟨-, -, -, hexponent⟩ := DecimalText.of_isWritten hd.written
  obtain ⟨hne, hdigits⟩ := hexponent _ hcase
  refine ⟨bytes ((if down then '-' else '+') :: digits), ?_, ?_⟩
  · rw [DecimalText.exponentText, hcase]
    rfl
  · refine Reads.exponentPart hdigits (fun hdown => ?_) ?_ hne
    · exact hd.exponent digits (by rw [hcase, hdown])
    · simp only [DecimalText.places, hcase] at hscale
      cases down with
      | true => simpa [Int.sub_eq_add_neg] using hscale
      | false => simpa using hscale

theorem exponentText_of_none (h : d.exponent.isSome = false) :
    d.exponentText = [] ∧ d.places = 0 := by
  have hnone : d.exponent = none := by simpa using h
  simp [DecimalText.exponentText, DecimalText.places, hnone]

theorem Reads.peek_closed {next : Option UInt8 → Scan JsonNumber}
    {post : JsonNumber → Prop}
    (h : ∀ found : Option UInt8,
      found.any isDigit = false → found ≠ some 0x2E → isExponentMark found =
      false → Reads (next found) [] Closed True post) :
    Reads (do next (← Scan.peek)) [] Closed True post := by
  intro rest place hrest
  have hends : rest.head?.any isDigit = false ∧ rest.head? ≠ some 0x2E ∧
      isExponentMark rest.head? = false := by
    cases rest with
    | nil => decide
    | cons byte rest =>
        obtain ⟨hdigit, hpoint, hlower, hupper⟩ := hrest byte rfl
        simp [isExponentMark, hdigit, hpoint, hlower, hupper]
  exact h rest.head? hends.1 hends.2.1 hends.2.2 rest place hrest

private theorem Reads.exponentText (hd : IsNumber d)
    (hscale : (scale? significand (exponent + d.places)).isSome) :
    Reads (do
        if isExponentMark (← Scan.peek) then
          Scan.exponentPart path negative significand exponent
        else Scan.real path negative significand exponent)
      (bytes d.exponentText) Closed True fun _ => True := by
  cases hcase : d.exponent.isSome with
  | false =>
      obtain ⟨htext, hplaces⟩ := exponentText_of_none hcase
      rw [hplaces, Int.add_zero] at hscale
      rw [htext]
      refine Reads.peek_closed fun found _ _ hexponent => ?_
      rw [hexponent, if_neg (by decide)]
      exact (Reads.real hscale).imp Iff.rfl (fun _ h => h) fun _ _ => trivial
  | true =>
      obtain ⟨rest, htext, hpart⟩ :=
        exists_exponentText path negative hd hcase hscale
      rw [htext]
      refine Reads.peek ?_
      rw [if_pos (by decide)]
      exact hpart

theorem closed_exponentText {rest : List UInt8} (h : Closed rest) :
    ∀ byte ∈ (bytes d.exponentText ++ rest).head?, isDigit byte = false := by
  intro byte hbyte
  cases hcase : d.exponent with
  | none =>
      rw [DecimalText.exponentText, hcase] at hbyte
      exact closed_isDigit h byte hbyte
  | some written =>
      rw [DecimalText.exponentText, hcase] at hbyte
      obtain rfl := Option.some.inj hbyte
      decide

theorem value_decimal (d : DecimalText) : d.decimal.value =
    Decimal.natOfDigits (Decimal.natOfDigits 0 d.whole) d.fraction *
      (10 : ℚ) ^ (d.places - d.fraction.length) := by
  rw [DecimalText.decimal, Decimal.value, Decimal.natOfDigits_append]

private theorem Reads.fractionPart (hd : IsNumber d) (hne : d.fraction ≠ []) :
    Reads (fractionPart path negative (Decimal.natOfDigits 0 d.whole) 0)
      (bytes ('.' :: d.fraction ++ d.exponentText)) Closed True fun _ =>
        True := by
  obtain ⟨-, -, hfraction, -⟩ := DecimalText.of_isWritten hd.written
  have htext : bytes ('.' :: d.fraction ++ d.exponentText) =
      [0x2E] ++ (bytes d.fraction ++ bytes d.exponentText) := by
    rw [List.cons_append, bytes_cons, bytes_append]
    rfl
  rw [htext]
  refine (Reads.advance _).andThen (fun _ _ => ?_) fun _ _ => trivial
  have hrun : Reads (Scan.takeWhile isDigit) (bytes d.fraction)
      (fun rest => ∀ byte ∈ rest.head?,
        isDigit byte = false) True (· = bytes d.fraction) :=
    Reads.takeWhile (fun _ => isDigit_of_mem_bytes hfraction) fun _ h => h
  refine hrun.andThen ?_ fun _ => closed_exponentText
  rintro _ rfl
  obtain ⟨c, more, hcons⟩ := List.exists_cons_of_ne_nil hne
  have hlength : (bytes d.fraction).length = d.fraction.length := by
    rw [bytes_digits hfraction, List.length_map]
  have hfull : (bytes d.fraction).isEmpty = false := by
    rw [List.isEmpty_eq_false_iff, ← List.length_pos_iff, hlength]
    exact List.length_pos_iff.mpr hne
  rw [hfull, if_neg (by decide)]
  cases hcollected :
    appendDigits (Decimal.natOfDigits 0 d.whole) (bytes d.fraction) with
  | mk significand left =>
      obtain ⟨hword, hleft, hle, hsame⟩ :=
        appendDigits_bytes hfraction hd.whole hcollected
      refine Reads.exponentText hd (hd.scales _ _ hword ?_ fun hfits => ?_)
      · have hexponent : ((0 : Nat) : Int) -
            ((bytes d.fraction).length - left : Nat) + d.places =
            left + (d.places - d.fraction.length) := by omega
        have hcast : (significand : ℚ) * 10 ^ left ≤
            Decimal.natOfDigits (Decimal.natOfDigits 0 d.whole) d.fraction := by
              exact_mod_cast hle
        rw [value_decimal, hexponent, zpow_add₀ (by norm_num), zpow_natCast,
          ← mul_assoc]
        exact mul_le_mul_of_nonneg_right hcast (by positivity)
      · have hdigits : d.decimal.digits =
            Decimal.natOfDigits (Decimal.natOfDigits 0 d.whole) d.fraction :=
          Decimal.natOfDigits_append 0 d.whole d.fraction
        obtain ⟨rfl, rfl⟩ := hsame (hdigits ▸ hfits)
        refine ⟨hdigits.symm, ?_⟩
        rw [hlength, DecimalText.decimal]
        simp only
        omega

private theorem Reads.wholeTail (hd : IsNumber d) {first : UInt8} :
    Reads (do
        let after ← Scan.peek
        if first = 0x30 && after.any isDigit then failNext path .number
        else if after = some 0x2E then
          Scan.fractionPart path negative (Decimal.natOfDigits 0 d.whole) 0
        else if isExponentMark after then
          Scan.exponentPart path negative (Decimal.natOfDigits 0 d.whole) 0
        else if 0 =
          0 then return integer negative (Decimal.natOfDigits 0 d.whole)
        else Scan.real path negative (Decimal.natOfDigits 0 d.whole) 0)
      (bytes (d.fractionText ++ d.exponentText)) Closed True fun _ => True := by
  by_cases hne : d.fraction = []
  · rw [DecimalText.fractionText, if_pos hne, List.nil_append]
    cases hcase : d.exponent.isSome with
    | false =>
        rw [(exponentText_of_none hcase).1]
        refine Reads.peek_closed fun found hdigit hpoint hexponent => ?_
        rw [hdigit, Bool.and_false, if_neg (by decide), if_neg hpoint,
          hexponent, if_neg (by decide), if_pos rfl]
        exact Reads.pure trivial
    | true =>
        have hscale :
            (scale? (Decimal.natOfDigits 0 d.whole) (0 + d.places)).isSome := by
          have hvalue := value_decimal d
          refine hd.scales _ _ hd.whole ?_ fun _ => ?_
          · rw [hvalue, hne]
            simp [Decimal.natOfDigits]
          · simp [DecimalText.decimal, hne]
        obtain ⟨rest, htext, hpart⟩ :=
          exists_exponentText path negative hd hcase hscale
        rw [htext]
        refine Reads.peek ?_
        have hdigit : (some (0x65 : UInt8)).any isDigit = false := by decide
        rw [hdigit, Bool.and_false, if_neg (by decide), if_neg (by decide),
          if_pos (by decide)]
        exact hpart
  · have hpart : Reads (Scan.fractionPart path negative _ 0) _ Closed True _ :=
      Reads.fractionPart hd hne
    have hmark (rest : List Char) :
        bytes ('.' :: rest) = 0x2E :: bytes rest := rfl
    rw [List.cons_append, hmark] at hpart
    rw [DecimalText.fractionText, if_neg hne, List.cons_append, hmark]
    refine Reads.peek ?_
    have hdigit : (some (0x2E : UInt8)).any isDigit = false := by decide
    rw [hdigit, Bool.and_false, if_neg (by decide), if_pos rfl]
    exact hpart

private theorem closed_tail {rest : List UInt8} (h : Closed rest) :
    ∀ byte ∈ (bytes (d.fractionText ++ d.exponentText) ++ rest).head?,
      isDigit byte = false := by
  by_cases hne : d.fraction = []
  · rw [DecimalText.fractionText, if_pos hne, List.nil_append]
    exact closed_exponentText h
  · rw [DecimalText.fractionText, if_neg hne]
    intro byte hbyte
    obtain rfl := Option.some.inj hbyte
    decide

private theorem appendDigits_whole (hd : IsNumber d) {c : Char}
    {more : List Char} (hcons : d.whole = c :: more)
    (hdigits : ∀ digit ∈ c :: more, digit.isDigit) :
    appendDigits (digitValue (UInt8.ofNat c.toNat)) (bytes more) =
      (Decimal.natOfDigits 0 d.whole, 0) := by
  obtain ⟨hfirst, hmore⟩ := List.forall_mem_cons.mp hdigits
  obtain ⟨-, -, hvalue⟩ := encode_digit hfirst
  have hwhole : Decimal.natOfDigits (digitValue (UInt8.ofNat c.toNat)) more =
      Decimal.natOfDigits 0 d.whole := by
    rw [hcons, natOfDigits_cons, hvalue, Nat.zero_mul, Nat.zero_add]
  have hfits := hwhole ▸ hd.whole
  have hstart : digitValue (UInt8.ofNat c.toNat) ≤ maxWord := by
    refine Nat.le_trans ?_ hfits
    exact Nat.le_trans (Nat.le_mul_of_pos_right _ (Nat.pow_pos (by decide)))
      (le_natOfDigits _ more)
  obtain ⟨-, -, -, hsame⟩ := appendDigits_bytes hmore hstart rfl
  rw [← hwhole]
  exact Prod.ext (hsame hfits).1 (hsame hfits).2

private theorem eq_nil_of_leading_zero (hd : IsNumber d) {c : Char}
    {more : List Char} (hcons : d.whole = c :: more) (hfirst : c.isDigit)
    (hzero : UInt8.ofNat c.toNat = 0x30) : more = [] := by
  obtain ⟨-, -, hvalue⟩ := encode_digit hfirst
  have hsame : c = '0' := by
    have hlow : '0'.toNat ≤ c.toNat := (Char.isDigit_iff_toNat.mp hfirst).1
    have hnone : digitValue 0x30 = 0 := rfl
    rw [hzero, hnone] at hvalue
    exact Char.toNat_inj.mp (by omega)
  rcases hd.leading with hwhole | hleading
  · rw [hcons] at hwhole
    exact (List.cons.inj hwhole).2
  · rw [hcons] at hleading
    exact absurd hsame (hleading c rfl)

theorem Reads.number (hd : IsNumber d) :
    Reads (number path negative) (bytes d.text) Closed True fun _ => True := by
  obtain ⟨hne, hwhole, -, -⟩ := DecimalText.of_isWritten hd.written
  obtain ⟨c, more, hcons⟩ := List.exists_cons_of_ne_nil hne
  rw [hcons] at hwhole
  have hcollected := appendDigits_whole hd hcons hwhole
  obtain ⟨hfirst, hmore⟩ := List.forall_mem_cons.mp hwhole
  obtain ⟨hcode, hbyte, -⟩ := encode_digit hfirst
  have htext : bytes d.text = [UInt8.ofNat c.toNat] ++
      (bytes more ++ bytes (d.fractionText ++ d.exponentText)) := by
    rw [DecimalText.text, bytes_append, hcons, bytes_cons, hcode,
      List.append_assoc]
  rw [htext]
  refine Reads.next.andThen ?_ fun _ _ => trivial
  rintro _ rfl
  dsimp only
  rw [hbyte, if_neg (by decide)]
  split
  · next hzero =>
      rw [eq_nil_of_leading_zero hd hcons hfirst hzero] at hcollected ⊢
      have hnone : Reads (Pure.pure ([] : List UInt8)) (bytes []) Any True
          (· = bytes []) :=
        Reads.pure rfl
      refine hnone.andThen ?_ fun _ _ => trivial
      rintro _ rfl
      rw [hcollected]
      exact Reads.wholeTail hd
  · refine (Reads.takeWhile (fun _ => isDigit_of_mem_bytes hmore)
      fun _ h => h).andThen ?_
      fun _ => closed_tail
    rintro _ rfl
    rw [hcollected]
    exact Reads.wholeTail hd

end Scan

end ShapeMend.Json

namespace ShapeMend

open ShapeMend.Number ShapeMend.Script ShapeMend.Json.Scan

/-! ## Digits of written numbers -/

namespace Number.Decimal

theorem natOfDigits_lt {digits : List Char} (h : ∀ c ∈ digits, c.isDigit)
    (start : Nat) :
    natOfDigits start digits < (start + 1) * 10 ^ digits.length := by
  induction digits generalizing start with
  | nil =>
      exact Nat.lt_of_lt_of_eq (Nat.lt_succ_self start) (Nat.mul_one _).symm
  | cons c digits ih =>
      obtain ⟨hdigit, hmore⟩ := List.forall_mem_cons.mp h
      obtain ⟨-, hnine⟩ : 48 ≤ c.toNat ∧ c.toNat ≤ 57 :=
        Char.isDigit_iff_toNat.mp hdigit
      have hzero : '0'.toNat = 48 := rfl
      have hlater := ih hmore (start * 10 + (c.toNat - '0'.toNat))
      rw [Json.natOfDigits_cons, List.length_cons, Nat.pow_succ',
        ← Nat.mul_assoc]
      exact Nat.lt_of_lt_of_le hlater (Nat.mul_le_mul_right _ (by omega))

theorem head_toDigits {n : Nat} (h : n ≠ 0) :
    ∀ c ∈ (Nat.toDigits 10 n).head?, c ≠ '0' := by
  rintro c hc rfl
  obtain ⟨digits, hdigits⟩ : ∃ digits, Nat.toDigits 10 n = '0' :: digits := by
    cases hcase : Nat.toDigits 10 n with
    | nil => exact absurd hcase Nat.toDigits_ne_nil
    | cons first digits =>
        rw [hcase] at hc
        exact ⟨digits, by rw [Option.some.inj hc]⟩
  have hmore : ∀ c ∈ digits, c.isDigit := fun c hc =>
    isDigit_of_mem (n := n) (hdigits ▸ List.mem_cons_of_mem _ hc)
  have hless := natOfDigits_lt hmore 0
  have hgreat := Magnitude.tenTo_length_le h
  have hvalue := natOfDigits_toDigits n
  rw [hdigits, Json.natOfDigits_cons, Nat.sub_self] at hvalue
  rw [hdigits, List.length_cons, Nat.add_sub_cancel] at hgreat
  rw [Nat.zero_add, Nat.one_mul] at hless
  exact absurd hvalue (Nat.ne_of_lt (Nat.lt_of_lt_of_le hless hgreat))

private theorem head_trim {d : Decimal} (h : 0 < d.digits) :
    ∀ c ∈ d.trim.1.head?, c ≠ '0' := by
  obtain ⟨zeros, hzeros⟩ := exists_toDigits_eq d
  obtain ⟨c, digits, hcons⟩ := List.exists_cons_of_ne_nil (trim_ne_nil h)
  have hhead := head_toDigits (Nat.ne_of_gt h)
  rw [hzeros, hcons] at hhead
  rw [hcons]
  exact hhead

end Number.Decimal

namespace JsonNumber

/-- The digits before the point are few, and begin with a zero only where they
are nothing else. -/
private theorem whole_laidOut {digits : List Char}
    (hhead : ∀ c ∈ digits.head?, c ≠ '0') (hne : digits ≠ []) (exponent : Int) :
    (laidOut digits exponent).whole.length ≤ 16 ∧
      ((laidOut digits exponent).whole = ['0'] ∨
        ∀ c ∈ (laidOut digits exponent).whole.head?, c ≠ '0') := by
  have htake (count : Nat) : ∀ c ∈ (digits.take (count + 1)).head?,
      c ≠ '0' := by
    obtain ⟨c, more, rfl⟩ := List.exists_cons_of_ne_nil hne
    exact hhead
  simp only [laidOut]
  split
  · split
    · refine ⟨?_, .inr ?_⟩
      · rw [List.length_append, List.length_replicate]
        omega
      · obtain ⟨c, more, rfl⟩ := List.exists_cons_of_ne_nil hne
        exact hhead
    split
    · exact ⟨Nat.le_trans (List.length_take_le _ _) (by omega), .inr (htake _)⟩
    · exact ⟨Nat.le_add_left 1 15, .inl rfl⟩
  · exact ⟨Nat.le_trans (List.length_take_le _ _) (by decide), .inr (htake 0)⟩

private theorem exponent_laidOut {digits : List Char}
    (hhead : ∀ c ∈ digits.head?, c ≠ '0') (hne : digits ≠ [])
    (hdigits : ∀ c ∈ digits, c.isDigit) {exponent : Int} {written : List Char}
    (h : (laidOut digits exponent).exponent = some (false, written)) :
    (10 : ℚ) ^ Decimal.natOfDigits 0 written ≤ Decimal.natOfDigits 0 digits *
      (10 : ℚ) ^ exponent := by
  simp only [laidOut] at h
  split at h
  · split at h
    · cases h
    split at h
    · cases h
    · cases h
  · obtain ⟨hsign, rfl⟩ := Prod.mk.inj (Option.some.inj h)
    rw [decide_eq_false_iff_not] at hsign
    obtain ⟨c, more, rfl⟩ := List.exists_cons_of_ne_nil hne
    have hone : 1 ≤ 0 * 10 + (c.toNat - '0'.toNat) := by
      obtain ⟨hlow, -⟩ : 48 ≤ c.toNat ∧ c.toNat ≤ 57 :=
        Char.isDigit_iff_toNat.mp (hdigits c List.mem_cons_self)
      have hzero : '0'.toNat = 48 := rfl
      have hne : c.toNat ≠ '0'.toNat :=
        fun hsame => hhead c rfl (Char.toNat_inj.mp hsame)
      omega
    have hgreat : 10 ^ more.length ≤ Decimal.natOfDigits 0 (c :: more) :=
      Nat.le_trans (Nat.le_mul_of_pos_left _ hone) (Json.le_natOfDigits _ more)
    have hcast : (10 : ℚ) ^ more.length ≤
        Decimal.natOfDigits 0 (c :: more) := by exact_mod_cast hgreat
    have hexponent : ((exponent + (c :: more).length - 1).natAbs : Int) =
        more.length + exponent := by
      rw [Int.natAbs_of_nonneg (by omega), List.length_cons]
      omega
    rw [Decimal.natOfDigits_toDigits, ← zpow_natCast, hexponent,
      zpow_add₀ (by norm_num), zpow_natCast]
    exact mul_le_mul_of_nonneg_right hcast (by positivity)

end JsonNumber

namespace Json.Scan.IsNumber

private theorem integer {value : Int} (h : JsonNumber.isWord value) :
    IsNumber (JsonNumber.integerDecimal value) := by
  have hsize : value.natAbs ≤ maxWord := by
    simp only [JsonNumber.isWord, Bool.and_eq_true, decide_eq_true_eq] at h
    simp only [maxWord, twoTo, Nat.pow_eq] at h ⊢
    omega
  have hdecimal :
      (JsonNumber.integerDecimal value).decimal = ⟨value.natAbs, 0⟩ := by
    simp only [DecimalText.decimal, JsonNumber.integerDecimal, List.append_nil,
      Decimal.natOfDigits_toDigits]
    rfl
  refine ⟨JsonNumber.isWritten_integerDecimal value, ?_, ?_, ?_, ?_⟩
  · by_cases hzero : value.natAbs = 0
    · refine .inl ?_
      rw [JsonNumber.integerDecimal, hzero]
      rfl
    · exact .inr (Decimal.head_toDigits hzero)
  · rw [JsonNumber.integerDecimal, Decimal.natOfDigits_toDigits]
    exact hsize
  · intro digits hnone
    cases hnone
  · intro significand exponent hword hvalue _
    refine Magnitude.isSome_scale? hword (le_trans hvalue ?_)
    have hgreat : maxWord ≤ Magnitude.topMiddle := by decide +kernel
    rw [hdecimal, Decimal.value, zpow_zero, mul_one]
    exact_mod_cast Nat.le_trans hsize hgreat

private theorem scales_greatest {x : Binary64}
    (h : x.magnitude = Magnitude.greatest) :
    Scales (JsonNumber.realDecimal x).decimal := by
  have hdecimal :
      (JsonNumber.realDecimal x).decimal = ⟨17976931348623157, 292⟩ := by
    rw [JsonNumber.realDecimal, h, Magnitude.shortest_greatest]
    decide +kernel
  intro significand exponent _ _ hexact
  rw [hdecimal] at hexact
  obtain ⟨rfl, rfl⟩ := hexact (by decide)
  decide +kernel

private theorem real {x : Binary64} (hfinite : x.isFinite)
    (hzero : ¬ x.isZero) : IsNumber (JsonNumber.realDecimal x) := by
  have hbits : x.magnitude.bits ≠ 0 := by simpa [Binary64.isZero] using hzero
  have hhead := Decimal.head_trim (Magnitude.digits_shortest_pos hbits)
  have hne := JsonNumber.trim_shortest_ne_nil hzero
  have hdigits : ∀ c ∈ x.magnitude.shortest.trim.1, c.isDigit :=
    fun _ => Decimal.isDigit_of_mem_trim
  obtain ⟨hshort, hleading⟩ :=
    JsonNumber.whole_laidOut hhead hne x.magnitude.shortest.trim.2
  have hwritten := JsonNumber.isWritten_realDecimal hzero
  have hbounded : x.magnitude.isInfinite = false := by
    simpa [Binary64.isFinite] using hfinite
  refine ⟨hwritten, hleading, ?_, ?_, ?_⟩
  · obtain ⟨-, hwhole, -, -⟩ := DecimalText.of_isWritten hwritten
    refine Nat.le_of_lt
      (Nat.lt_of_lt_of_le (Decimal.natOfDigits_lt hwhole 0) ?_)
    have hpower :
        (10 : Nat) ^ (JsonNumber.realDecimal x).whole.length ≤ 10 ^ 16 :=
      Nat.pow_le_pow_right (by decide) hshort
    rw [Nat.zero_add, Nat.one_mul]
    exact Nat.le_trans hpower (by decide)
  · intro digits hexponent
    have hpower := JsonNumber.exponent_laidOut hhead hne hdigits hexponent
    rw [← Decimal.value_trim] at hpower
    have hvalue := Magnitude.value_shortest_lt hbits hbounded
    rw [Magnitude.cast_tenTo, zpow_natCast] at hvalue
    have hless : Decimal.natOfDigits 0 digits < 309 :=
      (pow_lt_pow_iff_right₀ (by norm_num)).mp (lt_of_le_of_lt hpower hvalue)
    exact Nat.le_trans hless.le (by decide)
  · by_cases hgreatest : x.magnitude = Magnitude.greatest
    · exact scales_greatest hgreatest
    · have hsize :=
        Magnitude.value_shortest_le_topMiddle hbits hbounded hgreatest
      rw [← JsonNumber.value_realDecimal hzero] at hsize
      exact fun significand exponent hword hvalue _ =>
        Magnitude.isSome_scale? hword (le_trans hvalue hsize)

private theorem zero : IsNumber ⟨['0'], ['0'], none⟩ where
  written := by decide
  leading := .inl rfl
  whole := by decide
  exponent _ hnone := nomatch hnone
  scales significand exponent hword hvalue _ := by
    have hzero : DecimalText.decimal ⟨['0'], ['0'], none⟩ = ⟨0, -1⟩ := by decide
    refine Magnitude.isSome_scale? hword (le_trans hvalue ?_)
    have hvalue : Decimal.value ⟨0, -1⟩ = 0 := by
      rw [Decimal.value, Nat.cast_zero, zero_mul]
    rw [hzero, hvalue]
    exact Nat.cast_nonneg _

end Json.Scan.IsNumber

namespace JsonNumber

def isBounded : JsonNumber → Bool
  | integer value => isWord value
  | real value => value.isFinite

theorem exists_isNumber {number : JsonNumber} (h : number.isBounded) :
    ∃ (negative : Bool) (d : DecimalText), IsNumber d ∧
      number.text.toList = (if negative then ['-'] else []) ++ d.text := by
  cases number with
  | integer value => exact ⟨_, _, .integer h, toList_integer value⟩
  | real x =>
      by_cases hzero : x.isZero
      · refine ⟨x.negative, _, .zero, ?_⟩
        simp only [text, realText, if_pos hzero, String.toList_ofList]
        cases x.negative <;> rfl
      · exact ⟨_, _, .real h hzero, toList_realText hzero⟩

end JsonNumber

end ShapeMend
