import ShapeMend.Proofs.Script.Lexing
import ShapeMend.Proofs.Script.Tiling

/-!
# Strings written in code units

A string can be written as the code units of its text in UTF-16, each as an
escape of four digits.  Reading pairs the escapes from the left: a high
surrogate takes the next one with it, be it a low surrogate or not.  So a pair
comes out as its character only if the high surrogates in front of it, which
belong to nothing, have not taken its first half away.
-/

namespace ShapeMend

open ShapeMend.Text ShapeMend.Script

/-! ## Decoding UTF-16 -/

namespace Text.Utf16

def isHigh (unit : UInt16) : Bool := 0xD800 ≤ unit.toNat && unit.toNat < 0xDC00

def isLow (unit : UInt16) : Bool := 0xDC00 ≤ unit.toNat && unit.toNat < 0xE000

def paired (high low : UInt16) : Char :=
  .ofNat (0x10000 + (high.toNat - 0xD800) * 0x400 + (low.toNat - 0xDC00))

def single (unit : UInt16) : Char :=
  if isHigh unit || isLow unit then '\uFFFD' else .ofNat unit.toNat

/-- The text of some code units, with a replacement character for every
surrogate that is no part of a pair. -/
def decode : List UInt16 → List Char
  | [] => []
  | [unit] => [single unit]
  | unit :: next :: rest =>
    if isHigh unit && isLow next then paired unit next :: decode rest
    else single unit :: decode (next :: rest)

/-- Every low surrogate stands behind no high surrogate or behind an odd number
of them in a row, if `run` of them stand in front of the units. -/
def oddRuns : Nat → List UInt16 → Bool
  | _, [] => true
  | run, unit :: rest =>
    if isHigh unit then oddRuns (run + 1) rest
    else (!isLow unit || run = 0 || run % 2 = 1) && oddRuns 0 rest

variable {unit next : UInt16} {rest : List UInt16}

private theorem isHigh_eq_false (h : isLow unit) : isHigh unit = false := by
  simp only [isLow, Bool.and_eq_true, decide_eq_true_eq] at h
  rw [isHigh, Bool.eq_false_iff, ne_eq, Bool.and_eq_true, decide_eq_true_eq,
    decide_eq_true_eq]
  omega

theorem single_of_isHigh (h : isHigh unit) : single unit = '\uFFFD' := by
  rw [single, h, Bool.true_or, if_pos rfl]

private theorem paired_ne_replacement (hhigh : isHigh unit)
    (hlow : isLow next) : paired unit next ≠ '\uFFFD' := by
  simp only [isHigh, isLow, Bool.and_eq_true, decide_eq_true_eq] at hhigh hlow
  unfold paired
  generalize hcode :
    0x10000 + (unit.toNat - 0xD800) * 0x400 + (next.toNat - 0xDC00) = code
  have hvalid : code.isValidChar := .inr (by omega)
  intro h
  rw [Char.ofNat, dif_pos hvalid] at h
  have hsmall : code = 0xFFFD := congrArg Char.toNat h
  omega

private theorem decode_cons_of_head
    (h : ∀ low ∈ rest.head?, isLow low = false) :
    decode (unit :: rest) = single unit :: decode rest := by
  cases rest with
  | nil => rfl
  | cons next rest =>
      rw [decode, h next rfl, Bool.and_false, if_neg Bool.false_ne_true]

private theorem decode_cons_of_not_isHigh (h : isHigh unit = false) :
    decode (unit :: rest) = single unit :: decode rest := by
  cases rest with
  | nil => rfl
  | cons next rest => rw [decode, h, Bool.false_and, if_neg Bool.false_ne_true]

/-- Two more high surrogates in front make no difference where there is one
already. -/
private theorem oddRuns_add_two (run : Nat) (units : List UInt16) :
    oddRuns (run + 3) units = oddRuns (run + 1) units := by
  induction units generalizing run with
  | nil => rfl
  | cons unit rest ih =>
      rw [oddRuns, oddRuns]
      have hparity : (run + 3) % 2 = (run + 1) % 2 := by omega
      split
      · exact ih (run + 1)
      · simp [hparity]

private theorem oddRuns_two (h : ∀ low ∈ rest.head?, isLow low = false) :
    oddRuns 2 rest = oddRuns 0 rest := by
  cases rest with
  | nil => rfl
  | cons next rest =>
      rw [oddRuns, oddRuns, h next rfl]
      split
      · exact oddRuns_add_two 0 rest
      · rfl

end Text.Utf16

/-! ## Reading the escapes -/

namespace Script.Quoted

open Utf16

def IsDigitOf (n : Nat) (c : Char) : Prop :=
  c = Nat.digitChar n ∨ c = (Nat.digitChar n).toUpper

def UnitDigits (unit : UInt16) (a b c d : Char) : Prop :=
  IsDigitOf (unit.toNat / 0x1000) a ∧ IsDigitOf (unit.toNat / 0x100 % 0x10) b ∧
    IsDigitOf (unit.toNat / 0x10 % 0x10) c ∧ IsDigitOf (unit.toNat % 0x10) d

instance (unit : UInt16) (a b c d : Char) :
    Decidable (UnitDigits unit a b c d) :=
  inferInstanceAs (Decidable ((_ ∨ _) ∧ (_ ∨ _) ∧ (_ ∨ _) ∧ (_ ∨ _)))

/-- Code units, each written as an escape. -/
inductive UnitEscapes : List UInt16 → List Char → Prop
  | nil : UnitEscapes [] []
  | cons {unit : UInt16} {units : List UInt16} {a b c d : Char}
      {text : List Char}
    (hdigits : UnitDigits unit a b c d) (htext : UnitEscapes units text) :
    UnitEscapes (unit :: units) ('\\' :: 'u' :: a :: b :: c :: d :: text)

def readUnits : List UInt16 → List Char
  | [] => []
  | [unit] => [ofCode unit.toNat]
  | unit :: next :: rest =>
    if isLead unit.toNat then pairUp unit.toNat next.toNat ++ readUnits rest
    else ofCode unit.toNat :: readUnits (next :: rest)

private theorem hexDigit?_of_isDigitOf {n : Nat} (hn : n < 16) {c : Char}
    (h : IsDigitOf n c) : hexDigit? c = some n ∧ c ≠ '{' := by
  have htable : ∀ n < 16, hexDigit? (Nat.digitChar n) = some n ∧
      hexDigit? (Nat.digitChar n).toUpper = some n := by decide
  have hdigit : hexDigit? c = some n := by
    rcases h with rfl | rfl
    · exact (htable n hn).1
    · exact (htable n hn).2
  refine ⟨hdigit, ?_⟩
  rintro rfl
  cases hdigit

section

variable {unit next : UInt16} {a b c d a' b' c' d' quote : Char}
  {rest more : List Char} {m : Nat}

theorem codeEscape?_unitDigits (h : UnitDigits unit a b c d)
    (rest : List Char) :
    codeEscape? (a :: b :: c :: d :: rest) = some (4, unit.toNat) := by
  have hunit : unit.toNat < 0x10000 := unit.toNat_lt
  obtain ⟨ha, hb, hc, hd⟩ := h
  obtain ⟨ha, hbrace⟩ := hexDigit?_of_isDigitOf (by omega) ha
  obtain ⟨hb, -⟩ := hexDigit?_of_isDigitOf (by omega) hb
  obtain ⟨hc, -⟩ := hexDigit?_of_isDigitOf (by omega) hc
  obtain ⟨hd, -⟩ := hexDigit?_of_isDigitOf (by omega) hd
  rw [codeEscape?]
  · simp only [hexRun, ha, hb, hc, hd, Option.map_some]
    congr 2
    omega
  · rintro later heq
    exact hbrace (List.cons.inj heq).1

private theorem body_unit (h : UnitDigits unit a b c d)
    (hlone : isLead unit.toNat → ∀ later, rest ≠ '\\' :: 'u' :: later)
    (hrest : body quote rest = .ok (m, more)) :
    body quote ('\\' :: 'u' :: a :: b :: c :: d :: rest) =
      .ok (m + 6, ofCode unit.toNat :: more) := by
  have hescape : escape ('u' :: a :: b :: c :: d :: rest) =
      .ok (5, [ofCode unit.toNat]) := by
    rw [escape]
    simp only [codeEscape?_unitDigits h, List.drop_succ_cons, List.drop_zero]
    split
    · next hlead => exact absurd rfl (hlone hlead _)
    · rfl
  rw [body_escape hescape hrest, Nat.add_right_comm, Nat.add_comm _ m]
  rfl

private theorem body_pair (h : UnitDigits unit a b c d)
    (hnext : UnitDigits next a' b' c' d') (hlead : isLead unit.toNat)
    (hrest : body quote rest = .ok (m, more)) :
    body quote ('\\' :: 'u' :: a :: b :: c :: d :: '\\' :: 'u' :: a' :: b' ::
      c' :: d' :: rest) =
      .ok (m + 12, pairUp unit.toNat next.toNat ++ more) := by
  have hescape :
      escape
      ('u' :: a :: b :: c :: d :: '\\' :: 'u' :: a' :: b' :: c' :: d' :: rest) =
      .ok (11, pairUp unit.toNat next.toNat) := by
    rw [escape]
    simp only [codeEscape?_unitDigits h, List.drop_succ_cons, List.drop_zero,
      hlead, codeEscape?_unitDigits hnext]
  rw [body_escape hescape hrest, Nat.add_right_comm, Nat.add_comm _ m]

private theorem body_unitEscapes (hquote : isQuote quote) {units : List UInt16}
    {text : List Char} (h : UnitEscapes units text) (behind : List Char) :
    body quote (text ++ quote :: behind) =
      .ok (text.length + 1, readUnits units) := by
  have hplain : quote ≠ '\\' ∧ quote ≠ '\n' := by
    constructor <;> rintro rfl <;> exact absurd hquote (by decide)
  have hclose : body quote (quote :: behind) = .ok (1, []) := by
    rw [body, if_pos rfl]
    · rfl
    · exact fun heq => hplain.2 heq
    · exact fun heq => hplain.1 heq
  fun_induction readUnits units generalizing text with
  | case1 =>
      cases h
      exact hclose
  | case2 unit =>
      obtain _ | ⟨hdigits, hnil⟩ := h
      cases hnil
      exact body_unit hdigits
        (fun _ later heq => hplain.1 (List.cons.inj heq).1) hclose
  | case3 unit next units hlead ih =>
      obtain _ | ⟨hdigits, _ | ⟨hothers, hrest⟩⟩ := h
      have hpair := body_pair hdigits hothers hlead (ih hrest)
      simpa [Nat.add_right_comm _ 1] using hpair
  | case4 unit next units hlead ih =>
      obtain _ | ⟨hdigits, hrest⟩ := h
      have hunit := body_unit hdigits (fun h => absurd h hlead) (ih hrest)
      simpa [Nat.add_right_comm _ 1] using hunit

end

/-! ### What they are read as -/

section

variable {unit next : UInt16}

theorem ofCode_toNat (unit : UInt16) : ofCode unit.toNat = single unit := by
  have hunit : unit.toNat < 0x10000 := unit.toNat_lt
  unfold ofCode single isHigh isLow replacement
  by_cases hvalid : unit.toNat.isValidChar
  · rw [if_pos hvalid, if_neg]
    simp only [Nat.isValidChar] at hvalid
    simp only [Bool.or_eq_true, Bool.and_eq_true, decide_eq_true_eq]
    omega
  · rw [if_neg hvalid, if_pos]
    simp only [Nat.isValidChar] at hvalid
    simp only [Bool.or_eq_true, Bool.and_eq_true, decide_eq_true_eq]
    omega

private theorem isLead_toNat (unit : UInt16) :
    isLead unit.toNat = isHigh unit := rfl

theorem isTrail_toNat (unit : UInt16) : isTrail unit.toNat = isLow unit := rfl

private theorem pairUp_of_isLow (hhigh : isHigh unit) (hlow : isLow next) :
    pairUp unit.toNat next.toNat = [paired unit next] := by
  rw [pairUp, isTrail_toNat, if_pos hlow, ofCode, if_pos]
  · rfl
  · simp only [isHigh, isLow, Bool.and_eq_true, decide_eq_true_eq] at hhigh hlow
    simp only [Nat.isValidChar]
    omega

private theorem pairUp_of_not_isLow (hhigh : isHigh unit)
    (hlow : isLow next = false) :
    pairUp unit.toNat next.toNat = [single unit, single next] := by
  rw [pairUp, isTrail_toNat, hlow, if_neg Bool.false_ne_true, ofCode_toNat,
    single_of_isHigh hhigh]
  rfl

/-- The escapes are read as the text that the units decode to just when no pair
is torn. -/
private theorem readUnits_eq_decode_iff (units : List UInt16) :
    readUnits units = decode units ↔ oddRuns 0 units := by
  fun_induction readUnits units with
  | case1 => simp [decode, oddRuns]
  | case2 unit => simp [decode, oddRuns, ofCode_toNat]
  | case3 unit next rest hlead ih =>
      have hhigh : isHigh unit := hlead
      cases hlow : isLow next with
      | true =>
          have hnext : isHigh next = false := isHigh_eq_false hlow
          rw [pairUp_of_isLow hhigh hlow, decode, hhigh, hlow]
          simp [oddRuns, hhigh, hnext, ih]
      | false =>
          rw [pairUp_of_not_isLow hhigh hlow, decode, hlow, Bool.and_false,
            if_neg Bool.false_ne_true]
          cases hnext : isHigh next with
          | false =>
              rw [decode_cons_of_not_isHigh hnext]
              simp [oddRuns, hhigh, hnext, hlow, ih]
          | true =>
              have hruns :
                  oddRuns 0 (unit :: next :: rest) = oddRuns 2 rest := by
                rw [oddRuns, if_pos hhigh, oddRuns, if_pos hnext]
              rw [hruns]
              by_cases hhead : ∀ low ∈ rest.head?, isLow low = false
              · rw [decode_cons_of_head hhead, oddRuns_two hhead, ← ih]
                simp
              -- The second high surrogate of the two belongs to the low one
              -- behind them.
              · obtain ⟨low, later, rfl, hlast⟩ : ∃ low later,
                    rest = low :: later ∧ isLow low := by
                  cases rest with
                  | nil => simp at hhead
                  | cons low later =>
                      exact ⟨low, later, rfl, by simpa using hhead⟩
                have hpaired := paired_ne_replacement hnext hlast
                rw [decode, hnext, hlast, single_of_isHigh hnext]
                simp [oddRuns, isHigh_eq_false hlast, hlast, hpaired.symm]
  | case4 unit next rest hlead ih =>
      have hhigh : isHigh unit = false := by
        rwa [isLead_toNat, Bool.not_eq_true] at hlead
      have hruns :
          oddRuns 0 (unit :: next :: rest) = oddRuns 0 (next :: rest) := by
        rw [oddRuns, hhigh]
        simp
      rw [decode_cons_of_not_isHigh hhigh, ofCode_toNat, List.cons_inj_right,
        ih, hruns]

end

end Script.Quoted

/-! ## Literals of code units -/

namespace Script.TokenStream

open Utf16 Quoted

/-- A literal of code units is one token that covers the text.  Its value is the
text of the units just when no low surrogate stands behind an even number of
high ones in a row. -/
theorem ofText_unitEscapes {quote : Char} (hquote : isQuote quote)
    {units : List UInt16} {escapes : List Char}
    (h : UnitEscapes units escapes) :
    let text := quote :: (escapes ++ [quote])
    ∃ value, ofText text = .ok {
        tokens := [{
          kind := .quoted value
          text := .ofList text
          span := ⟨.origin, (String.ofList text).utf8ByteSize⟩
          breakBefore := false }]
        stop := .behind text
        breakBeforeStop := false } ∧
      (value.toList = decode units ↔ oddRuns 0 units) := by
  intro text
  refine ⟨.ofList (readUnits units), ?_, by
    rw [String.toList_ofList, readUnits_eq_decode_iff]⟩
  have hmarks : quote ≠ '/' ∧ quote ≠ '#' ∧ isBlank quote = false := by
    rw [isQuote, Bool.or_eq_true, decide_eq_true_eq, decide_eq_true_eq]
      at hquote
    rcases hquote with rfl | rfl <;> decide
  have hplain : ¬ ['#', '!'] <+: text := by
    simp [text, Ne.symm hmarks.2.1]
  have hmeasure : Token.measure none quote (escapes ++ [quote] ++ []) =
      .ok (.quoted (.ofList (readUnits units)), (escapes ++ [quote]).length +
        1) := by
    unfold Token.measure
    rw [if_pos hquote, List.append_nil, body_unitEscapes hquote h []]
    simp
  have hend : Position.origin.after (quote :: (escapes ++ [quote])) =
      .behind text := Position.after_behind [] text
  have hrest (previous : Option Token) :
      scanFrom previous false (.behind text) [] =
      .ok ⟨[], .behind text, false⟩ := by
    simp [scanFrom, scanAfter]
  have hscan : scanFrom none false .origin
      (quote :: (escapes ++ [quote]) ++ []) = .ok _ :=
    scanFrom_eq_ok hmarks.1 hmarks.2.2 hmeasure rfl
      (by rw [hend]; exact hrest _)
  rw [List.append_nil, hend] at hscan
  rw [ofText_eq_scanFrom hplain]
  exact hscan

/-- A pair, a lone surrogate and a letter, with digits in both cases. -/
def pairAndLone : List Char := "\\uD83D\\uDE00\\ud800\\u0041".toList

theorem ofText_unitEscapes_pairAndLone :
    UnitEscapes [0xD83D, 0xDE00, 0xD800, 0x41] pairAndLone ∧
    let text := '\x27' :: (pairAndLone ++ ['\x27'])
    ∃ value, ofText text = .ok {
        tokens :=
          [⟨.quoted value, .ofList text,
            ⟨.origin, (String.ofList text).utf8ByteSize⟩, false⟩]
        stop := .behind text
        breakBeforeStop := false } ∧
      value.toList = ['😀', '\uFFFD', 'A'] := by
  have hescapes : UnitEscapes [0xD83D, 0xDE00, 0xD800, 0x41] pairAndLone :=
    .cons (by decide) <| .cons (by decide) <| .cons (by decide) <|
      .cons (by decide) .nil
  have hquote : isQuote '\x27' := by decide
  obtain ⟨value, hstream, hdecoded⟩ := ofText_unitEscapes hquote hescapes
  exact ⟨hescapes, value, hstream, hdecoded.mpr (by decide)⟩

/-- Two high surrogates before a low one, which belongs to the second of them.
-/
def tornPair : List Char := "\\uD83D\\uD83D\\uDE00".toList

theorem unitEscapes_tornPair : UnitEscapes [0xD83D, 0xD83D, 0xDE00] tornPair ∧
    (ofText ('\x27' :: (tornPair ++ ['\x27']))).toOption.map
      (·.tokens.map (·.kind)) =
      some [.quoted "\uFFFD\uFFFD\uFFFD"] ∧
    "\uFFFD\uFFFD\uFFFD".toList ≠ decode [0xD83D, 0xD83D, 0xDE00] := by
  refine ⟨?_, by decide +kernel, by decide⟩
  exact .cons (by decide) <| .cons (by decide) <| .cons (by decide) .nil

end Script.TokenStream

end ShapeMend
