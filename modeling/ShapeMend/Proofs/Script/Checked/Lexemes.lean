import ShapeMend.Number.Magnitude
import ShapeMend.Proofs.Script.Tiling
import ShapeMend.Proofs.Text.Slices
import ShapeMend.Script.Flaw

/-!
# Lexemes with checks

Strings and templates once more, with the code of an escape in 32 bits and every
difference checked.  A scan that fails knows how many characters it has passed:
they are counted all the same.
-/

namespace ShapeMend.Script.Checked

open ShapeMend.Text ShapeMend.Number

variable {ε ε' α β : Type}

/-! ## Attempts -/

/-- What ends in a value or in an error.  It does not end at all if one of its
checks fails. -/
abbrev Attempt (ε : Type) := ExceptT ε Option

structure Stop (ε : Type) where
  passed : Nat
  reason : ε

namespace Attempt

def need (value : Option α) : Attempt ε α := ExceptT.mk (value.map .ok)

def sound (outcome : Except ε α) : Attempt ε α := ExceptT.mk (some outcome)

def recover (attempt : Attempt ε α) (handle : ε → Attempt ε' α) :
    Attempt ε' α :=
  ExceptT.mk do
    match ← attempt.run with
    | .ok value => return .ok value
    | .error error => (handle error).run

def past (n : Nat) (attempt : Attempt (Stop ε) α) : Attempt (Stop ε) α :=
  attempt.recover fun stop => throw ⟨n + stop.passed, stop.reason⟩

def reasons (attempt : Attempt (Stop ε) α) : Attempt ε α :=
  attempt.recover fun stop => throw stop.reason

@[simp] theorem need_some (value : α) :
    (need (some value) : Attempt ε α) = pure value := rfl

@[simp] theorem sound_ok (value : α) :
    (sound (.ok value) : Attempt ε α) = pure value := rfl

@[simp] theorem sound_error (error : ε) :
    (sound (.error error) : Attempt ε α) = throw error := rfl

@[simp] theorem recover_pure (value : α) (handle : ε → Attempt ε' α) :
    (pure value : Attempt ε α).recover handle = pure value := rfl

@[simp] theorem recover_throw (error : ε) (handle : ε → Attempt ε' α) :
    (throw error : Attempt ε α).recover handle = handle error := rfl

theorem sound_bind (outcome : Except ε α) (next : α → Except ε β) :
    sound (outcome >>= next) =
      sound outcome >>= fun value => sound (next value) := by
  cases outcome <;> rfl

/-! ### Attempts that return -/

theorem eq_some_of_need {value : Option α} {found : α}
    (h : (need value : Attempt ε α) = pure found) : value = some found := by
  match value, h with
  | some _, rfl => rfl

theorem exists_of_bind_eq_pure {attempt : Attempt ε α} {next : α → Attempt ε β}
    {found : β} (h : (attempt >>= next) = pure found) :
    ∃ value, attempt = pure value ∧ next value = pure found := by
  match attempt, h with
  | some (.ok value), h => exact ⟨value, rfl, h⟩

theorem eq_pure_of_recover {attempt : Attempt ε α} {handle : ε → Attempt ε' α}
    {found : α} (h : attempt.recover handle = pure found)
    (hhandle : ∀ error, handle error ≠ pure found) : attempt = pure found := by
  match attempt, h with
  | some (.ok _), rfl => rfl
  | some (.error error), h => exact absurd h (hhandle error)

/-! ### Reasons -/

@[simp] theorem reasons_pure (value : α) :
    (pure value : Attempt (Stop ε) α).reasons = pure value := rfl

@[simp] theorem reasons_throw (stop : Stop ε) :
    (throw stop : Attempt (Stop ε) α).reasons = throw stop.reason := rfl

@[simp] theorem reasons_need (value : Option α) :
    (need value : Attempt (Stop ε) α).reasons = need value := by
  cases value <;> rfl

@[simp] theorem reasons_bind (attempt : Attempt (Stop ε) α)
    (next : α → Attempt (Stop ε) β) :
    (attempt >>= next).reasons =
      attempt.reasons >>= fun value => (next value).reasons := by
  match attempt with
  | none => rfl
  | some (.ok value) => rfl
  | some (.error stop) => rfl

@[simp] theorem reasons_past (n : Nat) (attempt : Attempt (Stop ε) α) :
    (attempt.past n).reasons = attempt.reasons := by
  match attempt with
  | none => rfl
  | some (.ok value) => rfl
  | some (.error stop) => rfl

@[simp] theorem reasons_ite (condition : Prop) [Decidable condition]
    (first second : Attempt (Stop ε) α) :
    (if condition then first else second).reasons =
      if condition then first.reasons else second.reasons := by
  split <;> rfl

theorem eq_pure_of_reasons {attempt : Attempt (Stop ε) α} {value : α}
    (h : attempt.reasons = sound (.ok value)) : attempt = pure value := by
  match attempt, h with
  | some (.ok _), rfl => rfl

theorem exists_throw_of_reasons {attempt : Attempt (Stop ε) α} {reason : ε}
    (h : attempt.reasons = sound (.error reason)) :
    ∃ passed, attempt = throw ⟨passed, reason⟩ := by
  match attempt, h with
  | some (.error stop), rfl => exact ⟨stop.passed, rfl⟩

theorem reasons_recover {attempt : Attempt (Stop ε) α} {outcome : Except ε α}
    (h : attempt.reasons = sound outcome)
    (handle : Stop ε → Attempt (Stop ε') α) (other : ε → ε')
    (hhandle : ∀ stop, (handle stop).reasons = throw (other stop.reason)) :
    (attempt.recover handle).reasons = sound (outcome.mapError other) := by
  match attempt, outcome, h with
  | some (.ok _), .ok _, rfl => rfl
  | some (.error stop), _, rfl => exact hhandle stop

end Attempt

open Attempt

/-! ## Strings -/

/-- The hexadecimal digits behind as many that have written the code: exactly as
many as the width says, or those up to a closing brace. -/
def hexRun (width : Option Nat) (count code : Nat) :
    List Char → Attempt (Stop LexicalFlaw) (Nat × Nat)
  | [] =>
    if width = some count then return (count, code)
    else throw ⟨count, .escape⟩
  | c :: rest =>
    if width = some count then return (count, code)
    else if width = none ∧ c = '\x7d' ∧ 0 < count then return (count + 1, code)
    else
      match Quoted.hexDigit? c with
      | some digit =>
        if count < 6 then do
          let shifted ← need (checked32 (code * 16))
          let next ← need (checked32 (shifted + digit))
          hexRun width (count + 1) next rest
        else throw ⟨count, .escape⟩
      | none => throw ⟨count, .escape⟩

def codeEscape : List Char → Attempt (Stop LexicalFlaw) (Nat × Nat)
  | '\x7b' :: rest => do
    let (n, code) ← (hexRun none 0 0 rest).past 1
    return (n + 1, code)
  | rest => hexRun (some 4) 0 0 rest

def pairUp (lead other : Nat) : Attempt ε (List Char) :=
  if Quoted.isTrail other then do
    let high ← need (minus? lead 0xD800)
    let low ← need (minus? other 0xDC00)
    let code ← need (checked32 (0x10000 + high * 0x400 + low))
    return [Quoted.ofCode code]
  else return [Quoted.replacement, Quoted.ofCode other]

def escape : List Char → Attempt (Stop LexicalFlaw) (Nat × List Char)
  | 'x' :: rest => do
    let (n, code) ← (hexRun (some 2) 0 0 rest).past 1
    return (1 + n, [Quoted.ofCode code])
  | 'u' :: rest => do
    let (n, code) ← (codeEscape rest).past 1
    match Quoted.isLead code, rest.drop n with
    | true, '\\' :: 'u' :: next => do
      let (m, other) ← (codeEscape next).past (1 + n + 2)
      return (1 + n + 2 + m, ← pairUp code other)
    | _, _ => return (1 + n, [Quoted.ofCode code])
  | rest => sound ((Quoted.escape rest).mapError fun flaw => ⟨0, flaw⟩)

def stringBody (quote : Char) :
    List Char → Attempt (Stop LexicalFlaw) (Nat × List Char)
  | [] => throw ⟨0, .unterminatedString⟩
  | '\n' :: _ => throw ⟨0, .unterminatedString⟩
  | '\\' :: rest => do
    let (n, chars) ← (escape rest).past 1
    let (m, more) ← (stringBody quote (rest.drop n)).past (n + 1)
    return (n + m + 1, chars ++ more)
  | c :: rest =>
    if c = quote then return (1, [])
    else do
      let (m, more) ← (stringBody quote rest).past 1
      return (m + 1, c :: more)
termination_by s => s.length
decreasing_by
  · simp only [List.length_cons, List.length_drop]; omega
  · simp

/-! ## Templates -/

mutual

def templateBody (start here : Nat) : List Char → Attempt (Stop Fault) Nat
  | [] => throw ⟨here, ⟨start, .unterminatedTemplate⟩⟩
  | '`' :: _ => return here + 1
  | ['\\'] => throw ⟨here + 1, ⟨start, .unterminatedTemplate⟩⟩
  | '\\' :: _ :: rest => templateBody start (here + 2) rest
  | '$' :: '\x7b' :: rest => do
    let stop ← substitution start (here + 2) 0 rest
    templateBody start stop (rest.drop (stop - (here + 2)))
  | _ :: rest => templateBody start (here + 1) rest
termination_by s => s.length

def substitution (start here depth : Nat) :
    List Char → Attempt (Stop Fault) Nat
  | [] => throw ⟨here, ⟨start, .unterminatedTemplate⟩⟩
  | '\x7b' :: rest => substitution start (here + 1) (depth + 1) rest
  | '\x7d' :: rest =>
    match depth with
    | 0 => return here + 1
    | depth + 1 => substitution start (here + 1) depth rest
  | '`' :: rest => do
    let stop ← templateBody here (here + 1) rest
    substitution start stop depth (rest.drop (stop - (here + 1)))
  | c :: rest =>
    if Quoted.isQuote c then do
      let (n, _) ← (stringBody c rest).recover fun stop =>
        throw ⟨here + 1 + stop.passed, ⟨here, stop.reason⟩⟩
      substitution start (here + 1 + n) depth (rest.drop n)
    else if c = '/' ∧ (rest.head? = some '/' ∨ rest.head? = some '*') then
      match Gap.length .blank (c :: rest) with
      | 0 =>
        throw ⟨here + (c :: rest).length, ⟨here, .unterminatedComment⟩⟩
      | n + 1 => substitution start (here + 1 + n) depth (rest.drop n)
    else substitution start (here + 1) depth rest
termination_by s => s.length

end

/-! ## The same ends -/

private theorem hexDigit?_lt {c : Char} {digit : Nat}
    (h : Quoted.hexDigit? c = some digit) : digit < 16 := by
  have hle {low high : Char} (hrange : low ≤ c ∧ c ≤ high) :
      c.toNat ≤ high.toNat := hrange.2
  unfold Quoted.hexDigit? at h
  split at h
  · next hrange =>
    have hc : c.toNat ≤ 57 := hle hrange
    have hzero : '0'.toNat = 48 := rfl
    obtain rfl := Option.some.inj h
    omega
  split at h
  · next hrange =>
    have hc : c.toNat ≤ 102 := hle hrange
    have hzero : 'a'.toNat = 97 := rfl
    obtain rfl := Option.some.inj h
    omega
  split at h
  · next hrange =>
    have hc : c.toNat ≤ 70 := hle hrange
    have hzero : 'A'.toNat = 65 := rfl
    obtain rfl := Option.some.inj h
    omega
  · cases h

private theorem digits_lt {code count digit : Nat}
    (hcode : code < twoTo (4 * count)) (hdigit : digit < 16) :
    code * 16 + digit < twoTo (4 * (count + 1)) := by
  have hpow : twoTo (4 * (count + 1)) = twoTo (4 * count) * 16 :=
    Nat.pow_add 2 (4 * count) 4
  omega

private theorem checked32_digit {code count digit : Nat}
    (hcode : code < twoTo (4 * count)) (hcount : count < 6)
    (hdigit : digit < 16) : checked32 (code * 16) = some (code * 16) ∧
      checked32 (code * 16 + digit) = some (code * 16 + digit) := by
  have hroom : code * 16 + digit < UInt32.size := calc
    code * 16 + digit < twoTo (4 * (count + 1)) := digits_lt hcode hdigit
    _ ≤ twoTo 24 := Nat.pow_le_pow_right (by decide) (by omega)
    _ < UInt32.size := by decide
  have hshifted : code * 16 < UInt32.size :=
    Nat.lt_of_le_of_lt (Nat.le_add_right _ _) hroom
  exact ⟨checked32_of_lt hshifted, checked32_of_lt hroom⟩

theorem reasons_hexRun_some {width count code : Nat} (hwidth : width ≤ 6)
    (hcount : count ≤ width) (hcode : code < twoTo (4 * count))
    (s : List Char) : (hexRun (some width) count code s).reasons =
      (Quoted.hexRun (width - count) code s).elim (throw .escape)
        fun code => pure (width, code) := by
  induction s generalizing count code with
  | nil =>
      by_cases hend : width = count
      · simp [hexRun, Quoted.hexRun, hend]
      · obtain ⟨more, hmore⟩ := Nat.exists_eq_succ_of_ne_zero
          (show width - count ≠ 0 by omega)
        simp [hexRun, Quoted.hexRun, hend, hmore]
  | cons c rest ih =>
      by_cases hend : width = count
      · simp [hexRun, Quoted.hexRun, hend]
      · obtain ⟨more, hmore⟩ := Nat.exists_eq_succ_of_ne_zero
          (show width - count ≠ 0 by omega)
        rw [hexRun, if_neg (by simpa using hend), if_neg (by simp), hmore,
          Quoted.hexRun]
        cases hdigit : Quoted.hexDigit? c with
        | none => rfl
        | some digit =>
            have hlt := hexDigit?_lt hdigit
            obtain ⟨hshifted, hnext⟩ := checked32_digit hcode (by omega) hlt
            have hrest := ih (show count + 1 ≤ width by omega)
              (digits_lt hcode hlt)
            rw [show width - (count + 1) = more by omega] at hrest
            simp [if_pos (show count < 6 by omega), hshifted, hnext, hrest]

private theorem reasons_hexRun_none {count code : Nat} (hcount : count ≤ 6)
    (hcode : code < twoTo (4 * count)) (s : List Char) :
    (hexRun none count code s).reasons =
      let digits := s.takeWhile fun c => (Quoted.hexDigit? c).isSome
      if 1 ≤ count + digits.length ∧ count + digits.length ≤ 6 ∧
          (s.drop digits.length).head? = some '\x7d' then
        (Quoted.hexRun digits.length code digits).elim (throw .escape)
          fun code => pure (count + digits.length + 1, code)
      else throw .escape := by
  induction s generalizing count code with
  | nil => simp [hexRun]
  | cons c rest ih =>
      rw [hexRun, if_neg (by simp)]
      cases hdigit : Quoted.hexDigit? c with
      | none =>
          rw [List.takeWhile_cons_of_neg (by simp [hdigit])]
          by_cases hend : c = '\x7d' ∧ 0 < count
          · simp [hend.1, Quoted.hexRun, hcount, Nat.one_le_iff_ne_zero,
              Nat.pos_iff_ne_zero.mp hend.2]
          · rw [if_neg (by simpa using hend), if_neg]
            · rfl
            · simpa [Nat.pos_iff_ne_zero, Nat.one_le_iff_ne_zero] using
                fun h _ hc => hend ⟨hc, Nat.pos_iff_ne_zero.mpr h⟩
      | some digit =>
          have hlt := hexDigit?_lt hdigit
          have hopen : c ≠ '\x7d' := by
            rintro rfl
            have hbrace : Quoted.hexDigit? '\x7d' = none := by decide
            cases hbrace.symm.trans hdigit
          rw [if_neg (by simp [hopen]),
            List.takeWhile_cons_of_pos (by simp [hdigit])]
          by_cases hroom : count < 6
          · obtain ⟨hshifted, hnext⟩ := checked32_digit hcode hroom hlt
            have hrest := ih (show count + 1 ≤ 6 by omega)
              (digits_lt hcode hlt)
            simp [hroom, hshifted, hnext, hrest, Quoted.hexRun, hdigit,
              Nat.add_assoc, Nat.add_comm 1]
          · rw [if_neg]
            · simp [hroom]
            · rw [List.length_cons]
              omega

private theorem reasons_codeEscape (s : List Char) : (codeEscape s).reasons =
    (Quoted.codeEscape? s).elim (throw .escape) pure := by
  unfold codeEscape
  split
  · next rest =>
      rw [reasons_bind, reasons_past,
        reasons_hexRun_none (Nat.zero_le 6) Nat.one_pos, Quoted.codeEscape?]
      generalize rest.takeWhile _ = digits
      simp only [Nat.zero_add]
      split
      · cases Quoted.hexRun digits.length 0 digits <;> rfl
      · rfl
  · next hopen =>
      rw [reasons_hexRun_some (by decide) (Nat.zero_le 4) Nat.one_pos,
        Quoted.codeEscape?]
      · cases Quoted.hexRun 4 0 s <;> rfl
      · exact hopen

private theorem pairUp_eq {lead : Nat} (hlead : Quoted.isLead lead)
    (other : Nat) :
    (pairUp lead other : Attempt ε (List Char)) =
      pure (Quoted.pairUp lead other) := by
  simp only [Quoted.isLead, Bool.and_eq_true, decide_eq_true_eq] at hlead
  unfold pairUp Quoted.pairUp
  split
  · next htrail =>
      simp only [Quoted.isTrail, Bool.and_eq_true, decide_eq_true_eq] at htrail
      have hpair : 0x10000 + (lead - 0xD800) * 0x400 + (other - 0xDC00) <
          0x110000 := by omega
      rw [minus?_of_le hlead.1, minus?_of_le htrail.1, need_some, need_some,
        pure_bind, pure_bind,
        checked32_of_lt (Nat.lt_trans hpair (by decide))]
      rfl
  · rfl

private theorem reasons_escape (s : List Char) :
    (escape s).reasons = sound (Quoted.escape s) := by
  unfold escape
  split
  · next rest =>
      rw [reasons_bind, reasons_past,
        reasons_hexRun_some (by decide) (Nat.zero_le 2) Nat.one_pos,
        Quoted.escape]
      cases Quoted.hexRun 2 0 rest <;> rfl
  · next rest =>
      rw [reasons_bind, reasons_past, reasons_codeEscape]
      cases hcode : Quoted.codeEscape? rest with
      | none =>
          rw [Quoted.escape, hcode]
          rfl
      | some first =>
          obtain ⟨n, code⟩ := first
          simp only [Option.elim_some, pure_bind]
          split
          · next next hlead hnext =>
              simp only [reasons_bind, reasons_past, reasons_codeEscape,
                Quoted.escape, hcode, hlead, hnext]
              cases Quoted.codeEscape? next with
              | none => rfl
              | some second =>
                  rw [Option.elim_some, pure_bind, pairUp_eq hlead]
                  rfl
          · simp only [Quoted.escape, hcode]
            rfl
  · cases Quoted.escape s <;> rfl

theorem reasons_stringBody (quote : Char) (s : List Char) :
    (stringBody quote s).reasons = sound (Quoted.body quote s) := by
  fun_induction Quoted.body quote s with
  | case1 => rw [stringBody, reasons_throw, sound_error]
  | case2 => rw [stringBody, reasons_throw, sound_error]
  | case3 rest ih =>
      rw [stringBody, reasons_bind, reasons_past, reasons_escape]
      simp only [sound_bind, reasons_bind, reasons_past, ih]
      rfl
  | case4 rest hline hescape =>
      rw [stringBody, if_pos rfl]
      · rfl
      · exact hline
      · exact hescape
  | case5 c rest hline hescape hquote ih =>
      rw [stringBody, if_neg hquote, reasons_bind, reasons_past, ih,
        sound_bind]
      · rfl
      · exact hline
      · exact hescape

/-- A string inside a template, whose faults are taken to where it begins. -/
theorem reasons_innerString (start here : Nat) (quote : Char) (s : List Char) :
    ((stringBody quote s).recover fun stop => (throw
        ⟨start + stop.passed, ⟨here, stop.reason⟩⟩ :
          Attempt (Stop Fault) (Nat × List Char))).reasons =
      sound ((Quoted.body quote s).mapError (Fault.mk here)) :=
  reasons_recover (reasons_stringBody quote s) _ _ fun _ => rfl

theorem reasons_template :
    (∀ start here s, (templateBody start here s).reasons =
      sound (Template.body start here s)) ∧
    ∀ start here depth s, (substitution start here depth s).reasons =
      sound (Template.substitution start here depth s) := by
  apply Template.body.mutual_induct
    (fun start here s => (templateBody start here s).reasons =
      sound (Template.body start here s))
    (fun start here depth s => (substitution start here depth s).reasons =
      sound (Template.substitution start here depth s))
  case case1 | case3 =>
    intro start here
    rw [templateBody, Template.body, reasons_throw, sound_error]
  case case2 =>
    intro start here rest
    rw [templateBody, Template.body, sound_ok, reasons_pure]
  case case4 =>
    intro start here c rest ih
    rw [templateBody, Template.body, ih]
  case case5 =>
    intro start here rest hinner hbehind
    rw [templateBody, Template.body, reasons_bind, sound_bind, hinner]
    simp only [hbehind]
  case case6 =>
    intro start here c rest htick hlast hescape hopen ih
    rw [templateBody, Template.body, ih]
    all_goals assumption
  case case7 =>
    intro start here depth
    rw [substitution, Template.substitution, reasons_throw, sound_error]
  case case8 =>
    intro start here depth rest ih
    rw [substitution, Template.substitution, ih]
  case case9 =>
    intro start here rest
    rw [substitution, Template.substitution, sound_ok, reasons_pure]
  case case10 =>
    intro start here rest depth ih
    rw [substitution, Template.substitution, ih]
  case case11 =>
    intro start here depth rest hinner hbehind
    rw [substitution, Template.substitution, reasons_bind, sound_bind, hinner]
    simp only [hbehind]
  case case12 =>
    intro start here depth c rest hopen hclose htick hquote flaw hquoted
    rw [Template.substitution_openString hopen hclose htick hquote hquoted,
      substitution, if_pos hquote, reasons_bind, reasons_innerString, hquoted]
    · rfl
    all_goals assumption
  case case13 =>
    intro start here depth c rest hopen hclose htick hquote n value hquoted ih
    rw [Template.substitution_string hopen hclose htick hquote hquoted,
      substitution, if_pos hquote, reasons_bind, reasons_innerString, hquoted]
    · exact ih
    all_goals assumption
  case case14 =>
    intro start here depth c rest hopen hclose htick hquote hslash hgap
    rw [Template.substitution_openComment hopen hclose htick hquote hslash
      hgap, substitution, if_neg hquote, if_pos hslash, hgap]
    · rfl
    all_goals assumption
  case case15 =>
    intro start here depth c rest hopen hclose htick hquote hslash n hgap ih
    rw [Template.substitution_comment hopen hclose htick hquote hslash hgap,
      substitution, if_neg hquote, if_pos hslash, hgap]
    · exact ih
    all_goals assumption
  case case16 =>
    intro start here depth c rest hopen hclose htick hquote hslash ih
    rw [Template.substitution_other hopen hclose htick hquote hslash,
      substitution, if_neg hquote, if_neg hslash, ih]
    all_goals assumption

end ShapeMend.Script.Checked
