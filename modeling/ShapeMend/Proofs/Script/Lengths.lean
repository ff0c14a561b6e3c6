import ShapeMend.Script.Token.Scan

/-!
# Lengths of lexemes

A scan answers how many characters it takes.  It takes one at least and no more
than there are, whatever it crosses on the way: escapes, substitutions,
comments, classes.
-/

namespace ShapeMend.Script

/-! ## Quoted strings -/

namespace Quoted

variable {s : List Char} {n : Nat}

theorem le_length_of_hexRun {width code number : Nat}
    (h : hexRun width code s = some number) : width ≤ s.length := by
  fun_induction hexRun width code s with
  | case1 => exact Nat.zero_le _
  | case2 => cases h
  | case3 width code c rest digit hdigit ih => simpa using ih h
  | case4 => cases h

theorem le_length_of_codeEscape? {code : Nat}
    (h : codeEscape? s = some (n, code)) : n ≤ s.length := by
  revert h
  fun_cases codeEscape? s with
  | case1 rest digits hform =>
      intro h
      obtain ⟨-, -, hclose⟩ := hform
      have hbehind : rest.drop digits.length ≠ [] := by
        intro hnil
        simp [hnil] at hclose
      rw [ne_eq, List.drop_eq_nil_iff, Nat.not_le] at hbehind
      obtain ⟨number, -, heq⟩ := Option.map_eq_some_iff.mp h
      simp only [Prod.mk.injEq] at heq
      rw [List.length_cons]
      omega
  | case2 => simp
  | case3 =>
      intro h
      obtain ⟨number, hrun, heq⟩ := Option.map_eq_some_iff.mp h
      have hfour := le_length_of_hexRun hrun
      simp only [Prod.mk.injEq] at heq
      omega

theorem le_length_of_escape {chars : List Char}
    (h : escape s = .ok (n, chars)) : n ≤ s.length := by
  revert h
  fun_cases escape s
  case case12 rest code hrun =>
    have htwo := le_length_of_hexRun hrun
    simp only [Except.ok.injEq, Prod.mk.injEq, List.length_cons]
    omega
  case case16 rest first code hcode next hnext hlead second other hother =>
    have hfirst := le_length_of_codeEscape? hcode
    have hsecond := le_length_of_codeEscape? hother
    have hlength := congrArg List.length hnext
    simp only [List.length_drop, List.length_cons] at hlength
    simp only [Except.ok.injEq, Prod.mk.injEq, List.length_cons]
    omega
  case case17 rest first code hcode hlone =>
    have hfirst := le_length_of_codeEscape? hcode
    simp only [Except.ok.injEq, Prod.mk.injEq, List.length_cons]
    omega
  all_goals
    simp only [Except.ok.injEq, Prod.mk.injEq, List.length_cons, reduceCtorEq,
      false_implies]
    try omega

theorem length_body {quote : Char} {chars : List Char}
    (h : body quote s = .ok (n, chars)) : 1 ≤ n ∧ n ≤ s.length := by
  fun_induction body quote s generalizing n chars with
  | case1 => cases h
  | case2 => cases h
  | case3 rest ih =>
      rcases hescape : escape rest with flaw | ⟨taken, first⟩
      · simp [hescape, bind, Except.bind] at h
      rcases hbody : body quote (rest.drop taken) with flaw | ⟨m, more⟩
      · simp [hescape, hbody, bind, Except.bind] at h
      simp only [hescape, hbody, bind, Except.bind, pure, Except.pure,
        Except.ok.injEq, Prod.mk.injEq] at h
      have htaken := le_length_of_escape hescape
      have hmore := (ih taken hbody).2
      rw [List.length_drop] at hmore
      rw [List.length_cons]
      omega
  | case4 =>
      simp only [pure, Except.pure, Except.ok.injEq, Prod.mk.injEq] at h
      rw [List.length_cons]
      omega
  | case5 c rest _ _ _ ih =>
      rcases hbody : body quote rest with flaw | ⟨m, more⟩
      · simp [hbody, bind, Except.bind] at h
      simp only [hbody, bind, Except.bind, pure, Except.pure, Except.ok.injEq,
        Prod.mk.injEq] at h
      have hmore := (ih hbody).2
      rw [List.length_cons]
      omega

end Quoted

/-! ## Gaps -/

theorem Gap.length_le (place : Place) (s : List Char) :
    length place s ≤ s.length := by
  fun_induction length place s <;> simp_all

/-! ## Template literals -/

namespace Template

section

variable {start here depth n : Nat} {c : Char} {rest : List Char}

/-! A character of a substitution that neither nests nor closes anything begins
a string, begins a comment, or stands for itself. -/

theorem substitution_string {chars : List Char} (hopen : c ≠ '{')
    (hclose : c ≠ '}') (htick : c ≠ '`') (hquote : Quoted.isQuote c)
    (hbody : Quoted.body c rest = .ok (n, chars)) :
    substitution start here depth (c :: rest) =
      substitution start (here + 1 + n) depth (rest.drop n) := by
  rw [substitution, if_pos hquote, hbody]
  all_goals assumption

theorem substitution_openString {flaw : LexicalFlaw} (hopen : c ≠ '{')
    (hclose : c ≠ '}') (htick : c ≠ '`') (hquote : Quoted.isQuote c)
    (hbody : Quoted.body c rest = .error flaw) :
    substitution start here depth (c :: rest) = .error ⟨here, flaw⟩ := by
  rw [substitution, if_pos hquote, hbody]
  all_goals assumption

theorem substitution_comment (hopen : c ≠ '{') (hclose : c ≠ '}')
    (htick : c ≠ '`') (hquote : ¬ Quoted.isQuote c)
    (hslash : c = '/' ∧ (rest.head? = some '/' ∨ rest.head? = some '*'))
    (hgap : Gap.length .blank (c :: rest) = n + 1) :
    substitution start here depth (c :: rest) =
      substitution start (here + 1 + n) depth (rest.drop n) := by
  rw [substitution, if_neg hquote, if_pos hslash, hgap]
  all_goals assumption

theorem substitution_openComment (hopen : c ≠ '{') (hclose : c ≠ '}')
    (htick : c ≠ '`') (hquote : ¬ Quoted.isQuote c)
    (hslash : c = '/' ∧ (rest.head? = some '/' ∨ rest.head? = some '*'))
    (hgap : Gap.length .blank (c :: rest) = 0) :
    substitution start here depth (c :: rest) =
      .error ⟨here, .unterminatedComment⟩ := by
  rw [substitution, if_neg hquote, if_pos hslash, hgap]
  all_goals assumption

theorem substitution_other (hopen : c ≠ '{') (hclose : c ≠ '}')
    (htick : c ≠ '`') (hquote : ¬ Quoted.isQuote c)
    (hslash : ¬ (c = '/' ∧ (rest.head? = some '/' ∨ rest.head? = some '*'))) :
    substitution start here depth (c :: rest) =
      substitution start (here + 1) depth rest := by
  rw [substitution, if_neg hquote, if_neg hslash]
  all_goals assumption

end

def Advances (here : Nat) (s : List Char) (scan : Except Fault Nat) : Prop :=
  ∀ stop, scan = .ok stop → here < stop ∧ stop ≤ here + s.length

private theorem Advances.error (here : Nat) (s : List Char) (fault : Fault) :
    Advances here s (.error fault) := by
  simp [Advances]

private theorem Advances.one (here : Nat) (c : Char) (rest : List Char) :
    Advances here (c :: rest) (.ok (here + 1)) := by
  simp only [Advances, Except.ok.injEq, List.length_cons]
  omega

theorem Advances.further (taken : Nat) {here : Nat} {c : Char}
    {rest : List Char} {scan : Except Fault Nat} (htaken : taken ≤ rest.length)
    (h : Advances (here + 1 + taken) (rest.drop taken) scan) :
    Advances here (c :: rest) scan := by
  intro stop hstop
  have hbehind := h stop hstop
  rw [List.length_drop] at hbehind
  rw [List.length_cons]
  omega

private theorem Advances.step {here : Nat} {c : Char} {rest : List Char}
    {scan : Except Fault Nat} (h : Advances (here + 1) rest scan) :
    Advances here (c :: rest) scan :=
  further 0 (Nat.zero_le _) h

private theorem Advances.bind {here : Nat} {s : List Char}
    {inner : Except Fault Nat} {outer : Nat → Except Fault Nat}
    (hinner : Advances here s inner)
    (houter : ∀ stop, Advances stop (s.drop (stop - here)) (outer stop)) :
    Advances here s (inner >>= outer) := by
  intro stop h
  cases inner with
  | error fault => cases h
  | ok middle =>
      have hfirst := hinner middle rfl
      have hbehind := houter middle stop h
      rw [List.length_drop] at hbehind
      omega

theorem advances : (∀ start here s, Advances here s (body start here s)) ∧
    ∀ start here depth s,
      Advances here s (substitution start here depth s) := by
  -- Each of the two scans starts the other one, so one induction goes over the
  -- steps of both.
  apply body.mutual_induct
    (fun start here s => Advances here s (body start here s))
    (fun start here depth s =>
      Advances here s (substitution start here depth s))
  case case1 =>
    intro start here
    rw [body]
    exact .error _ _ _
  case case2 =>
    intro start here rest
    rw [body]
    exact .one _ _ _
  case case3 =>
    intro start here
    rw [body]
    exact .error _ _ _
  case case4 =>
    intro start here c rest ih
    rw [body]
    exact .step (.step ih)
  case case5 =>
    intro start here rest hinner hbehind
    rw [body]
    exact .step (.step (hinner.bind hbehind))
  case case6 =>
    intro start here c rest htick hlast hescape hopen ih
    rw [body]
    · exact .step ih
    all_goals assumption
  case case7 =>
    intro start here depth
    rw [substitution]
    exact .error _ _ _
  case case8 =>
    intro start here depth rest ih
    rw [substitution]
    exact .step ih
  case case9 =>
    intro start here rest
    rw [substitution]
    exact .one _ _ _
  case case10 =>
    intro start here rest depth ih
    rw [substitution]
    exact .step ih
  case case11 =>
    intro start here depth rest hinner hbehind
    rw [substitution]
    exact .step (hinner.bind hbehind)
  case case12 =>
    intro start here depth c rest hopen hclose htick hquote flaw hquoted
    rw [substitution_openString hopen hclose htick hquote hquoted]
    exact .error _ _ _
  case case13 =>
    intro start here depth c rest hopen hclose htick hquote n value hquoted ih
    rw [substitution_string hopen hclose htick hquote hquoted]
    exact .further n (Quoted.length_body hquoted).2 ih
  case case14 =>
    intro start here depth c rest hopen hclose htick hquote hslash hgap
    rw [substitution_openComment hopen hclose htick hquote hslash hgap]
    exact .error _ _ _
  case case15 =>
    intro start here depth c rest hopen hclose htick hquote hslash n hgap ih
    have hlength := Gap.length_le .blank (c :: rest)
    rw [hgap, List.length_cons] at hlength
    rw [substitution_comment hopen hclose htick hquote hslash hgap]
    exact .further n (Nat.le_of_succ_le_succ hlength) ih
  case case16 =>
    intro start here depth c rest hopen hclose htick hquote hslash ih
    rw [substitution_other hopen hclose htick hquote hslash]
    exact .step ih

end Template

/-! ## Lexemes -/

theorem Numeral.runLength_le (radix : Bool) (s : List Char) :
    runLength radix s ≤ s.length := by
  fun_induction runLength radix s <;> simp_all

private theorem Numeral.runLength_pos {radix : Bool} {c : Char}
    (rest : List Char) (h : isRun c) : 1 ≤ runLength radix (c :: rest) := by
  cases rest with
  | nil => simp [runLength, h]
  | cons d rest =>
      rw [runLength, if_pos h]
      split <;> omega

private theorem Token.length_pattern {inClass : Bool} {s : List Char} {n : Nat}
    (h : patternLength? inClass s = some n) : 1 ≤ n ∧ n ≤ s.length := by
  fun_induction patternLength? inClass s generalizing n with
  | case1 => cases h
  | case2 => cases h
  | case3 => cases h
  | case4 => cases h
  | case5 inClass c rest hc ih =>
      obtain ⟨m, hm, rfl⟩ := Option.map_eq_some_iff.mp h
      have hrest := ih hm
      simp only [List.length_cons]
      omega
  | case6 inClass c rest _ _ _ _ hclose =>
      have hflags :=
        (List.takeWhile_sublist (l := rest) continuesWord).length_le
      simp only [Option.some.injEq] at h
      rw [List.length_cons]
      omega
  | case7 inClass c rest _ _ _ _ _ ih =>
      obtain ⟨m, hm, rfl⟩ := Option.map_eq_some_iff.mp h
      have hrest := ih hm
      rw [List.length_cons]
      omega

theorem Token.length_measure {previous : Option Token} {c : Char}
    {rest : List Char} {kind : Kind} {n : Nat}
    (h : measure previous c rest = .ok (kind, n)) :
    1 ≤ n ∧ n ≤ rest.length + 1 := by
  revert h
  fun_cases measure previous c rest with
  | case1 hquote m value hquoted =>
      have hlength := Quoted.length_body hquoted
      simp only [Except.ok.injEq, Prod.mk.injEq]
      omega
  | case2 => simp
  | case3 =>
      intro h
      rcases hbody : Template.body 0 1 rest with fault | stop
      · simp [hbody, Except.map] at h
      have hstop := Template.advances.1 0 1 rest stop hbody
      simp only [hbody, Except.map, Except.ok.injEq, Prod.mk.injEq] at h
      omega
  | case4 _ _ hdigit m =>
      have hrun : Numeral.isRun c := by
        rcases hdigit with hdigit | ⟨rfl, -⟩
        · simp [Numeral.isRun, Char.isAlphanum, hdigit]
        · rfl
      have hpos : 1 ≤ m := Numeral.runLength_pos rest hrun
      have hle : m ≤ (c :: rest).length := Numeral.runLength_le _ _
      rw [List.length_cons] at hle
      simp only [Except.ok.injEq, Prod.mk.injEq]
      omega
  | case5 => simp
  | case6 _ _ _ hdots =>
      have htwo := congrArg List.length hdots.2
      simp only [List.length_take, List.length_cons, List.length_nil] at htwo
      simp only [Except.ok.injEq, Prod.mk.injEq]
      omega
  | case7 _ _ _ _ harrow =>
      have hone : rest ≠ [] := by
        rintro rfl
        simp at harrow
      have hpos := List.length_pos_iff.mpr hone
      simp only [Except.ok.injEq, Prod.mk.injEq]
      omega
  | case8 =>
      have hword := (List.takeWhile_sublist (l := rest) continuesWord).length_le
      simp only [Except.ok.injEq, Prod.mk.injEq]
      omega
  | case9 => simp
  | case10 _ _ _ _ _ _ _ _ m hpattern =>
      have hlength := length_pattern hpattern
      simp only [Except.ok.injEq, Prod.mk.injEq]
      omega
  | case11 => simp
  | case12 =>
      simp only [Except.ok.injEq, Prod.mk.injEq]
      omega
  | case13 => simp

end ShapeMend.Script
