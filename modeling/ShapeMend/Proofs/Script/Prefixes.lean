import ShapeMend.Proofs.Script.Lengths
import ShapeMend.Proofs.Script.Pieces

/-!
# Texts before a line feed

What a scan finds in a text is found there too if a line feed and further text
stand behind.  No lexeme takes that line feed in, and a gap that reaches it goes
on with the gap behind it.
-/

namespace ShapeMend.Script

open ShapeMend.Text

variable {s behind : List Char} {n : Nat}

theorem takeWhile_append_newline {test : Char → Bool}
    (htest : test '\n' = false) (s behind : List Char) :
    (s ++ '\n' :: behind).takeWhile test = s.takeWhile test := by
  rw [List.takeWhile_append, List.takeWhile_cons_of_neg (by simp [htest])]
  split
  · next hall =>
        rw [List.append_nil, (List.takeWhile_prefix test).eq_of_length hall]
  · rfl

theorem head?_append_newline {c : Char} (hc : c ≠ '\n') :
    (s ++ '\n' :: behind).head? = some c ↔ s.head? = some c := by
  cases s with
  | nil => simp [hc.symm]
  | cons d rest => simp

theorem ne_append_newline {c : Char} (hc : c ≠ '\n') (h : ∀ rest, s ≠ c :: rest)
    {later : List Char} : s ++ '\n' :: behind ≠ c :: later := by
  intro heq
  obtain ⟨rest, hrest⟩ :=
    List.head?_eq_some_iff.mp
      ((head?_append_newline hc).mp (congrArg List.head? heq))
  exact h rest hrest

/-! ## Quoted strings -/

namespace Quoted

theorem hexRun_append {width code number : Nat}
    (h : hexRun width code s = some number) (more : List Char) :
    hexRun width code (s ++ more) = some number := by
  fun_induction hexRun width code s with
  | case1 code s => rwa [hexRun]
  | case2 => cases h
  | case3 width code c rest digit hdigit ih => simpa [hexRun, hdigit] using ih h
  | case4 => cases h

private theorem codeEscape?_append {code : Nat}
    (h : codeEscape? s = some (n, code)) (behind : List Char) :
    codeEscape? (s ++ '\n' :: behind) = some (n, code) := by
  revert h
  fun_cases codeEscape? s with
  | case1 rest digits hform =>
      intro h
      have hdigits :
          (rest ++ '\n' :: behind).takeWhile (fun c => (hexDigit? c).isSome) =
          digits :=
        takeWhile_append_newline (by decide) rest behind
      have hclose : ((rest ++ '\n' :: behind).drop digits.length).head? =
          some '}' := by
        obtain ⟨later, hlater⟩ := List.head?_eq_some_iff.mp hform.2.2
        have hle : digits.length ≤ rest.length :=
          (List.takeWhile_sublist _).length_le
        rw [List.drop_append_of_le_length hle, hlater]
        rfl
      rw [List.cons_append, codeEscape?]
      simp only [hdigits]
      rw [if_pos ⟨hform.1, hform.2.1, hclose⟩]
      exact h
  | case2 => simp
  | case3 =>
      rename_i hopen
      intro h
      obtain ⟨number, hrun, heq⟩ := Option.map_eq_some_iff.mp h
      rw [codeEscape?, hexRun_append hrun, Option.map_some, heq]
      exact fun later => ne_append_newline (by decide) hopen

/-- An escape that is not the last thing in the text; a carriage return at the
end would take the line feed with it. -/
private theorem escape_append {chars : List Char}
    (h : escape s = .ok (n, chars)) (hne : s.drop n ≠ []) (behind : List Char) :
    escape (s ++ '\n' :: behind) = .ok (n, chars) := by
  revert h
  fun_cases escape s with
  | case8 rest =>
      intro h
      rw [← h, List.cons_append, escape]
      cases rest <;> rfl
  | case11 rest hfeed =>
      intro h
      obtain ⟨rfl, rfl⟩ := Prod.mk.inj (Except.ok.inj h)
      cases rest with
      | nil => exact absurd rfl hne
      | cons c rest =>
          rw [List.cons_append, List.cons_append, escape]
          rintro later heq
          exact hfeed rest (by rw [(List.cons.inj heq).1])
  | case12 rest code hrun =>
      intro h
      rw [← h, List.cons_append, escape, hexRun_append hrun]
  | case16 rest first code hcode next hnext hlead second other hother =>
      intro h
      have hle := le_length_of_codeEscape? hcode
      rw [← h, List.cons_append, escape]
      simp only [codeEscape?_append hcode, List.drop_append_of_le_length hle,
        hnext, hlead, List.cons_append, codeEscape?_append hother]
  | case17 rest first code hcode hlone =>
      intro h
      have hle := le_length_of_codeEscape? hcode
      have halone (next : List Char) (hlead : isLead code = true) :
          (rest ++ '\n' :: behind).drop first ≠ '\\' :: 'u' :: next := by
        rw [List.drop_append_of_le_length hle]
        intro heq
        rcases hlater : rest.drop first with _ | ⟨c, _ | ⟨d, later⟩⟩
        · simp [hlater] at heq
        · simp [hlater] at heq
        · simp only [hlater, List.cons_append, List.cons.injEq] at heq
          exact hlone later hlead (by rw [hlater, heq.1, heq.2.1])
      rw [← h, List.cons_append, escape]
      simp only [codeEscape?_append hcode]
  | case18 c rest =>
      intro h
      have hreturn : c ≠ '\r' := by assumption
      rw [List.cons_append, escape]
      · exact h
      all_goals first | assumption | exact fun _ heq => absurd heq hreturn
  | case1 | case13 | case14 | case15 => simp
  | case2 | case3 | case4 | case5 | case6 | case7 | case9 | case10 => exact id

theorem body_append {quote : Char} {chars : List Char}
    (h : body quote s = .ok (n, chars)) (behind : List Char) :
    body quote (s ++ '\n' :: behind) = .ok (n, chars) := by
  fun_induction body quote s generalizing n chars with
  | case1 => cases h
  | case2 => cases h
  | case3 rest ih =>
      rcases hescape : escape rest with flaw | ⟨taken, first⟩
      · simp [hescape, bind, Except.bind] at h
      rcases hbody : body quote (rest.drop taken) with flaw | ⟨m, more⟩
      · simp [hescape, hbody, bind, Except.bind] at h
      have hne : rest.drop taken ≠ [] := by
        intro hnil
        rw [hnil, body] at hbody
        cases hbody
      have hmore := ih taken hbody
      rw [← List.drop_append_of_le_length (le_length_of_escape hescape)]
        at hmore
      rw [List.cons_append,
        body_escape (escape_append hescape hne behind) hmore, ← h]
      simp [hescape, hbody, bind, Except.bind, pure, Except.pure]
  | case4 rest hescape hfeed =>
      rw [List.cons_append, body]
      · simpa using h
      all_goals assumption
  | case5 c rest hescape hfeed hquote ih =>
      rcases hbody : body quote rest with flaw | ⟨m, more⟩
      · simp [hbody, bind, Except.bind] at h
      rw [List.cons_append, body]
      · simp only [if_neg hquote, ih hbody]
        simpa only [hbody] using h
      all_goals assumption

end Quoted

/-! ## Gaps -/

namespace Gap

theorem closes_append (h : closes s) (more : List Char) :
    closes (s ++ more) := by
  fun_induction closes s with
  | case1 => cases h
  | case2 => cases h
  | case3 => rfl
  | case4 c rest hlast hend ih =>
      obtain ⟨d, later, rfl⟩ : ∃ d later, rest = d :: later := by
        cases rest with
        | nil => simp [closes] at h
        | cons d later => exact ⟨d, later, rfl⟩
      rw [List.cons_append, closes]
      · exact ih h
      · simp
      · rintro after rfl heq
        exact hend later rfl
          (by rw [List.cons_append, List.cons.injEq] at heq; rw [heq.1])

theorem length_append {place : Place} (hshort : s.drop (length place s) ≠ [])
    (hclosed : ∀ rest,
      s.drop (length place s) = '/' :: '*' :: rest → closes rest)
    (behind : List Char) :
    length place (s ++ '\n' :: behind) = length place s := by
  fun_induction length place s with
  | case1 => simp at hshort
  | case2 rest ih =>
      rw [List.cons_append, List.cons_append, length, ih hshort hclosed]
  | case3 rest hend ih =>
      rw [List.cons_append, List.cons_append, length,
        if_pos (closes_append hend _), ih hshort hclosed]
  | case4 rest hopen => exact absurd (hclosed rest rfl) hopen
  | case5 c rest hline hblock hblank ih =>
      have hslash : c ≠ '/' := by
        rintro rfl
        exact absurd hblank (by decide)
      rw [List.cons_append, length_blank_cons _ hslash, if_pos hblank,
        ih hshort hclosed]
  | case6 c rest hline hblock hblank =>
      rw [List.cons_append, length, if_neg hblank]
      · exact fun later hslash => ne_append_newline (by decide) fun rest =>
          hline rest hslash
      · exact fun later hslash => ne_append_newline (by decide) fun rest =>
          hblock rest hslash
  | case7 rest ih =>
      rw [List.cons_append, length, if_pos rfl, ih hshort hclosed]
  | case8 c rest hc ih =>
      rw [List.cons_append, length, if_neg hc, ih hshort hclosed]
  | case9 rest ih =>
      rw [List.cons_append, List.cons_append, length, ih hshort hclosed]
  | case10 c rest hend ih =>
      rw [List.cons_append, length, ih hshort hclosed]
      exact fun later hstar => ne_append_newline (by decide) fun rest =>
        hend rest hstar

private theorem length_line_of_not_mem (h : '\n' ∉ s) :
    length .line s = s.length := by
  induction s with
  | nil => rw [length, List.length_nil]
  | cons c s ih =>
      rw [List.mem_cons, not_or] at h
      rw [length, if_neg (Ne.symm h.1), ih h.2, List.length_cons]

private theorem length_append_of_end {place : Place}
    (hclosed : place = .block → closes s) (hall : s.length ≤ length place s)
    (behind : List Char) :
    length place (s ++ '\n' :: behind) = length place s +
      (length .blank behind + 1) := by
  fun_induction length place s with
  | case1 place =>
      rw [List.nil_append, Nat.zero_add]
      cases place with
      | blank => rw [length_blank_cons _ (by decide), if_pos (by decide)]
      | line => rw [length, if_pos rfl]
      | block => exact absurd (hclosed rfl) (by simp [closes])
  | case2 rest ih =>
      rw [List.cons_append, List.cons_append, length,
        ih (by simp) (by simpa using hall), Nat.add_right_comm]
  | case3 rest hend ih =>
      rw [List.cons_append, List.cons_append, length,
        if_pos (closes_append hend _), ih (fun _ => hend) (by simpa using hall),
        Nat.add_right_comm]
  | case4 rest => simp at hall
  | case5 c rest _ _ hblank ih =>
      have hslash : c ≠ '/' := by
        rintro rfl
        exact absurd hblank (by decide)
      rw [List.cons_append, length_blank_cons _ hslash, if_pos hblank,
        ih (by simp) (by simpa using hall), Nat.add_right_comm]
  | case6 c rest => simp at hall
  | case7 rest ih =>
      rw [List.cons_append, length, if_pos rfl,
        ih (by simp) (by simpa using hall), Nat.add_right_comm]
  | case8 c rest hc ih =>
      rw [List.cons_append, length, if_neg hc,
        ih (by simp) (by simpa using hall), Nat.add_right_comm]
  | case9 rest ih =>
      rw [List.cons_append, List.cons_append, length,
        ih (by simp) (by simpa using hall), Nat.add_right_comm]
  | case10 c rest hend ih =>
      have hrest := closes_of_closes_cons hend (hclosed rfl)
      rw [List.cons_append, length, ih (fun _ => hrest) (by simpa using hall),
        Nat.add_right_comm]
      exact fun later hstar =>
        ne_append_newline (by decide) (fun rest => hend rest hstar)

end Gap

/-! ## Template literals -/

namespace Template

def Stays (s : List Char) (scan : List Char → Except Fault Nat) : Prop :=
  ∀ stop behind, scan s = .ok stop → scan (s ++ '\n' :: behind) = .ok stop

private theorem Stays.bind {here : Nat} {inner : List Char → Except Fault Nat}
    {outer : Nat → List Char → Except Fault Nat}
    (hadvances : Advances here s (inner s)) (hinner : Stays s inner)
    (houter : ∀ stop, Stays (s.drop (stop - here)) (outer stop)) :
    Stays s fun text => inner text >>= fun stop =>
      outer stop (text.drop (stop - here)) := by
  intro stop behind h
  simp only at h ⊢
  rcases hmiddle : inner s with fault | middle
  · rw [hmiddle] at h
    cases h
  · rw [hmiddle] at h
    have hle := (hadvances middle hmiddle).2
    have hlater := houter middle stop behind h
    rw [← List.drop_append_of_le_length (by omega)] at hlater
    rw [hinner middle behind hmiddle]
    exact hlater

private theorem begins_of_substitution {start here depth stop : Nat}
    (h : substitution start here depth s = .ok stop) :
    s ≠ [] ∧ ∀ rest, s = '/' :: '*' :: rest → Gap.closes rest := by
  refine ⟨?_, ?_⟩
  · rintro rfl
    rw [substitution] at h
    cases h
  · rintro rest rfl
    rw [← Bool.not_eq_false]
    intro hopen
    rw [substitution, if_neg (by decide), if_pos (by simp), Gap.length,
      if_neg (by simp [hopen])] at h
    · cases h
    all_goals simp

private theorem stays : (∀ start here s, Stays s (body start here)) ∧
    ∀ start here depth s, Stays s (substitution start here depth) := by
  apply body.mutual_induct (fun start here s => Stays s (body start here))
    (fun start here depth s => Stays s (substitution start here depth))
  case case1 =>
    intro start here stop behind h
    rw [body] at h
    cases h
  case case2 =>
    intro start here rest stop behind h
    rw [body] at h
    rw [List.cons_append, body, h]
  case case3 =>
    intro start here stop behind h
    rw [body] at h
    cases h
  case case4 =>
    intro start here c rest ih stop behind h
    rw [body] at h
    rw [List.cons_append, List.cons_append, body, ih stop behind h]
  case case5 =>
    intro start here rest hinner hbehind stop behind h
    rw [body] at h
    rw [List.cons_append, List.cons_append, body]
    exact Stays.bind (advances.2 _ _ _ _) hinner hbehind stop behind h
  case case6 =>
    intro start here c rest htick hlast hescape hopen ih stop behind h
    rw [body] at h
    · rw [List.cons_append, body]
      · exact ih stop behind h
      · exact htick
      · simp
      · rintro d later rfl heq
        cases rest with
        | nil => exact hlast rfl rfl
        | cons d rest => exact hescape d rest rfl rfl
      · exact fun later hdollar => ne_append_newline (by decide) fun rest =>
          hopen rest hdollar
    all_goals assumption
  case case7 =>
    intro start here depth stop behind h
    rw [substitution] at h
    cases h
  case case8 =>
    intro start here depth rest ih stop behind h
    rw [substitution] at h
    rw [List.cons_append, substitution, ih stop behind h]
  case case9 =>
    intro start here rest stop behind h
    rw [substitution] at h
    rw [List.cons_append, substitution, h]
  case case10 =>
    intro start here rest depth ih stop behind h
    rw [substitution] at h
    rw [List.cons_append, substitution, ih stop behind h]
  case case11 =>
    intro start here depth rest hinner hbehind stop behind h
    rw [substitution] at h
    rw [List.cons_append, substitution]
    exact Stays.bind (advances.1 _ _ _) hinner hbehind stop behind h
  case case12 =>
    intro start here depth c rest hopen hclose htick hquote flaw hquoted stop
      behind h
    rw [substitution_openString hopen hclose htick hquote hquoted] at h
    cases h
  case case13 =>
    intro start here depth c rest hopen hclose htick hquote n value hquoted ih
      stop behind h
    rw [substitution_string hopen hclose htick hquote hquoted] at h
    have hlater := ih stop behind h
    rw [← List.drop_append_of_le_length (Quoted.length_body hquoted).2]
      at hlater
    rwa [List.cons_append,
      substitution_string hopen hclose htick hquote
        (Quoted.body_append hquoted behind)]
  case case14 =>
    intro start here depth c rest hopen hclose htick hquote hslash hgap stop
      behind h
    rw [substitution_openComment hopen hclose htick hquote hslash hgap] at h
    cases h
  case case15 =>
    intro start here depth c rest hopen hclose htick hquote hslash n hgap ih
      stop behind h
    rw [substitution_comment hopen hclose htick hquote hslash hgap] at h
    obtain ⟨hne, hcomment⟩ := begins_of_substitution h
    have hshort : (c :: rest).drop (Gap.length .blank (c :: rest)) =
        rest.drop n := by
      rw [hgap, List.drop_succ_cons]
    have hlength := Gap.length_append (hshort ▸ hne) (hshort ▸ hcomment) behind
    rw [hgap, List.cons_append] at hlength
    have hle := Gap.length_le .blank (c :: rest)
    rw [hgap, List.length_cons] at hle
    have hlater := ih stop behind h
    rw [← List.drop_append_of_le_length (by omega)] at hlater
    have hhead : (rest ++ '\n' :: behind).head? = some '/' ∨
        (rest ++ '\n' :: behind).head? = some '*' :=
      hslash.2.imp (head?_append_newline (by decide)).mpr
        (head?_append_newline (by decide)).mpr
    rwa [List.cons_append,
      substitution_comment hopen hclose htick hquote ⟨hslash.1, hhead⟩ hlength]
  case case16 =>
    intro start here depth c rest hopen hclose htick hquote hslash ih stop
      behind h
    rw [substitution_other hopen hclose htick hquote hslash] at h
    rw [List.cons_append, substitution_other hopen hclose htick hquote,
      ih stop behind h]
    rwa [head?_append_newline (by decide), head?_append_newline (by decide)]

end Template

/-! ## Lexemes -/

private theorem Numeral.runLength_append (radix : Bool) (s behind : List Char) :
    runLength radix (s ++ '\n' :: behind) = runLength radix s := by
  have hfeed : isRun '\n' = false := by decide
  fun_induction runLength radix s with
  | case1 => cases behind <;> simp [runLength, hfeed]
  | case2 c hrun =>
      rw [List.singleton_append, runLength, if_pos hrun, if_neg (by simp)]
      cases behind <;> simp [runLength, hfeed]
  | case3 c hrun => rw [List.singleton_append, runLength, if_neg hrun]
  | case4 c d rest hrun hsign ih =>
      rw [List.cons_append, List.cons_append, runLength, if_pos hrun,
        if_pos hsign, ih]
  | case5 c d rest hrun hsign ih =>
      rw [List.cons_append, List.cons_append, runLength, if_pos hrun,
        if_neg hsign, ← List.cons_append, ih]
  | case6 c d rest hrun =>
      rw [List.cons_append, List.cons_append, runLength, if_neg hrun]

private theorem Numeral.hasRadixMark_append (s behind : List Char) :
    hasRadixMark (s ++ '\n' :: behind) = hasRadixMark s := by
  rcases s with _ | ⟨c, _ | ⟨d, rest⟩⟩
  · rfl
  · by_cases hc : c = '0'
    · subst hc
      rfl
    · simp [hasRadixMark, hc]
  · by_cases hc : c = '0'
    · subst hc
      rfl
    · simp [hasRadixMark, hc]

private theorem Token.patternLength?_append {inClass : Bool}
    (h : patternLength? inClass s = some n) (behind : List Char) :
    patternLength? inClass (s ++ '\n' :: behind) = some n := by
  fun_induction patternLength? inClass s generalizing n with
  | case1 => cases h
  | case2 => cases h
  | case3 => cases h
  | case4 => cases h
  | case5 inClass c rest hc ih =>
      obtain ⟨m, hm, rfl⟩ := Option.map_eq_some_iff.mp h
      rw [List.cons_append, List.cons_append, patternLength?, ih hm,
        Option.map_some]
      exact hc
  | case6 inClass c rest hfeed hlast hbroken hescape hclose =>
      rw [List.cons_append, patternLength?, if_pos hclose,
        takeWhile_append_newline (by decide)]
      · exact h
      all_goals simp [hclose.1]
  | case7 inClass c rest hfeed hlast hbroken hescape hclose ih =>
      have hne : c ≠ '\\' := by
        rintro rfl
        cases rest with
        | nil => exact hlast rfl rfl
        | cons d rest => exact hescape d rest rfl rfl
      obtain ⟨m, hm, rfl⟩ := Option.map_eq_some_iff.mp h
      rw [List.cons_append, patternLength?, if_neg hclose, ih hm,
        Option.map_some]
      · exact hfeed
      all_goals simp [hne]

/-- A lexeme depends on the token before it only by what a slash would begin
there. -/
private theorem Token.measure_append {previous other : Option Token}
    (hslash : slashOpensPattern other = slashOpensPattern previous) {c : Char}
    {kind : Kind} (h : measure previous c s = .ok (kind, n))
    (behind : List Char) :
    measure other c (s ++ '\n' :: behind) = .ok (kind, n) := by
  have hdigit : (s ++ '\n' :: behind).head?.any Char.isDigit =
      s.head?.any Char.isDigit := by
    cases s <;> rfl
  have hdots : (s ++ '\n' :: behind).take 2 = ['.', '.'] ↔
      s.take 2 = ['.', '.'] := by
    rcases s with _ | ⟨d, _ | ⟨e, rest⟩⟩ <;> simp
  have hstar : (s ++ '\n' :: behind).head? = some '*' ↔ s.head? = some '*' :=
    head?_append_newline (by decide)
  have harrow : (s ++ '\n' :: behind).head? = some '>' ↔ s.head? = some '>' :=
    head?_append_newline (by decide)
  have hword : (s ++ '\n' :: behind).takeWhile continuesWord =
      s.takeWhile continuesWord :=
    takeWhile_append_newline (by decide) s behind
  have hrun :=
    Numeral.runLength_append (Numeral.hasRadixMark (c :: s)) (c :: s) behind
  have htaken : ((c :: s) ++ '\n' :: behind).take
      (Numeral.runLength (Numeral.hasRadixMark (c :: s)) (c :: s)) =
      (c :: s).take
        (Numeral.runLength (Numeral.hasRadixMark (c :: s)) (c :: s)) :=
    List.take_append_of_le_length
      (Numeral.runLength_le (Numeral.hasRadixMark (c :: s)) (c :: s))
  have hmark := Numeral.hasRadixMark_append (c :: s) behind
  rw [List.cons_append] at hrun htaken hmark
  unfold measure at h ⊢
  simp only [hdigit, hdots, hstar, harrow, hword, hmark, hrun, htaken, hslash]
  split at h
  · next hquote =>
      rw [if_pos hquote]
      split at h
      · next hquoted =>
          rw [Quoted.body_append hquoted]
          exact h
      · cases h
  next hquote =>
  split at h
  · next htick =>
      rw [if_neg hquote, if_pos htick]
      rcases hbody : Template.body 0 1 s with fault | stop
      · rw [hbody] at h
        cases h
      · rw [Template.stays.1 0 1 s stop behind hbody]
        rwa [hbody] at h
  next htick =>
  rw [if_neg hquote, if_neg htick]
  split at h
  · next hnumeral => rwa [if_pos hnumeral]
  next hnumeral =>
  split at h
  · next hellipsis => rwa [if_neg hnumeral, if_pos hellipsis]
  next hellipsis =>
  split at h
  · next hequals => rwa [if_neg hnumeral, if_neg hellipsis, if_pos hequals]
  next hequals =>
  split at h
  · next hstart =>
        rwa [if_neg hnumeral, if_neg hellipsis, if_neg hequals, if_pos hstart]
  next hstart =>
  rw [if_neg hnumeral, if_neg hellipsis, if_neg hequals, if_neg hstart]
  split at h
  · cases h
  next hcomment =>
  rw [if_neg hcomment]
  split at h
  · next hpattern =>
      rw [if_pos hpattern]
      split at h
      · next hlength =>
          rw [patternLength?_append hlength]
          exact h
      · cases h
  · next hpattern => rwa [if_neg hpattern]

private theorem Token.measure_congr {previous other : Option Token}
    (hslash : slashOpensPattern other = slashOpensPattern previous) (c : Char)
    (rest : List Char) : measure other c rest = measure previous c rest := by
  unfold measure
  rw [hslash]

/-! ## Whole texts -/

namespace TokenStream

variable {previous other : Option Token} {broken : Bool} {position : Position}
  {text : List Char} {stream later : TokenStream}

/-- The tokens of a text but for their places do not depend on where the text
stands. -/
private theorem scanAfter_elsewhere
  (hslash : slashOpensPattern other = slashOpensPattern previous)
    (more : Bool) (place : Position)
      (h : scanAfter previous broken position text = .ok stream) :
    ∃ found, scanAfter other (more || broken) place text = .ok found ∧
      found.tokens.map Token.unplaced =
        Token.afterBreak more (stream.tokens.map Token.unplaced) := by
  fun_induction scanAfter previous broken position text
    generalizing other more place stream with
  | case1 previous broken position =>
      obtain rfl := Except.ok.inj h
      exact ⟨_, by rw [scanAfter], rfl⟩
  | case2 => cases h
  | case3 => cases h
  | case4 previous broken position c rest kind n hmeasure lexeme behind stop
      token gap found =>
      rename_i hfound ih
      obtain rfl := Except.ok.inj h
      let stop' := place.after lexeme
      let token' : Token :=
        ⟨kind, String.ofList lexeme, ⟨place, stop'.offset⟩, more || broken⟩
      obtain ⟨found', hfound', htokens⟩ :=
        @ih (some token') found rfl false (stop'.after gap) hfound
      rw [Token.afterBreak_false] at htokens
      refine ⟨{ found' with tokens := token' :: found'.tokens }, ?_, ?_⟩
      · rw [scanAfter, Token.measure_congr hslash, hmeasure]
        rw [Bool.false_or] at hfound'
        simp only [hfound', behind, stop', lexeme, gap, token']
      · simp [htokens, Token.afterBreak, Token.unplaced, token', token]

private theorem scanAfter_comment (rest : List Char) :
    scanAfter previous broken position ('/' :: '*' :: rest) ≠ .ok stream := by
  have hmeasure : Token.measure previous '/' ('*' :: rest) =
      .error ⟨0, .unterminatedComment⟩ := by
    unfold Token.measure
    rfl
  rw [scanAfter, hmeasure]
  simp

private theorem exists_of_scanAfter {c : Char} {rest : List Char}
    (h : scanAfter previous broken position (c :: rest) = .ok stream) :
    ∃ kind tail after token found, rest = tail ++ after ∧
      Token.measure previous c (tail ++ after) = .ok (kind, tail.length + 1) ∧
      token = Token.placed kind (c :: tail) position broken ∧
      scanFrom (some token) false (position.after (c :: tail)) after =
        .ok found ∧
      stream = { found with tokens := token :: found.tokens } := by
  rw [scanAfter] at h
  rcases hmeasure : Token.measure previous c rest with fault | ⟨kind, n⟩
  · rw [hmeasure] at h
    cases h
  have hn := Token.length_measure hmeasure
  obtain ⟨tail, after, rfl, rfl⟩ : ∃ tail after,
      rest = tail ++ after ∧ n = tail.length + 1 :=
    ⟨rest.take (n - 1), rest.drop (n - 1), (List.take_append_drop _ _).symm, by
      simp; omega⟩
  rw [hmeasure] at h
  simp only [Nat.add_sub_cancel, List.take_left, List.drop_left] at h
  split at h
  · cases h
  · next found hfound =>
      obtain rfl := Except.ok.inj h
      refine ⟨kind, tail, after, _, found, rfl, hmeasure, rfl, ?_, rfl⟩
      simpa only [scanFrom, Bool.false_or, Token.placed] using hfound

private theorem scanAfter_eq_ok {c : Char} {tail after : List Char}
    {kind : Token.Kind} {token : Token}
    (hmeasure : Token.measure previous c (tail ++ after) =
      .ok (kind, tail.length + 1))
    (htoken : token = Token.placed kind (c :: tail) position broken)
    (hstream : scanFrom (some token) false (position.after (c :: tail)) after =
      .ok stream) :
    scanAfter previous broken position (c :: (tail ++ after)) =
      .ok { stream with tokens := token :: stream.tokens } := by
  subst htoken
  simp only [scanFrom, Bool.false_or, Token.placed] at hstream
  rw [scanAfter, hmeasure]
  simp only [Nat.add_sub_cancel, List.take_left, List.drop_left, hstream,
    Token.placed]

/-- The tokens of a text and those of a text behind the next line feed, if a
slash means the same behind the last of the former as at the beginning. -/
private theorem scanFrom_append {behind : List Char}
    (h : scanFrom previous broken position text = .ok stream)
    (hlast : slashOpensPattern (stream.tokens.getLast?.or previous))
    {place : Position} (hlater : scanFrom none false place behind = .ok later) :
    ∃ joined, scanFrom previous broken position (text ++ '\n' :: behind) =
      .ok joined ∧
      joined.tokens.map Token.unplaced =
        stream.tokens.map Token.unplaced ++
          Token.afterBreak true (later.tokens.map Token.unplaced) := by
  generalize hlength : text.length = length
  induction length using Nat.strongRecOn
    generalizing previous broken position text stream with
  | ind length ih =>
  have hle := Gap.length_le .blank text
  simp only [scanFrom, List.length_take, Nat.min_eq_left (Gap.length_le _ _)]
    at h ⊢
  cases hafter : text.drop (Gap.length .blank text) with
  | nil =>
      have hall : text.length ≤ Gap.length .blank text :=
        List.drop_eq_nil_iff.mp hafter
      rw [hafter, scanAfter] at h
      obtain rfl := Except.ok.inj h
      simp only [scanFrom, List.length_take,
        Nat.min_eq_left (Gap.length_le _ _)] at hlater
      rw [Gap.length_append_of_end (by simp) hall, Nat.le_antisymm hle hall,
        List.take_length_add_append, List.drop_length_add_append,
          List.take_succ_cons,
        List.drop_succ_cons]
      obtain ⟨found, hfound, htokens⟩ := scanAfter_elsewhere hlast true
        (position.after
          (text ++ '\n' :: behind.take (Gap.length .blank behind))) hlater
      have hbreak :
          (broken ||
            (text ++ '\n' :: behind.take (Gap.length .blank behind)).contains
            '\n') = true := by simp
      exact ⟨found, hbreak ▸ hfound, htokens⟩
  | cons c rest =>
      rw [hafter] at h
      have hclosed (later : List Char)
          (hcomment : c :: rest = '/' :: '*' :: later) : Gap.closes later := by
        rw [hcomment] at h
        exact absurd h (scanAfter_comment later)
      obtain ⟨kind, tail, after, token, found, rfl, hmeasure, htoken, hfound,
          rfl⟩ := exists_of_scanAfter h
      have hshorter : after.length < length := by
        have hdrop := congrArg List.length hafter
        simp only [List.length_drop, List.length_cons, List.length_append]
          at hdrop
        omega
      have hslash :
          slashOpensPattern (found.tokens.getLast?.or (some token)) := by
        rwa [List.getLast?_cons, Option.some_or, ← Option.or_some] at hlast
      obtain ⟨joined, hjoined, hmore⟩ :=
        ih after.length hshorter hfound hslash rfl
      rw [Gap.length_append (hafter ▸ List.cons_ne_nil _ _) (hafter ▸ hclosed),
        List.take_append_of_le_length hle, List.drop_append_of_le_length hle,
          hafter, List.cons_append,
        List.append_assoc]
      have hlonger := Token.measure_append rfl hmeasure behind
      rw [List.append_assoc] at hlonger
      exact ⟨_, scanAfter_eq_ok hlonger htoken hjoined, by simp [hmore]⟩

private theorem ofText_interpreter {line : List Char} (hline : '\n' ∉ line)
    (more : List Char) :
    ofText (['#', '!'] ++ (line ++ '\n' :: more)) =
      scanFrom none false (Position.origin.after (['#', '!'] ++ line))
        ('\n' :: more) := by
  have hopening : Gap.openingLength (['#', '!'] ++ (line ++ '\n' :: more)) =
      (['#', '!'] ++ line).length + Gap.length .blank ('\n' :: more) := by
    rw [Gap.length_blank_cons _ (by decide), if_pos (by decide)]
    simp only [List.cons_append, List.nil_append, Gap.openingLength,
      Gap.length_line hline, List.length_cons]
    omega
  have hgap : '\n' ∉ ['#', '!'] ++ line := by simp [hline]
  rw [← List.append_assoc] at hopening ⊢
  generalize ['#', '!'] ++ line = first at hopening hgap ⊢
  simp only [ofText, scanFrom, hopening, List.take_length_add_append,
    List.length_append, List.length_take, Nat.min_eq_left (Gap.length_le _ _),
    List.drop_length_add_append, Position.after_append]
  congr 1
  simp [hgap]

/-- Behind a text that ends a statement, and a line feed, a text has the tokens
that it has alone. -/
theorem ofText_append {behind : List Char} (h : ofText text = .ok stream)
    {last : Token} (hlast : stream.tokens.getLast? = some last)
    (hslash : slashOpensPattern (some last)) (hplain : ¬ ['#', '!'] <+: behind)
    (hlater : ofText behind = .ok later) :
    ∃ joined, ofText (text ++ '\n' :: behind) = .ok joined ∧
      joined.tokens.map Token.unplaced =
        stream.tokens.map Token.unplaced ++
          Token.afterBreak true (later.tokens.map Token.unplaced) := by
  rw [ofText_eq_scanFrom hplain] at hlater
  have hnext : slashOpensPattern (stream.tokens.getLast?.or none) := by
    rwa [hlast]
  by_cases hfirst : ['#', '!'] <+: text
  · obtain ⟨rest, rfl⟩ := hfirst
    have hfeed : '\n' ∈ rest := by
      refine Decidable.of_not_not fun hnone => ?_
      have hopening : Gap.openingLength (['#', '!'] ++ rest) =
          (['#', '!'] ++ rest).length :=
        congrArg (· + 2) (Gap.length_line_of_not_mem hnone)
      simp only [ofText, hopening, List.take_length, List.drop_length] at h
      rw [scanAfter] at h
      obtain rfl := Except.ok.inj h
      cases hlast
    obtain ⟨line, more, rfl, hline⟩ := List.eq_append_cons_of_mem hfeed
    rw [ofText_interpreter hline] at h
    have hjoined := scanFrom_append h hnext hlater
    have htext : ['#', '!'] ++ (line ++ '\n' :: more) ++ '\n' :: behind =
        ['#', '!'] ++ (line ++ '\n' :: (more ++ '\n' :: behind)) := by simp
    rwa [htext, ofText_interpreter hline]
  · have hlonger : ¬ ['#', '!'] <+: text ++ '\n' :: behind := by
      rcases text with _ | ⟨c, _ | ⟨d, text⟩⟩
      · simp
      · simp
      · simpa using hfirst
    rw [ofText_eq_scanFrom hfirst] at h
    rw [ofText_eq_scanFrom hlonger]
    exact scanFrom_append h hnext hlater

end TokenStream

end ShapeMend.Script
