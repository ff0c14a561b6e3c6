import ShapeMend.Proofs.Script.Prefixes
import ShapeMend.Proofs.Script.Tiling

/-!
# Templates of any nesting

The rules below say what a template is and what may stand in its substitutions.
A scan that counts the open braces and starts again at every backquote reads any
such template as one token, and stops right behind it.
-/

namespace ShapeMend.Script

open ShapeMend.Text

/-! ## The grammar of templates -/

namespace Template

mutual

/-- A template with its backquotes. -/
inductive IsTemplate : List Char → Prop
  | mk {parts : List Char} (hparts : IsParts parts) :
      IsTemplate ('`' :: (parts ++ ['`']))

inductive IsParts : List Char → Prop
  | nil : IsParts []
  | plain {c : Char} {rest : List Char} (hc : c ∉ ['`', '\\', '$'])
      (hrest : IsParts rest) : IsParts (c :: rest)
  | escaped (c : Char) {rest : List Char} (hrest : IsParts rest) :
      IsParts ('\\' :: c :: rest)
  | dollar {rest : List Char} (hbrace : rest.head? ≠ some '{')
      (hrest : IsParts rest) : IsParts ('$' :: rest)
  | substituted {inside rest : List Char} (hinside : IsSubstitution inside)
      (hrest : IsParts rest) :
    IsParts ('$' :: '{' :: (inside ++ '}' :: rest))

inductive IsSubstitution : List Char → Prop
  | nil : IsSubstitution []
  | plain {c : Char} {rest : List Char}
      (hc : c ∉ ['{', '}', '\x22', '\x27', '`', '/'])
    (hrest : IsSubstitution rest) : IsSubstitution (c :: rest)
  | braces {inside rest : List Char} (hinside : IsSubstitution inside)
      (hrest : IsSubstitution rest) :
    IsSubstitution ('{' :: (inside ++ '}' :: rest))
  | quoted {quote : Char} {inside rest : List Char}
      (hquote : quote ∈ ['\x22', '\x27'])
    (hinside : ∀ c ∈ inside, c ∉ [quote, '\\', '\n'])
    (hrest : IsSubstitution rest) :
    IsSubstitution (quote :: (inside ++ quote :: rest))
  | template {text rest : List Char} (htext : IsTemplate text)
      (hrest : IsSubstitution rest) :
    IsSubstitution (text ++ rest)

end

end Template

/-! ## Scans over templates -/

theorem Quoted.body_plain {quote : Char} {inside : List Char}
    (hinside : ∀ c ∈ inside, c ∉ [quote, '\\', '\n'])
    (hquote : quote ∉ ['\\', '\n']) (behind : List Char) :
    body quote (inside ++ quote :: behind) =
      .ok (inside.length + 1, inside) := by
  induction inside with
  | nil =>
      rw [List.nil_append, body, if_pos rfl]
      · rfl
      · rintro rfl
        simp at hquote
      · rintro rfl
        simp at hquote
  | cons c inside ih =>
      rw [List.forall_mem_cons] at hinside
      obtain ⟨hc, hinside⟩ := hinside
      simp only [List.mem_cons, List.not_mem_nil, or_false, not_or] at hc
      rw [List.cons_append, body, if_neg hc.1, ih hinside]
      · rfl
      · exact hc.2.2
      · exact hc.2.1

namespace Template

variable {start here depth stop : Nat} {c : Char} {rest inside : List Char}

private theorem body_cons (hc : c ∉ ['`', '\\'])
    (hopen : ∀ later, c = '$' → rest ≠ '{' :: later) :
    body start here (c :: rest) = body start (here + 1) rest := by
  simp only [List.mem_cons, List.not_mem_nil, or_false, not_or] at hc
  rw [body]
  · exact hc.1
  · exact fun hslash => absurd hslash hc.2
  · exact fun _ _ hslash => absurd hslash hc.2
  · exact fun later hdollar heq => hopen later hdollar heq

private theorem body_substituted
    (h : substitution start (here + 2) 0 (inside ++ '}' :: rest) =
      .ok (here + 2 + inside.length + 1)) :
    body start here ('$' :: '{' :: (inside ++ '}' :: rest)) =
      body start (here + 2 + inside.length + 1) rest := by
  have hrest : (inside ++ '}' :: rest).drop
      (here + 2 + inside.length + 1 - (here + 2)) = rest := by
    rw [Nat.add_assoc, Nat.add_sub_cancel_left, ← List.drop_drop,
      List.drop_left]
    rfl
  rw [body, h]
  simp only [bind, Except.bind, hrest]

private theorem substitution_cons
    (hc : c ∉ ['{', '}', '\x22', '\x27', '`', '/']) :
    substitution start here depth (c :: rest) =
      substitution start (here + 1) depth rest := by
  simp only [List.mem_cons, List.not_mem_nil, or_false, not_or] at hc
  obtain ⟨hopen, hclose, hdouble, hsingle, htick, hslash⟩ := hc
  have hquote : ¬ Quoted.isQuote c := by simp [Quoted.isQuote, hdouble, hsingle]
  exact substitution_other hopen hclose htick hquote fun h => hslash h.1

private theorem substitution_quoted {quote : Char}
    (hquote : quote ∈ ['\x22', '\x27'])
    (hinside : ∀ c ∈ inside, c ∉ [quote, '\\', '\n']) :
    substitution start here depth (quote :: (inside ++ quote :: rest)) =
      substitution start (here + 1 + (inside.length + 1)) depth rest := by
  have hbody : Quoted.body quote (inside ++ quote :: rest) =
      .ok (inside.length + 1, inside) := by
    refine Quoted.body_plain hinside ?_ rest
    simp only [List.mem_cons, List.not_mem_nil, or_false] at hquote
    rcases hquote with rfl | rfl <;> decide
  have hrest : (inside ++ quote :: rest).drop (inside.length + 1) = rest := by
    rw [← List.drop_drop, List.drop_left]
    rfl
  simp only [List.mem_cons, List.not_mem_nil, or_false] at hquote
  rw [substitution, if_pos (by simpa [Quoted.isQuote] using hquote), hbody]
  · simp only [hrest]
  all_goals
    rintro rfl
    simp at hquote

private theorem substitution_template {parts : List Char}
    (h : body here (here + 1) (parts ++ '`' :: rest) =
      .ok (here + 1 + parts.length + 1)) :
    substitution start here depth ('`' :: (parts ++ '`' :: rest)) =
      substitution start (here + 1 + parts.length + 1) depth rest := by
  have hrest : (parts ++ '`' :: rest).drop
      (here + 1 + parts.length + 1 - (here + 1)) = rest := by
    rw [Nat.add_assoc, Nat.add_sub_cancel_left, ← List.drop_drop,
      List.drop_left]
    rfl
  rw [substitution, h]
  simp only [bind, Except.bind, hrest]

-- The induction is on the length of the text, since each scan starts the other
-- one inside it.
mutual

theorem IsParts.body_eq {parts : List Char} (h : IsParts parts)
    (start here : Nat) (behind : List Char) :
    body start here (parts ++ '`' :: behind) =
      .ok (here + parts.length + 1) := by
  cases h with
  | nil => rw [List.nil_append, body, List.length_nil, Nat.add_zero]
  | @plain c rest hc hrest =>
      simp only [List.mem_cons, List.not_mem_nil, or_false, not_or] at hc
      rw [List.cons_append, body_cons (by simp [hc]) fun _ hdollar =>
        absurd hdollar hc.2.2, hrest.body_eq start (here + 1) behind,
        List.length_cons]
      congr 1
      omega
  | @escaped c rest hrest =>
      rw [List.cons_append, List.cons_append, body,
        hrest.body_eq start (here + 2) behind, List.length_cons,
        List.length_cons]
      congr 1
      omega
  | @dollar rest hbrace hrest =>
      have hopen (later : List Char) :
          rest ++ '`' :: behind ≠ '{' :: later := by
        cases rest with
        | nil => simp
        | cons c rest =>
            simpa using fun hc : c = '{' => absurd (congrArg some hc) hbrace
      rw [List.cons_append, body_cons (by decide) fun later _ => hopen later,
        hrest.body_eq start (here + 1) behind, List.length_cons]
      congr 1
      omega
  | @substituted inside rest hinside hrest =>
      have hclose :
          substitution start (here + 2) 0
          (inside ++ '}' :: (rest ++ '`' :: behind)) =
          .ok (here + 2 + inside.length + 1) := by
        rw [hinside.substitution_eq start (here + 2) 0, substitution]
      have htext : '$' :: '{' :: (inside ++ '}' :: rest) ++ '`' :: behind =
          '$' :: '{' :: (inside ++ '}' :: (rest ++ '`' :: behind)) := by simp
      rw [htext, body_substituted hclose, hrest.body_eq]
      simp only [List.length_cons, List.length_append]
      congr 1
      omega
termination_by parts.length
decreasing_by all_goals simp only [List.length_cons, List.length_append]; omega

/-- A substitution is scanned over with as many braces open behind it as before
it. -/
theorem IsSubstitution.substitution_eq {inside : List Char}
    (h : IsSubstitution inside) (start here depth : Nat) (behind : List Char) :
    substitution start here depth (inside ++ behind) =
      substitution start (here + inside.length) depth behind := by
  cases h with
  | nil => rfl
  | @plain c rest hc hrest =>
      rw [List.cons_append, substitution_cons hc,
        hrest.substitution_eq start (here + 1) depth behind, List.length_cons,
        Nat.add_assoc, Nat.add_comm 1]
  | @braces inside rest hinside hrest =>
      have htext : '{' :: (inside ++ '}' :: rest) ++ behind =
          '{' :: (inside ++ '}' :: (rest ++ behind)) := by simp
      rw [htext, substitution, hinside.substitution_eq start (here + 1)
        (depth + 1), substitution, hrest.substitution_eq]
      simp only [List.length_cons, List.length_append]
      congr 1
      omega
  | @quoted quote inside rest hquote hinside hrest =>
      have htext : quote :: (inside ++ quote :: rest) ++ behind =
          quote :: (inside ++ quote :: (rest ++ behind)) := by
        simp
      rw [htext, substitution_quoted hquote hinside, hrest.substitution_eq]
      simp only [List.length_cons, List.length_append]
      congr 1
      omega
  | @template text rest htemplate hrest =>
      obtain @⟨parts, hparts⟩ := htemplate
      have htext : '`' :: (parts ++ ['`']) ++ rest ++ behind =
          '`' :: (parts ++ '`' :: (rest ++ behind)) := by simp
      rw [htext,
        substitution_template (hparts.body_eq here (here + 1) (rest ++ behind)),
        hrest.substitution_eq]
      simp only [List.length_cons, List.length_append, List.length_nil]
      congr 1
      omega
termination_by inside.length
decreasing_by all_goals simp only [List.length_cons, List.length_append]; omega

end

end Template

/-! ## Templates at the beginning of a text -/

namespace TokenStream

end TokenStream

end ShapeMend.Script
