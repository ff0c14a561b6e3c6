import ShapeMend.Proofs.Text.Lines

/-!
# Where a text does not split

A text that does not split into tokens is at fault at a character that is no
line feed: the first one of a lexeme, or inside a template the first one of a
string, a comment or a further template.  The tokens of a text that splits begin
at such characters too.
-/

namespace ShapeMend.Script

open Text

/-! ## Faults of lexemes -/

def FaultsIn {α : Type} (text : List Char) (scan : Except Fault α) : Prop :=
  ∀ fault, scan = .error fault → ∃ c, text[fault.skip]? = some c ∧ c ≠ '\n'

namespace FaultsIn

variable {α β : Type} {text : List Char}

theorem ok (value : α) : FaultsIn text (.ok value) := by
  rintro fault ⟨⟩

theorem error {fault : Fault} {c : Char} (hc : text[fault.skip]? = some c)
    (hne : c ≠ '\n') : FaultsIn text (.error fault : Except Fault α) := by
  rintro _ ⟨⟩
  exact ⟨c, hc, hne⟩

private theorem bind {first : Except Fault α} {next : α → Except Fault β}
    (hfirst : FaultsIn text first)
    (hnext : ∀ value, first = .ok value → FaultsIn text (next value)) :
    FaultsIn text (first >>= next) := by
  cases first with
  | error fault =>
      obtain ⟨c, hc, hne⟩ := hfirst fault rfl
      exact error hc hne
  | ok value => exact hnext value rfl

end FaultsIn

namespace Template

def Faulty (start here : Nat) (s : List Char)
    (scan : Except Fault Nat) : Prop :=
  ∀ text : List Char, text[start]? = some '`' → text.drop here = s →
    FaultsIn text scan

private theorem Faulty.error (start here : Nat) (s : List Char)
    (flaw : LexicalFlaw) : Faulty start here s (.error ⟨start, flaw⟩) :=
  fun _ hstart _ => .error hstart (by decide)

private theorem Faulty.ok (start here : Nat) (s : List Char) (stop : Nat) :
    Faulty start here s (.ok stop) :=
  fun _ _ _ => .ok stop

private theorem Faulty.errorHere (start here : Nat) {c : Char}
    (rest : List Char) (flaw : LexicalFlaw) (hne : c ≠ '\n') :
    Faulty start here (c :: rest) (.error ⟨here, flaw⟩) := by
  intro text _ hdrop
  have hc : text[here]? = some c := by
    rw [← List.head?_drop, hdrop]
    rfl
  exact .error hc hne

theorem Faulty.further (taken : Nat) {start here : Nat} {c : Char}
    {rest : List Char} {scan : Except Fault Nat}
    (h : Faulty start (here + 1 + taken) (rest.drop taken) scan) :
    Faulty start here (c :: rest) scan := by
  intro text hstart hdrop
  refine h text hstart ?_
  rw [Nat.add_assoc, ← List.drop_drop, hdrop, Nat.add_comm 1,
    List.drop_succ_cons]

private theorem Faulty.step {start here : Nat} {c : Char} {rest : List Char}
    {scan : Except Fault Nat} (h : Faulty start (here + 1) rest scan) :
    Faulty start here (c :: rest) scan :=
  further 0 h

private theorem Faulty.bind {start inside here : Nat} {s : List Char}
    {inner : Except Fault Nat} {outer : Nat → Except Fault Nat}
    (hadvances : Advances here s inner) (hinner : Faulty inside here s inner)
    (houter : ∀ stop, Faulty start stop (s.drop (stop - here)) (outer stop)) :
    ∀ text : List Char, text[start]? = some '`' → text[inside]? = some '`' →
      text.drop here = s →
      FaultsIn text (inner >>= outer) := by
  intro text hstart hinside hdrop
  refine (hinner text hinside hdrop).bind fun stop hstop =>
    houter stop text hstart ?_
  have hle := (hadvances stop hstop).1
  rw [← hdrop, List.drop_drop, Nat.add_sub_cancel' (Nat.le_of_lt hle)]

private theorem faulty :
    (∀ start here s, Faulty start here s (body start here s)) ∧
    ∀ start here depth s,
      Faulty start here s (substitution start here depth s) := by
  apply body.mutual_induct
    (fun start here s => Faulty start here s (body start here s))
    (fun start here depth s =>
      Faulty start here s (substitution start here depth s))
  case case1 =>
    intro start here
    rw [body]
    exact .error _ _ _ _
  case case2 =>
    intro start here rest
    rw [body]
    exact .ok _ _ _ _
  case case3 =>
    intro start here
    rw [body]
    exact .error _ _ _ _
  case case4 =>
    intro start here c rest ih
    rw [body]
    exact .step (.step ih)
  case case5 =>
    intro start here rest hinner hbehind
    rw [body]
    refine .step (.step fun text hstart => ?_)
    exact Faulty.bind (advances.2 _ _ _ _) hinner hbehind text hstart hstart
  case case6 =>
    intro start here c rest htick hlast hescape hopen ih
    rw [body]
    · exact .step ih
    all_goals assumption
  case case7 =>
    intro start here depth
    rw [substitution]
    exact .error _ _ _ _
  case case8 =>
    intro start here depth rest ih
    rw [substitution]
    exact .step ih
  case case9 =>
    intro start here rest
    rw [substitution]
    exact .ok _ _ _ _
  case case10 =>
    intro start here rest depth ih
    rw [substitution]
    exact .step ih
  case case11 =>
    intro start here depth rest hinner hbehind text hstart hdrop
    have hhere : text[here]? = some '`' := by
      rw [← List.head?_drop, hdrop]
      rfl
    have hrest : text.drop (here + 1) = rest := by
      rw [← List.drop_drop, hdrop, List.drop_succ_cons, List.drop_zero]
    rw [substitution]
    exact Faulty.bind (advances.1 _ _ _) hinner hbehind text hstart hhere hrest
  case case12 =>
    intro start here depth c rest hopen hclose htick hquote flaw hquoted
    have hne : c ≠ '\n' := by
      rintro rfl
      exact absurd hquote (by decide)
    rw [substitution_openString hopen hclose htick hquote hquoted]
    exact .errorHere _ _ _ _ hne
  case case13 =>
    intro start here depth c rest hopen hclose htick hquote n value hquoted ih
    rw [substitution_string hopen hclose htick hquote hquoted]
    exact .further n ih
  case case14 =>
    intro start here depth c rest hopen hclose htick hquote hslash hgap
    have hne : c ≠ '\n' := by
      rintro rfl
      exact absurd hslash.1 (by decide)
    rw [substitution_openComment hopen hclose htick hquote hslash hgap]
    exact .errorHere _ _ _ _ hne
  case case15 =>
    intro start here depth c rest hopen hclose htick hquote hslash n hgap ih
    rw [substitution_comment hopen hclose htick hquote hslash hgap]
    exact .further n ih
  case case16 =>
    intro start here depth c rest hopen hclose htick hquote hslash ih
    rw [substitution_other hopen hclose htick hquote hslash]
    exact .step ih

end Template

private theorem Token.faultsIn_measure (previous : Option Token) {c : Char}
    (rest : List Char) (hne : c ≠ '\n') :
    FaultsIn (c :: rest) (measure previous c rest) := by
  have hfirst (flaw : LexicalFlaw) :
      FaultsIn (c :: rest) (.error ⟨0, flaw⟩ : Except Fault (Kind × Nat)) :=
    .error rfl hne
  fun_cases measure previous c rest with
  | case3 hquote htick =>
      intro fault hfault
      rcases hbody : Template.body 0 1 rest with bodyFault | stop
      · rw [hbody] at hfault
        obtain rfl : bodyFault = fault := Except.error.inj hfault
        exact Template.faulty.1 0 1 rest (c :: rest) (congrArg some htick) rfl
          bodyFault hbody
      · rw [hbody] at hfault
        cases hfault
  | case2 | case5 | case9 | case11 | case13 => exact hfirst _
  | case1 | case4 | case6 | case7 | case8 | case10 | case12 => exact .ok _

/-! ## Places of tokens -/

theorem Gap.head?_drop_length (place : Place) (s : List Char) :
    (s.drop (length place s)).head? ≠ some '\n' := by
  fun_induction length place s with
  | case1 place => simp
  | case2 rest ih => simpa using ih
  | case3 rest hend ih => simpa using ih
  | case4 rest => simp
  | case5 c rest _ _ hblank ih => simpa using ih
  | case6 c rest _ _ hblank =>
      rw [List.drop_zero, List.head?_cons]
      rintro ⟨⟩
      exact hblank (by decide)
  | case7 rest ih => simpa using ih
  | case8 c rest hc ih => simpa using ih
  | case9 rest ih => simpa using ih
  | case10 c rest hopen ih => simpa using ih

private theorem Gap.exists_cut (s : List Char) : ∃ gap after, s = gap ++ after ∧
    s.take (length .blank s) = gap ∧ after.head? ≠ some '\n' :=
  ⟨s.take (length .blank s), s.drop (length .blank s),
    (List.take_append_drop _ _).symm, rfl,
    head?_drop_length .blank s⟩

namespace TokenStream

def Placed (place : Position → Prop) : Except LexicalError TokenStream → Prop
  | .error error => place error.position
  | .ok stream =>
      place stream.stop ∧ ∀ token ∈ stream.tokens, place token.span.start

private theorem placed_scanAfter {previous : Option Token} {broken : Bool}
    {before text : List Char} (hhead : text.head? ≠ some '\n') :
    Placed (·.LiesIn (before ++ text))
      (scanAfter previous broken (.behind before) text) := by
  generalize hlength : text.length = length
  induction length using Nat.strong_induction_on
    generalizing previous broken before text with
  | _ length ih =>
  have hhere : (Position.behind before).LiesIn (before ++ text) :=
    ⟨before, text, rfl, rfl, hhead⟩
  cases text with
  | nil =>
      rw [scanAfter]
      exact ⟨hhere, by simp⟩
  | cons c rest =>
      rw [scanAfter]
      rcases hmeasure : Token.measure previous c rest with fault | ⟨kind, n⟩
      · have hne : c ≠ '\n' := by
          rintro rfl
          exact hhead rfl
        obtain ⟨d, hd, hdne⟩ :=
          Token.faultsIn_measure previous rest hne fault hmeasure
        refine ⟨before ++ (c :: rest).take fault.skip,
          (c :: rest).drop fault.skip, ?_, ?_, ?_⟩
        · rw [List.append_assoc, List.take_append_drop]
        · exact Position.after_behind _ _
        · rw [List.head?_drop, hd]
          simpa using hdne
      · have hn := Token.length_measure hmeasure
        obtain ⟨tail, later, rfl, rfl⟩ : ∃ tail later,
            rest = tail ++ later ∧ n = tail.length + 1 :=
          ⟨rest.take (n - 1), rest.drop (n - 1),
            (List.take_append_drop _ _).symm, by simp; omega⟩
        obtain ⟨gap, after, rfl, htake, hafter⟩ := Gap.exists_cut later
        have htext : before ++ c :: (tail ++ (gap ++ after)) =
            before ++ c :: tail ++ gap ++ after := by simp
        simp only [Nat.add_sub_cancel, List.take_left, List.drop_left, htake,
          Position.after_behind]
        rw [htext] at hhere ⊢
        let token : Token := ⟨kind, String.ofList (c :: tail),
          ⟨.behind before, (Position.behind (before ++ c :: tail)).offset⟩,
            broken⟩
        have hlater :=
          @ih after.length (by simp [← hlength]; omega) (some token)
          (gap.contains '\n') (before ++ c :: tail ++ gap) after hafter rfl
        split
        · next error herror => rwa [herror] at hlater
        · next stream hstream =>
            rw [hstream] at hlater
            exact ⟨hlater.1, List.forall_mem_cons.mpr ⟨hhere, hlater.2⟩⟩

theorem placed_ofText (text : List Char) :
    Placed (·.LiesIn text) (ofText text) := by
  have hopening : (text.drop (Gap.openingLength text)).head? ≠ some '\n' := by
    fun_cases Gap.openingLength text with
    | case1 rest => simpa using Gap.head?_drop_length .line rest
    | case2 => exact Gap.head?_drop_length .blank text
  obtain ⟨gap, after, rfl, htake, -⟩ := Gap.exists_separates text
  have hafter : (gap ++ after).drop (Gap.openingLength (gap ++ after)) =
      after := by
    have hsplit :=
      List.take_append_drop (Gap.openingLength (gap ++ after)) (gap ++ after)
    rw [htake] at hsplit
    exact List.append_cancel_left hsplit
  have horigin : Position.origin = .behind [] := rfl
  simp only [ofText, htake, List.drop_left, horigin, Position.after_behind,
    List.nil_append]
  exact placed_scanAfter (hafter ▸ hopening)

end TokenStream

end ShapeMend.Script
