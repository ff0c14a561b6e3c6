import ShapeMend.Proofs.Script.Lexing
import ShapeMend.Proofs.Script.Tiling
import ShapeMend.Script.Reader.Bracket

/-!
# Balanced brackets

Tokens in which every closing bracket fits the bracket it closes are balanced.
Where closing brackets are passed over there are more of them than opening ones,
so that nothing else can make up for them.
-/

namespace ShapeMend.Script

/-! ## Bracket words -/

def bracketPairs : List (String × String) :=
  [("(", ")"), ("[", "]"), ("\x7b", "\x7d")]

/-- Properly nested brackets. -/
inductive Balanced : List String → Prop
  | nil : Balanced []
  | pair {opener closer : String} {inner rest : List String}
      (hpair : (opener, closer) ∈ bracketPairs) (hinner : Balanced inner)
      (hrest : Balanced rest) :
      Balanced (opener :: (inner ++ closer :: rest))

namespace Balanced

variable {first second : List String}

private theorem append (hfirst : Balanced first) (hsecond : Balanced second) :
    Balanced (first ++ second) := by
  induction hfirst with
  | nil => exact hsecond
  | pair hpair hinner hrest ihinner ihrest =>
      rw [List.cons_append, List.append_assoc, List.cons_append]
      exact .pair hpair hinner ihrest

theorem isOpener_of_mem {opener closer : String}
    (h : (opener, closer) ∈ bracketPairs) :
    (Bracket.isOpener opener ∧ Bracket.isCloser opener = false) ∧
      Bracket.isOpener closer = false ∧ Bracket.isCloser closer := by
  have htable : ∀ pair ∈ bracketPairs,
      (Bracket.isOpener pair.1 ∧ Bracket.isCloser pair.1 = false) ∧
        Bracket.isOpener pair.2 = false ∧ Bracket.isCloser pair.2 := by
    decide
  exact htable _ h

theorem countP_eq (h : Balanced first) :
    first.countP Bracket.isCloser = first.countP Bracket.isOpener := by
  induction h with
  | nil => rfl
  | pair hpair hinner hrest ihinner ihrest =>
      obtain ⟨⟨hopens, hnotCloses⟩, hnotOpens, hcloses⟩ := isOpener_of_mem hpair
      simp only [List.countP_cons, List.countP_append, hopens, hnotCloses,
        hnotOpens, hcloses, Bool.false_eq_true, if_true, if_false]
      omega

end Balanced

private theorem Bracket.isOpener_eq_false {text : String} (h : isCloser text) :
    isOpener text = false := by
  simp only [isCloser, Bool.or_eq_true, decide_eq_true_eq, or_assoc] at h
  rcases h with rfl | rfl | rfl <;> decide

/-! ## Brackets among tokens -/

namespace Token

def isBracket (token : Token) : Bool :=
  token.kind =
    .symbol && (Bracket.isOpener token.text || Bracket.isCloser token.text)

def Proper (token : Token) : Prop :=
  token.kind = .word → Bracket.isOpener token.text = false ∧
    Bracket.isCloser token.text = false

private theorem Proper.isBracket {token : Token} (h : token.Proper)
    (hbracket : Bracket.isOpener token.syntacticText ∨
      Bracket.isCloser token.syntacticText) :
    token.isBracket ∧ token.text = token.syntacticText := by
  have hempty : (Bracket.isOpener "" || Bracket.isCloser "") =
      false := by decide
  rw [← Bool.or_eq_true] at hbracket
  unfold syntacticText at hbracket ⊢
  cases hkind : token.kind with
  | symbol => simp_all [Token.isBracket]
  | word => simp_all [h hkind]
  | _ => simp_all

theorem isBracket_of_syntacticText {token : Token} {text : String}
    (h : token.syntacticText = text)
    (htext : (Bracket.isOpener text || Bracket.isCloser text) = false) :
    token.isBracket = false := by
  subst h
  unfold syntacticText at htext
  cases hkind : token.kind <;> simp_all [isBracket]

private theorem startsWord_of_measure {previous : Option Token} {c : Char}
    {rest : List Char} {n : Nat}
    (h : measure previous c rest = .ok (.word, n)) : startsWord c := by
  revert h
  fun_cases measure previous c rest with
  | case3 =>
      intro h
      cases hbody : Template.body 0 1 rest <;> simp [hbody, Except.map] at h
  | case8 => simp_all
  | _ => simp

private theorem proper_of_measure {previous : Option Token} {c : Char}
    {rest : List Char} {n : Nat} {token : Token}
    (h : measure previous c rest = .ok (token.kind, n)) (tail : List Char)
    (htext : token.text = String.ofList (c :: tail)) : token.Proper := by
  intro hkind
  have hstart : startsWord c := startsWord_of_measure (hkind ▸ h)
  have hne : ∀ d, isPunctuation d → token.text ≠ String.singleton d := by
    intro d hd hsame
    rw [htext] at hsame
    have hchars := congrArg String.toList hsame
    simp at hchars
    exact ne_of_startsWord hstart (of_isPunctuation hd).1 hchars.1
  constructor
  · simp only [Bracket.isOpener, Bool.or_eq_false_iff, decide_eq_false_iff_not]
    exact ⟨⟨hne '(' (by decide), hne '[' (by decide)⟩, hne '\x7b' (by decide)⟩
  · simp only [Bracket.isCloser, Bool.or_eq_false_iff, decide_eq_false_iff_not]
    exact ⟨⟨hne ')' (by decide), hne ']' (by decide)⟩, hne '\x7d' (by decide)⟩

end Token

theorem TokenStream.Tiles.proper {previous : Option Token}
    {before text : List Char} {stream : TokenStream}
    (h : stream.Tiles previous before text) :
    ∀ token ∈ stream.tokens, token.Proper := by
  induction h with
  | stop hgap => simp
  | token hgap hmeasure htoken hrest ih =>
      rw [List.forall_mem_cons]
      refine ⟨?_, ih⟩
      subst htoken
      exact Token.proper_of_measure hmeasure _ rfl

/-- The texts of the brackets among tokens. -/
def bracketTexts (tokens : List Token) : List String :=
  (tokens.filter Token.isBracket).map (·.text)

private theorem bracketTexts_append (first second : List Token) :
    bracketTexts (first ++ second) = bracketTexts first ++
      bracketTexts second := by
  simp [bracketTexts]

private theorem bracketTexts_cons_plain {token : Token} (tokens : List Token)
    (h : token.isBracket = false) :
    bracketTexts (token :: tokens) = bracketTexts tokens := by
  simp [bracketTexts, h]

private theorem bracketTexts_cons_bracket {token : Token} (tokens : List Token)
    (h : token.isBracket) :
    bracketTexts (token :: tokens) = token.text :: bracketTexts tokens := by
  simp [bracketTexts, h]

/-! ## Nested tokens -/

/-- Between the token lists, the second of which ends the first, every bracket
that is opened is closed by one that fits.  The strays are closing brackets that
close none; they stand between angle brackets. -/
inductive Nests : Bool → List Token → List Token → List Token → Prop
  | nil {inAngles : Bool} {tokens : List Token} :
      Nests inAngles [] tokens tokens
  | plain {inAngles : Bool} {token : Token} {strays tokens rest : List Token}
      (hplain : token.isBracket = false)
      (h : Nests inAngles strays tokens rest) :
      Nests inAngles strays (token :: tokens) rest
  | group {inAngles : Bool} {opener closer : Token}
      {strays others tokens after rest : List Token}
      (hpair : (opener.syntacticText, closer.syntacticText) ∈ bracketPairs)
      (hinner : Nests false strays tokens (closer :: after))
      (hrest : Nests inAngles others after rest) :
      Nests inAngles (strays ++ others) (opener :: tokens) rest
  | angles {inAngles : Bool} {opener closer : Token}
      {strays others tokens after rest : List Token}
      (hopener : opener.syntacticText = "<")
      (hcloser : closer.syntacticText = ">")
      (hinner : Nests true strays tokens (closer :: after))
      (hrest : Nests inAngles others after rest) :
      Nests inAngles (strays ++ others) (opener :: tokens) rest
  | stray {token : Token} {strays tokens rest : List Token}
      (hstray : token.isBracket ∧ Bracket.isCloser token.text)
      (h : Nests true strays tokens rest) :
      Nests true (token :: strays) (token :: tokens) rest

namespace Nests

variable {inAngles : Bool} {strays others tokens middle rest : List Token}

theorem append (hfirst : Nests inAngles strays tokens middle)
    (hsecond : Nests inAngles others middle rest) :
    Nests inAngles (strays ++ others) tokens rest := by
  induction hfirst with
  | nil => exact hsecond
  | plain hplain _ ih => exact .plain hplain (ih hsecond)
  | group hpair hinner _ _ ih =>
      rw [List.append_assoc]
      exact .group hpair hinner (ih hsecond)
  | angles hopener hcloser hinner _ _ ih =>
      rw [List.append_assoc]
      exact .angles hopener hcloser hinner (ih hsecond)
  | stray hstray _ ih => exact .stray hstray (ih hsecond)

theorem suffix (h : Nests inAngles strays tokens rest) : rest <:+ tokens := by
  have hskip : ∀ {opener closer : Token} {tokens after rest : List Token},
      closer :: after <:+ tokens →
      rest <:+ after → rest <:+ opener :: tokens := fun hinner hrest =>
    (hrest.trans (List.suffix_cons _ _)).trans
      (hinner.trans (List.suffix_cons _ _))
  induction h with
  | nil => exact List.suffix_refl _
  | plain _ _ ih => exact ih.trans (List.suffix_cons _ _)
  | group _ _ _ ihinner ihrest => exact hskip ihinner ihrest
  | angles _ _ _ _ ihinner ihrest => exact hskip ihinner ihrest
  | stray _ _ ih => exact ih.trans (List.suffix_cons _ _)

theorem strays_eq_nil (h : Nests false strays tokens rest)
    (hangles : ∀ token ∈ tokens, token.syntacticText ≠ "<") : strays = [] := by
  generalize hout : false = inAngles at h
  induction h with
  | nil => rfl
  | plain _ _ ih =>
      rw [List.forall_mem_cons] at hangles
      exact ih hangles.2 hout
  | group _ hinner hrest ihinner ihrest =>
      rw [List.forall_mem_cons] at hangles
      have hafter := (List.suffix_cons _ _).trans hinner.suffix
      rw [ihinner hangles.2 rfl,
        ihrest (fun token htoken => hangles.2 token (hafter.mem htoken)) hout,
          List.append_nil]
  | angles hopener => exact absurd hopener (hangles _ List.mem_cons_self)
  | stray => cases hout

/-- The closing brackets are as many as the opening ones and the strays
together, and without strays the brackets are balanced. -/
private theorem exists_run (h : Nests inAngles strays tokens rest)
    (hproper : ∀ token ∈ tokens, token.Proper) :
    ∃ run, tokens = run ++ rest ∧
      (bracketTexts run).countP Bracket.isCloser =
        (bracketTexts run).countP Bracket.isOpener + strays.length ∧
      (strays = [] → Balanced (bracketTexts run)) := by
  induction h with
  | nil => exact ⟨[], rfl, rfl, fun _ => .nil⟩
  | plain hplain h ih =>
      obtain ⟨run, rfl, hcount, hbalanced⟩ := ih fun token htoken =>
        hproper token (List.mem_cons_of_mem _ htoken)
      refine ⟨_ :: run, rfl, ?_⟩
      rw [bracketTexts_cons_plain run hplain]
      exact ⟨hcount, hbalanced⟩
  | @group _ opener closer strays others _ _ _ hpair hinner hrest ihinner
      ihrest =>
      obtain ⟨inside, rfl, hinside, hbalanced⟩ := ihinner fun token htoken =>
        hproper token (List.mem_cons_of_mem _ htoken)
      obtain ⟨behind, rfl, hbehind, hlater⟩ := ihrest fun token htoken =>
        hproper token (by simp [htoken])
      obtain ⟨⟨hopens, hnotCloses⟩, hnotOpens, hcloses⟩ :=
        Balanced.isOpener_of_mem hpair
      obtain ⟨hopener, hopenerText⟩ :=
        (hproper opener List.mem_cons_self).isBracket (.inl hopens)
      obtain ⟨hcloser, hcloserText⟩ :=
        (hproper closer (by simp)).isBracket (.inr hcloses)
      refine ⟨opener :: (inside ++ closer :: behind), by simp, ?_⟩
      rw [bracketTexts_cons_bracket _ hopener, bracketTexts_append,
        bracketTexts_cons_bracket _ hcloser, hopenerText, hcloserText]
      refine ⟨?_, fun hnone => ?_⟩
      · simp only [List.countP_cons, List.countP_append, hopens, hnotCloses,
          hnotOpens, hcloses, Bool.false_eq_true, if_true, if_false,
          List.length_append]
        omega
      · obtain ⟨hnone, hothers⟩ := List.append_eq_nil_iff.mp hnone
        exact .pair hpair (hbalanced hnone) (hlater hothers)
  | @angles _ opener closer strays others _ _ _ hopener hcloser hinner hrest
      ihinner ihrest =>
      obtain ⟨inside, rfl, hinside, hbalanced⟩ := ihinner fun token htoken =>
        hproper token (List.mem_cons_of_mem _ htoken)
      obtain ⟨behind, rfl, hbehind, hlater⟩ := ihrest fun token htoken =>
        hproper token (by simp [htoken])
      refine ⟨opener :: (inside ++ closer :: behind), by simp, ?_⟩
      rw [bracketTexts_cons_plain _ (Token.isBracket_of_syntacticText hopener
        (by decide)), bracketTexts_append,
        bracketTexts_cons_plain
          _ (Token.isBracket_of_syntacticText hcloser (by decide))]
      refine ⟨?_, fun hnone => ?_⟩
      · simp only [List.countP_append, List.length_append]
        omega
      · obtain ⟨hnone, hothers⟩ := List.append_eq_nil_iff.mp hnone
        exact (hbalanced hnone).append (hlater hothers)
  | @stray token strays _ _ hstray h ih =>
      obtain ⟨run, rfl, hcount, -⟩ := ih fun token htoken =>
        hproper token (List.mem_cons_of_mem _ htoken)
      obtain ⟨hbracket, hcloses⟩ := hstray
      have hnotOpens := Bracket.isOpener_eq_false hcloses
      refine ⟨token :: run, rfl, ?_, by simp⟩
      rw [bracketTexts_cons_bracket run hbracket]
      simp only [List.countP_cons, hcloses, hnotOpens, Bool.false_eq_true,
        if_true, if_false, List.length_cons]
      omega

/-- Whole token lists whose brackets nest are balanced exactly where they have
no strays. -/
theorem balanced_iff (h : Nests false strays tokens [])
    (hproper : ∀ token ∈ tokens, token.Proper) :
    Balanced (bracketTexts tokens) ↔ strays = [] := by
  obtain ⟨run, hrun, hcount, hbalanced⟩ := h.exists_run hproper
  rw [List.append_nil] at hrun
  subst hrun
  refine ⟨fun hall => ?_, hbalanced⟩
  rw [hall.countP_eq] at hcount
  exact List.length_eq_zero_iff.mp (by omega)

end Nests

end ShapeMend.Script
