import ShapeMend.Proofs.Script.Balance
import ShapeMend.Proofs.Script.Leaves
import ShapeMend.Script.Reader.Module

/-!
# Readers and brackets

What a reader consumes is whole: every bracket that is opened in it is closed in
it.  Only the scan for the end of a list in angle brackets passes over closing
brackets.
-/

namespace ShapeMend.Script

open ShapeMend.Text

/-! ## Whole runs of tokens -/

def Within (inAngles : Bool) (tokens rest : List Token) : Prop :=
  ∃ strays, Nests inAngles strays tokens rest

abbrev Whole (tokens rest : List Token) : Prop := Within false tokens rest

def ClosedBy (text : String) (tokens rest : List Token) : Prop :=
  ∃ (closer : Token) (after : List Token),
    closer.syntacticText = text ∧ Whole tokens (closer :: after) ∧
      Whole after rest

namespace Within

variable {inAngles : Bool} {token opener closer : Token}
  {tokens middle after rest : List Token}

theorem refl (tokens : List Token) : Within inAngles tokens tokens := ⟨[], .nil⟩

theorem trans (hfirst : Within inAngles tokens middle)
    (hsecond : Within inAngles middle rest) : Within inAngles tokens rest := by
  obtain ⟨strays, hfirst⟩ := hfirst
  obtain ⟨others, hsecond⟩ := hsecond
  exact ⟨_, hfirst.append hsecond⟩

theorem plain (hplain : token.isBracket = false)
    (h : Within inAngles tokens rest) :
    Within inAngles (token :: tokens) rest := by
  obtain ⟨strays, h⟩ := h
  exact ⟨strays, .plain hplain h⟩

theorem group
    (hpair : (opener.syntacticText, closer.syntacticText) ∈ bracketPairs)
    (hinner : Whole tokens (closer :: after))
    (hrest : Within inAngles after rest) :
    Within inAngles (opener :: tokens) rest := by
  obtain ⟨strays, hinner⟩ := hinner
  obtain ⟨others, hrest⟩ := hrest
  exact ⟨_, .group hpair hinner hrest⟩

theorem length_le (h : Within inAngles tokens rest) :
    rest.length ≤ tokens.length := by
  obtain ⟨strays, h⟩ := h
  exact h.suffix.length_le

end Within

namespace ClosedBy

variable {text opener closer : String} {tokens middle rest : List Token}

theorem of_front (hfront : frontText tokens = text) (hne : text ≠ "") :
    ClosedBy text tokens (tokens.drop 1) := by
  cases tokens with
  | nil => exact absurd hfront.symm hne
  | cons token tokens => exact ⟨token, tokens, hfront, .refl _, .refl _⟩

theorem before (hfirst : Whole tokens middle) (h : ClosedBy text middle rest) :
    ClosedBy text tokens rest := by
  obtain ⟨closer, after, hcloser, hinner, hrest⟩ := h
  exact ⟨closer, after, hcloser, hfirst.trans hinner, hrest⟩

theorem trans (h : ClosedBy text tokens middle) (hlast : Whole middle rest) :
    ClosedBy text tokens rest := by
  obtain ⟨closer, after, hcloser, hinner, hrest⟩ := h
  exact ⟨closer, after, hcloser, hinner, hrest.trans hlast⟩

theorem whole (hfront : frontText tokens = opener)
    (hpair : (opener, closer) ∈ bracketPairs)
    (h : ClosedBy closer (tokens.drop 1) rest) : Whole tokens rest := by
  cases tokens with
  | nil =>
      rw [← hfront] at hpair
      simp [frontText, bracketPairs] at hpair
  | cons token tokens =>
      obtain ⟨last, after, rfl, hinner, hrest⟩ := h
      rw [← hfront] at hpair
      exact .group hpair hinner hrest

end ClosedBy

/-! ## Brackets that are kept -/

namespace Bracket

def Unwinds (inAngles : Bool) : List Token → List Token → List Token → Prop
  | [], tokens, rest => Within inAngles tokens rest
  | opener :: below, tokens, rest => ∃ closer after,
      (opener.syntacticText, closer.syntacticText) ∈ bracketPairs ∧
        Whole tokens (closer :: after) ∧ Unwinds inAngles below after rest

variable {inAngles : Bool} {token : Token}
  {stack below tokens rest : List Token}

theorem Unwinds.plain (hplain : token.isBracket = false)
    (h : Unwinds inAngles stack tokens rest) :
    Unwinds inAngles stack (token :: tokens) rest := by
  cases stack with
  | nil => exact Within.plain hplain h
  | cons opener stack =>
      obtain ⟨closer, after, hpair, hinner, h⟩ := h
      exact ⟨closer, after, hpair, hinner.plain hplain, h⟩

private theorem Unwinds.group
    (h : Unwinds inAngles (token :: stack) tokens rest) :
    Unwinds inAngles stack (token :: tokens) rest := by
  obtain ⟨closer, after, hpair, hinner, h⟩ := h
  cases stack with
  | nil => exact Within.group hpair hinner h
  | cons opener stack =>
      obtain ⟨outer, behind, hpairs, hafter, h⟩ := h
      exact ⟨outer, behind, hpairs, .group hpair hinner hafter, h⟩

def Opened (stack : List Token) : Prop :=
  ∀ opener ∈ stack, opener.kind = .symbol ∧ isOpener opener.text

private theorem pair_closer {opener closer : String} (hopener : isOpener opener)
    (hcloser : closer = Bracket.closer opener) :
    (opener, closer) ∈ bracketPairs := by
  simp only [isOpener, Bool.or_eq_true, decide_eq_true_eq, or_assoc] at hopener
  rcases hopener with rfl | rfl | rfl <;> subst hcloser <;> decide

/-- One more token keeps open brackets, and what is closed behind it is closed
from it on. -/
theorem unwinds_of_track (hstack : Opened stack)
    (h : track stack token = .ok below) :
    Opened below ∧ ∀ {inAngles tokens rest},
      Unwinds inAngles below tokens rest →
      Unwinds inAngles stack (token :: tokens) rest := by
  unfold track at h
  split at h
  · next hkind =>
      obtain rfl := Except.ok.inj h
      exact ⟨hstack, .plain (by simp [Token.isBracket, hkind])⟩
  next hkind =>
  rw [ne_eq, not_not] at hkind
  split at h
  · next hopener =>
      obtain rfl := Except.ok.inj h
      exact ⟨List.forall_mem_cons.mpr ⟨⟨hkind, hopener⟩, hstack⟩, .group⟩
  split at h
  · next hopener hcloser =>
      cases stack with
      | nil => cases h
      | cons opener stack =>
          simp only at h
          split at h
          · next hfits =>
              obtain rfl := Except.ok.inj h
              obtain ⟨⟨hsymbol, hopens⟩, hstack⟩ :=
                List.forall_mem_cons.mp hstack
              refine ⟨hstack, fun hrest => ⟨token, _, ?_, .refl _, hrest⟩⟩
              simpa [Token.syntacticText, hkind, hsymbol]
                using pair_closer hopens hfits
          · cases h
  · next hopener hcloser =>
      obtain rfl := Except.ok.inj h
      exact ⟨hstack, .plain (by simp [Token.isBracket, hopener, hcloser])⟩

theorem bind_succ_eq_ok {first : Except SyntaxError Nat} {n : Nat} :
    (do return (← first) + 1) = Except.ok n ↔ ∃ m,
      first = .ok m ∧ n = m + 1 := by
  rw [SyntaxError.bind_eq_ok]
  simp [pure, Except.pure, eq_comm]

private theorem unwinds_of_groupLength (hstack : Opened stack) {n : Nat}
    (h : groupLength stack tokens = .ok n) :
    Unwinds false stack tokens (tokens.drop n) := by
  induction tokens generalizing stack n with
  | nil =>
      rw [List.drop_nil]
      cases hlast : stack.getLast? with
      | none =>
          rw [List.getLast?_eq_none_iff.mp hlast]
          exact Within.refl []
      | some opener => simp [groupLength, hlast] at h
  | cons token tokens ih =>
      rw [groupLength, SyntaxError.bind_eq_ok] at h
      obtain ⟨below, htrack, h⟩ := h
      obtain ⟨hbelow, hclosed⟩ := unwinds_of_track hstack htrack
      split at h
      · next hempty =>
          obtain rfl := Except.ok.inj h
          rw [List.isEmpty_iff.mp hempty] at hclosed
          exact hclosed (Within.refl tokens)
      · obtain ⟨m, hm, rfl⟩ := bind_succ_eq_ok.mp h
        exact hclosed (ih hbelow hm)

/-- A list in angle brackets is whole up to the bracket that closes it, but for
the closing brackets that it passes over. -/
private theorem unwinds_of_anglesLength (hstack : Opened stack) {opener : Token}
    {depth n : Nat} (h : anglesLength opener depth stack tokens = .ok n) :
    ∃ closer : Token, closer.syntacticText = ">" ∧
      Unwinds true stack tokens (closer :: tokens.drop n) := by
  induction tokens generalizing stack depth n with
  | nil => cases h
  | cons token tokens ih =>
      rw [anglesLength] at h
      split at h
      · obtain ⟨below, htrack, h⟩ := SyntaxError.bind_eq_ok.mp h
        obtain ⟨m, hm, rfl⟩ := bind_succ_eq_ok.mp h
        obtain ⟨hbelow, hclosed⟩ := unwinds_of_track hstack htrack
        obtain ⟨closer, hcloser, hrest⟩ := ih hbelow hm
        exact ⟨closer, hcloser, hclosed hrest⟩
      next hplain =>
      simp only [Bool.or_eq_true, Bool.not_eq_true', not_or, Bool.not_eq_false,
        List.isEmpty_iff] at hplain
      obtain ⟨rfl, hopener⟩ := hplain
      split at h
      · next hangle =>
          obtain ⟨m, hm, rfl⟩ := bind_succ_eq_ok.mp h
          obtain ⟨closer, hcloser, hrest⟩ := ih hstack hm
          exact ⟨closer, hcloser,
            hrest.plain (Token.isBracket_of_syntacticText hangle (by decide))⟩
      split at h
      · next hangle =>
          split at h
          · obtain rfl := Except.ok.inj h
            exact ⟨token, hangle, Within.refl _⟩
          · obtain ⟨m, hm, rfl⟩ := bind_succ_eq_ok.mp h
            obtain ⟨closer, hcloser, hrest⟩ := ih hstack hm
            exact ⟨closer, hcloser,
              hrest.plain (Token.isBracket_of_syntacticText hangle (by decide))⟩
      · obtain ⟨m, hm, rfl⟩ := bind_succ_eq_ok.mp h
        obtain ⟨closer, hcloser, hrest⟩ := ih hstack hm
        refine ⟨closer, hcloser, ?_⟩
        cases hbracket : token.isBracket with
        | false => exact hrest.plain hbracket
        | true =>
            obtain ⟨strays, hrest⟩ := hrest
            refine ⟨token :: strays, .stray ⟨hbracket, ?_⟩ hrest⟩
            simp only [Token.isBracket, Bool.and_eq_true, decide_eq_true_eq]
              at hbracket
            simp only [Token.syntacticText, hbracket.1] at hopener
            simpa [hopener] using hbracket.2

theorem whole_of_groupLength {n : Nat} (h : groupLength [] tokens = .ok n) :
    Whole tokens (tokens.drop n) :=
  unwinds_of_groupLength (List.forall_mem_nil _) h

theorem whole_of_anglesLength {opener : Token} {n : Nat}
    (hfront : frontText tokens = "<")
    (h : anglesLength opener 0 [] tokens = .ok n) :
    Whole tokens (tokens.drop n) := by
  cases tokens with
  | nil => cases h
  | cons token tokens =>
      rw [frontText] at hfront
      simp only [anglesLength, hfront, List.isEmpty_nil, Bool.not_true,
        Bool.false_or, if_neg (show ¬isOpener "<" by decide), if_true] at h
      obtain ⟨m, hm, rfl⟩ := bind_succ_eq_ok.mp h
      obtain ⟨closer, hcloser, strays, hinner⟩ :=
        unwinds_of_anglesLength (List.forall_mem_nil _) hm
      exact ⟨_, .angles hfront hcloser hinner .nil⟩

end Bracket

theorem Reader.unwinds_of_statementLength {stack tokens : List Token}
    (hstack : Bracket.Opened stack) {begun : Bool} {n : Nat}
    (h : statementLength stack begun tokens = .ok n) :
    Bracket.Unwinds false stack tokens (tokens.drop n) := by
  induction tokens generalizing stack begun n with
  | nil =>
      cases stack with
      | nil =>
          rw [List.drop_nil]
          exact Within.refl []
      | cons opener stack => cases h
  | cons token tokens ih =>
      rw [statementLength] at h
      split at h
      · next hends =>
          obtain rfl := Except.ok.inj h
          simp only [Bool.and_eq_true, List.isEmpty_iff] at hends
          rw [hends.1.1.2]
          exact Within.refl _
      · obtain ⟨below, htrack, h⟩ := SyntaxError.bind_eq_ok.mp h
        obtain ⟨hbelow, hclosed⟩ := Bracket.unwinds_of_track hstack htrack
        split at h
        · next hends =>
            obtain rfl := Except.ok.inj h
            simp only [Bool.and_eq_true, decide_eq_true_eq, List.isEmpty_iff]
              at hends
            rw [hends.2]
            exact (Within.refl tokens).plain
              (Token.isBracket_of_syntacticText hends.1 (by decide))
        · obtain ⟨m, hm, rfl⟩ := Bracket.bind_succ_eq_ok.mp h
          exact hclosed (ih hbelow hm)

end ShapeMend.Script
