import ShapeMend.Proofs.Script.Tokens
import ShapeMend.Script.Reader.Module

/-!
# What readers consume

A reader is described by the tokens in front of it, the tokens that it leaves
and what it yields.  Places are left out, since no reader decides anything by
them.
-/

namespace ShapeMend.Script

open ShapeMend.Text

/-! ## Looking at tokens without their places -/

@[simp] theorem syntacticText_unplaced (token : Token) :
    token.unplaced.syntacticText = token.syntacticText := rfl

theorem frontText_cons (token : Token) (tokens : List Token) :
    frontText (token :: tokens) = token.syntacticText := rfl

theorem frontText_unplaced (tokens : List Token) :
    frontText (tokens.map Token.unplaced) = frontText tokens := by
  cases tokens <;> rfl

theorem frontIsWord_unplaced (tokens : List Token) :
    frontIsWord (tokens.map Token.unplaced) = frontIsWord tokens := by
  cases tokens <;> rfl

theorem frontIsWordOnLine_unplaced (tokens : List Token) :
    frontIsWordOnLine (tokens.map Token.unplaced) =
      frontIsWordOnLine tokens := by
  cases tokens <;> rfl

theorem startsKey_unplaced (tokens : List Token) :
    Reader.startsKey (tokens.map Token.unplaced) = Reader.startsKey tokens := by
  cases tokens <;> rfl

theorem startsMapped_unplaced (tokens : List Token) :
    Reader.startsMapped (tokens.map Token.unplaced) =
      Reader.startsMapped tokens := by
  unfold Reader.startsMapped
  simp only [← List.map_drop, frontText_unplaced,
    ← apply_ite (List.map Token.unplaced), frontIsWord_unplaced]

theorem itemModifiers_unplaced (afterExport : Bool) (tokens : List Token) :
    Reader.itemModifiers afterExport (tokens.map Token.unplaced) =
      Reader.itemModifiers afterExport tokens := by
  induction tokens generalizing afterExport with
  | nil => rfl
  | cons token tokens ih =>
      simp only [List.map_cons, Reader.itemModifiers, syntacticText_unplaced,
        ih, frontIsWordOnLine_unplaced]
      rfl

theorem eq_of_map_unplaced {actual : List Token} {token : Token}
    {tokens : List Token} (h : actual.map Token.unplaced = token :: tokens) :
    ∃ span later, actual = { token with span := span } :: later ∧
      later.map Token.unplaced = tokens := by
  obtain ⟨first, later, rfl, rfl, hlater⟩ := List.map_eq_cons_iff.mp h
  exact ⟨first.span, later, rfl, hlater⟩

/-! ## Readers -/

def Reads {α : Type} (reader : Reader α) (before after : List Token)
    (post : α → Prop) : Prop :=
  ∀ cursor : Cursor, cursor.ahead.map Token.unplaced = before → ∃ value next,
    reader.run cursor = .ok (value, next) ∧ next.ahead.map Token.unplaced =
      after ∧ post value

namespace Reads

open Reader

variable {α β : Type} {before middle after tokens : List Token} {token : Token}

theorem pure {value : α} {post : α → Prop} (h : post value) :
    Reads (Pure.pure value) tokens tokens post :=
  fun cursor hahead => ⟨value, cursor, rfl, hahead, h⟩

theorem bind {reader : Reader α} {next : α → Reader β} {mid : α → Prop}
    {post : β → Prop} (hfirst : Reads reader before middle mid)
    (hnext : ∀ value, mid value → Reads (next value) middle after post) :
    Reads (reader >>= next) before after post := by
  intro cursor hahead
  obtain ⟨value, cursor', hrun, hahead', hvalue⟩ := hfirst cursor hahead
  obtain ⟨result, last, hrun', hlast, hresult⟩ :=
    hnext value hvalue cursor' hahead'
  refine ⟨result, last, ?_, hlast, hresult⟩
  rw [StateT.run_bind, hrun]
  exact hrun'

theorem step {reader : Reader α} {next : α → Reader β} {value : α}
    {post : β → Prop} (hfirst : Reads reader before middle (· = value))
    (hnext : Reads (next value) middle after post) :
    Reads (reader >>= next) before after post := by
  refine hfirst.bind ?_
  rintro _ rfl
  exact hnext

theorem imp {reader : Reader α} {mid post : α → Prop}
    (h : Reads reader before after mid)
    (himp : ∀ value, mid value → post value) :
    Reads reader before after post := by
  intro cursor hahead
  obtain ⟨value, next, hrun, hnext, hvalue⟩ := h cursor hahead
  exact ⟨value, next, hrun, hnext, himp value hvalue⟩

theorem ahead :
    Reads ahead tokens tokens
      (fun actual => actual.map Token.unplaced = tokens) :=
  fun cursor hahead => ⟨cursor.ahead, cursor, rfl, hahead, hahead⟩

theorem ahead_cons {next : List Token → Reader β} {post : β → Prop}
    (h : ∀ span later,
      later.map Token.unplaced = tokens →
      Reads (next ({ token with span := span } :: later)) (token :: tokens)
      after post) :
    Reads (Reader.ahead >>= next) (token :: tokens) after post := by
  refine ahead.bind fun actual hactual => ?_
  obtain ⟨span, later, rfl, hlater⟩ := eq_of_map_unplaced hactual
  exact h span later hlater

theorem remaining : Reads remaining tokens tokens (· = tokens.length) := by
  intro cursor hahead
  refine ⟨cursor.ahead.length, cursor, rfl, hahead, ?_⟩
  rw [← hahead, List.length_map]

theorem textAt (n : Nat) :
    Reads (textAt n) tokens tokens (· = frontText (tokens.drop n)) := by
  intro cursor hahead
  refine ⟨frontText (cursor.ahead.drop n), cursor, rfl, hahead, ?_⟩
  rw [← hahead, ← List.map_drop, frontText_unplaced]

theorem textAt_word (word : String) :
    Reads (Reader.textAt 0) (.ofWord word :: tokens) (.ofWord word :: tokens)
      (· = word) :=
  textAt 0

theorem textAt_one :
    Reads (Reader.textAt 1) (token :: tokens) (token :: tokens)
      (· = frontText tokens) :=
  textAt 1

theorem at? (text : String) :
    Reads (at? text) tokens tokens (· = decide (frontText tokens = text)) :=
  (textAt 0).step (pure rfl)

theorem here : Reads here tokens tokens (fun _ => True) := by
  intro cursor hahead
  obtain ⟨actual, lastStop, stop⟩ := cursor
  cases actual with
  | nil => exact ⟨_, _, rfl, hahead, trivial⟩
  | cons token later => exact ⟨_, _, rfl, hahead, trivial⟩

theorem spanFrom (first : Span) :
    Reads (spanFrom first) tokens tokens (fun _ => True) :=
  fun _ hahead => ⟨_, _, rfl, hahead, trivial⟩

theorem advance : Reads advance (token :: tokens) tokens (fun _ => True) := by
  intro cursor hahead
  obtain ⟨actual, lastStop, stop⟩ := cursor
  obtain ⟨span, later, rfl, hlater⟩ := eq_of_map_unplaced hahead
  exact ⟨_, _, rfl, hlater, trivial⟩

/-! ## Words and symbols -/

theorem at_eq {text : String} (h : frontText tokens = text) :
    Reads (Reader.at? text) tokens tokens (· = true) :=
  (at? text).imp fun value hvalue => by rw [hvalue, decide_eq_true h]

theorem at_ne {text : String} (h : frontText tokens ≠ text) :
    Reads (Reader.at? text) tokens tokens (· = false) :=
  (at? text).imp fun value hvalue => by rw [hvalue, decide_eq_false h]

private theorem skip_eq {text : String}
    (h : frontText (token :: tokens) = text) :
    Reads (skip text) (token :: tokens) tokens (fun _ => True) :=
  (at_eq h).step advance

theorem skip_ne {text : String} (h : frontText tokens ≠ text) :
    Reads (skip text) tokens tokens (fun _ => True) :=
  (at_ne h).step (pure trivial)

theorem at_symbol {symbol : String} :
    Reads (Reader.at? symbol) (.ofSymbol symbol :: tokens)
      (.ofSymbol symbol :: tokens)
      (· = true) :=
  at_eq rfl

theorem at_symbol_ne {symbol text : String} (h : symbol ≠ text) :
    Reads (Reader.at? text) (.ofSymbol symbol :: tokens)
      (.ofSymbol symbol :: tokens)
      (· = false) :=
  at_ne h

theorem skip_symbol {symbol : String} :
    Reads (skip symbol) (.ofSymbol symbol :: tokens) tokens (fun _ => True) :=
  skip_eq rfl

theorem skip_symbol_ne {symbol text : String} (h : symbol ≠ text) :
    Reads (skip text) (.ofSymbol symbol :: tokens) (.ofSymbol symbol :: tokens)
      (fun _ => True) :=
  skip_ne h

theorem expect {symbol : String} {place : Place} :
    Reads (expect symbol place) (.ofSymbol symbol :: tokens) tokens
      (fun _ => True) :=
  here.bind fun _ _ => at_symbol.step (advance.bind fun _ _ => pure trivial)

theorem name {place : Place} (h : token.kind = .word) :
    Reads (name place) (token :: tokens) tokens (·.text = token.text) := by
  refine ahead_cons fun span later hlater => ?_
  simp only [h, if_true]
  exact advance.bind fun _ _ => pure rfl

theorem skipWhile_ne {test : List Token → Bool}
    (h : ∀ actual, actual.map Token.unplaced = tokens → test actual = false) :
    Reads (skipWhile test) tokens tokens (fun _ => True) := by
  refine ahead.bind fun actual hactual => ?_
  have hnone : runLength test actual = 0 := by
    cases actual with
    | nil => rfl
    | cons token later => rw [runLength, if_neg (by simp [h _ hactual])]
  rw [hnone]
  exact pure trivial

/-! ## Lists -/

theorem separated_one {separator : String} {item : Reader α} {post : α → Prop}
    {bound : Nat} (hitem : Reads item before after post)
    (hafter : frontText after ≠ separator) :
    Reads (separated separator item bound) before after
      (fun values => ∃ value, values = [value] ∧ post value) := by
  cases bound with
  | zero => exact hitem.bind fun value hvalue => pure ⟨value, rfl, hvalue⟩
  | succ bound =>
      refine hitem.bind fun value hvalue => ?_
      exact (at_ne hafter).step (pure ⟨value, rfl, hvalue⟩)

theorem separated_cons {separator : String} {item : Reader α} {mid : α → Prop}
    {post : List α → Prop} {bound : Nat}
    (hitem : Reads item before (token :: middle) mid)
    (htoken : frontText (token :: middle) = separator)
    (hmore : Reads (separated separator item bound) middle after post) :
    Reads (separated separator item (bound + 1)) before after
      (fun values => ∃ value more,
        values = value :: more ∧ mid value ∧ post more) := by
  refine hitem.bind fun value hvalue => ?_
  refine (at_eq htoken).step (advance.bind fun _ _ => ?_)
  exact hmore.bind fun more hpost => pure ⟨value, more, rfl, hvalue, hpost⟩

end Reads

end ShapeMend.Script
