import ShapeMend.Proofs.Script.Pieces

/-!
# Statements in pieces

A statement that is written on one line, apart from what its groups hold, and
ends with a semicolon is one opaque item, unless its first words open a
declaration.  The brackets need no thought: they come in groups.
-/

namespace ShapeMend.Script

open ShapeMend.Text

/-! ## Brackets -/

namespace Bracket

variable {position : Position} {broken : Bool}

theorem track_lexeme {next : Option Char} {lexeme : Lexeme}
    (h : lexeme.fits next) (stack : List Token) :
    track stack (.placed lexeme.kind lexeme.text position broken) =
      .ok stack := by
  cases lexeme with
  | mark c =>
      have htable : punctuation.all fun c =>
          decide (!"()[]\x7b\x7d/".toList.contains c →
          isOpener (String.ofList [c]) = false ∧ isCloser (String.ofList [c]) =
            false) := by
        decide
      simp only [Lexeme.fits, Bool.and_eq_true] at h
      have hmark :=
        List.all_eq_true.mp htable c (List.contains_iff_mem.mp h.1.1.1)
      obtain ⟨hopener, hcloser⟩ := of_decide_eq_true hmark h.1.1.2
      unfold track
      simp only [Token.placed, Lexeme.kind, Lexeme.text, hopener, hcloser]
      rfl
  | _ => rfl

theorem track_opener (brackets : Brackets) (stack : List Token) :
    track stack (.placed .symbol [brackets.opener] position broken) =
      .ok (.placed .symbol [brackets.opener] position broken :: stack) := by
  cases brackets <;> rfl

theorem track_closer (brackets : Brackets) (stack : List Token)
    (start : Position) (before : Bool) :
    track (.placed .symbol [brackets.opener] start before :: stack)
      (.placed .symbol [brackets.closer] position broken) = .ok stack := by
  cases brackets <;> rfl

end Bracket

/-! ## Where a statement ends -/

namespace Reader

theorem statementLength_within {stack within : List Token} {token : Token}
    (begun : Bool) (hstack : stack ≠ [])
    (htrack : Bracket.track stack token = .ok within) (rest : List Token) :
    statementLength stack begun (token :: rest) =
      (statementLength within true rest).map (· + 1) := by
  have hempty : stack.isEmpty = false := by simpa using hstack
  rw [statementLength, hempty, htrack]
  simp only [Bool.and_false, Bool.false_and, Bool.false_eq_true, if_false]
  rfl

theorem map_add_zero (result : Except SyntaxError Nat) :
    result.map (· + 0) = result := by
  cases result <;> rfl

theorem map_add_add (result : Except SyntaxError Nat) (m n : Nat) :
    (result.map (· + m)).map (· + n) = result.map (· + (n + m)) := by
  cases result with
  | error error => rfl
  | ok length =>
      change Except.ok (length + m + n) = Except.ok (length + (n + m))
      rw [Nat.add_assoc, Nat.add_comm m n]

mutual

theorem statementLength_piece {position : Position} {broken : Bool}
    {next : Option Char} {stack : List Token} (piece : Piece)
    (hfits : piece.fits next) (hstack : stack ≠ []) (rest : List Token) :
    statementLength stack true (piece.tokens position broken ++ rest) =
      (statementLength stack true rest).map
        (· + (piece.tokens position broken).length) := by
  cases piece with
  | blank c => exact (map_add_zero _).symm
  | comment body => exact (map_add_zero _).symm
  | lexeme lexeme =>
      exact statementLength_within true hstack
        (Bracket.track_lexeme hfits stack) rest
  | group brackets inside =>
      rw [Piece.fits] at hfits
      rw [Piece.tokens, List.cons_append, List.append_assoc,
        statementLength_within true hstack
          (Bracket.track_opener brackets stack),
        statementLength_pieces inside hfits (List.cons_ne_nil _ _),
          List.singleton_append,
        statementLength_within true (List.cons_ne_nil _ _)
          (Bracket.track_closer brackets stack _ _),
        map_add_add, map_add_add, List.length_cons, List.length_append,
          List.length_singleton]
      congr 1
      funext length
      omega

private theorem statementLength_pieces {position : Position} {broken : Bool}
    {next : Option Char} {stack : List Token} (pieces : List Piece)
    (hfits : piecesFit next pieces) (hstack : stack ≠ []) (rest : List Token) :
    statementLength stack true (piecesTokens position broken pieces ++ rest) =
      (statementLength stack true rest).map
        (· + (piecesTokens position broken pieces).length) := by
  match pieces with
  | [] => exact (map_add_zero _).symm
  | piece :: pieces =>
      rw [piecesFit, Bool.and_eq_true] at hfits
      rw [piecesTokens, List.append_assoc,
        statementLength_piece piece hfits.1 hstack,
        statementLength_pieces pieces hfits.2 hstack, map_add_add,
        List.length_append]

end

end Reader

def Piece.inLine : Piece → Bool
  | .blank c => c ≠ '\n'
  | .comment _ => false
  | .lexeme single => single.text ≠ [';']
  | .group _ _ => true

def Piece.semicolon : Piece := .lexeme (.mark ';')

namespace Reader

private theorem statementLength_outside {begun : Bool} {token : Token}
    {within : List Token} (hbegun : (begun && token.breakBefore) = false)
    (hend : token.syntacticText ≠ ";")
    (htrack : Bracket.track [] token = .ok within) (rest : List Token) :
    statementLength [] begun (token :: rest) =
      (statementLength within true rest).map (· + 1) := by
  rw [statementLength, htrack]
  simp only [List.isEmpty_nil, Bool.and_true, hbegun, Bool.false_and,
    Bool.false_eq_true, if_false, decide_eq_false hend]
  rfl

theorem syntacticText_lexeme {lexeme : Lexeme} (h : lexeme.text ≠ [';'])
    (position : Position) (broken : Bool) :
    (Token.placed lexeme.kind lexeme.text position broken).syntacticText ≠
      ";" := by
  have htext : String.ofList lexeme.text ≠ ";" := by
    intro heq
    exact h (by simpa using congrArg String.toList heq)
  cases lexeme with
  | word _ | mark _ => exact htext
  | quoted _ | numeral _ => exact (by decide : "" ≠ ";")

private theorem statementLength_line {pieces : List Piece} {next : Option Char}
    {position stop : Position} {begun broken : Bool}
    (hfits : piecesFit next pieces) (hline : pieces.all Piece.inLine)
    (hbegun : (begun && broken) = false) (rest : List Token) :
    statementLength [] begun (piecesTokens position broken pieces ++
      .placed .symbol [';'] stop (pieces.foldl Piece.breaks broken) :: rest) =
        .ok ((piecesTokens position broken pieces).length + 1) := by
  -- No token of the line but its first can stand behind a line feed, so none
  -- begins another statement.
  induction pieces generalizing position begun broken with
  | nil =>
      rw [piecesTokens, List.nil_append, statementLength]
      simp only [Token.placed, List.foldl_nil, List.isEmpty_nil,
        Bool.and_true, hbegun]
      rfl
  | cons piece pieces ih =>
      rw [piecesFit, Bool.and_eq_true] at hfits
      rw [List.all_cons, Bool.and_eq_true] at hline
      rw [piecesTokens, List.append_assoc, List.foldl_cons]
      cases piece with
      | blank c =>
          have hc : c ≠ '\n' := by simpa [Piece.inLine] using hline.1
          have hbreak : (broken || c = '\n') = broken := by simp [hc]
          rw [Piece.breaks, hbreak]
          exact ih hfits.2 hline.2 hbegun
      | comment body => exact absurd hline.1 (by simp [Piece.inLine])
      | lexeme lexeme =>
          have htext : lexeme.text ≠ [';'] := by
            simpa [Piece.inLine] using hline.1
          rw [Piece.tokens, List.singleton_append,
            statementLength_outside hbegun (syntacticText_lexeme htext _ _)
            (Bracket.track_lexeme hfits.1 []), Piece.breaks,
            ih hfits.2 hline.2 (Bool.and_false _), List.length_append]
          exact congrArg Except.ok (by simp only [List.length_singleton]; omega)
      | group brackets inside =>
          have hopener :
              (Token.placed .symbol [brackets.opener] position
                broken).syntacticText ≠ ";" := by
            cases brackets <;>
              simp [Token.placed, Token.syntacticText, Brackets.opener]
          have hinside := hfits.1
          rw [Piece.fits] at hinside
          rw [Piece.tokens, List.cons_append, List.append_assoc,
            statementLength_outside hbegun hopener
            (Bracket.track_opener brackets []),
            statementLength_pieces inside hinside (by simp),
            List.singleton_append, statementLength_within true (by simp)
            (Bracket.track_closer brackets [] _ _), Piece.breaks,
            ih hfits.2 hline.2 (Bool.and_false _), List.length_append,
            List.length_cons, List.length_append, List.length_singleton]
          exact congrArg Except.ok (by dsimp only; omega)

/-! ## Opaque items -/

def isOpaque (tokens : List Token) : Bool :=
  let front := frontText (tokens.drop (itemModifiers false tokens).2)
  front ≠ "interface" && front ≠ "type"

theorem run_step {α β : Type} {reader : Reader α} {value : α}
    {cursor behind : Cursor} (h : reader.run cursor = .ok (value, behind))
    (next : α → Reader β) :
    (reader >>= next).run cursor = (next value).run behind := by
  rw [StateT.run_bind, h]
  rfl

theorem run_ahead (cursor : Cursor) :
    ahead.run cursor = .ok (cursor.ahead, cursor) := rfl

private theorem run_advanceBy (front : List Token) (last : Token)
    (rest : List Token) (start : Nat) (stop : Position) :
    (advanceBy (front.length + 1)).run ⟨front ++ last :: rest, start, stop⟩ =
      .ok ((), ⟨rest, last.span.stop, stop⟩) := by
  induction front generalizing start with
  | nil => rfl
  | cons token front ih => exact ih token.span.stop

private theorem run_opaqueItem {front : List Token} {last : Token}
    {rest : List Token}
    (hlength : statementLength [] false (front ++ last :: rest) =
      .ok (front.length + 1))
    (first : Span) (start : Nat) (stop : Position) :
    (opaqueItem first).run ⟨front ++ last :: rest, start, stop⟩ =
      .ok (.other ⟨first.start, max last.span.stop first.stop⟩,
        ⟨rest, last.span.stop, stop⟩) := by
  have hlift :
      (liftM (statementLength [] false (front ++ last :: rest)) :
        Reader Nat).run
      ⟨front ++ last :: rest, start, stop⟩ =
        .ok (front.length + 1, ⟨front ++ last :: rest, start, stop⟩) := by
    rw [hlength]
    rfl
  rw [opaqueItem, run_step (run_ahead _), run_step hlift,
    run_step (run_advanceBy _ _ _ _ _)]
  rfl

private theorem run_item_of_isOpaque {first : Token} {tokens : List Token}
    (h : isOpaque (first :: tokens)) (start : Nat) (stop : Position) :
    item.run ⟨first :: tokens, start, stop⟩ =
      (opaqueItem first.span).run ⟨first :: tokens, start, stop⟩ := by
  have hfront :
      frontText
      ((first :: tokens).drop (itemModifiers false (first :: tokens)).2) ≠
        "interface" ∧
      frontText
        ((first :: tokens).drop (itemModifiers false (first :: tokens)).2) ≠
        "type" := by
    simpa only [isOpaque, Bool.and_eq_true, decide_eq_true_eq] using h
  have hhere : here.run ⟨first :: tokens, start, stop⟩ =
      .ok (first.span, ⟨first :: tokens, start, stop⟩) := rfl
  rw [item, run_step hhere, run_step (run_ahead _)]
  simp only [hfront, decide_false, Bool.false_and, Bool.false_eq_true, if_false]

end Reader

/-! ## Items -/

structure IsStatement (text : List Char) (pieces : List Piece) : Prop where
  text_eq : piecesText (pieces ++ [Piece.semicolon]) = text
  begins : ∃ first more, pieces = Piece.lexeme first :: more
  fits : ∀ next, piecesFit next pieces
  inLine : pieces.all Piece.inLine
  isOther : ∀ position broken tokens,
    Reader.isOpaque (piecesTokens position broken pieces ++ tokens)

def ItemsAre (tokens : List Token) (list : List Item) : Prop :=
  ∀ bound start stop, tokens.length ≤ bound →
    (Reader.items bound).run' ⟨tokens, start, stop⟩ = .ok list

namespace ItemsAre

theorem nil : ItemsAre [] [] := by
  intro bound start stop hbound
  cases bound <;> rfl

private theorem cons {front : List Token} {first last : Token}
    {rest : List Token} {list : List Item} {span : Span}
    (hfirst : first.syntacticText ≠ ";")
    (hother : Reader.isOpaque (first :: front ++ last :: rest))
    (hlength : Reader.statementLength [] false
      (first :: front ++ last :: rest) = .ok ((first :: front).length + 1))
    (hspan : span = ⟨first.span.start, max last.span.stop first.span.stop⟩)
    (h : ItemsAre rest list) :
    ItemsAre (first :: front ++ last :: rest) (.other span :: list) := by
  intro bound start stop hbound
  cases bound with
  | zero => simp at hbound
  | succ bound =>
      have hlater := h bound last.span.stop stop (by simp at hbound; omega)
      have hitem :
          Reader.item.run ⟨first :: (front ++ last :: rest), start, stop⟩ =
          .ok (.other span, ⟨rest, last.span.stop, stop⟩) := by
        rw [hspan]
        exact (Reader.run_item_of_isOpaque hother start stop).trans
          (Reader.run_opaqueItem hlength _ start stop)
      have hat :
          (Reader.at? ";").run ⟨first :: (front ++ last :: rest), start, stop⟩ =
          .ok (false, ⟨first :: (front ++ last :: rest), start, stop⟩) := by
        have hne : decide (first.syntacticText = ";") = false :=
          decide_eq_false hfirst
        rw [← hne]
        rfl
      rw [StateT.run'_eq] at hlater ⊢
      rw [Reader.items, Reader.run_step (Reader.run_ahead _)]
      simp only [List.cons_append, List.isEmpty_cons, Bool.false_eq_true,
        if_false]
      rw [Reader.run_step hat]
      simp only [Bool.false_eq_true, if_false]
      rw [Reader.run_step hitem]
      cases hrun : (Reader.items bound).run ⟨rest, last.span.stop, stop⟩ with
      | error error =>
          rw [hrun] at hlater
          cases hlater
      | ok pair =>
          rw [hrun] at hlater
          cases hlater
          rw [Reader.run_step hrun]
          rfl

variable {text : List Char} {pieces : List Piece} {broken : Bool}
  {list : List Item}

private theorem statement (h : IsStatement text pieces) {position : Position}
    {rest : List Token} (hrest : ItemsAre rest list) :
    ItemsAre
      (piecesTokens position broken (pieces ++ [Piece.semicolon]) ++ rest)
      (.other ⟨position, (position.after text).offset⟩ :: list) := by
  obtain ⟨rfl, ⟨first, more, rfl⟩, hfits, hline, hother⟩ := h
  have hsplit : piecesTokens position broken
      (.lexeme first :: more ++ [Piece.semicolon]) ++ rest =
      piecesTokens position broken (.lexeme first :: more) ++
        .placed .symbol [';']
          (position.after (piecesText (.lexeme first :: more)))
          ((Piece.lexeme first :: more).foldl Piece.breaks broken) :: rest := by
    rw [piecesTokens_append, List.append_assoc]
    rfl
  have hstop :
      position.after (piecesText (.lexeme first :: more ++ [Piece.semicolon])) =
      ((position.after first.text).after (piecesText more)).after [';'] := by
    rw [piecesText_append, Position.after_append, piecesText,
      Position.after_append]
    rfl
  have hlast :=
    Position.offset_le_after (position.after first.text)
      (piecesText more ++ [';'])
  have hfirst : first.text ≠ [';'] := by
    simpa [Piece.inLine] using (List.all_eq_true.mp hline) _ List.mem_cons_self
  rw [Position.after_append] at hlast
  rw [hsplit, hstop]
  refine cons (Reader.syntacticText_lexeme hfirst _ _) (hother _ _ _)
    (Reader.statementLength_line (hfits none) hline (Bool.false_and _) rest)
      ?_ hrest
  rw [piecesText, Position.after_append]
  exact congrArg (Span.mk position) (Nat.max_eq_left hlast).symm

theorem nextLine (h : IsStatement text pieces) {before : List Char}
    {later : List Piece}
    (hlater : ItemsAre
      (piecesTokens (.behind (before ++ '\n' :: text)) false later) list) :
    ItemsAre (piecesTokens (.behind before) broken
        (.blank '\n' :: (pieces ++ [Piece.semicolon] ++ later)))
      (.other ⟨.behind (before ++ ['\n']),
        (Position.behind (before ++ '\n' :: text)).offset⟩ ::
        list) := by
  have hbreak : (Piece.blank '\n').breaks broken = true := by
    simp [Piece.breaks]
  have hstart : (Position.behind before).after (Piece.blank '\n').text =
      .behind (before ++ ['\n']) :=
    Position.after_behind before ['\n']
  have hstop : Position.behind (before ++ '\n' :: text) =
      (Position.behind (before ++ ['\n'])).after text := by
    rw [Position.after_behind, List.append_assoc, List.singleton_append]
  have hafter : (pieces ++ [Piece.semicolon]).foldl Piece.breaks true =
      false := by
    rw [List.foldl_append]
    rfl
  rw [hstop] at hlater ⊢
  rw [piecesTokens, Piece.tokens, List.nil_append, hbreak, hstart,
    piecesTokens_append, hafter, h.text_eq]
  exact statement h hlater

end ItemsAre

end ShapeMend.Script
