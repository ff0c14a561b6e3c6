import ShapeMend.Proofs.Script.Lexing
import ShapeMend.Proofs.Script.Tiling
import ShapeMend.Script.Reader.Module

/-!
# Texts in pieces

A text that is put together from blanks, comments, lexemes and groups in
brackets splits into the lexemes and brackets again, each at its place, if every
piece fits in front of the character behind it.  Because groups are pieces, the
brackets of such a text cannot but match, and a statement ends at its own
semicolon.
-/

namespace ShapeMend.Script

open ShapeMend.Text ShapeMend.Number

/-! ## Pieces -/

inductive Lexeme where
  | word (text : String)
  | quoted (value : String)
  | numeral (decimal : DecimalText)
  /-- A symbol of one character that is no bracket. -/
  | mark (c : Char)

namespace Lexeme

def kind : Lexeme → Token.Kind
  | word _ => .word
  | quoted value => .quoted value
  | numeral _ => .numeral
  | mark _ => .symbol

def text : Lexeme → List Char
  | word text => text.toList
  | quoted value => '\x22' :: (value.toList.flatMap Json.escapeChar ++ ['\x22'])
  | numeral decimal => decimal.text
  | mark c => [c]

def fits (next : Option Char) : Lexeme → Bool
  | word text => isName text && next.all (!continuesWord ·)
  | quoted _ => true
  | numeral decimal => decimal.isWritten && next.all (!Numeral.isRun ·)
  | mark c => isPunctuation c && !"()[]\x7b\x7d/".toList.contains c
      && (c != '.' || next.all fun d => !d.isDigit && d != '.') &&
        (c != '=' || next != some '>')

end Lexeme

inductive Brackets where
  | round
  | square
  | curly

namespace Brackets

def opener : Brackets → Char
  | round => '('
  | square => '['
  | curly => '\x7b'

def closer : Brackets → Char
  | round => ')'
  | square => ']'
  | curly => '\x7d'

end Brackets

inductive Piece where
  | blank (c : Char)
  | comment (body : List Char)
  | lexeme (lexeme : Lexeme)
  | group (brackets : Brackets) (inside : List Piece)

mutual

def Piece.text : Piece → List Char
  | .blank c => [c]
  | .comment body => '/' :: '*' :: (body ++ ['*', '/'])
  | .lexeme lexeme => lexeme.text
  | .group brackets inside =>
      brackets.opener :: (piecesText inside ++ [brackets.closer])

def piecesText : List Piece → List Char
  | [] => []
  | piece :: pieces => piece.text ++ piecesText pieces

end

def front (next : Option Char) (pieces : List Piece) : Option Char :=
  (piecesText pieces).head?.or next

instance (body : List Char) : Decidable (Gap.EndsFirst body) :=
  inferInstanceAs (Decidable (¬_))

mutual

def Piece.fits (next : Option Char) : Piece → Bool
  | .blank c => isBlank c
  | .comment body => decide (Gap.EndsFirst body)
  | .lexeme lexeme => lexeme.fits next
  | .group brackets inside => piecesFit (some brackets.closer) inside

def piecesFit (next : Option Char) : List Piece → Bool
  | [] => true
  | piece :: pieces => piece.fits (front next pieces) && piecesFit next pieces

end

theorem piecesText_append (first second : List Piece) :
    piecesText (first ++ second) = piecesText first ++ piecesText second := by
  induction first with
  | nil => rfl
  | cons piece first ih =>
      rw [List.cons_append, piecesText, piecesText, ih, List.append_assoc]

private theorem head?_piecesText_append (pieces : List Piece)
    (after : List Char) :
    (piecesText pieces ++ after).head? = front after.head? pieces :=
  List.head?_append

private theorem front_append (next : Option Char) (first second : List Piece) :
    front next (first ++ second) = front (front next second) first := by
  rw [front, piecesText_append, List.head?_append, Option.or_assoc]
  rfl

theorem piecesFit_append (next : Option Char) (first second : List Piece) :
    piecesFit next (first ++ second) =
      (piecesFit (front next second) first && piecesFit next second) := by
  induction first with
  | nil => rfl
  | cons piece first ih =>
      rw [List.cons_append, piecesFit, piecesFit, front_append, ih,
        Bool.and_assoc]

/-! ## Tokens of pieces -/

namespace Token

def placed (kind : Kind) (text : List Char) (position : Position)
    (broken : Bool) : Token :=
  ⟨kind, String.ofList text, ⟨position, (position.after text).offset⟩, broken⟩

end Token

def Piece.breaks (broken : Bool) : Piece → Bool
  | .blank c => broken || c = '\n'
  | .comment body => broken || body.contains '\n'
  | .lexeme _ | .group _ _ => false

mutual

def Piece.tokens (position : Position) (broken : Bool) : Piece → List Token
  | .blank _ | .comment _ => []
  | .lexeme lexeme => [.placed lexeme.kind lexeme.text position broken]
  | .group brackets inside =>
    .placed .symbol [brackets.opener] position broken ::
      (piecesTokens (position.step brackets.opener) false inside ++
        [.placed .symbol [brackets.closer]
          (position.after (brackets.opener :: piecesText inside))
          (inside.foldl Piece.breaks false)])

def piecesTokens (position : Position) (broken : Bool) : List Piece → List Token
  | [] => []
  | piece :: pieces =>
    piece.tokens position broken ++
      piecesTokens (position.after piece.text) (piece.breaks broken) pieces

end

theorem piecesTokens_append (position : Position) (broken : Bool)
    (first second : List Piece) :
    piecesTokens position broken (first ++ second) =
      piecesTokens position broken first ++
      piecesTokens (position.after (piecesText first))
        (first.foldl Piece.breaks broken) second := by
  induction first generalizing position broken with
  | nil => rfl
  | cons piece first ih =>
      rw [List.cons_append, piecesTokens, piecesTokens, ih, List.append_assoc,
        piecesText, Position.after_append, List.foldl_cons]

mutual

def Piece.lexemes : Piece → List String
  | .blank _ | .comment _ => []
  | .lexeme lexeme => [String.ofList lexeme.text]
  | .group brackets inside =>
    String.ofList [brackets.opener] ::
      (piecesLexemes inside ++ [String.ofList [brackets.closer]])

def piecesLexemes : List Piece → List String
  | [] => []
  | piece :: pieces => piece.lexemes ++ piecesLexemes pieces

end

theorem piecesLexemes_append (first second : List Piece) :
    piecesLexemes (first ++ second) = piecesLexemes first ++
      piecesLexemes second := by
  induction first with
  | nil => rfl
  | cons piece first ih =>
      rw [List.cons_append, piecesLexemes, piecesLexemes, ih, List.append_assoc]

mutual

theorem Piece.map_text_tokens (piece : Piece) (position : Position)
    (broken : Bool) :
    (piece.tokens position broken).map (·.text) = piece.lexemes := by
  cases piece with
  | blank c => rfl
  | comment body => rfl
  | lexeme lexeme => rfl
  | group brackets inside =>
      rw [Piece.tokens, Piece.lexemes, List.map_cons, List.map_append,
        map_text_piecesTokens]
      rfl

theorem map_text_piecesTokens (pieces : List Piece) (position : Position)
    (broken : Bool) :
    (piecesTokens position broken pieces).map (·.text) =
      piecesLexemes pieces := by
  match pieces with
  | [] => rfl
  | piece :: pieces =>
      rw [piecesTokens, piecesLexemes, List.map_append, Piece.map_text_tokens,
        map_text_piecesTokens]

end

/-! ## Splitting -/

namespace Gap

variable {body : List Char}

private theorem EndsFirst.of_cons {c : Char} (h : EndsFirst (c :: body)) :
    EndsFirst body ∧ (c = '*' → body.head? ≠ some '/') := by
  refine ⟨fun hinfix =>
    h (List.IsInfix.trans hinfix (List.suffix_cons c _).isInfix), ?_⟩
  rintro rfl hhead
  obtain ⟨rest, rfl⟩ := List.head?_eq_some_iff.mp hhead
  exact h ⟨[], rest ++ ['*'], rfl⟩

theorem EndsFirst.append {front : List Char} (h : EndsFirst body)
    (hfront : '*' ∉ front) : EndsFirst (front ++ body) := by
  induction front with
  | nil => exact h
  | cons c front ih =>
      rw [List.mem_cons, not_or] at hfront
      exact (ih hfront.2).cons fun hc => absurd hc.symm hfront.1

private theorem closes_comment (body after : List Char) :
    closes (body ++ '*' :: '/' :: after) := by
  induction body with
  | nil => rfl
  | cons c body ih =>
      rw [List.cons_append, closes.eq_def]
      split
      · next heq => cases heq
      · next heq => simp at heq
      · rfl
      · next heq =>
          obtain ⟨-, rfl⟩ := List.cons.inj heq
          exact ih

private theorem length_comment (h : EndsFirst body) (after : List Char) :
    length .block (body ++ '*' :: '/' :: after) = body.length + 2 +
      length .blank after := by
  induction body with
  | nil =>
      rw [List.nil_append, length, List.length_nil]
      omega
  | cons c body ih =>
      obtain ⟨hbody, hopen⟩ := h.of_cons
      rw [List.cons_append, length, ih hbody, List.length_cons]
      · omega
      · intro rest hc heq
        cases body with
        | nil => cases heq
        | cons d body => exact hopen hc (congrArg List.head? heq)

theorem length_line {line : List Char} (h : '\n' ∉ line) (after : List Char) :
    length .line (line ++ '\n' :: after) = line.length + 1 +
      length .blank after := by
  induction line with
  | nil =>
      rw [List.nil_append, length, if_pos rfl, List.length_nil]
      omega
  | cons c line ih =>
      rw [List.mem_cons, not_or] at h
      rw [List.cons_append, length, if_neg (Ne.symm h.1), ih h.2,
        List.length_cons]
      omega

end Gap

def Scans (broken : Bool) (position : Position) (text : List Char)
    (stream : TokenStream) : Prop :=
  ∀ previous, TokenStream.scanFrom previous broken position text = .ok stream

namespace Scans

variable {broken : Bool} {position : Position} {after : List Char}
  {stream : TokenStream}

theorem nil (broken : Bool) (position : Position) :
    Scans broken position [] ⟨[], position, broken⟩ := by
  intro previous
  rw [TokenStream.scanFrom, TokenStream.scanAfter.eq_def]
  simp

private theorem blank {c : Char} (hc : isBlank c)
    (h : Scans (broken || c = '\n') (position.step c) after stream) :
    Scans broken position (c :: after) stream := by
  intro previous
  rw [TokenStream.scanFrom_of_isBlank _ _ _ _ hc]
  exact h previous

theorem gap {front : List Char}
    (hlength : Gap.length .blank (front ++ after) = front.length +
      Gap.length .blank after)
    (h : Scans (broken || front.contains '\n') (position.after front) after
      stream) : Scans broken position (front ++ after) stream := by
  intro previous
  have hscan := h previous
  simp only [TokenStream.scanFrom] at hscan ⊢
  rw [hlength, List.take_length_add_append, List.length_append,
    List.drop_length_add_append, Position.after_append, ← hscan]
  simp only [List.contains_eq_any_beq, List.any_append, Bool.or_assoc]

private theorem comment {body : List Char} (hbody : Gap.EndsFirst body)
    (h : Scans (broken || body.contains '\n')
      (position.after (Piece.comment body).text) after stream) :
    Scans broken position ((Piece.comment body).text ++ after) stream := by
  refine gap ?_ ?_
  · simp [Piece.text, Gap.length, Gap.closes_comment, Gap.length_comment hbody]
    omega
  · have hbreak :
        (Piece.comment body).text.contains '\n' = body.contains '\n' := by
      simp [Piece.text]
    rwa [hbreak]

theorem line {comment : List Char} (hline : '\n' ∉ comment)
    (h : Scans true (position.after ('/' :: '/' :: comment ++ ['\n'])) after
      stream) :
    Scans broken position ('/' :: '/' :: comment ++ ['\n'] ++ after)
      stream := by
  refine gap ?_ ?_
  · simp [Gap.length, Gap.length_line hline]
    omega
  · simpa using h

theorem token {c : Char} {tail : List Char} {kind : Token.Kind}
    (hslash : c ≠ '/') (hblank : isBlank c = false)
    (hmeasure : ∀ previous,
      Token.measure previous c (tail ++ after) = .ok (kind, tail.length + 1))
    (h : Scans false (position.after (c :: tail)) after stream) :
    Scans broken position (c :: tail ++ after)
      { stream with
        tokens := .placed kind (c :: tail) position broken :: stream.tokens } :=
  fun previous =>
    TokenStream.scanFrom_eq_ok hslash hblank (hmeasure previous) rfl (h _)

theorem symbol {c : Char} (hsymbol : isPunctuation c) (hslash : c ≠ '/')
    (hdot : c = '.' → ∀ d ∈ after.head?, d.isDigit = false ∧ d ≠ '.')
    (harrow : c = '=' → after.head? ≠ some '>')
    (h : Scans false (position.step c) after stream) :
    Scans broken position (c :: after)
      { stream with
        tokens := .placed .symbol [c] position broken :: stream.tokens } := by
  have hscan : Scans false (position.after [c]) after stream := h
  have hmeasure : ∀ previous,
      Token.measure previous c ([] ++ after) =
        .ok (.symbol, ([] : List Char).length + 1) :=
    fun previous => Token.measure_symbol previous hsymbol hslash hdot harrow
  exact token hslash (of_isPunctuation hsymbol).2.2.1 hmeasure hscan

theorem lexeme {lexeme : Lexeme} (hfits : lexeme.fits after.head?)
    (h : Scans false (position.after lexeme.text) after stream) :
    Scans broken position (lexeme.text ++ after)
      { stream with
        tokens := .placed lexeme.kind lexeme.text position broken ::
          stream.tokens } := by
  cases lexeme with
  | word text =>
      rw [Lexeme.fits, Bool.and_eq_true] at hfits
      obtain ⟨c, tail, hchars, hstart, htail, hblank⟩ :=
        exists_of_isName hfits.1
      have hafter : ∀ d ∈ after.head?, continuesWord d = false := by
        simpa [Option.all_eq_true] using hfits.2
      rw [Lexeme.text, hchars] at h ⊢
      exact token (ne_of_startsWord hstart (by decide)) hblank
        (fun previous => Token.measure_word previous hstart htail hafter) h
  | quoted value =>
      exact token (by decide) (by decide)
        (fun previous => Token.measure_quoted previous value after) h
  | numeral decimal =>
      rw [Lexeme.fits, Bool.and_eq_true] at hfits
      have hafter : ∀ d ∈ after.head?, Numeral.isRun d = false := by
        simpa [Option.all_eq_true] using hfits.2
      obtain ⟨c, tail, htext, hdigit, hmeasure⟩ :=
        Token.measure_decimal hfits.1 hafter
      obtain ⟨-, hblank, -, -, -, hmarks⟩ := of_isDigit hdigit
      simp only [List.mem_cons, not_or] at hmarks
      rw [Lexeme.text, htext] at h ⊢
      exact token hmarks.2.1 hblank hmeasure h
  | mark c =>
      have hmark : isPunctuation c ∧ c ≠ '/' ∧
          (c = '.' → ∀ d ∈ after.head?, d.isDigit = false ∧ d ≠ '.') ∧
          (c = '=' → after.head? ≠ some '>') := by
        simp only [Lexeme.fits, Bool.and_eq_true] at hfits
        obtain ⟨⟨⟨hsymbol, hbracket⟩, hdot⟩, harrow⟩ := hfits
        refine ⟨hsymbol, ?_, ?_, ?_⟩
        · rintro rfl
          exact absurd hbracket (by decide)
        · rintro rfl
          simpa [Option.all_eq_true] using hdot
        · rintro rfl
          simpa using harrow
      obtain ⟨hsymbol, hslash, hdot, harrow⟩ := hmark
      exact symbol hsymbol hslash hdot harrow h

private theorem bracket {c : Char} (hc : c ∈ "()[]\x7b\x7d".toList)
    (h : Scans false (position.step c) after stream) :
    Scans broken position (c :: after)
      { stream with
        tokens := .placed .symbol [c] position broken :: stream.tokens } := by
  have htable : "()[]\x7b\x7d".toList.all fun c =>
      decide (isPunctuation c ∧ c ∉ ['/', '.', '=']) := by
    decide
  obtain ⟨hsymbol, hmark⟩ := of_decide_eq_true (List.all_eq_true.mp htable c hc)
  simp only [List.mem_cons, not_or] at hmark
  exact symbol hsymbol hmark.1 (absurd · hmark.2.1) (absurd · hmark.2.2.1) h

mutual

theorem piece {broken : Bool} {position : Position} {after : List Char}
    {stream : TokenStream} (piece : Piece) (hfits : piece.fits after.head?)
    (h : Scans (piece.breaks broken) (position.after piece.text) after stream) :
    Scans broken position (piece.text ++ after)
      { stream with
        tokens := piece.tokens position broken ++ stream.tokens } := by
  cases piece with
  | blank c => exact blank hfits h
  | comment body =>
      rw [Piece.fits, decide_eq_true_eq] at hfits
      exact comment hfits h
  | lexeme inside => exact lexeme hfits h
  | group brackets inside =>
      have hopener : brackets.opener ∈ "()[]\x7b\x7d".toList := by
        cases brackets <;> decide
      have hcloser : brackets.closer ∈ "()[]\x7b\x7d".toList := by
        cases brackets <;> decide
      rw [Piece.fits] at hfits
      rw [Piece.text, ← List.cons_append, Position.after_append] at h
      have hclose : Scans (inside.foldl Piece.breaks false) _ _ _ :=
        bracket hcloser h
      have hinside : Scans false (position.step brackets.opener)
          (piecesText inside ++ brackets.closer :: after) _ :=
            pieces inside hfits hclose
      have hgroup : Scans broken position _ _ := bracket hopener hinside
      simpa [Piece.text, Piece.tokens] using hgroup

theorem pieces {broken : Bool} {position : Position} {after : List Char}
    {stream : TokenStream} (list : List Piece)
    (hfits : piecesFit after.head? list)
    (h : Scans (list.foldl Piece.breaks broken)
      (position.after (piecesText list)) after stream) :
    Scans broken position (piecesText list ++ after)
      { stream with
        tokens := piecesTokens position broken list ++ stream.tokens } := by
  match list with
  | [] => exact h
  | piece :: list =>
      rw [piecesFit, Bool.and_eq_true, ← head?_piecesText_append] at hfits
      rw [piecesText, Position.after_append] at h
      have hlist := pieces list hfits.2 h
      have hpiece := Scans.piece piece hfits.1 hlist
      rw [piecesText, piecesTokens, List.append_assoc, List.append_assoc]
      exact hpiece

end

end Scans

end ShapeMend.Script
