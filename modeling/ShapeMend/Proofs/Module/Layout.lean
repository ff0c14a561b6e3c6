import ShapeMend.Module.Emit
import ShapeMend.Proofs.Keyed
import ShapeMend.Proofs.Module.Numbers
import ShapeMend.Proofs.Script.Pieces

/-!
# Emitted fields in pieces

The lists that an emitted module holds are put together from lexemes, blanks,
comments and brackets.  Keys and literal strings stay inside their quotes, and
the name of what is not declared stays inside its comment.
-/

namespace ShapeMend.Module

open ShapeMend.Script

/-! ## Rows -/

def indentPieces (depth : Nat) : List Piece :=
  List.replicate (2 * depth) (.blank ' ')

def row (depth : Nat) (pieces : List Piece) : List Piece :=
  indentPieces depth ++ pieces ++ [.blank '\n']

def block (brackets : Brackets) (depth : Nat) (rows : List Piece) : Piece :=
  .group brackets ([.blank '\n'] ++ rows ++ indentPieces depth)

def word (text : String) : Piece := .lexeme (.word text)

def quoted (value : String) : Piece := .lexeme (.quoted value)

def mark (c : Char) : Piece := .lexeme (.mark c)

def space : Piece := .blank ' '

def fieldPieces (depth : Nat) (key : String) (optional : Bool)
    (values : List Piece) : List Piece :=
  row (depth + 1) [
    block .curly (depth + 1) (
      row (depth + 2) [word "key", mark ':', space, quoted key, mark ','] ++
      row (depth + 2)
        [word "optional", mark ':', space, word (truth optional), mark ','] ++
      row (depth + 2)
        [word "get", space, word "attribute", .group .round [], space,
        block .curly (depth + 2) (
          row (depth + 3)
            [word "const", space, word "value", space, mark '=', space,
            block .square (depth + 3) values, mark ';'] ++
          row (depth + 3)
            [word "Object", mark '.', word "defineProperty", .group .round [
            word "this", mark ',', space, quoted "attribute", mark ',', space,
              .group .curly [
              space, word "value", mark ',', space, word "enumerable",
                mark ':', space,
              word "true", space]], mark ';'] ++
          row (depth + 3) [word "return", space, word "value", mark ';']),
            mark ',']),
    mark ',']

def alternativePieces (depth : Nat) (value : List Piece) (isArray : Bool)
    (valueType : String) : List Piece :=
  row depth [
    .group .curly ([space, word "value", mark ':', space] ++ value ++
      [mark ',', space, word "isArray", mark ':', space, word (truth isArray),
        mark ',', space,
        word "valueType", mark ':', space, quoted valueType, space]),
    mark ',']

@[simp] theorem text_indentPieces (depth : Nat) :
    piecesText (indentPieces depth) = (indent depth).toList := by
  unfold indentPieces indent
  induction 2 * depth with
  | zero => rfl
  | succ n ih =>
      rw [List.replicate_succ', piecesText_append, ih]
      exact (String.toList_push (s := "".pushn ' ' n) (c := ' ')).symm

/-! ## Lexemes -/

def enclosed (brackets : Brackets) (inside : List String) : List String :=
  String.ofList [brackets.opener] ::
    (inside ++ [String.ofList [brackets.closer]])

def signedLexemes (text : String) : List String :=
  match text.toList with
  | '-' :: digits => ["-", String.ofList digits]
  | _ => [text]

def referenceLexeme (bindings : List (String × String))
    (name : String) : String :=
  (Keyed.lookup name bindings).getD "undefined"

def propertyLexemes (name : String) (arguments : List String) : List String :=
  ["Object", ".", "defineProperty"] ++
    enclosed .round ([name, ","] ++ arguments)

def getterLexemes (values : List String) : List String :=
  ["const", "value", "="] ++ enclosed .square values ++ [";"] ++
    propertyLexemes "this"
      ([Json.quoted "attribute", ","] ++
        enclosed .curly ["value", ",", "enumerable", ":", "true"]) ++
    [";", "return", "value", ";"]

def fieldLexemes (key : String) (optional : Bool)
    (values : List String) : List String :=
  enclosed .curly (
    ["key", ":", Json.quoted key, ",", "optional", ":", truth optional, ",",
      "get", "attribute"] ++
      enclosed .round [] ++ enclosed .curly (getterLexemes values) ++ [","]) ++
        [","]

def alternativeLexemes (value : List String) (isArray : Bool)
    (valueType : String) : List String :=
  enclosed .curly (["value", ":"] ++ value ++
    [",", "isArray", ":", truth isArray, ",", "valueType", ":",
      Json.quoted valueType]) ++ [","]

mutual

def shapeLexemes (bindings : List (String × String)) : Shape → List String
  | .primitive primitive => [Json.quoted primitive.keyword]
  | .literal literal => signedLexemes literal.toJson.compact
  | .reference name => [referenceLexeme bindings name]
  | .inline fields => enclosed .square (fieldsLexemes bindings fields)

def fieldsLexemes (bindings : List (String × String)) :
    List (FieldOf Shape) → List String
  | [] => []
  | ⟨key, optional, alternatives⟩ :: fields =>
    fieldLexemes key optional (alternativesLexemes bindings alternatives) ++
      fieldsLexemes bindings fields

def alternativesLexemes (bindings : List (String × String)) :
    List (AlternativeOf Shape) → List String
  | [] => []
  | ⟨shape, isArray⟩ :: alternatives =>
    alternativeLexemes (shapeLexemes bindings shape) isArray
      shape.valueType.keyword ++
      alternativesLexemes bindings alternatives

end

@[simp] theorem lexemes_indentPieces (depth : Nat) :
    piecesLexemes (indentPieces depth) = [] := by
  unfold indentPieces
  induction 2 * depth with
  | zero => rfl
  | succ n ih =>
      rw [List.replicate_succ, piecesLexemes, ih]
      rfl

@[simp] theorem lexemes_row (depth : Nat) (pieces : List Piece) :
    piecesLexemes (row depth pieces) = piecesLexemes pieces := by
  rw [row, piecesLexemes_append, piecesLexemes_append, lexemes_indentPieces,
    List.nil_append]
  exact List.append_nil _

@[simp] theorem lexemes_block (brackets : Brackets) (depth : Nat)
    (rows : List Piece) :
    (block brackets depth rows).lexemes =
      enclosed brackets (piecesLexemes rows) := by
  rw [block, Piece.lexemes, piecesLexemes_append, piecesLexemes_append,
    lexemes_indentPieces, List.append_nil]
  rfl

private theorem lexemes_fieldPieces (depth : Nat) (key : String)
    (optional : Bool) (values : List Piece) :
    piecesLexemes (fieldPieces depth key optional values) =
      fieldLexemes key optional (piecesLexemes values) := by
  simp [fieldPieces, fieldLexemes, getterLexemes, propertyLexemes,
    piecesLexemes, piecesLexemes_append, Piece.lexemes, Lexeme.text, word, mark,
    quoted, space, enclosed, Json.quoted]

private theorem lexemes_alternativePieces (depth : Nat) (value : List Piece)
    (isArray : Bool) (valueType : String) :
    piecesLexemes (alternativePieces depth value isArray valueType) =
      alternativeLexemes (piecesLexemes value) isArray valueType := by
  simp [alternativePieces, alternativeLexemes, piecesLexemes,
    piecesLexemes_append, Piece.lexemes, Lexeme.text, word, mark, quoted, space,
    enclosed, Json.quoted]

/-- The text of declarations, in order. -/
def declarationsText (bindings : List (String × String)) (exportAll : Bool)
    (declarations : List Declaration) : List Char :=
  declarations.flatMap fun declaration =>
    '\n' :: (declarationText bindings exportAll declaration).toList

theorem toList_moduleText (schema : Schema) (exportAll : Bool)
    (header : String) :
    (schema.moduleText exportAll header).toList =
      (header ++ "\n").toList ++
        declarationsText schema.bindings exportAll schema.declarations := by
  simp [Schema.moduleText, declarationsText, List.flatMap_map]

variable {depth : Nat} {next : Option Char}

private theorem text_fieldPieces (key : String) (optional : Bool)
    {values : List Piece} {rows : String}
    (h : piecesText values = rows.toList) :
    piecesText (fieldPieces depth key optional values) =
      (line (depth + 1) "\x7b"
        ++ line (depth + 2) ("key: " ++ Json.quoted key ++ ",")
        ++ line (depth + 2) ("optional: " ++ truth optional ++ ",")
        ++ line (depth + 2) "get attribute() \x7b"
        ++ line (depth + 3) "const value = ["
        ++ rows
        ++ line (depth + 3) "];"
        ++ line (depth + 3)
          "Object.defineProperty(this, \"attribute\", \x7b value, enumerable: true \x7d);"
        ++ line (depth + 3) "return value;"
        ++ line (depth + 2) "\x7d,"
        ++ line (depth + 1) "\x7d,").toList := by
  simp [fieldPieces, row, block, line, piecesText_append, piecesText,
    Piece.text, Lexeme.text, word, mark, quoted, space, h, Brackets.opener,
    Brackets.closer, Json.quoted, Json.escapeChar]

private theorem text_alternativePieces (isArray : Bool) (valueType : String)
    {value : List Piece} {text : String} (h : piecesText value = text.toList) :
    piecesText (alternativePieces depth value isArray valueType) =
      (line depth ("\x7b value: " ++ text ++ ", isArray: " ++ truth isArray
        ++ ", valueType: " ++ Json.quoted valueType ++ " \x7d,")).toList := by
  simp [alternativePieces, row, line, piecesText_append, piecesText, Piece.text,
    Lexeme.text, word, mark, quoted, space, h, Brackets.opener, Brackets.closer,
    Json.quoted]

/-! ## Fitting -/

@[simp] theorem fit_indentPieces : piecesFit next (indentPieces depth) := by
  unfold indentPieces
  induction 2 * depth with
  | zero => rfl
  | succ n ih =>
      rw [List.replicate_succ, piecesFit, ih]
      rfl

@[simp] theorem fit_row (pieces : List Piece) :
    piecesFit next (row depth pieces) = piecesFit (some '\n') pieces := by
  have hend : piecesFit next [.blank '\n'] := by
    simp only [piecesFit, Piece.fits]
    decide
  rw [row, piecesFit_append, piecesFit_append, fit_indentPieces, hend,
    Bool.true_and, Bool.and_true]
  rfl

private theorem fit_fieldPieces (key : String) (optional : Bool)
    {values : List Piece} (h : ∀ next, piecesFit next values) :
    piecesFit next (fieldPieces depth key optional values) := by
  simp only [fieldPieces, block, piecesFit, piecesFit_append, fit_row,
    fit_indentPieces, Piece.fits, Lexeme.fits, front, piecesText, Piece.text,
    Lexeme.text, word, mark, quoted, space, h, List.cons_append,
    List.head?_cons, Option.some_or]
  cases optional <;> decide +kernel

private theorem fit_alternativePieces (isArray : Bool) (valueType : String)
    {value : List Piece} (h : piecesFit (some ',') value) :
    piecesFit next (alternativePieces depth value isArray valueType) := by
  simp only [alternativePieces, piecesFit, piecesFit_append, fit_row,
    Piece.fits, Lexeme.fits, front, piecesText, Piece.text, Lexeme.text, word,
    mark, quoted, space, h, List.cons_append, List.head?_cons, Option.some_or]
  cases isArray <;> decide +kernel

/-! ## Comments -/

private theorem head?_commentSafe_ne {s after : List Char}
    (hs : s.head? ≠ some '/') (hafter : after.head? ≠ some '/') :
    (commentSafe s ++ after).head? ≠ some '/' := by
  unfold commentSafe
  split
  · exact hafter
  · simp
  · simpa using hs

private theorem endsFirst_commentSafe (s : List Char) :
    Gap.EndsFirst (commentSafe s ++ [' ']) := by
  induction s using commentSafe.induct with
  | case1 => decide
  | case2 rest ih =>
      rw [commentSafe]
      have hslash := ih.cons (c := '/') fun h => absurd h (by decide)
      have hblank := hslash.cons (c := ' ') fun h => absurd h (by decide)
      exact hblank.cons (by simp)
  | case3 c rest hopen ih =>
      rw [commentSafe]
      · refine ih.cons fun hc =>
          head?_commentSafe_ne (fun hhead => ?_) (by decide)
        obtain ⟨more, rfl⟩ := List.head?_eq_some_iff.mp hhead
        exact hopen more hc rfl
      · exact hopen

/-! ## Shapes -/

theorem exists_signedLexemes (number : JsonNumber) :
    ∃ (negative : Bool) (d : DecimalText),
    d.isWritten ∧ number.text.toList = (if negative then ['-'] else []) ++
      d.text ∧
      signedLexemes number.text = (if negative then ["-"] else []) ++
        [String.ofList d.text] := by
  obtain ⟨negative, d, hwritten, htext⟩ := number.exists_text
  refine ⟨negative, d, hwritten, htext, ?_⟩
  cases negative with
  | true =>
      rw [signedLexemes, htext]
      rfl
  | false =>
      have hafter : ∀ c ∈ ([] : List Char).head?,
          Numeral.isRun c = false := by simp
      obtain ⟨c, tail, hfirst, hdigit, -⟩ :=
        Token.measure_decimal hwritten hafter
      have hchars : number.text.toList = c :: tail := by
        simpa [hfirst] using htext
      unfold signedLexemes
      split
      · next digits heq =>
          obtain ⟨rfl, -⟩ := List.cons.inj (hchars.symm.trans heq)
          exact absurd hdigit (by decide)
      · rw [hfirst, ← hchars, String.ofList_toList]
        rfl

theorem signedLexemes_quoted (value : String) :
    signedLexemes (Json.quoted value) = [Json.quoted value] := by
  simp [signedLexemes, Json.quoted]

/-- A literal is written as a string between quotes, as a number or as one of
three words. -/
theorem compact_toJson (literal : Literal) :
    (∃ value, literal.toJson.compact = Json.quoted value) ∨
      (∃ number : JsonNumber, literal.toJson.compact = number.text) ∨
      literal.toJson.compact ∈ ["null", "true", "false"] := by
  cases literal with
  | string value => exact .inl ⟨value, rfl⟩
  | number value =>
      have hnumber (number : JsonNumber) :
          (Json.number number).compact = number.text := by
        rw [Json.compact]
      rw [Literal.toJson, Literal.numberToJson]
      split
      · split <;> exact .inr (.inl ⟨_, hnumber _⟩)
      · split
        · exact .inr (.inl ⟨_, hnumber _⟩)
        · exact .inr (.inr (by decide))
  | boolean value => cases value <;> exact .inr (.inr (by decide))
  | notANumber => exact .inr (.inr (by decide))

def Spelled (next : Option Char) (text : String)
    (lexemes : List String) : Prop :=
  ∃ pieces, piecesText pieces = text.toList ∧ piecesFit next pieces ∧
    piecesLexemes pieces = lexemes

namespace Spelled

theorem ofQuoted (value : String) :
    Spelled next (Json.quoted value) [Json.quoted value] := by
  refine ⟨[quoted value], ?_, rfl, ?_⟩
  · simp [quoted, piecesText, Piece.text, Lexeme.text, Json.quoted]
  · simp [quoted, piecesLexemes, Piece.lexemes, Lexeme.text, Json.quoted]

theorem ofWord {name : String} (h : isName name)
    (hnext : next.all (!continuesWord ·)) : Spelled next name [name] := by
  have hfront : front next [] = next := rfl
  refine ⟨[word name], List.append_nil _, ?_, ?_⟩
  · simp only [piecesFit, Piece.fits, word, Lexeme.fits, hfront, h, hnext,
      Bool.and_true]
  · simp [piecesLexemes, Piece.lexemes, word, Lexeme.text]

private theorem ofNumber (number : JsonNumber)
    (hnext : next.all (!Numeral.isRun ·)) :
    Spelled next number.text (signedLexemes number.text) := by
  obtain ⟨negative, d, hwritten, htext, hlexemes⟩ := exists_signedLexemes number
  have hfront : front next [] = next := rfl
  have hdecimal : piecesFit next [.lexeme (.numeral d)] := by
    simp only [piecesFit, Piece.fits, Lexeme.fits, hfront, hwritten, hnext,
      Bool.and_true]
  rw [hlexemes]
  cases negative with
  | false =>
      refine ⟨[.lexeme (.numeral d)], ?_, hdecimal, rfl⟩
      simpa [piecesText, Piece.text, Lexeme.text] using htext.symm
  | true =>
      refine ⟨[mark '-', .lexeme (.numeral d)], ?_, ?_, rfl⟩
      · simpa [piecesText, Piece.text, Lexeme.text, mark] using htext.symm
      · rw [piecesFit, hdecimal]
        rfl

private theorem ofLiteral (literal : Literal)
    (hword : next.all (!continuesWord ·))
    (hnumeral : next.all (!Numeral.isRun ·)) :
    Spelled next literal.toJson.compact
      (signedLexemes literal.toJson.compact) := by
  rcases compact_toJson literal with ⟨value, htext⟩ | ⟨number, htext⟩ | hmem
  · rw [htext, signedLexemes_quoted]
    exact ofQuoted value
  · rw [htext]
    exact ofNumber number hnumeral
  · have hwords : ∀ text ∈ ["null", "true", "false"], isName text ∧
        signedLexemes text = [text] := by
      decide +kernel
    obtain ⟨hname, hsingle⟩ := hwords _ hmem
    rw [hsingle]
    exact ofWord hname hword

variable {bindings : List (String × String)}

private theorem ofReference (hbindings : ∀ entry ∈ bindings, isName entry.2)
    (name : String) (hnext : next.all (!continuesWord ·)) :
    Spelled next (referenceText bindings name)
      [referenceLexeme bindings name] := by
  unfold referenceText referenceLexeme
  split
  · next binding hlookup =>
      rw [hlookup]
      exact ofWord (hbindings _ (Keyed.mem_of_lookup hlookup)) hnext
  · next hlookup =>
      let body := " unresolved: ".toList ++ (commentSafe name.toList ++ [' '])
      have hbody : Gap.EndsFirst body :=
        (endsFirst_commentSafe _).append (by decide)
      obtain ⟨pieces, htext, hfits, hlexemes⟩ :
          Spelled next "undefined" ["undefined"] :=
        ofWord (by decide +kernel) hnext
      refine ⟨.comment body :: space :: pieces, ?_, ?_, ?_⟩
      · simp [piecesText, Piece.text, space, htext, body]
      · rw [piecesFit, piecesFit, hfits, Piece.fits, decide_eq_true hbody]
        rfl
      · rw [hlookup, piecesLexemes, piecesLexemes, hlexemes]
        rfl

end Spelled

section

variable {bindings : List (String × String)}

mutual

theorem spelled_shape (hbindings : ∀ entry ∈ bindings, isName entry.2)
    (depth : Nat) (shape : Shape) :
    Spelled (some ',') (shapeText bindings depth shape)
      (shapeLexemes bindings shape) := by
  cases shape with
  | primitive primitive => exact .ofQuoted _
  | literal literal =>
      exact .ofLiteral literal (by decide +kernel) (by decide +kernel)
  | reference name => exact .ofReference hbindings name (by decide +kernel)
  | inline fields =>
      obtain ⟨rows, htext, hfits, hlexemes⟩ :=
        spelled_fields hbindings depth fields
      refine ⟨[block .square depth rows], ?_, ?_, ?_⟩
      · simp [shapeText, block, piecesText, piecesText_append, Piece.text,
          htext, Brackets.opener, Brackets.closer]
      · simp only [block, piecesFit, piecesFit_append, Piece.fits,
          fit_indentPieces, hfits]
        decide
      · rw [piecesLexemes, lexemes_block, hlexemes, shapeLexemes]
        exact List.append_nil _

theorem spelled_fields (hbindings : ∀ entry ∈ bindings, isName entry.2)
    (depth : Nat) (fields : List (FieldOf Shape)) : ∃ rows,
      piecesText rows = (fieldLines bindings depth fields).toList ∧
        (∀ next, piecesFit next rows) ∧
        piecesLexemes rows = fieldsLexemes bindings fields := by
  match fields with
  | [] => exact ⟨[], rfl, fun _ => rfl, rfl⟩
  | ⟨key, optional, alternatives⟩ :: fields =>
      obtain ⟨values, hvalues, hinside, hlexemes⟩ :=
        spelled_alternatives hbindings (depth + 4) alternatives
      obtain ⟨later, hlater, hfits, hbehind⟩ :=
        spelled_fields hbindings depth fields
      refine ⟨fieldPieces depth key optional values ++ later, ?_,
        fun next => ?_, ?_⟩
      · rw [piecesText_append, text_fieldPieces key optional hvalues, hlater,
          fieldLines, ← String.toList_append]
      · rw [piecesFit_append, fit_fieldPieces key optional hinside, hfits]
        rfl
      · rw [piecesLexemes_append, lexemes_fieldPieces, hlexemes, hbehind,
          fieldsLexemes]

theorem spelled_alternatives (hbindings : ∀ entry ∈ bindings, isName entry.2)
    (depth : Nat) (alternatives : List (AlternativeOf Shape)) : ∃ rows,
      piecesText rows = (alternativeLines bindings depth alternatives).toList ∧
        (∀ next, piecesFit next rows) ∧ piecesLexemes rows =
          alternativesLexemes bindings alternatives := by
  match alternatives with
  | [] => exact ⟨[], rfl, fun _ => rfl, rfl⟩
  | ⟨shape, isArray⟩ :: alternatives =>
      obtain ⟨value, hvalue, hinside, hlexemes⟩ :=
        spelled_shape hbindings depth shape
      obtain ⟨later, hlater, hfits, hbehind⟩ :=
        spelled_alternatives hbindings depth alternatives
      refine ⟨alternativePieces depth value isArray shape.valueType.keyword ++
        later, ?_,
        fun next => ?_, ?_⟩
      · rw [piecesText_append, text_alternativePieces isArray _ hvalue, hlater,
          alternativeLines, ← String.toList_append]
      · rw [piecesFit_append, fit_alternativePieces isArray _ hinside, hfits]
        rfl
      · rw [piecesLexemes_append, lexemes_alternativePieces, hlexemes, hbehind,
          alternativesLexemes]

end

end

end ShapeMend.Module
