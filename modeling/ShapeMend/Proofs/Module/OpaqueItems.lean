import ShapeMend.Proofs.Module.Bindings
import ShapeMend.Proofs.Module.Layout
import ShapeMend.Proofs.Script.Statements
import ShapeMend.Script.Declared

/-!
# Emitted modules hold no declarations

Every declaration is emitted as two statements, and these are all that there is
in the module, whatever keys, literal strings and names the schema has: none of
them ends the string, the comment or the word in which it stands.  Read as a
script the module has one opaque item for each statement, from its first word
through its semicolon.
-/

namespace ShapeMend

open ShapeMend.Text ShapeMend.Script

namespace Module

/-! ## Statements -/

def constText (exported : Bool) (binding fields : String) : String :=
  (if exported then "export " else "") ++ "const " ++ binding ++ " = " ++
    fields ++ ";"

def kindText (binding kind : String) : String :=
  "Object.defineProperty(" ++ binding ++ ", \"kind\", \x7b value: " ++
    Json.quoted kind
    ++ ", enumerable: false \x7d);"

def bindingOf (bindings : List (String × String))
    (declaration : Declaration) : String :=
  (Keyed.lookup declaration.name bindings).getD declaration.name

def constStatement (bindings : List (String × String)) (exportAll : Bool)
    (declaration : Declaration) : String :=
  constText (declaration.exported || exportAll) (bindingOf bindings declaration)
    (fieldsText bindings 0 declaration.fields)

def kindStatement (bindings : List (String × String))
    (declaration : Declaration) : String :=
  kindText (bindingOf bindings declaration) declaration.kind.keyword

theorem declarationText_eq (bindings : List (String × String))
    (exportAll : Bool) (declaration : Declaration) :
    declarationText bindings exportAll declaration =
      constStatement bindings exportAll declaration ++ "\n"
        ++ kindStatement bindings declaration ++ "\n" := by
  have hconst : ";\n" = ";" ++ "\n" := by decide
  have hkind : ", enumerable: false \x7d);\n" = ", enumerable: false \x7d);" ++
      "\n" := by decide
  unfold declarationText constStatement kindStatement constText kindText
    bindingOf
  simp only [hconst, hkind, String.append_assoc]

/-! ## Lexemes of statements -/

def constLexemes (bindings : List (String × String)) (exportAll : Bool)
    (declaration : Declaration) : List String :=
  (if declaration.exported || exportAll then ["export"] else []) ++
    ["const", bindingOf bindings declaration, "="] ++
    enclosed .square (fieldsLexemes bindings declaration.fields)

def kindLexemes (bindings : List (String × String))
    (declaration : Declaration) : List String :=
  propertyLexemes (bindingOf bindings declaration)
    ([Json.quoted "kind", ","] ++ enclosed .curly
      ["value", ":", Json.quoted declaration.kind.keyword, ",", "enumerable",
        ":", "false"])

def declarationsLexemes (bindings : List (String × String)) (exportAll : Bool)
    (declarations : List Declaration) : List String :=
  declarations.flatMap fun declaration =>
    constLexemes bindings exportAll declaration ++ [";"] ++
      kindLexemes bindings declaration ++ [";"]

/-! ## Pieces of statements -/

def constPieces (exported : Bool) (binding : String)
    (fields : List Piece) : List Piece :=
  (if exported then [word "export", space] else []) ++
    [word "const", space, word binding, space, mark '=', space,
      block .square 0 fields]

def kindPieces (binding kind : String) : List Piece :=
  [word "Object", mark '.', word "defineProperty", .group .round [
    word binding, mark ',', space, quoted "kind", mark ',', space,
      .group .curly [
      space, word "value", mark ':', space, quoted kind, mark ',', space,
      word "enumerable", mark ':', space, word "false", space]]]

private theorem lexemes_constPieces (exported : Bool) (binding : String)
    (fields : List Piece) :
    piecesLexemes (constPieces exported binding fields) =
      (if exported then ["export"] else []) ++ ["const", binding, "="] ++
        enclosed .square (piecesLexemes fields) := by
  cases exported <;>
    simp [constPieces, piecesLexemes, Piece.lexemes, Lexeme.text, word,
      mark, space]

private theorem lexemes_kindPieces (binding kind : String) :
    piecesLexemes (kindPieces binding kind) =
    propertyLexemes binding ([Json.quoted "kind", ","] ++
      enclosed .curly
        ["value", ":", Json.quoted kind, ",", "enumerable", ":", "false"]) := by
  simp [kindPieces, propertyLexemes, piecesLexemes, Piece.lexemes, Lexeme.text,
    word, mark, quoted, space, enclosed, Json.quoted]

private theorem inLine_word {name : String} (h : isName name) :
    (word name).inLine := by
  have hsemicolon : isName ";" = false := by decide +kernel
  rw [word, Piece.inLine, Lexeme.text, decide_eq_true_eq]
  intro heq
  obtain rfl : name = ";" := String.toList_inj.mp heq
  exact Bool.false_ne_true (hsemicolon.symm.trans h)

private theorem isStatement_constText (exported : Bool) {binding rows : String}
    {fields : List Piece} (hbinding : isName binding)
    (hrows : piecesText fields = rows.toList)
    (hfits : ∀ next, piecesFit next fields) :
    IsStatement
      (constText exported binding ("[\n" ++ rows ++ indent 0 ++ "]")).toList
      (constPieces exported binding fields) where
  text_eq := by
    unfold constText
    cases exported <;>
      simp [constPieces, Piece.semicolon, block, piecesText, piecesText_append,
        Piece.text, Lexeme.text, word, mark, space, hrows, Brackets.opener,
        Brackets.closer]
  begins := by cases exported <;> exact ⟨_, _, rfl⟩
  fits next := by
    have hconst : piecesFit next
        [word "const", space, word binding, space, mark '=', space,
          block .square 0 fields] := by
      simp only [block, piecesFit, piecesFit_append, fit_indentPieces,
        Piece.fits, Lexeme.fits, front, piecesText, Piece.text, Lexeme.text,
        word, mark, space, hbinding, hfits, List.cons_append, List.head?_cons,
        Option.some_or]
      decide +kernel
    have hexport : piecesFit (some 'c') [word "export", space] := by
      decide +kernel
    cases exported with
    | false => exact hconst
    | true =>
        rw [constPieces, piecesFit_append, hconst, Bool.and_true]
        exact hexport
  inLine := by
    have hword := inLine_word hbinding
    cases exported <;>
      simp only [constPieces, List.all_append, List.all_cons, hword] <;> rfl
  isOther _ _ _ := by cases exported <;> rfl

private theorem isStatement_kindText {binding : String}
    (hbinding : isName binding) (kind : String) :
    IsStatement (kindText binding kind).toList (kindPieces binding kind) where
  text_eq := by
    unfold kindText
    simp [kindPieces, Piece.semicolon, piecesText, Piece.text, Lexeme.text,
      word, mark, quoted, space, Brackets.opener, Brackets.closer, Json.quoted,
      Json.escapeChar]
  begins := ⟨_, _, rfl⟩
  fits next := by
    have hfirst : "defineProperty".toList.head? = some 'd' := by decide
    simp only [kindPieces, piecesFit, Piece.fits, Lexeme.fits, front,
      piecesText, Piece.text, Lexeme.text, word, mark, quoted, space, hbinding,
      List.cons_append, List.head?_cons, List.head?_append, hfirst,
      Option.some_or]
    decide +kernel
  inLine := by simp [kindPieces, Piece.inLine, word, mark, Lexeme.text]
  isOther _ _ _ := rfl

section

variable {bindings : List (String × String)} {declaration : Declaration}
  {binding : String}

private theorem exists_isStatement_const
    (hbindings : ∀ entry ∈ bindings, isName entry.2)
    (hlookup : Keyed.lookup declaration.name bindings = some binding)
    (exportAll : Bool) :
    ∃ pieces, IsStatement (constStatement bindings exportAll declaration).toList
      pieces ∧
      piecesLexemes pieces = constLexemes bindings exportAll declaration := by
  have hname : isName binding := hbindings _ (Keyed.mem_of_lookup hlookup)
  obtain ⟨fields, hrows, hfits, hlexemes⟩ :=
    spelled_fields hbindings 0 declaration.fields
  rw [constStatement, constLexemes, bindingOf, hlookup, fieldsText, shapeText]
  refine ⟨_, isStatement_constText _ hname hrows hfits, ?_⟩
  rw [lexemes_constPieces, hlexemes]

private theorem exists_isStatement_kind
    (hbindings : ∀ entry ∈ bindings, isName entry.2)
    (hlookup : Keyed.lookup declaration.name bindings = some binding) :
    ∃ pieces, IsStatement (kindStatement bindings declaration).toList pieces ∧
      piecesLexemes pieces = kindLexemes bindings declaration := by
  have hname : isName binding := hbindings _ (Keyed.mem_of_lookup hlookup)
  rw [kindStatement, kindLexemes, bindingOf, hlookup]
  exact ⟨_, isStatement_kindText hname _, lexemes_kindPieces _ _⟩

end

/-! ## Items -/

/-- Where the statements of declarations stand behind a text, each on a line of
its own. -/
def statementSpans (bindings : List (String × String)) (exportAll : Bool)
    (before : List Char) :
    List Declaration → List Span
  | [] => []
  | declaration :: declarations =>
    let first :=
      before ++ '\n' :: (constStatement bindings exportAll declaration).toList
    let second := first ++ '\n' :: (kindStatement bindings declaration).toList
    ⟨.behind (before ++ ['\n']), (Position.behind first).offset⟩ ::
      ⟨.behind (first ++ ['\n']), (Position.behind second).offset⟩ ::
        statementSpans bindings exportAll (second ++ ['\n']) declarations

section

variable {bindings : List (String × String)} {declarations : List Declaration}

theorem exists_pieces (hbindings : ∀ entry ∈ bindings, isName entry.2)
    (hbound : ∀ declaration ∈ declarations, ∃ binding,
      Keyed.lookup declaration.name bindings = some binding)
    (exportAll : Bool) (before : List Char) :
    ∃ pieces,
      piecesText pieces = declarationsText bindings exportAll declarations ∧
      piecesFit none pieces ∧ piecesLexemes pieces =
        declarationsLexemes bindings exportAll declarations ∧
        ItemsAre (piecesTokens (.behind before) true pieces)
          ((statementSpans bindings exportAll before declarations).map
            .other) := by
  induction declarations generalizing before with
  | nil => exact ⟨[], rfl, rfl, rfl, .nil⟩
  | cons declaration declarations ih =>
      obtain ⟨binding, hlookup⟩ := hbound declaration List.mem_cons_self
      obtain ⟨first, hfirst, hconst⟩ :=
        exists_isStatement_const hbindings hlookup exportAll
      obtain ⟨second, hsecond, hkind⟩ :=
        exists_isStatement_kind hbindings hlookup
      let behind := before ++ '\n' ::
          (constStatement bindings exportAll declaration).toList ++
        '\n' :: (kindStatement bindings declaration).toList
      obtain ⟨later, htext, hfits, hlexemes, hitems⟩ := ih
        (fun other hother => hbound other (List.mem_cons_of_mem _ hother))
          (behind ++ ['\n'])
      refine ⟨.blank '\n' :: (first ++ [Piece.semicolon] ++ .blank '\n' ::
        (second ++ [Piece.semicolon] ++ .blank '\n' :: later)), ?_, ?_, ?_, ?_⟩
      · rw [declarationsText, List.flatMap_cons, declarationText_eq, piecesText,
          piecesText_append, hfirst.text_eq, piecesText, piecesText_append,
          hsecond.text_eq, piecesText, htext]
        simp [Piece.text, declarationsText]
      · have hblank : isBlank '\n' := by decide
        simp only [piecesFit, piecesFit_append, Piece.fits, hblank, hfirst.fits,
          hsecond.fits, hfits, Bool.true_and, Bool.and_true]
        rfl
      · have hsemicolon : Piece.semicolon.lexemes = [";"] := rfl
        rw [declarationsLexemes, List.flatMap_cons]
        simp [piecesLexemes, piecesLexemes_append, Piece.lexemes, hconst, hkind,
          hlexemes, hsemicolon, declarationsLexemes]
      · have hlast :
            ItemsAre
            (piecesTokens (.behind behind) false (.blank '\n' :: later))
            ((statementSpans bindings exportAll (behind ++ ['\n'])
              declarations).map .other) := by
          rw [piecesTokens, Piece.text, Position.after_behind]
          exact hitems
        exact .nextLine hfirst (.nextLine hsecond hlast)

/-- Declarations behind a line comment split into tokens and are read as opaque
items. -/
private theorem exists_stream (hbindings : ∀ entry ∈ bindings, isName entry.2)
    (hbound : ∀ declaration ∈ declarations, ∃ binding,
      Keyed.lookup declaration.name bindings = some binding)
    (exportAll : Bool) {header comment : List Char}
    (hheader : header = '/' :: '/' :: comment ++ ['\n'])
    (hcomment : '\n' ∉ comment) : ∃ stream,
      TokenStream.ofText (header ++
        declarationsText bindings exportAll declarations) = .ok stream ∧
      stream.items =
        .ok ((statementSpans bindings exportAll header declarations).map
          .other) := by
  obtain ⟨pieces, htext, hfits, -, hitems⟩ :=
    exists_pieces hbindings hbound exportAll header
  have hstart : Position.origin.after header = .behind header :=
    Position.after_behind [] header
  have hend : Scans (pieces.foldl Piece.breaks true)
      ((Position.behind header).after (piecesText pieces)) [] _ := .nil _ _
  have hsplit : Scans true (.behind header) (piecesText pieces ++ []) _ :=
    Scans.pieces pieces hfits hend
  have hplain : ¬ ['#', '!'] <+: header ++
      declarationsText bindings exportAll declarations := by
    simp [hheader]
  rw [← hstart, hheader] at hsplit
  have hscan : TokenStream.scanFrom none false .origin _ = .ok _ :=
    Scans.line hcomment hsplit none
  rw [← hheader, hstart, htext, List.append_nil, List.append_nil] at hscan
  exact ⟨_, (TokenStream.ofText_eq_scanFrom hplain).trans hscan,
    hitems _ _ _ (Nat.le_succ _)⟩

end

/-! ## Places -/

private theorem length_statementSpans (bindings : List (String × String))
    (exportAll : Bool) (before : List Char) (declarations : List Declaration) :
    (statementSpans bindings exportAll before declarations).length =
      2 * declarations.length := by
  induction declarations generalizing before with
  | nil => rfl
  | cons declaration declarations ih =>
      rw [statementSpans, List.length_cons, List.length_cons, ih,
        List.length_cons]
      omega

private theorem slice_nextLine {source : Source} {before after : List Char}
    {line : String}
    (h : source.chars = before ++ '\n' :: (line.toList ++ after)) :
    source.slice (Position.behind (before ++ ['\n'])).offset
      (Position.behind (before ++ '\n' :: line.toList)).offset = line := by
  have hline : before ++ '\n' :: line.toList = before ++ ['\n'] ++
      line.toList := List.append_cons _ _ _
  rw [List.append_cons, ← List.append_assoc] at h
  rw [hline, Source.slice_behind h, String.ofList_toList]

private theorem slices_statementSpans {bindings : List (String × String)}
    {exportAll : Bool} {source : Source} {before : List Char}
    {declarations : List Declaration}
    (h : source.chars = before ++
      declarationsText bindings exportAll declarations) :
    (statementSpans bindings exportAll before declarations).map
        (fun span => source.slice span.start.offset span.stop) =
      declarations.flatMap fun declaration =>
        [constStatement bindings exportAll declaration,
          kindStatement bindings declaration] := by
  induction declarations generalizing before with
  | nil => rfl
  | cons declaration declarations ih =>
      have hconst : source.chars = before ++ '\n' ::
          ((constStatement bindings exportAll declaration).toList ++ '\n' ::
            ((kindStatement bindings declaration).toList ++ '\n' ::
              declarationsText bindings exportAll declarations)) := by
        rw [h, declarationsText, List.flatMap_cons, declarationText_eq]
        simp [declarationsText]
      have hkind : source.chars = before ++ '\n' ::
          (constStatement bindings exportAll declaration).toList ++ '\n' ::
            ((kindStatement bindings declaration).toList ++ '\n' ::
              declarationsText bindings exportAll declarations) := by
        rw [hconst, List.append_assoc, List.cons_append]
      have hlater : source.chars = before ++ '\n' ::
          (constStatement bindings exportAll declaration).toList ++ '\n' ::
            (kindStatement bindings declaration).toList ++ ['\n'] ++
              declarationsText bindings exportAll declarations := by
        rw [hkind]
        simp
      rw [statementSpans, List.map_cons, List.map_cons, slice_nextLine hconst,
        slice_nextLine hkind, ih hlater]
      rfl

end Module

/-- The statements stand behind the header. -/
def Schema.statementSpans (schema : Schema) (exportAll : Bool) : List Span :=
  Module.statementSpans schema.bindings exportAll
    (Module.defaultHeader ++ "\n").toList
    schema.declarations

private theorem Script.mergeItems_other (source : String) (exportAll : Bool)
    (schema : Schema) (spans : List Span) :
    mergeItems source exportAll schema (spans.map .other) = ⟨schema, []⟩ := by
  induction spans with
  | nil => rfl
  | cons span spans ih => exact ih

end ShapeMend
