import ShapeMend.Proofs.Script.Lexing

/-!
# The tokens of written declarations

Every part of a declaration has its tokens, and its text splits into them in
front of any text that shows where it ends.
-/

namespace ShapeMend

open ShapeMend.Script ShapeMend.Number

/-! ## Tokens of the parts -/

def Script.keyToken (key : String) : Token :=
  if isName key then .ofWord key else .ofQuoted key

def Literal.tokens : Literal → List Token
  | .string value => [.ofQuoted value]
  | .number value =>
    (if value.negative then [.ofSymbol "-"] else []) ++
      [.ofNumeral (value.magnitude.toNat?.getD 0)]
  | .notANumber => []
  | .boolean value => [.ofWord (if value then "true" else "false")]

def bracketTokens (isArray : Bool) : List Token :=
  if isArray then [.ofSymbol "[", .ofSymbol "]"] else []

def markTokens (optional : Bool) (later : List Token) : List Token :=
  if optional then .ofSymbol "?" :: .ofSymbol ":" :: later
  else .ofSymbol ":" :: later

theorem length_lt_markTokens (optional : Bool) (later : List Token) :
    later.length < (markTokens optional later).length := by
  cases optional with
  | false => exact Nat.lt_succ_self _
  | true => exact Nat.lt_succ_of_lt (Nat.lt_succ_self _)

theorem markTokens_append (optional : Bool) (tokens later : List Token) :
    markTokens optional tokens ++ later =
      markTokens optional (tokens ++ later) := by
  cases optional <;> rfl

mutual

def Shape.tokens : Shape → List Token
  | .primitive primitive => [.ofWord primitive.keyword]
  | .literal literal => literal.tokens
  | .reference name => [.ofWord name]
  | .inline fields =>
      .ofSymbol "\x7b" :: (fieldTokens fields ++ [.ofSymbol "\x7d"])

def fieldTokens : List (FieldOf Shape) → List Token
  | [] => []
  | ⟨key, optional, alternatives⟩ :: fields =>
    keyToken key ::
      markTokens optional
        (alternativeTokens alternatives ++ .ofSymbol ";" :: fieldTokens fields)

def alternativeTokens : List (AlternativeOf Shape) → List Token
  | [] => []
  | [⟨shape, isArray⟩] => shape.tokens ++ bracketTokens isArray
  | ⟨shape, isArray⟩ :: next :: alternatives =>
    shape.tokens ++ (bracketTokens isArray ++
      .ofSymbol "|" :: alternativeTokens (next :: alternatives))

end

theorem length_le_fieldTokens (fields : List Field) :
    fields.length ≤ (fieldTokens fields).length := by
  induction fields with
  | nil => exact Nat.zero_le _
  | cons field fields ih =>
      obtain ⟨key, optional, alternatives⟩ := field
      have hlength := length_lt_markTokens optional
        (alternativeTokens alternatives ++ .ofSymbol ";" :: fieldTokens fields)
      rw [List.length_append, List.length_cons] at hlength
      rw [fieldTokens, List.length_cons, List.length_cons]
      omega

theorem length_le_alternativeTokens (first : Alternative)
    (rest : List Alternative) :
    rest.length ≤ (alternativeTokens (first :: rest)).length := by
  induction rest generalizing first with
  | nil => exact Nat.zero_le _
  | cons next rest ih =>
      have hlength := ih next
      rw [alternativeTokens, List.length_append, List.length_append,
        List.length_cons, List.length_cons]
      omega

def Declaration.bodyTokens (declaration : Declaration) : List Token :=
  match declaration.kind with
  | .interface =>
    .ofSymbol "\x7b" :: (fieldTokens declaration.fields ++ [.ofSymbol "\x7d"])
  | .objectAlias =>
    .ofSymbol "=" :: .ofSymbol "\x7b" ::
      (fieldTokens declaration.fields ++ [.ofSymbol "\x7d", .ofSymbol ";"])
  | .literalUnion =>
    .ofSymbol "=" ::
      (alternativeTokens (declaration.fields.flatMap (·.alternatives)) ++
      [.ofSymbol ";"])

def Declaration.tokens (declaration : Declaration) : List Token :=
  (if declaration.exported then [.ofWord "export"] else []) ++
    .ofWord declaration.kind.word :: .ofWord declaration.name ::
      declaration.bodyTokens

def declarationTokens : List Declaration → List Token
  | [] => []
  | declaration :: declarations =>
    declaration.tokens ++ Token.afterBreak true (declarationTokens declarations)

private theorem length_afterBreak (broken : Bool) (tokens : List Token) :
    (Token.afterBreak broken tokens).length = tokens.length := by
  cases tokens <;> rfl

theorem length_le_declarationTokens (declarations : List Declaration) :
    declarations.length ≤ (declarationTokens declarations).length := by
  induction declarations with
  | nil => exact Nat.zero_le _
  | cons declaration declarations ih =>
      rw [declarationTokens, Declaration.tokens, List.length_append,
        List.length_append, List.length_cons, List.length_cons,
        length_afterBreak]
      omega

/-! ## Splitting the text of the parts -/

private theorem Primitive.isName_keyword (primitive : Primitive) :
    isName primitive.keyword := by
  cases primitive <;> decide +kernel

namespace Script

variable {after : List Char} {later : List Token}

theorem Closed.cons {c : Char} {rest : List Char} (h : c ∈ closers) :
    Closed (c :: rest) :=
  ⟨c, h, rest, rfl⟩

private theorem Closed.brackets (isArray : Bool) (hafter : Closed after) :
    Closed (writtenBrackets isArray ++ after) := by
  cases isArray with
  | false => exact hafter
  | true => exact .cons (by decide)

private theorem Lexes.key (key : String) (hafter : Closed after)
    (h : Lexes after later) :
    Lexes (writtenKey key ++ after) (keyToken key :: later) := by
  unfold writtenKey keyToken
  split
  · next hname => exact h.word hname hafter
  · exact h.quoted key

private theorem Lexes.literal {literal : Literal} (hafter : Closed after)
    (h : Lexes after later) :
    Lexes (literal.written ++ after) (literal.tokens ++ later) := by
  cases literal with
  | string value => exact h.quoted value
  | boolean value =>
      cases value with
      | false => exact h.word (by decide +kernel) hafter
      | true => exact h.word (by decide +kernel) hafter
  | number value =>
      obtain ⟨negative, magnitude⟩ := value
      have hdigits := h.numeral (magnitude.toNat?.getD 0) hafter
      cases negative with
      | false => exact hdigits
      | true => exact hdigits.mark "-" '-' rfl (by decide)
  | notANumber => exact h

private theorem Lexes.brackets (isArray : Bool) (h : Lexes after later) :
    Lexes (writtenBrackets isArray ++ after)
      (bracketTokens isArray ++ later) := by
  cases isArray with
  | false => exact h
  | true =>
      exact (h.mark "]" ']' rfl (by decide)).mark "[" '[' rfl (by decide)

mutual

theorem Lexes.shape {after : List Char} {later : List Token} (shape : Shape)
    (hwritable : shape.Writable) (hafter : Closed after)
    (h : Lexes after later) :
    Lexes (shape.written ++ after) (shape.tokens ++ later) := by
  cases shape with
  | primitive primitive => exact h.word primitive.isName_keyword hafter
  | literal literal => exact h.literal hafter
  | reference name =>
      rw [Shape.Writable] at hwritable
      exact h.word hwritable.1 hafter
  | inline fields =>
      rw [Shape.Writable] at hwritable
      have hclose := h.mark "\x7d" '\x7d' rfl (by decide)
      have hfields := Lexes.fields fields hwritable hclose
      have hopen := hfields.blank.mark "\x7b" '\x7b' rfl (by decide)
      simpa [Shape.written, Shape.tokens] using hopen

private theorem Lexes.fields {after : List Char} {later : List Token}
    (fields : List (FieldOf Shape)) (hwritable : FieldsWritable fields)
    (h : Lexes after later) :
    Lexes (writtenFields fields ++ after) (fieldTokens fields ++ later) := by
  match fields, hwritable with
  | [], _ => exact h
  | ⟨key, optional, alternatives⟩ :: fields, hwritable =>
      rw [FieldsWritable] at hwritable
      obtain ⟨-, halternatives, hfields⟩ := hwritable
      have hrest := Lexes.fields fields hfields h
      have hend := hrest.blank.mark ";" ';' rfl (by decide)
      have htype :=
        Lexes.alternatives alternatives halternatives (.cons (by decide)) hend
      have hcolon := htype.blank.mark ":" ':' rfl (by decide)
      cases optional with
      | false =>
          have hkey := hcolon.key key (.cons (by decide))
          simpa [writtenFields, fieldTokens, markTokens] using hkey
      | true =>
          have hmark := hcolon.mark "?" '?' rfl (by decide)
          have hkey := hmark.key key (.cons (by decide))
          simpa [writtenFields, fieldTokens, markTokens] using hkey

private theorem Lexes.alternatives {after : List Char} {later : List Token}
    (alternatives : List (AlternativeOf Shape))
    (hwritable : AlternativesWritable alternatives) (hafter : Closed after)
    (h : Lexes after later) :
    Lexes (writtenAlternatives alternatives ++ after)
      (alternativeTokens alternatives ++ later) := by
  match alternatives, hwritable with
  | [], _ => exact h
  | [⟨shape, isArray⟩], hwritable =>
      rw [AlternativesWritable] at hwritable
      have hshape :=
        Lexes.shape shape hwritable.1 (hafter.brackets isArray)
          (h.brackets isArray)
      simpa [writtenAlternatives, alternativeTokens] using hshape
  | ⟨shape, isArray⟩ :: next :: alternatives, hwritable =>
      rw [AlternativesWritable] at hwritable
      have hrest :=
        Lexes.alternatives (next :: alternatives) hwritable.2 hafter h
      have hbar := hrest.blank.mark "|" '|' rfl (by decide)
      have hshape := Lexes.shape shape hwritable.1
        ((Closed.cons (by decide)).brackets isArray)
          (hbar.blank.brackets isArray)
      simpa [writtenAlternatives, alternativeTokens] using hshape

end

private theorem Lexes.wordBlank (name : String) (hname : isName name)
    (h : Lexes after later) :
    Lexes (name.toList ++ ' ' :: after) (.ofWord name :: later) :=
  h.blank.word hname (.cons (by decide))

private theorem Lexes.fieldList {fields : List Field}
    (hwritable : FieldsWritable fields) (h : Lexes after later) :
    Lexes ('\x7b' :: ' ' :: (writtenFields fields ++ '\x7d' :: after))
      (.ofSymbol "\x7b" ::
        (fieldTokens fields ++ .ofSymbol "\x7d" :: later)) := by
  have hclose := h.mark "\x7d" '\x7d' rfl (by decide)
  exact (Lexes.fields fields hwritable hclose).blank.mark "\x7b" '\x7b' rfl
    (by decide)

end Script

private theorem Declaration.lexes_body {declaration : Declaration}
    {after : List Char} {later : List Token} (hwritable : declaration.Writable)
    (h : Lexes after later) :
    Lexes (declaration.writtenBody ++ after)
      (declaration.bodyTokens ++ later) := by
  obtain ⟨hname, hfields⟩ := hwritable
  unfold writtenBody bodyTokens
  cases hkind : declaration.kind with
  | interface =>
      rw [hkind] at hfields
      simpa using h.fieldList hfields
  | objectAlias =>
      rw [hkind] at hfields
      have hend := h.mark ";" ';' rfl (by decide)
      have hlist :=
        (hend.fieldList hfields).blank.symbol "=" '=' rfl (by decide)
          (by decide)
        (by simp)
      simpa using hlist
  | literalUnion =>
      rw [hkind] at hfields
      obtain ⟨alternatives, heq, -, halternatives, -⟩ := hfields
      have hend := h.mark ";" ';' rfl (by decide)
      have htype :=
        Lexes.alternatives alternatives halternatives (.cons (by decide)) hend
      have hsign :=
        htype.blank.symbol "=" '=' rfl (by decide) (by decide) (by simp)
      simpa [heq] using hsign

private theorem Declaration.lexes_written {declaration : Declaration}
    {after : List Char} {later : List Token} (hwritable : declaration.Writable)
    (h : Lexes after later) :
    Lexes (declaration.written ++ after) (declaration.tokens ++ later) := by
  have hbody := (Declaration.lexes_body hwritable h).wordBlank _ hwritable.1
  have hword : isName declaration.kind.word := by
    cases declaration.kind <;> decide +kernel
  have hdeclaration := hbody.wordBlank _ hword
  unfold written tokens
  cases declaration.exported with
  | false => simpa using hdeclaration
  | true => simpa using hdeclaration.wordBlank "export" (by decide +kernel)

private theorem lexes_declarations {declarations : List Declaration}
    (hwritable : ∀ declaration ∈ declarations, declaration.Writable) :
    Lexes
      (declarations.flatMap fun declaration => declaration.written ++ ['\n'])
      (declarationTokens declarations) := by
  induction declarations with
  | nil => exact .nil
  | cons declaration declarations ih =>
      have hrest :=
        ih fun other hother => hwritable other (List.mem_cons_of_mem _ hother)
      have hfirst :=
        Declaration.lexes_written (hwritable declaration List.mem_cons_self)
          hrest.newline
      simpa [declarationTokens] using hfirst

private theorem Declaration.plain_written (declaration : Declaration)
    (after : List Char) : ¬ ['#', '!'] <+: declaration.written ++ after := by
  obtain ⟨name, kind, exported, fields⟩ := declaration
  cases exported <;> cases kind <;> simp [written, DeclarationKind.word]

private theorem plain_writtenText (declarations : List Declaration) :
    ¬ ['#', '!'] <+: (writtenText declarations).toList := by
  rw [writtenText, String.toList_ofList]
  cases declarations with
  | nil => simp
  | cons declaration declarations =>
      rw [List.flatMap_cons, List.append_assoc]
      exact declaration.plain_written _

theorem ofText_writtenText {declarations : List Declaration}
    (hwritable : ∀ declaration ∈ declarations, declaration.Writable) :
    ∃ stream,
      TokenStream.ofText (writtenText declarations).toList = .ok stream ∧
      stream.tokens.map Token.unplaced = declarationTokens declarations := by
  have hlexes := lexes_declarations hwritable none false .origin
  rw [TokenStream.ofText_eq_scanFrom (plain_writtenText declarations),
    writtenText, String.toList_ofList]
  simpa [Token.afterBreak_false] using hlexes

end ShapeMend
