import ShapeMend.Proofs.Module.Uses

/-!
# Emitted modules use the bindings of their declarations

Every part of an emitted module is a segment of its lexemes, and what a segment
uses does not depend on what stands around it.  So the uses in a module are
those of its parts: each declaration is bound and marked under its own binding,
and a reference is the binding of the declaration that it names.
-/

namespace ShapeMend

open ShapeMend.Text ShapeMend.Script

namespace Module

/-! ## Idle lexemes -/

theorem isIdle_of_mem {lexeme : String} {c : Char} (hc : c ∈ lexeme.toList)
    (htells : c == '\x22' || c.isDigit) : IsIdle lexeme := by
  have htable : ("Object" :: "value" :: structural).all fun word =>
      word.toList.all fun c => !(c == '\x22' || c.isDigit) := by
    decide +kernel
  have hword : ∀ word ∈ "Object" :: "value" :: structural, lexeme ≠ word := by
    rintro word hword rfl
    have hnone :=
      List.all_eq_true.mp (List.all_eq_true.mp htable lexeme hword) c hc
    rw [htells] at hnone
    exact Bool.false_ne_true hnone
  refine ⟨fun hmem => ?_, hword _ (by simp), hword _ (by simp)⟩
  exact hword lexeme (List.mem_cons_of_mem _ (List.mem_cons_of_mem _ hmem)) rfl

theorem isIdle_quoted (value : String) : IsIdle (Json.quoted value) :=
  isIdle_of_mem (c := '\x22') (by simp [Json.quoted]) rfl

theorem isIdle_truth (b : Bool) : IsIdle (truth b) := by
  cases b <;> decide

private theorem isIdle_of_mem_number {number : JsonNumber} {lexeme : String}
    (h : lexeme ∈ signedLexemes number.text) : IsIdle lexeme := by
  obtain ⟨negative, d, hwritten, -, hlexemes⟩ := exists_signedLexemes number
  have hdecimal : IsIdle (String.ofList d.text) := by
    have hafter : ∀ c ∈ ([] : List Char).head?,
        Numeral.isRun c = false := by simp
    obtain ⟨c, tail, htext, hdigit, -⟩ := Token.measure_decimal hwritten hafter
    exact isIdle_of_mem (c := c) (by simp [htext]) (by simp [hdigit])
  rw [hlexemes, List.mem_append, List.mem_singleton] at h
  rcases h with hsign | rfl
  · cases negative with
    | false => exact absurd hsign List.not_mem_nil
    | true =>
        obtain rfl := List.mem_singleton.mp hsign
        decide
  · exact hdecimal

private theorem isIdle_of_mem_literal {literal : Literal} {lexeme : String}
    (h : lexeme ∈ signedLexemes literal.toJson.compact) : IsIdle lexeme := by
  rcases compact_toJson literal with ⟨value, htext⟩ | ⟨number, htext⟩ | hmem
  · rw [htext, signedLexemes_quoted, List.mem_singleton] at h
    exact h ▸ isIdle_quoted value
  · exact isIdle_of_mem_number (htext ▸ h)
  · have hwords : ∀ text ∈ ["null", "true", "false"],
        ∀ lexeme ∈ signedLexemes text, IsIdle lexeme := by
      decide +kernel
    exact hwords _ hmem lexeme h

/-! ## Statements and fields -/

namespace Segment

variable {lexemes constants : List String}
  {found : List (List String) → List Use}

private theorem getter (h : Segment lexemes [] found) :
    Segment (getterLexemes lexemes) ["value"]
    fun scopes => ⟨.constant, "value", scopes⟩ ::
      (found ([] :: scopes) ++ [⟨.property, "this", scopes⟩]) := by
  have hvalue : "value" ∉ structural := by decide
  have hthis : "this" ∉ structural := by decide
  have hshort :
      Segment (["value", ","] ++ ["enumerable", ":", "true"]) [] fun _ => [] :=
    (name hvalue (by decide) (by decide)).append_idle (by decide)
  have hattribute :
      ∀ lexeme ∈ [Json.quoted "attribute", ","], IsIdle lexeme := by decide
  have hproperty :=
    property hthis ((hshort.enclosed .curly).idle_append hattribute)
  have hreturn : Segment ([";", "return"] ++ ["value", ";"]) [] fun _ => [] :=
    (name hvalue (by decide) (by decide)).idle_append (by decide)
  have hconst :=
    ((constant hvalue).append (h.enclosed .square)).followed ";" (by decide)
  simpa [getterLexemes, propertyLexemes]
    using (hconst.append hproperty).append hreturn

private theorem field (key : String) (optional : Bool)
    (h : Segment lexemes [] found) :
    Segment (fieldLexemes key optional lexemes) [] fun scopes =>
      ⟨.constant, "value", getterScopes scopes⟩ ::
        (found ([] :: getterScopes scopes) ++
        [⟨.property, "this", getterScopes scopes⟩]) := by
  have hfront : ∀ lexeme ∈ ["key",
      ":", Json.quoted key, ",", "optional", ":", truth optional, ",",
      "get", "attribute"], IsIdle lexeme := by
    simp +decide [isIdle_quoted, isIdle_truth]
  have hnone := (idle hfront).append (nil.enclosed .round)
  have hbody :=
    (hnone.append (h.getter.enclosed .curly)).followed "," (by decide)
  have hfield := (hbody.enclosed .curly).followed "," (by decide)
  simpa [fieldLexemes, getterScopes] using hfield

private theorem alternative {valueType : String} {isArray : Bool}
    (use : Option (Role × String))
    (huse : ∀ after,
      use? (["value", ":"] ++ lexemes ++
        [",", "isArray", ":", truth isArray, ",", "valueType", ":",
        Json.quoted valueType] ++ after) = use)
    (h : Segment (lexemes ++ [","]) [] found) :
    Segment (alternativeLexemes lexemes isArray valueType) [] fun scopes =>
      (use.map fun use => (⟨use.1, use.2, [] :: scopes⟩ : Use)).toList ++
        found ([] :: scopes) := by
  have hvalue : "value" ∉ structural := by decide
  have hrest : ∀ lexeme ∈ ["isArray", ":", truth isArray, ",", "valueType", ":",
      Json.quoted valueType], IsIdle lexeme := by
    simp +decide [isIdle_quoted, isIdle_truth]
  have hcolon : ∀ lexeme ∈ [":"], IsIdle lexeme := by decide
  have hbehind := (h.append_idle hrest).idle_append hcolon
  have hinside := hbehind.cons hvalue use fun after => by simpa using huse after
  have houtside := (hinside.enclosed .curly).followed "," (by decide)
  simpa [alternativeLexemes] using houtside

end Segment

section

variable {bindings : List (String × String)}

private theorem referenceLexeme_not_mem_structural
    (hbindings : ∀ entry ∈ bindings, entry.2 ∉ structural) (name : String) :
    referenceLexeme bindings name ∉ structural := by
  unfold referenceLexeme
  cases hlookup : Keyed.lookup name bindings with
  | none => decide
  | some binding => exact hbindings _ (Keyed.mem_of_lookup hlookup)

private theorem use?_alternative (bindings : List (String × String))
    (shape : Shape) (isArray : Bool) (after : List String) :
    use? (["value", ":"] ++ shapeLexemes bindings shape ++
      [",", "isArray", ":", truth isArray, ",",
        "valueType", ":", Json.quoted shape.valueType.keyword] ++ after) =
      match shape with
      | .reference name => some (.reference, referenceLexeme bindings name)
      | _ => none := by
  have hbase : Json.quoted ValueType.baseType.keyword ≠
      Json.quoted "typeReference" := by decide
  have hliteral : Json.quoted ValueType.literal.keyword ≠
      Json.quoted "typeReference" := by decide
  cases shape with
  | primitive primitive => simp [use?, shapeLexemes, Shape.valueType, hbase]
  | literal literal =>
      simp only [shapeLexemes, signedLexemes]
      split
      · simp [use?]
      · simp [use?, Shape.valueType, hliteral]
  | reference name =>
      simp [use?, shapeLexemes, Shape.valueType, ValueType.keyword]
  | inline fields =>
      cases fields with
      | nil =>
          simp [use?, shapeLexemes, fieldsLexemes, enclosed, Brackets.closer]
      | cons field fields =>
          simp [use?, shapeLexemes, fieldsLexemes, fieldLexemes, enclosed,
            Brackets.opener]

mutual

theorem segment_alternative
    (hbindings : ∀ entry ∈ bindings, entry.2 ∉ structural) (shape : Shape)
    (isArray : Bool) :
    Segment
      (alternativeLexemes (shapeLexemes bindings shape) isArray
        shape.valueType.keyword) []
      fun scopes => shapeUses bindings ([] :: scopes) shape := by
  have huse := use?_alternative bindings shape isArray
  match shape with
  | .primitive primitive =>
      have hvalue :
          ∀ lexeme ∈ [Json.quoted primitive.keyword, ","], IsIdle lexeme := by
        simp +decide [isIdle_quoted]
      exact Segment.alternative none huse (.idle hvalue)
  | .literal literal =>
      have hvalue : ∀ lexeme ∈ signedLexemes literal.toJson.compact ++ [","],
          IsIdle lexeme :=
        List.forall_mem_append.mpr ⟨fun _ => isIdle_of_mem_literal, by decide⟩
      exact Segment.alternative none huse (.idle hvalue)
  | .reference name =>
      have hname := referenceLexeme_not_mem_structural hbindings name
      exact Segment.alternative _ huse (.name hname (by decide) (by decide))
  | .inline fields =>
      have hfields := (segment_fields hbindings fields).enclosed .square
      exact Segment.alternative none huse (hfields.append_idle (by decide))

private theorem segment_fields
    (hbindings : ∀ entry ∈ bindings, entry.2 ∉ structural)
    (fields : List (FieldOf Shape)) :
    Segment (fieldsLexemes bindings fields) []
      (fieldsUses bindings · fields) := by
  match fields with
  | [] => exact .nil
  | ⟨key, optional, alternatives⟩ :: fields =>
      have hfield :=
        (segment_alternatives hbindings alternatives).field key optional
      have hboth := hfield.append (segment_fields hbindings fields)
      simpa [fieldsLexemes, fieldsUses] using hboth

theorem segment_alternatives
    (hbindings : ∀ entry ∈ bindings, entry.2 ∉ structural)
    (alternatives : List (AlternativeOf Shape)) :
    Segment (alternativesLexemes bindings alternatives) []
      (alternativesUses bindings · alternatives) := by
  match alternatives with
  | [] => exact .nil
  | ⟨shape, isArray⟩ :: alternatives =>
      have hfirst := segment_alternative hbindings shape isArray
      exact hfirst.append (segment_alternatives hbindings alternatives)

end

/-! ## Declarations -/

private theorem segment_kind {declaration : Declaration}
    (hbinding : bindingOf bindings declaration ∉ structural) :
    Segment (kindLexemes bindings declaration) []
      fun scopes => [⟨.property, bindingOf bindings declaration, scopes⟩] := by
  have hrest : ∀ lexeme ∈ [":",
      Json.quoted declaration.kind.keyword, ",", "enumerable", ":", "false"],
      IsIdle lexeme := by
    simp +decide [isIdle_quoted]
  have hvalue : "value" ∉ structural := by decide
  have hentry := (Segment.idle hrest).cons hvalue none fun after => by
    simp [use?]
  have hfront : ∀ lexeme ∈ [Json.quoted "kind", ","], IsIdle lexeme := by decide
  exact .property hbinding ((hentry.enclosed .curly).idle_append hfront)

private theorem segment_declaration
    (hbindings : ∀ entry ∈ bindings, entry.2 ∉ structural)
    {declaration : Declaration}
    (hbinding : bindingOf bindings declaration ∉ structural)
    (exportAll : Bool) :
    Segment (constLexemes bindings exportAll declaration ++ [";"] ++
      kindLexemes bindings declaration ++
        [";"]) [bindingOf bindings declaration]
          (declarationUses bindings · declaration) := by
  have hexport :
      ∀ lexeme ∈ if declaration.exported || exportAll then ["export"] else [],
      IsIdle lexeme := by
    split <;> decide
  have hfields := (segment_fields hbindings declaration.fields).enclosed .square
  have hconst :=
    ((Segment.constant hbinding).idle_append hexport).append hfields
  have hboth := (hconst.followed ";" (by decide)).append (segment_kind hbinding)
  simpa [constLexemes, declarationUses] using hboth.followed ";" (by decide)

private theorem segment_declarations
    (hbindings : ∀ entry ∈ bindings, entry.2 ∉ structural)
    {declarations : List Declaration}
    (hbound : ∀ declaration ∈ declarations,
      bindingOf bindings declaration ∉ structural)
    (exportAll : Bool) :
    Segment (declarationsLexemes bindings exportAll declarations)
      (declarations.map (bindingOf bindings))
      fun scopes => declarations.flatMap (declarationUses bindings scopes) := by
  induction declarations with
  | nil => exact .nil
  | cons declaration declarations ih =>
      rw [List.forall_mem_cons] at hbound
      have hlater := ih hbound.2
      simpa [declarationsLexemes] using
        (segment_declaration hbindings hbound.1 exportAll).append hlater

end

end Module

namespace Schema

open ShapeMend.Module

theorem lookup_bindings_eq {schema : Schema} {declaration : Declaration}
    (h : declaration ∈ schema.declarations) :
    Keyed.lookup declaration.name schema.bindings =
      some (bindingOf schema.bindings declaration) := by
  obtain ⟨binding, hlookup⟩ := exists_lookup_bindings h
  rw [bindingOf, hlookup, Option.getD_some]

private theorem map_bindingOf (schema : Schema) :
    schema.declarations.map (bindingOf schema.bindings) =
      schema.bindings.map (·.2) := by
  have hkeys : Keyed.keys schema.bindings = schema.names :=
    Binding.keys_allocateAll [] schema.names
  have hdistinct : (Keyed.keys schema.bindings).Nodup := hkeys ▸ schema.distinct
  have hvalues : schema.bindings.map (·.2) =
      (Keyed.keys schema.bindings).map fun name =>
        (Keyed.lookup name schema.bindings).getD name := by
    rw [Keyed.keys, List.map_map]
    refine List.map_congr_left fun entry hentry => ?_
    rw [Function.comp_apply, Keyed.lookup_of_mem hdistinct hentry,
      Option.getD_some]
  rw [hvalues, hkeys, names, List.map_map]
  rfl

private theorem not_mem_structural_bindings {schema : Schema}
    {entry : String × String} (h : entry ∈ schema.bindings) :
    entry.2 ∉ structural := by
  have hmarks : ∀ lexeme ∈ structural,
      isName lexeme = false ∨ lexeme ∈ Binding.reserved := by
    decide +kernel
  have hallocates := Binding.allocates_allocateAll schema.names
  intro hmem
  rcases hmarks entry.2 hmem with hname | hreserved
  · exact Bool.false_ne_true
      (hname.symm.trans (Binding.isName_of_mem_allocateAll h))
  · exact hallocates.unreserved entry h hreserved

theorem exists_stream_lexemes (schema : Schema) (exportAll : Bool) : ∃ stream,
    TokenStream.ofText
      (declarationsText schema.bindings exportAll schema.declarations) =
      .ok stream ∧
      stream.tokens.map (·.text) =
        declarationsLexemes schema.bindings exportAll schema.declarations := by
  have hnames : ∀ entry ∈ schema.bindings, isName entry.2 :=
    fun entry hentry => Binding.isName_of_mem_allocateAll hentry
  obtain ⟨pieces, htext, hfits, hlexemes, -⟩ := exists_pieces hnames
    (fun declaration hdeclaration => exists_lookup_bindings hdeclaration)
      exportAll []
  have hend : Scans (pieces.foldl Piece.breaks false)
      (Position.origin.after (piecesText pieces)) [] _ :=
    .nil _ _
  have hscan : Scans false .origin (piecesText pieces ++ []) _ :=
    Scans.pieces pieces hfits hend
  have hplain : ¬ ['#', '!'] <+: declarationsText schema.bindings exportAll
      schema.declarations := by
    cases schema.declarations <;> simp [declarationsText]
  rw [htext, List.append_nil] at hscan
  refine ⟨_, (TokenStream.ofText_eq_scanFrom hplain).trans (hscan none), ?_⟩
  rw [List.append_nil, map_text_piecesTokens, hlexemes]

theorem uses_of_lexemes {schema : Schema} {exportAll : Bool}
    {stream : TokenStream}
    (h : stream.tokens.map (·.text) =
      declarationsLexemes schema.bindings exportAll schema.declarations) :
    stream.uses = schema.uses := by
  have hbindings : ∀ entry ∈ schema.bindings, entry.2 ∉ structural :=
    fun entry hentry => not_mem_structural_bindings hentry
  have hbound : ∀ declaration ∈ schema.declarations,
      bindingOf schema.bindings declaration ∉ structural :=
        fun declaration hdeclaration =>
    hbindings _ (Keyed.mem_of_lookup (lookup_bindings_eq hdeclaration))
  have hsegment := segment_declarations hbindings hbound exportAll
  have hconstants := hsegment.constantsAt_append 0 []
  have huses := hsegment.usesIn_append [schema.bindings.map (·.2)] []
  rw [List.append_nil] at hconstants huses
  rw [if_pos rfl, constantsAt, List.append_nil, map_bindingOf] at hconstants
  simp only [TokenStream.uses, h, hconstants]
  rw [huses, usesIn, List.append_nil]
  rfl

/-- Every declaration is bound to a word of its own that is not reserved, and
the module that is emitted binds it, marks it and refers to it by that word
alone. -/
theorem uses_moduleText (schema : Schema) (exportAll : Bool) (header : String) :
    let body := declarationsText schema.bindings exportAll schema.declarations
    Binding.Allocates schema.names schema.bindings ∧
      (∀ declaration ∈ schema.declarations,
        Keyed.lookup declaration.name schema.bindings =
        some (bindingOf schema.bindings declaration)) ∧
      (schema.moduleText exportAll header).toList =
        (header ++ "\n").toList ++ body ∧
      ∃ stream,
        TokenStream.ofText body = .ok stream ∧ stream.uses = schema.uses := by
  intro body
  obtain ⟨stream, hstream, hlexemes⟩ := exists_stream_lexemes schema exportAll
  exact ⟨Binding.allocates_allocateAll schema.names,
    fun _ => lookup_bindings_eq,
    toList_moduleText schema exportAll header, stream, hstream,
      uses_of_lexemes hlexemes⟩

end Schema

end ShapeMend
