import ShapeMend.Proofs.Schema.Merge
import ShapeMend.Proofs.Script.Types

/-!
# Reading what was written

Every written declaration is read as one item, which declares it again, and the
items of a whole text make up the schema of its declarations.
-/

namespace ShapeMend

open ShapeMend.Text ShapeMend.Script

def Declaration.ReadAs (declaration : Declaration) (item : Item) : Prop :=
  ∀ source, item.declaration? source = pure (some declaration)

namespace Script.AliasItem

variable {place span : Span} {name : String} {exported : Bool} {node : TypeNode}

private theorem readAs_objectAlias {fields : List Field}
    (h : AlternativesReadAs [⟨.inline fields, false⟩] node) :
    Declaration.ReadAs ⟨name, .objectAlias, exported, fields⟩
      (.typeAlias ⟨place, ⟨name, span⟩, exported, [], node⟩) := by
  intro source
  cases h with
  | single halternative =>
    cases halternative with
    | one hshape =>
      cases hshape with
      | inline objectSpan hfields =>
        simp [Item.declaration?, declaration?, TypeNode.unparenthesized, scope,
          hfields ⟨source, []⟩ rfl, Logged.pure_bind]

private theorem readAs_literalUnion {alternatives : List Alternative}
    (h : AlternativesReadAs alternatives node)
    (hliteral : ∀ alternative ∈ alternatives, alternative.isLiteral) :
    Declaration.ReadAs
      ⟨name, .literalUnion, exported, [⟨name, false, alternatives⟩]⟩
      (.typeAlias ⟨place, ⟨name, span⟩, exported, [], node⟩) := by
  intro source
  obtain ⟨literals, hliterals, heq⟩ := h.literals? hliteral
  have hobject : ∀ objectSpan members,
      node.unparenthesized ≠ .object objectSpan members := by
    cases h with
    | single halternative =>
      obtain ⟨literal, rfl⟩ :=
        AlternativeOf.eq_of_isLiteral (hliteral _ List.mem_cons_self)
      cases halternative with
      | one hshape =>
        cases hshape with
        | literal literalSpan hvalue => simp [TypeNode.unparenthesized]
    | union unionSpan hbranches => simp [TypeNode.unparenthesized]
  rw [Item.declaration?, declaration?]
  split
  · next objectSpan members hnode =>
        exact absurd hnode (hobject objectSpan members)
  · simp only [hliterals, heq]

end Script.AliasItem

namespace Script.Reads

open Reader

variable {tokens later : List Token} {token : Token} {name : String}

/-! ## Items -/

theorem typeParameters {symbol : String} (h : symbol ≠ "<") :
    Reads typeParameters (.ofSymbol symbol :: tokens)
      (.ofSymbol symbol :: tokens) (· = []) :=
  (at_symbol_ne h).step (pure rfl)

private theorem parents {symbol : String} (h : symbol ≠ "extends") :
    Reads parents (.ofSymbol symbol :: tokens) (.ofSymbol symbol :: tokens)
      (· = []) :=
  (at_symbol_ne h).step (pure rfl)

private theorem interface {first : Span} {exported : Bool} {fields : List Field}
    (hwritable : FieldsWritable fields) :
    Reads (interface first exported)
      (token :: .ofWord name :: .ofSymbol "\x7b" ::
        (fieldTokens fields ++ .ofSymbol "\x7d" :: later)) later
      (fun item => Declaration.ReadAs ⟨name, .interface, exported, fields⟩
        (.interface item)) := by
  refine advance.bind fun _ _ => ?_
  refine (Reads.name rfl).bind fun word hword => ?_
  obtain ⟨text, span⟩ := word
  obtain rfl : text = name := hword
  refine (typeParameters (by decide)).step ((parents (by decide)).step ?_)
  refine remaining.step ?_
  refine (members (nested _) hwritable ?_).bind fun list hlist => ?_
  · rw [List.length_cons, List.length_append]
    omega
  · refine (spanFrom first).bind fun place _ => ?_
    refine pure fun source => ?_
    have hscope : (Scope.mk source []).parameters = [] := rfl
    have hfields := memberFields_of_readAs hlist hscope
    simp [Item.declaration?, InterfaceItem.declaration, InterfaceItem.scope,
      hfields, Logged.pure_bind]

private theorem aliasEnd :
    Reads aliasEnd (.ofSymbol ";" :: tokens) tokens (fun _ => True) :=
  ahead_cons fun _ _ _ => advance

private theorem aliasItem {first : Span} {exported : Bool}
    {alternatives : List Alternative} (hne : alternatives ≠ [])
    (hwritable : AlternativesWritable alternatives) :
    Reads (aliasItem first exported)
      (token :: .ofWord name :: .ofSymbol "=" ::
        (alternativeTokens alternatives ++ .ofSymbol ";" :: later)) later
      (fun item => ∃ place span node, AlternativesReadAs alternatives node ∧
        item = ⟨place, ⟨name, span⟩, exported, [], node⟩) := by
  refine advance.bind fun _ _ => ?_
  refine (Reads.name rfl).bind fun word hword => ?_
  obtain ⟨text, span⟩ := word
  obtain rfl : text = name := hword
  refine (typeParameters (by decide)).step ?_
  refine (expect.bind fun _ _ => pure trivial).bind fun _ (_ : True) => ?_
  refine (type hne hwritable).bind fun node hnode => ?_
  refine aliasEnd.bind fun _ _ => ?_
  exact (spanFrom first).bind fun place _ =>
    pure ⟨place, span, node, hnode, rfl⟩

/-! ## Words before items -/

private theorem itemModifiers_tokens (declaration : Declaration) (broken : Bool)
    (later : List Token) :
    itemModifiers false
      (Token.afterBreak broken (declaration.tokens ++ later)) =
      (declaration.exported, if declaration.exported then 1 else 0) := by
  obtain ⟨name, kind, exported, fields⟩ := declaration
  cases exported <;> cases kind <;> rfl

theorem advanceBy {after : List Token} (before : List Token) :
    Reads (advanceBy before.length) (before ++ after) after
      (fun _ => True) := by
  induction before with
  | nil => exact pure trivial
  | cons token before ih => exact advance.bind fun _ _ => ih

section

variable {before body : List Token} {front : Token} {exported : Bool}
  {post : Item → Prop}

theorem exists_of_itemModifiers {actual : List Token}
    (hmodifiers : itemModifiers false
      (before ++ front :: .ofWord name :: body) = (exported, before.length))
    (hactual : actual.map Token.unplaced = before ++ front ::
      .ofWord name :: body) :
    itemModifiers false actual = (exported, before.length) ∧
      ∃ first second rest,
      actual.drop before.length = first :: second :: rest ∧
      first.syntacticText = front.syntacticText ∧ second.kind = .word ∧
      frontText rest = frontText body := by
  refine ⟨by rw [← itemModifiers_unplaced, hactual, hmodifiers], ?_⟩
  have hdrop : (actual.drop before.length).map Token.unplaced =
      front :: .ofWord name :: body := by
    rw [List.map_drop, hactual, List.drop_left]
  obtain ⟨frontSpan, later, hfront, hlater⟩ := eq_of_map_unplaced hdrop
  obtain ⟨nameSpan, rest, rfl, hrest⟩ := eq_of_map_unplaced hlater
  refine ⟨_, _, rest, hfront, rfl, rfl, ?_⟩
  rw [← hrest, frontText_unplaced]

private theorem item_interface
    (hmodifiers : itemModifiers false
      (before ++ front :: .ofWord name :: body) = (exported, before.length))
    (hword : front.syntacticText = "interface")
    (hread : ∀ first,
      Reads (Reader.interface first exported) (front :: .ofWord name :: body)
      later (fun item => post (.interface item))) :
    Reads item (before ++ front :: .ofWord name :: body) later post := by
  refine here.bind fun place _ => ?_
  refine ahead.bind fun actual hactual => ?_
  obtain ⟨hexported, first, second, rest, hdrop, hfirst, hsecond, -⟩ :=
    exists_of_itemModifiers hmodifiers hactual
  simp only [hexported, hdrop]
  rw [if_pos (by simp [frontText_cons, frontIsWord, hfirst, hword, hsecond])]
  refine (advanceBy before).bind fun _ _ => ?_
  exact (hread place).bind fun value hvalue => pure hvalue

private theorem item_alias
    (hmodifiers : itemModifiers false
      (before ++ front :: .ofWord name :: body) = (exported, before.length))
    (hword : front.syntacticText = "type") (hequals : frontText body = "=")
    (hread : ∀ first,
      Reads (Reader.aliasItem first exported) (front :: .ofWord name :: body)
      later (fun item => post (.typeAlias item))) :
    Reads item (before ++ front :: .ofWord name :: body) later post := by
  refine here.bind fun place _ => ?_
  refine ahead.bind fun actual hactual => ?_
  obtain ⟨hexported, first, second, rest, hdrop, hfirst, hsecond, hrest⟩ :=
    exists_of_itemModifiers hmodifiers hactual
  simp only [hexported, hdrop]
  rw [if_neg (by simp [frontText_cons, hfirst, hword]), if_pos (by
    simp [frontText_cons, frontIsWord, hfirst, hword, hsecond, hrest, hequals])]
  refine (advanceBy before).bind fun _ _ => ?_
  exact (hread place).bind fun value hvalue => pure hvalue

end

private theorem exists_afterBreak_tokens (declaration : Declaration)
    (broken : Bool) (later : List Token) : ∃ before front,
      Token.afterBreak broken (declaration.tokens ++ later) =
        before ++ front :: .ofWord declaration.name ::
          (declaration.bodyTokens ++ later) ∧
      before.length = (if declaration.exported then 1 else 0) ∧
      front.syntacticText = declaration.kind.word := by
  unfold Declaration.tokens
  cases declaration.exported with
  | false => exact ⟨[], _, rfl, rfl, rfl⟩
  | true => exact ⟨[_], _, rfl, rfl, rfl⟩

private theorem item {declaration : Declaration}
    (hwritable : declaration.Writable) (broken : Bool) (later : List Token) :
    Reads item (Token.afterBreak broken (declaration.tokens ++ later)) later
      (Declaration.ReadAs declaration) := by
  obtain ⟨before, front, htokens, hlength, hword⟩ :=
    exists_afterBreak_tokens declaration broken later
  have hmodifiers := itemModifiers_tokens declaration broken later
  rw [← hlength, htokens] at hmodifiers
  rw [htokens]
  obtain ⟨name, kind, exported, fields⟩ := declaration
  obtain ⟨-, hfields⟩ := hwritable
  cases kind with
  | interface =>
      refine item_interface hmodifiers hword fun first => ?_
      simpa [Declaration.bodyTokens] using interface hfields
  | objectAlias =>
      refine item_alias hmodifiers hword rfl fun first => ?_
      have hbody :
          Declaration.bodyTokens
          ⟨name, .objectAlias, exported, fields⟩ ++ later =
          .ofSymbol "=" :: (alternativeTokens [⟨.inline fields, false⟩] ++
            .ofSymbol ";" :: later) := by
        simp [Declaration.bodyTokens, alternativeTokens, Shape.tokens,
          bracketTokens]
      have hinline : AlternativesWritable [⟨.inline fields, false⟩] := by
        rw [AlternativesWritable, Shape.Writable]
        exact ⟨hfields, trivial⟩
      rw [hbody]
      refine (aliasItem (List.cons_ne_nil _ _) hinline).imp ?_
      rintro _ ⟨place, span, node, hnode, rfl⟩
      exact AliasItem.readAs_objectAlias hnode
  | literalUnion =>
      obtain ⟨alternatives, heq, hne, halternatives, hliteral⟩ := hfields
      obtain rfl : fields = [⟨name, false, alternatives⟩] := heq
      refine item_alias hmodifiers hword rfl fun first => ?_
      have hbody : Declaration.bodyTokens
          ⟨name, .literalUnion, exported, [⟨name, false, alternatives⟩]⟩ ++
            later =
          .ofSymbol "=" ::
            (alternativeTokens alternatives ++ .ofSymbol ";" :: later) := by
        simp [Declaration.bodyTokens]
      rw [hbody]
      refine (aliasItem hne halternatives).imp ?_
      rintro _ ⟨place, span, node, hnode, rfl⟩
      exact AliasItem.readAs_literalUnion hnode hliteral

private theorem exists_front (declaration : Declaration) (broken : Bool)
    (later : List Token) :
    ∃ token tokens,
      Token.afterBreak broken (declaration.tokens ++ later) = token :: tokens ∧
      frontText (token :: tokens) ≠ ";" := by
  obtain ⟨name, kind, exported, fields⟩ := declaration
  cases exported with
  | true => exact ⟨_, _, rfl, (by decide : "export" ≠ ";")⟩
  | false =>
      refine ⟨_, _, rfl, (?_ : kind.word ≠ ";")⟩
      cases kind <;> decide

private theorem items {declarations : List Declaration} {bound : Nat}
    (broken : Bool)
    (hwritable : ∀ declaration ∈ declarations, declaration.Writable)
    (hbound : declarations.length < bound) :
    Reads (items bound)
      (Token.afterBreak broken (declarationTokens declarations)) []
      (List.Forall₂ Declaration.ReadAs declarations) := by
  induction declarations generalizing broken bound with
  | nil =>
      obtain ⟨bound, rfl⟩ : ∃ n, bound = n + 1 := ⟨bound - 1, by omega⟩
      refine ahead.bind fun actual hactual => ?_
      obtain rfl : actual = [] := List.map_eq_nil_iff.mp hactual
      exact pure .nil
  | cons declaration declarations ih =>
      obtain ⟨bound, rfl⟩ : ∃ n, bound = n + 1 := ⟨bound - 1, by omega⟩
      have hfirst := hwritable declaration List.mem_cons_self
      have hrest :=
        ih true
          (fun other hother => hwritable other (List.mem_cons_of_mem _ hother))
        (Nat.lt_of_succ_lt_succ hbound)
      obtain ⟨token, tokens, hfront, hsemicolon⟩ :=
        exists_front declaration broken
        (Token.afterBreak true (declarationTokens declarations))
      have hitem :=
        item hfirst broken
          (Token.afterBreak true (declarationTokens declarations))
      rw [declarationTokens]
      rw [hfront] at hitem ⊢
      refine ahead_cons fun span later hlater => ?_
      refine (at_ne hsemicolon).step ?_
      refine hitem.bind fun value hvalue => ?_
      exact hrest.bind fun more hmore => pure (.cons hvalue hmore)

end Script.Reads

/-! ## Whole texts -/

namespace Script

private theorem itemsOfText_writtenText {declarations : List Declaration}
    (hwritable : ∀ declaration ∈ declarations, declaration.Writable) :
    ∃ items, itemsOfText (writtenText declarations).toList = .ok items ∧
      List.Forall₂ Declaration.ReadAs declarations items := by
  obtain ⟨stream, hstream, htokens⟩ := ofText_writtenText hwritable
  have hlength : declarations.length < stream.tokens.length + 1 := by
    rw [← List.length_map (f := Token.unplaced), htokens]
    exact Nat.lt_succ_of_le (length_le_declarationTokens declarations)
  rw [← Token.afterBreak_false (declarationTokens declarations)] at htokens
  obtain ⟨items, last, hrun, -, hitems⟩ :=
    Reads.items false hwritable hlength ⟨stream.tokens, 0, stream.stop⟩ htokens
  refine ⟨items, ?_, hitems⟩
  rw [itemsOfText, hstream]
  unfold TokenStream.items
  simp only [StateT.run'_eq, hrun]
  rfl

/-- Declarations of new and distinct names go to the end of the schema, each
exported if all are. -/
private theorem mergeItems_of_readAs (source : String) (exportAll : Bool)
    {schema : Schema} {declarations : List Declaration} {items : List Item}
    (hitems : List.Forall₂ Declaration.ReadAs declarations items)
    (hdistinct : ((schema.declarations ++ declarations).map (·.name)).Nodup) :
    (mergeItems source exportAll schema items).events = [] ∧
      (mergeItems source exportAll schema items).value.declarations =
        schema.declarations ++ declarations.map fun declaration =>
          { declaration with
            exported := declaration.exported || exportAll } := by
  induction hitems generalizing schema with
  | nil => simp [mergeItems]
  | @cons declaration item declarations items hfirst hrest ih =>
      let merged :=
        { declaration with exported := declaration.exported || exportAll }
      have hfresh : schema.find? merged.name = none := by
        apply Schema.find?_eq_none_of_not_mem
        intro hmem
        rw [List.map_append, List.nodup_append] at hdistinct
        exact hdistinct.2.2 _ hmem declaration.name (by simp) rfl
      have hmerge : schema.mergeFrom source merged =
          pure (schema.insert merged hfresh) := by
        unfold Schema.mergeFrom
        rw [Schema.merge_of_fresh hfresh]
      have hinserted : (schema.insert merged hfresh).declarations =
          schema.declarations ++ [merged] := rfl
      have hstep : mergeItems source exportAll schema (item :: items) =
          mergeItems source exportAll (schema.insert merged hfresh) items := by
        rw [mergeItems, hfirst source, Logged.pure_bind]
        simp only []
        rw [hmerge, Logged.pure_bind]
      have hnames :
          (((schema.insert merged hfresh).declarations ++ declarations).map
          (·.name)).Nodup := by
        rw [hinserted]
        simpa [merged] using hdistinct
      have hlater := ih hnames
      rw [hstep, hlater.2, hinserted]
      exact ⟨hlater.1, by simp [merged]⟩

end Script

/-- An article with keys that could be modifiers or are no names, and the types
that it refers to. -/
def articles : List Declaration := [
  { name := "Article"
    kind := .interface
    exported := true
    fields := [
      ⟨"readonly", true,
        [⟨.primitive .string, true⟩,
        ⟨.literal (.number ⟨true, .ofNat 3⟩), false⟩]⟩,
      ⟨"data-id", false,
        [⟨.inline [⟨"get", false, [⟨.reference "Author", true⟩]⟩], true⟩]⟩] },
  { name := "Author", kind := .objectAlias, exported := false, fields := [] },
  { name := "type"
    kind := .literalUnion
    exported := false
    fields := [⟨"type", false,
      [⟨.literal (.string "a\n"), false⟩, ⟨.literal (.boolean true), false⟩]⟩]
        }]

end ShapeMend
