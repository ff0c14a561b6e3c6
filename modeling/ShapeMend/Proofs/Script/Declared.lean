import ShapeMend.Proofs.Schema.Merge
import ShapeMend.Script.Declared

/-!
# Declarations of scripts

A script declares a literal union only by literals, and merging keeps it so.
-/

namespace ShapeMend

namespace Script

private theorem InterfaceItem.kind_declaration (source : String)
    (item : InterfaceItem) :
    (item.declaration source).value.kind = .interface := by
  unfold declaration
  split <;> rfl

private theorem AliasItem.plain_of_declaration? {source : String}
    {item : AliasItem} {declaration : Declaration}
    (h : (item.declaration? source).value = some declaration) :
    declaration.Plain := by
  intro hkind
  unfold declaration? at h
  split at h
  · simp only [Logged.value_bind, Logged.value_pure, Option.some.injEq] at h
    subst h
    simp [DeclarationKind.isObject] at hkind
  · split at h
    · next literals _ =>
        simp only [Logged.value_pure, Option.some.injEq] at h
        subst h
        intro field hfield alternative halternative
        obtain rfl := List.mem_singleton.mp hfield
        obtain ⟨literal, _, rfl⟩ := List.mem_map.mp halternative
        rfl
    · simp at h

private theorem Item.plain_of_declaration? {source : String} {item : Item}
    {declaration : Declaration}
    (h : (item.declaration? source).value = some declaration) :
    declaration.Plain := by
  cases item with
  | interface item =>
      intro hkind
      simp only [Item.declaration?, Logged.value_bind, Logged.value_pure,
        Option.some.injEq] at h
      subst h
      rw [InterfaceItem.kind_declaration] at hkind
      simp [DeclarationKind.isObject] at hkind
  | typeAlias item => exact AliasItem.plain_of_declaration? h
  | other span => simp [Item.declaration?] at h

private theorem literalUnionsPlain_mergeItems {source : String}
    {exportAll : Bool} {schema : Schema} (hplain : schema.LiteralUnionsPlain)
    (items : List Item) :
    (mergeItems source exportAll schema items).value.LiteralUnionsPlain := by
  induction items generalizing schema with
  | nil => exact hplain
  | cons item items ih =>
      simp only [mergeItems, Logged.value_bind]
      cases hitem : (item.declaration? source).value with
      | none => exact ih hplain
      | some declaration =>
          simp only [Logged.value_bind]
          apply ih
          rw [Schema.value_mergeFrom]
          apply hplain.merge
          have hdeclaration : declaration.Plain :=
            Item.plain_of_declaration? hitem
          exact hdeclaration

end Script

theorem Schema.literalUnionsPlain_of_source {source : Text.Source}
    {exportAll : Bool} {parsed : Logged Schema}
    (h : schemaOfSource source exportAll = .ok parsed) :
    parsed.value.LiteralUnionsPlain := by
  unfold schemaOfSource at h
  split at h
  · simp at h
  · simp only [Except.ok.injEq] at h
    subst h
    apply Script.literalUnionsPlain_mergeItems
    simp [Schema.LiteralUnionsPlain, Schema.empty]

end ShapeMend
