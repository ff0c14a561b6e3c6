import ShapeMend.Proofs.Mend.Untracked

/-!
# Mending by parts

The fields of an object declaration can be mended in two goes: by a schema where
the declaration has only those in front, and then by one where it has only the
others.  The three schemas differ in a declaration that is on the trail all the
time, so nothing inside can tell them apart.
-/

namespace ShapeMend

/-- The schema with other fields in the declaration of a name. -/
def Schema.withFields (schema : Schema) (name : String)
    (fields : List Field) : Schema :=
  schema.mapFields fun declaration => if declaration.name = name then fields
    else declaration.fields

private theorem Schema.find?_withFields {schema : Schema} {name : String}
    {declaration : Declaration} (hfind : schema.find? name = some declaration)
    (fields : List Field) :
    (schema.withFields name fields).find? name =
      some { declaration with fields } := by
  have hname : declaration.name = name := (mem_of_find?_eq_some hfind).2
  rw [withFields, find?_mapFields, hfind, Option.map_some, if_pos hname]

private theorem Schema.length_withFields (schema : Schema) (name : String)
    (fields : List Field) :
    (schema.withFields name fields).declarations.length =
      schema.declarations.length :=
  schema.length_mapFields _

namespace References

theorem mendOne_object (references : References) {declaration : Declaration}
    (hkind : declaration.kind.isObject) (members : Members) :
    references.mendOne declaration (.object members) = do
      return .object
        (← declaration.change references [declaration.site] members) := by
  simp only [mendOne, hkind, if_true, Mend.object, Entry.tracked,
    List.not_mem_nil, if_false]

private theorem mendOne_null (references : References)
    {declaration : Declaration} (hkind : declaration.kind.isObject) :
    references.mendOne declaration .null =
      references.mendOne declaration (.object []) := by
  simp only [mendOne, hkind, if_true, Mend.fresh]

end References

namespace Entry

section

variable {schema : Schema} {name : String} {declaration : Declaration}
  (hfind : schema.find? name = some declaration)
include hfind

private theorem agreeWith_withFields (fields : List Field) (depth : Nat) :
    (untracked.references schema depth).AgreeWith [declaration.site]
      (untracked.references (schema.withFields name fields) depth) := by
  refine References.agreeWith_mapFields
    (fun other hother hsite => if_neg fun hname => hsite ?_) depth
  rw [Schema.eq_of_find?_eq_some hfind hother hname]
  exact List.mem_singleton_self _

/-- The fields of a declaration, with references of the schema where they are
the only ones. -/
private theorem change_withFields (fields : List Field) (index depth : Nat)
    (members : Members) :
    ({ declaration with fields } : Declaration).change
        (untracked.references (schema.withFields name fields) depth)
          [declaration.site] members =
      Mend.fields (untracked.references schema depth) declaration.name []
        [declaration.site] index fields
        members :=
  Mend.untracked_fields (agreeWith_withFields hfind fields depth) fields
    declaration.name declaration.name [] [] index 0
    members

variable {first second : List Field}
  (hfields : declaration.fields = first ++ second)
include hfields

private theorem change_append (depth : Nat) (members : Members) :
    declaration.change (untracked.references schema depth) [declaration.site]
      members =
      ({ declaration with fields := first } : Declaration).change
          (untracked.references (schema.withFields name first) depth)
            [declaration.site] members >>=
        ({ declaration with fields := second } : Declaration).change
          (untracked.references (schema.withFields name second) depth)
            [declaration.site] := by
  rw [Declaration.change, hfields, Mend.fields_append,
    change_withFields hfind first 0,
    funext (change_withFields hfind second (0 + first.length) depth)]

private theorem mendOne_append (hkind : declaration.kind.isObject) (depth : Nat)
    (value : Json) :
    (untracked.references schema depth).mendOne declaration value =
      (untracked.references (schema.withFields name first) depth).mendOne
          { declaration with fields := first } value >>=
        (untracked.references (schema.withFields name second) depth).mendOne
          { declaration with fields := second } := by
  have hobject (members : Members) :
      (untracked.references schema depth).mendOne declaration
        (.object members) =
        (untracked.references (schema.withFields name first) depth).mendOne
            { declaration with fields := first } (.object members) >>=
          (untracked.references (schema.withFields name second) depth).mendOne
            { declaration with fields := second } := by
    simp only [References.mendOne_object, hkind, change_append hfind hfields,
      Declaration.site_fields, Logged.bind_assoc, Logged.pure_bind]
  cases value with
  | null => simpa only [References.mendOne_null, hkind] using hobject []
  | object members => exact hobject members
  | _ =>
      simp only [References.mendOne, hkind, if_true, Mend.object,
        Logged.pure_bind]

private theorem value_mend_append (hkind : declaration.kind.isObject)
    (isArray : Bool) (value : Json) :
    (untracked.mend schema declaration isArray value).value =
      (untracked.mend (schema.withFields name second)
        { declaration with fields := second } isArray
        (untracked.mend (schema.withFields name first)
          { declaration with fields := first } isArray
          value).value).value := by
  have hone := mendOne_append hfind hfields hkind schema.declarations.length
  simp only [mend, References.mend, Schema.length_withFields]
  cases isArray with
  | false => simp only [Bool.false_eq_true, if_false, hone, Logged.value_bind]
  | true =>
      cases value with
      | array items =>
          simp only [Declaration.mendList, hkind, if_true, Logged.value_bind,
            Logged.value_pure, Logged.value_mapM, List.map_map]
          congr 2
          funext item
          cases item with
          | object members =>
              simp [hone, References.mendOne_object, hkind, Json.isObject]
          | _ => simp [Json.isObject]
      | null => simp [Declaration.mendList, hkind]
      | _ => simp only [Declaration.mendList, hkind, if_true, Logged.value_pure]

end

end Entry

namespace Schema

/-- A declaration asks first for what the fields in front ask for, whatever
refers back to it. -/
theorem mend_append {schema : Schema} {name : String}
    {declaration : Declaration} (hfind : schema.find? name = some declaration)
    (hkind : declaration.kind.isObject) {first second : List Field}
    (hfields : declaration.fields = first ++ second) (isArray : Bool)
    (value : Json) :
    ∃ one two, (schema.withFields name first).find? name = some one ∧
      (schema.withFields name second).find? name = some two ∧
        (schema.mend declaration isArray value).value =
          ((schema.withFields name second).mend two isArray
            ((schema.withFields name first).mend one isArray
              value).value).value := by
  have hpart (fields : List Field) :
      ({ declaration with fields } : Declaration).Plain :=
    Declaration.plain_of_isObject hkind
  refine ⟨_, _, find?_withFields hfind first, find?_withFields hfind second, ?_⟩
  rw [Entry.mend_eq Entry.enters_untracked
    (Declaration.plain_of_isObject hkind), Entry.mend_eq Entry.enters_untracked
    (hpart first), Entry.mend_eq Entry.enters_untracked (hpart second)]
  exact Entry.value_mend_append hfind hfields hkind isArray value

/-- Groups whose leads lead back to them; there are two fields for the lead. -/
def groups : Schema where
  declarations := [
    { name := "Group"
      kind := .interface
      exported := true
      fields := [
        ⟨"lead", false, [⟨.reference "Member", false⟩]⟩,
        ⟨"title", false, [⟨.primitive .string, false⟩]⟩,
        ⟨"lead", true, [⟨.primitive .null, false⟩,
          ⟨.inline [⟨"since", false, [⟨.primitive .number, false⟩]⟩], false⟩]⟩]
            },
    { name := "Member"
      kind := .interface
      exported := false
      fields := [
        ⟨"name", false, [⟨.primitive .string, false⟩]⟩,
        ⟨"group", false, [⟨.reference "Group", false⟩]⟩] }]
  distinct := by decide

theorem mend_append_groups :
    ∃ group, groups.find? "Group" = some group ∧ group.kind.isObject ∧
    group.fields = group.fields.take 1 ++ group.fields.drop 1 ∧
    ∃ one two, (groups.withFields "Group" (group.fields.take 1)).find? "Group" =
      some one ∧
      (groups.withFields "Group" (group.fields.drop 1)).find? "Group" =
        some two ∧
        (groups.mend group true (.array [.object [], .null])).value =
          ((groups.withFields "Group" (group.fields.drop 1)).mend two true
            ((groups.withFields "Group" (group.fields.take 1)).mend one true
              (.array [.object [], .null])).value).value := by
  have hfind : groups.find? "Group" = some groups.declarations[0] := rfl
  have hfields := (groups.declarations[0].fields.take_append_drop 1).symm
  exact ⟨_, hfind, rfl, hfields, mend_append hfind rfl hfields true _⟩

/-- What is made by the fields in front is mended by the others. -/
example : (groups.mend groups.declarations[0] false .null).value =
    .object [
      ("lead",
        .object [("name", .string ""), ("group", .object []),
        ("since", .number (.integer 0))]),
      ("title", .string "")] := rfl

end Schema

end ShapeMend
