import ShapeMend.Event
import ShapeMend.Script.Reader.Module

/-!
# The declarations of a script

Interfaces, object aliases and unions of literals become declarations.  Whatever
a shape cannot say is left out and noted; only a script that cannot be read at
all is an error.
-/

namespace ShapeMend.Script

open ShapeMend.Text

structure Scope where
  source : String
  parameters : List String

namespace Scope

def unsupported (scope : Scope) (span : Span) (form : String) : Logged Unit :=
  .note (.unsupported scope.source span.start form)

end Scope

def LiteralValue.toLiteral? : LiteralValue → Option Literal
  | string value => some (.string value)
  | number value => if value.isFinite then some (.number value) else none
  | boolean value => some (.boolean value)
  | bigInteger _ => none

mutual

def TypeNode.alternatives (scope : Scope) : TypeNode → Logged (List Alternative)
  | .keyword span word =>
    match Primitive.ofKeyword? word with
    | some primitive => pure [.one (.primitive primitive)]
    | none => do
      scope.unsupported span (Text.ticked word ++ " type")
      return []
  | .literal span value =>
    match value.toLiteral? with
    | some literal => pure [.one (.literal literal)]
    | none => do
      scope.unsupported span value.name
      return []
  | .array _ element => do
    let alternatives ← element.alternatives scope
    return alternatives.map fun alternative =>
      { alternative with isArray := true }
  | .union _ branches => branchAlternatives scope branches
  | .parenthesized _ inner => inner.alternatives scope
  | .object _ members => do
    let fields ← memberFields scope members
    return [.one (.inline fields)]
  | .reference span name qualified arguments =>
    if qualified || !arguments.isEmpty then do
      scope.unsupported span
        (TypeNode.reference span name qualified arguments).form
      return []
    else if scope.parameters.contains name then do
      scope.unsupported span
        ("reference to type parameter " ++ Text.ticked name)
      return []
    else pure [.one (.reference name)]
  | node => do
    scope.unsupported node.span node.form
    return []

def branchAlternatives (scope : Scope) :
    List TypeNode → Logged (List Alternative)
  | [] => pure []
  | branch :: branches => do
    let first ← branch.alternatives scope
    let more ← branchAlternatives scope branches
    return first ++ more

/-- The fields of a member list.  Properties without any alternative are left
out, and so is every other member. -/
def memberFields (scope : Scope) : List Member → Logged (List Field)
  | [] => pure []
  | .property span key optional declared :: members => do
    let alternatives ← declaredAlternatives scope declared
    if alternatives.isEmpty then
      .note (.fieldOmitted scope.source span.start.line key)
      memberFields scope members
    else
      let more ← memberFields scope members
      return ⟨key, optional, alternatives⟩ :: more
  | .other span form :: members => do
    scope.unsupported span form.name
    memberFields scope members

def declaredAlternatives (scope : Scope) :
    Option TypeNode → Logged (List Alternative)
  | none => pure [.one (.primitive .any)]
  | some node => node.alternatives scope

end

mutual

def TypeNode.literals? : TypeNode → Option (List Literal)
  | .literal _ value => value.toLiteral?.map fun literal => [literal]
  | .parenthesized _ inner => inner.literals?
  | .union _ branches => branchLiterals? branches
  | _ => none

def branchLiterals? : List TypeNode → Option (List Literal)
  | [] => some []
  | branch :: branches => do
    let first ← branch.literals?
    let more ← branchLiterals? branches
    return first ++ more

end

namespace InterfaceItem

def scope (source : String) (item : InterfaceItem) : Scope :=
  ⟨source, item.parameters.map (·.name.text)⟩

def declaration (source : String) (item : InterfaceItem) :
    Logged Declaration := do
  unless item.parents.isEmpty do
    .note (.parentsNotFlattened source item.span.start.line item.name.text)
  let fields ← memberFields (item.scope source) item.members
  return ⟨item.name.text, .interface, item.exported, fields⟩

end InterfaceItem

namespace AliasItem

def scope (source : String) (item : AliasItem) : Scope :=
  ⟨source, item.parameters.map (·.name.text)⟩

def declaration? (source : String) (item : AliasItem) :
    Logged (Option Declaration) :=
  let name := item.name.text
  match item.type.unparenthesized with
  | .object _ members => do
    let fields ← memberFields (item.scope source) members
    return some ⟨name, .objectAlias, item.exported, fields⟩
  | _ =>
    match item.type.literals? with
    | some literals =>
      let alternatives :=
        literals.map fun literal => Alternative.one (.literal literal)
      pure
        (some
          ⟨name, .literalUnion, item.exported, [⟨name, false, alternatives⟩]⟩)
    | none => do
      .note (.aliasSkipped source item.type.span.start name item.type.form)
      return none

end AliasItem

def Item.declaration? (source : String) : Item → Logged (Option Declaration)
  | .interface item => do return some (← item.declaration source)
  | .typeAlias item => item.declaration? source
  | .other _ => pure none

def mergeItems (source : String) (exportAll : Bool) :
    Schema → List Item → Logged Schema
  | schema, [] => pure schema
  | schema, item :: items => do
    match ← item.declaration? source with
    | none => mergeItems source exportAll schema items
    | some declaration =>
      let declaration :=
        { declaration with exported := declaration.exported || exportAll }
      let schema ← schema.mergeFrom source declaration
      mergeItems source exportAll schema items

end ShapeMend.Script

namespace ShapeMend

structure SourceError where
  source : Text.Source
  error : Script.SyntaxError

namespace SourceError

def message (e : SourceError) : String := e.error.flaw.message

def report (e : SourceError) : String :=
  e.source.report e.error.position.line e.error.position.column "error"
    e.message

end SourceError

def schemaOfSource (source : Text.Source) (exportAll : Bool) :
    Except SourceError (Logged Schema) :=
  match Script.itemsOfText source.chars with
  | .error error => .error ⟨source, error⟩
  | .ok items => .ok (Script.mergeItems source.id exportAll .empty items)

end ShapeMend
