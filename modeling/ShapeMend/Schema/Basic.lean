import ShapeMend.Schema.Shape

/-!
# Schemas

A schema is a list of declarations with distinct names.  Declarations are added
one by one: a repeated name extends the fields of the first declaration, unless
one of the two is a union of literals.
-/

namespace ShapeMend

/-- What was declared.  Interfaces and object aliases describe objects; a
literal union describes one value, by a single field named after it. -/
inductive DeclarationKind where
  | interface
  | objectAlias
  | literalUnion
  deriving DecidableEq

namespace DeclarationKind

def keyword : DeclarationKind → String
  | interface => "interface"
  | objectAlias => "objectAlias"
  | literalUnion => "literalUnionAlias"

def isObject : DeclarationKind → Bool
  | literalUnion => false
  | _ => true

end DeclarationKind

structure Declaration where
  name : String
  kind : DeclarationKind
  exported : Bool
  fields : List Field

namespace Declaration

def agrees (a b : Declaration) : Bool :=
  a.name = b.name && a.kind = b.kind && a.exported =
    b.exported && fieldsAgree a.fields b.fields

def extend (first second : Declaration) : Declaration :=
  { first with
    exported := first.exported || second.exported
    fields := first.fields ++ second.fields }

end Declaration

structure Schema where
  declarations : List Declaration
  distinct : (declarations.map (·.name)).Nodup

inductive MergeOutcome where
  | inserted
  | appended
  | conflict
  deriving DecidableEq

namespace Schema

def empty : Schema := ⟨[], List.nodup_nil⟩

instance : Inhabited Schema := ⟨empty⟩

def names (schema : Schema) : List String := schema.declarations.map (·.name)

def find? (schema : Schema) (name : String) : Option Declaration :=
  schema.declarations.find? (·.name = name)

def contains (schema : Schema) (name : String) : Bool :=
  (schema.find? name).isSome

theorem not_mem_names_of_find?_eq_none {schema : Schema} {name : String}
    (absent : schema.find? name = none) :
    name ∉ schema.declarations.map (·.name) := by
  intro member
  obtain ⟨declaration, inside, rfl⟩ := List.mem_map.mp member
  simpa using List.find?_eq_none.mp absent declaration inside

def insert (schema : Schema) (declaration : Declaration)
    (absent : schema.find? declaration.name = none) : Schema where
  declarations := schema.declarations ++ [declaration]
  distinct := by
    rw [List.map_append, List.nodup_append]
    refine ⟨schema.distinct, by simp, ?_⟩
    intro a inside b last same
    have : b = declaration.name := by simpa using last
    exact not_mem_names_of_find?_eq_none absent (this ▸ same ▸ inside)

def append (schema : Schema) (declaration : Declaration) : Schema where
  declarations := schema.declarations.map fun first =>
    if first.name = declaration.name then first.extend declaration else first
  distinct := by
    have names_eq : (schema.declarations.map fun first =>
        if first.name = declaration.name then first.extend declaration
        else first).map (·.name)
        = schema.declarations.map (·.name) := by
      rw [List.map_map]
      apply List.map_congr_left
      intro first _
      simp only [Function.comp_apply]
      split <;> rfl
    rw [names_eq]
    exact schema.distinct

/-- Adds a declaration.  A literal union neither extends a declaration nor is
extended; of such a pair the first is kept. -/
def merge (schema : Schema) (declaration : Declaration) :
    MergeOutcome × Schema :=
  match found : schema.find? declaration.name with
  | none => (.inserted, schema.insert declaration found)
  | some first =>
    if first.kind.isObject && declaration.kind.isObject then
      (.appended, schema.append declaration)
    else (.conflict, schema)

def ofDeclarations (declarations : List Declaration) : Schema :=
  declarations.foldl
    (fun schema declaration => (schema.merge declaration).2) empty

def agrees (a b : Schema) : Bool :=
  a.declarations.length = b.declarations.length
    && a.declarations.all fun declaration =>
      (b.find? declaration.name).any (declaration.agrees ·)

end Schema

end ShapeMend
