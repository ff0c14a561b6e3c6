import ShapeMend.Event
import ShapeMend.Mend.Primitive
import ShapeMend.Schema.Descriptor

/-!
# Mending values

A value is mended against a declaration and never refused.  The value of each
field is kept if one of its alternatives accepts it, and is then mended inside;
otherwise the default of the last alternative takes its place.  Alternatives for
objects accept every value: an object is mended, a list has its objects mended,
anything else stays as it is.

The trail holds the object shapes that are being mended.  An object for a shape
on the trail is left alone, and its default is the empty object, so that cyclic
references come to an end.  Whatever is entered through a reference is a
declaration that was not on the trail, and there are no more such levels than
declarations.
-/

namespace ShapeMend

/-- A shape that is being mended: a declaration, or the fields written out at a
place in one. -/
inductive Site where
  | declaration (name : String)
  /-- The place is given by the indexes of fields and alternatives on the way to
  it, innermost first. -/
  | inline (owner : String) (location : List Nat)
  deriving DecidableEq

abbrev Trail := List Site

abbrev Members := List (String × Json)

/-- How an object is entered: what becomes of its members, given the trail, the
site of the object and the change that its fields ask for. -/
abbrev Entry := Trail → Site → (Trail → Members → Logged Members) → Members →
  Logged Members

def Entry.tracked : Entry := fun trail site change members =>
  if site ∈ trail then pure members else change (site :: trail) members

/-- What is done at references to declarations, and with objects that are
written out in place. -/
structure References where
  /-- How an object that is written out in place is entered. -/
  enter : Entry
  /-- The mended value, if the declaration accepts it. -/
  accept : Trail → String → Json → Logged (Option Json)
  /-- The mended element of a list. -/
  element : Trail → String → Json → Logged Json
  /-- The default. -/
  fallback : Trail → String → Logged Json
  /-- Whether the declaration describes objects, as far as is known. -/
  describesObject : String → Bool

namespace Mend

def object (enter : Entry) (trail : Trail) (site : Site)
    (change : Trail → Members → Logged Members) :
    Json → Logged Json
  | .object members => do return .object (← enter trail site change members)
  | value => pure value

def fresh (enter : Entry) (trail : Trail) (site : Site)
    (change : Trail → Members → Logged Members) : Logged Json :=
  object enter trail site change (.object [])

section

variable (references : References) (owner : String)

mutual

/-- The members with every field mended or filled in.  The fields are counted
from the given index. -/
def fields (location : List Nat) (trail : Trail) (index : Nat) :
    List (FieldOf Shape) → Members → Logged Members
  | [], members => pure members
  | ⟨key, _, alternatives⟩ :: rest, members => do
    let kept ← match Keyed.lookup key members with
      | some value =>
        firstAccepted (index :: location) trail 0 alternatives value
      | none => pure none
    let filled ← match kept with
      | some value => pure (some value)
      | none => lastFallback (index :: location) trail 0 alternatives
    let members := match filled with
      | some value => Keyed.put key value members
      | none => members
    fields location trail (index + 1) rest members

/-- The value as the first alternative that accepts it leaves it. -/
def firstAccepted (location : List Nat) (trail : Trail) (index : Nat) :
    List (AlternativeOf Shape) → Json → Logged (Option Json)
  | [], _ => pure none
  | ⟨shape, isArray⟩ :: rest, value => do
    let accepted ←
      if isArray then acceptList (index :: location) trail shape value
      else accept (index :: location) trail shape value
    match accepted with
    | some value => return some value
    | none => firstAccepted location trail (index + 1) rest value

def accept (location : List Nat) (trail : Trail) :
    Shape → Json → Logged (Option Json)
  | .primitive primitive, value =>
    pure (if primitive.admits value.kind then some value else none)
  | .literal literal, value =>
    pure (if literal.accepts value then some value else none)
  | .inline inside, value => do
    return some (← object references.enter trail (.inline owner location)
      (fun trail members => fields location trail 0 inside members) value)
  | .reference name, value => references.accept trail name value

/-- The value under a list of one shape.  Only the objects in a list are looked
into, and only where the shape describes objects. -/
def acceptList (location : List Nat) (trail : Trail) :
    Shape → Json → Logged (Option Json)
  | .primitive _, value =>
    pure (if value.kind = .array then some value else none)
  | .literal _, value => pure (if value.kind = .array then some value else none)
  | .inline inside, .array items => do
    let items ←
        items.mapM (object references.enter trail (.inline owner location)
      (fun trail members => fields location trail 0 inside members))
    return some (.array items)
  | .inline _, value => pure (some value)
  | .reference name, .array items => do
    let items ← items.mapM (references.element trail name)
    return some (.array items)
  | .reference name, value =>
    pure (if references.describesObject name then some value else none)

def lastFallback (location : List Nat) (trail : Trail) (index : Nat) :
    List (AlternativeOf Shape) → Logged (Option Json)
  | [] => pure none
  | [⟨shape, isArray⟩] => do
    return some (← if isArray then pure (.array [])
      else fallback (index :: location) trail shape)
  | _ :: next :: rest => lastFallback location trail (index + 1) (next :: rest)

def fallback (location : List Nat) (trail : Trail) : Shape → Logged Json
  | .primitive primitive => pure primitive.fallback
  | .literal literal => pure literal.toJson
  | .inline inside =>
    fresh references.enter trail (.inline owner location)
      (fun trail members => fields location trail 0 inside members)
  | .reference name => references.fallback trail name

end

end

end Mend

namespace Declaration

def site (declaration : Declaration) : Site := .declaration declaration.name

/-- The alternatives of the first field, which are those of a literal union. -/
def unionAlternatives (declaration : Declaration) : List Alternative :=
  match declaration.fields with
  | [] => []
  | field :: _ => field.alternatives

def unionLocation : List Nat := [0]

def change (declaration : Declaration) (references : References) (trail : Trail)
    (members : Members) : Logged Members :=
  Mend.fields references declaration.name [] trail 0 declaration.fields members

def acceptUnion (declaration : Declaration) (references : References)
    (trail : Trail) (value : Json) : Logged (Option Json) :=
  Mend.firstAccepted references declaration.name unionLocation trail 0
    declaration.unionAlternatives value

def unionFallback (declaration : Declaration) (references : References)
    (trail : Trail) : Logged (Option Json) :=
  Mend.lastFallback references declaration.name unionLocation trail 0
    declaration.unionAlternatives

def mendList (declaration : Declaration)
    (mendOne : Json → Logged Json) : Json → Logged Json
  | .array items =>
    if declaration.kind.isObject then do
      let items ← items.mapM fun item => if item.isObject then mendOne item
          else pure item
      return .array items
    else pure (.array items)
  | .null => pure (.array [])
  | value => pure (if declaration.kind.isObject then value else .array [])

end Declaration

namespace References

/-- A reference inside a declaration that was entered through the outer one.
Without inner references, every declaration counts as being on the trail. -/
def within (inner : Option References) (trail : Trail)
    (site : Site) : Option References :=
  if site ∈ trail then none else inner

/-- The references of a schema over those that are reached through them.
Whatever the entry, declarations are looked up on the trail. -/
def ofSchema (enter : Entry) (schema : Schema)
    (inner : Option References) : References where
  enter := enter
  describesObject name := (schema.find? name).all (·.kind.isObject)
  accept trail name value :=
    match schema.find? name with
    | none => do
      .note (.unresolvedKept name)
      return some value
    | some declaration =>
      match within inner trail declaration.site with
      | none => pure (if declaration.kind.isObject then some value else none)
      | some inner =>
        if declaration.kind.isObject then do
          return some
            (← Mend.object .tracked trail declaration.site
              (declaration.change inner) value)
        else declaration.acceptUnion inner (declaration.site :: trail) value
  element trail name item :=
    match schema.find? name with
    | none => pure item
    | some declaration =>
      match within inner trail declaration.site with
      | none => pure item
      | some inner =>
        if declaration.kind.isObject then
          Mend.object .tracked trail declaration.site
            (declaration.change inner) item
        else pure item
  fallback trail name :=
    match schema.find? name with
    | none => do
      .note (.unresolvedFilled name)
      return .object []
    | some declaration =>
      match within inner trail declaration.site with
      | none => pure (if declaration.kind.isObject then .object [] else .null)
      | some inner =>
        if declaration.kind.isObject then
          Mend.fresh .tracked trail declaration.site (declaration.change inner)
        else
          do
            let default? ←
              declaration.unionFallback inner (declaration.site :: trail)
            return default?.getD .null

def mendOne (references : References) (declaration : Declaration)
    (value : Json) : Logged Json :=
  if declaration.kind.isObject then
    let change := declaration.change references
    match value with
    | .null => Mend.fresh .tracked [] declaration.site change
    | value => Mend.object .tracked [] declaration.site change value
  else do
    match ← declaration.acceptUnion references [] value with
    | some value => return value
    | none => return (← declaration.unionFallback references []).getD value

def mend (references : References) (declaration : Declaration) (isArray : Bool)
    (value : Json) : Logged Json :=
  if isArray then declaration.mendList (references.mendOne declaration) value
  else references.mendOne declaration value

end References

namespace Entry

def references (enter : Entry) (schema : Schema) : Nat → References
  | 0 => .ofSchema enter schema none
  | depth + 1 => .ofSchema enter schema (some (references enter schema depth))

def mend (enter : Entry) (schema : Schema) (declaration : Declaration)
    (isArray : Bool) (value : Json) : Logged Json :=
  (enter.references schema schema.declarations.length).mend declaration
    isArray value

end Entry

namespace Schema

variable (schema : Schema)

def references (depth : Nat) : References :=
  Entry.tracked.references schema depth

def mendOne (declaration : Declaration) (value : Json) : Logged Json :=
  (schema.references schema.declarations.length).mendOne declaration value

def mendList (declaration : Declaration) (value : Json) : Logged Json :=
  declaration.mendList (schema.mendOne declaration) value

def mend (declaration : Declaration) (isArray : Bool)
    (value : Json) : Logged Json :=
  if isArray then schema.mendList declaration value
  else schema.mendOne declaration value

end Schema

end ShapeMend
