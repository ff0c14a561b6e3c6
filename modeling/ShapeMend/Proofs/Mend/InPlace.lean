import Mathlib.Data.Finset.Basic
import ShapeMend.Proofs.Mend.Completeness

/-!
# Mending in place

Mending can change a value where it stands while its alternatives are tried one
after another, and keep the sites that are being mended in one set that every
step adds to and removes from.  An alternative that comes to nothing could then
leave its changes to the next one.  It does not: what is refused is as it was,
every step hands the set on as it found it, and the whole comes to what mending
gives that makes new values and carries a trail along.
-/

namespace ShapeMend

/-! ## Walks -/

/-- The sites that are being mended. -/
abbrev Underway := Finset Site

/-- A computation that changes a set of sites.  It has no result where
references are followed deeper than a bound. -/
abbrev Walk := StateT Underway (OptionT Logged)

namespace Walk

variable {α β : Type}

def note (event : Event) : Walk Unit :=
  fun visited => OptionT.mk ⟨some ((), visited), [event]⟩

def exhausted : Walk α := fun _ => OptionT.mk (pure none)

def enter (site : Site) (refused : α) (inside : Walk α) : Walk α := do
  if site ∈ (← get) then return refused
  else
    modify (insert site)
    let result ← inside
    modify fun visited => visited.erase site
    return result

def nested (site : Site) (change : Members → Walk Members) : Json → Walk Json
  | .object members =>
      enter site (.object members) (do return .object (← change members))
  | value => return value

theorem enter_apply (site : Site) (refused : α) (inside : Walk α)
    (visited : Underway) :
    enter site refused inside visited =
      if site ∈ visited then Pure.pure (refused, visited)
      else do
        let (result, inner) ← inside (insert site visited)
        return (result, inner.erase site) := by
  by_cases hsite : site ∈ visited
  · rw [if_pos hsite]
    change (if site ∈ visited then (return refused) else _ : Walk α) visited = _
    rw [if_pos hsite]
    rfl
  · rw [if_neg hsite]
    change (if site ∈ visited then (return refused) else _ : Walk α) visited = _
    rw [if_neg hsite]
    rfl

end Walk

namespace InPlace

open Walk

structure References where
  /-- Whether the declaration accepts the value, and what stands in its place
  then. -/
  check : String → Json → Walk (Bool × Json)
  element : String → Json → Walk Json
  fallback : String → Walk Json
  describesObject : String → Bool

section

variable (references : References) (owner : String)

mutual

def fields (location : List Nat) (index : Nat) :
    List (FieldOf Shape) → Members → Walk Members
  | [], members => return members
  | ⟨key, _, alternatives⟩ :: rest, members => do
    let (kept, members) ← match Keyed.lookup key members with
      | some value => do
        let (accepted, value) ← accept (index :: location) 0 alternatives value
        pure (accepted, Keyed.put key value members)
      | none => pure (false, members)
    if kept then fields location (index + 1) rest members
    else
      match ← lastFallback (index :: location) 0 alternatives with
      | some value =>
          fields location (index + 1) rest (Keyed.put key value members)
      | none => fields location (index + 1) rest members

/-- Whether an alternative accepts the value, and what the alternatives up to
that one have made of it. -/
def accept (location : List Nat) (index : Nat) :
    List (AlternativeOf Shape) → Json → Walk (Bool × Json)
  | [], value => return (false, value)
  | alternative :: rest, value => do
    let (accepted, value) ← check (index :: location) alternative value
    if accepted then return (true, value)
    else accept location (index + 1) rest value

/-- Whether one alternative accepts the value, and what it has made of it. -/
def check (location : List Nat) :
    AlternativeOf Shape → Json → Walk (Bool × Json)
  | ⟨shape, isArray⟩, value =>
      if isArray then checkList location shape value
        else checkOne location shape value

def checkList (location : List Nat) : Shape → Json → Walk (Bool × Json)
  | .inline inside, .array items => do
    return (true,
      .array (← items.mapM
        (nested (.inline owner location) (fields location 0 inside))))
  | .reference name, .array items =>
      do return (true, .array (← items.mapM (references.element name)))
  | .inline _, value => return (true, value)
  | .reference name, value => return (references.describesObject name, value)
  | .primitive _, value => return (value.kind = .array, value)
  | .literal _, value => return (value.kind = .array, value)

def checkOne (location : List Nat) : Shape → Json → Walk (Bool × Json)
  | .primitive primitive, value => return (primitive.admits value.kind, value)
  | .literal literal, value => return (literal.accepts value, value)
  | .inline inside, value => do
    return (true,
      ← nested (.inline owner location) (fields location 0 inside) value)
  | .reference name, value => references.check name value

def lastFallback (location : List Nat) (index : Nat) :
    List (AlternativeOf Shape) → Walk (Option Json)
  | [] => return none
  | [⟨shape, isArray⟩] => do
    return some (← if isArray then pure (.array [])
      else fallback (index :: location) shape)
  | _ :: next :: rest => lastFallback location (index + 1) (next :: rest)

def fallback (location : List Nat) : Shape → Walk Json
  | .primitive primitive => return primitive.fallback
  | .literal literal => return literal.toJson
  | .inline inside =>
      nested (.inline owner location) (fields location 0 inside) (.object [])
  | .reference name => references.fallback name

end

end

def change (declaration : Declaration) (inner : Option References)
    (members : Members) : Walk Members :=
  match inner with
  | none => exhausted
  | some references =>
      fields references declaration.name [] 0 declaration.fields members

def acceptUnion (declaration : Declaration) (inner : Option References)
    (value : Json) : Walk (Bool × Json) :=
  match inner with
  | none => exhausted
  | some references =>
    accept references declaration.name Declaration.unionLocation 0
      declaration.unionAlternatives value

def unionFallback (declaration : Declaration) (inner : Option References) :
    Walk (Option Json) :=
  match inner with
  | none => exhausted
  | some references =>
    lastFallback references declaration.name Declaration.unionLocation 0
      declaration.unionAlternatives

def References.ofSchema (schema : Schema)
    (inner : Option References) : References where
  describesObject name := (schema.find? name).all (·.kind.isObject)
  check name value :=
    match schema.find? name with
    | none => do
      note (.unresolvedKept name)
      return (true, value)
    | some declaration =>
      if declaration.kind.isObject then do
        return (true,
          ← nested declaration.site (change declaration inner) value)
      else
        enter declaration.site (false, value)
          (acceptUnion declaration inner value)
  element name item :=
    match schema.find? name with
    | none => return item
    | some declaration =>
      if declaration.kind.isObject then
        nested declaration.site (change declaration inner) item
      else return item
  fallback name :=
    match schema.find? name with
    | none => do
      note (.unresolvedFilled name)
      return .object []
    | some declaration =>
      if declaration.kind.isObject then
        nested declaration.site (change declaration inner) (.object [])
      else if declaration.unionAlternatives.isEmpty then return .null
      else
        enter declaration.site .null
          (do return (← unionFallback declaration inner).getD .null)

/-- The references of a schema, followed through at most the given number of
declarations. -/
def references (schema : Schema) : Nat → References
  | 0 => .ofSchema schema none
  | depth + 1 => .ofSchema schema (some (references schema depth))

/-- A value that must be what the declaration describes; null stands for a
missing value. -/
def mendOne (schema : Schema) (declaration : Declaration)
    (value : Json) : Walk Json :=
  let references := some (references schema schema.declarations.length)
  if declaration.kind.isObject then
    match value with
    | .null =>
        nested declaration.site (change declaration references) (.object [])
    | value => nested declaration.site (change declaration references) value
  else do
    let (accepted, value) ← acceptUnion declaration references value
    if accepted then return value
    else return (← unionFallback declaration references).getD value

/-- A value that must be a list of what the declaration describes. -/
def mendList (schema : Schema) (declaration : Declaration) : Json → Walk Json
  | .array items =>
    if declaration.kind.isObject then do
      let items ← items.mapM fun item =>
          if item.isObject then mendOne schema declaration item else pure item
      return .array items
    else return .array items
  | .null => return .array []
  | value => return if declaration.kind.isObject then value else .array []

def mend (schema : Schema) (declaration : Declaration) (isArray : Bool)
    (value : Json) : Walk Json :=
  if isArray then mendList schema declaration value
  else mendOne schema declaration value

end InPlace

/-! ## Walks that hand the set on as they found it -/

/-- With the sites of the trail in the set, the walk comes to the value and the
events, and the set is the same after it. -/
def Returns {α : Type} (trail : Trail) (walk : Walk α)
    (made : Logged α) : Prop :=
  walk trail.toFinset =
    OptionT.mk ⟨some (made.value, trail.toFinset), made.events⟩

namespace Returns

variable {α β : Type} {trail : Trail} {walk : Walk α} {made : Logged α}
  {site : Site}

theorem pure (value : α) : Returns trail (Pure.pure value) (Pure.pure value) :=
  rfl

theorem bind {value : α} {result : β} {events more : List Event}
    {next : α → Walk β} (h : Returns trail walk ⟨value, events⟩)
    (hnext : Returns trail (next value) ⟨result, more⟩) :
    Returns trail (walk >>= next) ⟨result, events ++ more⟩ := by
  have hwalk : (walk >>= next) trail.toFinset =
      walk trail.toFinset >>= fun (value, visited) => next value visited := rfl
  have hrest :
      (OptionT.mk (Logged.mk (some (value, trail.toFinset)) events) >>=
        fun (value, visited) =>
      next value visited) =
        OptionT.mk (Logged.mk (next value trail.toFinset).run.value
        (events ++ (next value trail.toFinset).run.events)) := rfl
  rw [Returns, hwalk, h, hrest, hnext]
  rfl

private theorem pure_bind {value : α} {next : α → Walk β} {made : Logged β}
    (h : Returns trail (next value) made) :
    Returns trail (Pure.pure value >>= next) made := h

private theorem note (event : Event) :
    Returns trail (Walk.note event) (.note event) := rfl

theorem mapM {first : α → Walk β} {second : α → Logged β} (items : List α)
    (h : ∀ item, Returns trail (first item) (second item)) :
    Returns trail (items.mapM first) (items.mapM second) := by
  suffices hloop : ∀ done,
      Returns trail (List.mapM.loop first items done)
      (List.mapM.loop second items done) from
    hloop []
  induction items with
  | nil => exact fun done => pure done.reverse
  | cons item items ih => exact fun done => (h item).bind (ih _)

theorem enter_of_mem (hsite : site ∈ trail) (refused : α) (inside : Walk α) :
    Returns trail (Walk.enter site refused inside) (Pure.pure refused) := by
  rw [Returns, Walk.enter_apply, if_pos (List.mem_toFinset.mpr hsite)]
  rfl

theorem enter_of_not_mem (hsite : site ∉ trail) (refused : α)
    (h : Returns (site :: trail) walk made) :
    Returns trail (Walk.enter site refused walk) made := by
  have hfinset : site ∉ trail.toFinset :=
    fun hmem => hsite (List.mem_toFinset.mp hmem)
  rw [Returns, List.toFinset_cons] at h
  rw [Returns, Walk.enter_apply, if_neg hfinset, h]
  change OptionT.mk
    (Logged.mk (some (made.value, (insert site trail.toFinset).erase site))
      (made.events ++ [])) = _
  rw [Finset.erase_insert hfinset, List.append_nil]

private theorem nested_of_mem (hsite : site ∈ trail)
    {change : Members → Walk Members} (value : Json) :
    Returns trail (Walk.nested site change value) (Pure.pure value) := by
  cases value with
  | object members => exact enter_of_mem hsite _ _
  | _ => exact pure _

/-- Changing the members of an object in a walk is making an object of changed
members. -/
theorem nested {change : Members → Walk Members}
    {make : Trail → Members → Logged Members} (value : Json)
    (h : site ∉ trail → ∀ members,
      Returns (site :: trail) (change members) (make (site :: trail) members)) :
    Returns trail (Walk.nested site change value)
      (Mend.object .tracked trail site make value) := by
  cases value with
  | object members =>
      simp only [Walk.nested, Mend.object, Entry.tracked]
      split
      · next hmem => exact enter_of_mem hmem _ _
      · next hmem =>
            exact enter_of_not_mem hmem _ ((h hmem members).bind (pure _))
  | _ => exact pure _

end Returns

/-! ## What is made and what is changed in place -/

def verdict (value : Json) : Option Json → Bool × Json
  | some accepted => (true, accepted)
  | none => (false, value)

def Settles (trail : Trail) (walk : Walk (Bool × Json)) (value : Json)
    (made : Logged (Option Json)) : Prop :=
  Returns trail walk ⟨verdict value made.value, made.events⟩

namespace Settles

variable {α : Type} {trail : Trail} {value : Json}

private theorem test {accepted : Bool} {condition : Prop} [Decidable condition]
    (h : accepted = true ↔ condition) :
    Settles trail (return (accepted, value)) value
      (pure (if condition then some value else none)) := by
  cases accepted with
  | true =>
      rw [if_pos (h.mp rfl)]
      exact .pure _
  | false =>
      rw [if_neg (mt h.mpr Bool.false_ne_true)]
      exact .pure _

theorem accepted {walk : Walk α} {made : Logged α} (h : Returns trail walk made)
    (post : α → Json) :
    Settles trail (do return (true, post (← walk))) value
      (do return some (post (← made))) :=
  Returns.bind h (.pure (true, post made.value))

private theorem orElse {walk : Walk (Bool × Json)}
    {made second : Logged (Option Json)} {next : Json → Walk (Bool × Json)}
    (hwalk : Settles trail walk value made)
    (hnext : Settles trail (next value) value second) :
    Settles trail
      (do
        let (accepted, value) ← walk
        if accepted then return (true, value) else next value)
      value
      (do
        match ← made with
        | some value => return some value
        | none => second) := by
  obtain ⟨result, events⟩ := made
  cases result with
  | some accepted => exact Returns.bind hwalk (.pure (true, accepted))
  | none => exact Returns.bind hwalk hnext

end Settles

namespace InPlace

/-- Where no more declarations than a bound are left to be entered, what the
references do in place comes to what the others make. -/
structure References.Refines (schema : Schema) (bound : Nat)
    (first : References)
    (second : ShapeMend.References) : Prop where
  enter : second.enter = .tracked
  check : ∀ trail, (schema.unvisited trail).length ≤ bound → ∀ name value,
    Settles trail (first.check name value) value
      (second.accept trail name value)
  element : ∀ trail, (schema.unvisited trail).length ≤ bound → ∀ name item,
    Returns trail (first.element name item) (second.element trail name item)
  fallback : ∀ trail, (schema.unvisited trail).length ≤ bound → ∀ name,
    Returns trail (first.fallback name) (second.fallback trail name)
  describesObject : ∀ name,
    first.describesObject name = second.describesObject name

section

variable {schema : Schema} {bound : Nat} {first : References}
  {second : ShapeMend.References}

mutual

private theorem shape_refines (hrefines : first.Refines schema bound second)
    (shape : Shape) (owner : String) (location : List Nat) (trail : Trail)
    (hbound : (schema.unvisited trail).length ≤ bound) :
    (∀ value, Settles trail (checkOne first owner location shape value) value
        (Mend.accept second owner location trail shape value)) ∧
      (∀ value, Settles trail (checkList first owner location shape value) value
        (Mend.acceptList second owner location trail shape value)) ∧
      Returns trail (fallback first owner location shape)
        (Mend.fallback second owner location trail shape) := by
  match shape with
  | .primitive primitive =>
      exact ⟨fun _ => .test .rfl, fun _ => .test decide_eq_true_iff, .pure _⟩
  | .literal literal =>
      exact ⟨fun _ => .test .rfl, fun _ => .test decide_eq_true_iff, .pure _⟩
  | .reference name =>
      refine ⟨hrefines.check trail hbound name, fun value => ?_,
        hrefines.fallback trail hbound name⟩
      cases value with
      | array items =>
          exact .accepted (.mapM items (hrefines.element trail hbound name))
            Json.array
      | _ =>
          simp only [checkList, Mend.acceptList, hrefines.describesObject name]
          exact .test .rfl
  | .inline fields =>
      have hnested (value : Json) :
          Returns trail
            (Walk.nested (.inline owner location)
              (InPlace.fields first owner location 0 fields) value)
            (Mend.object second.enter trail (.inline owner location)
              (fun trail members => Mend.fields second owner location trail 0
                fields members) value) := by
        rw [hrefines.enter]
        refine .nested value fun _ members => ?_
        exact fields_refines hrefines fields owner location
          (.inline owner location :: trail)
          ((schema.unvisited_inline owner location trail).symm ▸ hbound)
            0 members
      refine ⟨fun value => .accepted (hnested value) id, fun value => ?_,
        hnested (.object [])⟩
      cases value with
      | array items => exact .accepted (.mapM items hnested) Json.array
      | _ => exact .pure _

private theorem fields_refines (hrefines : first.Refines schema bound second)
    (fields : List (FieldOf Shape)) (owner : String) (location : List Nat)
    (trail : Trail) (hbound : (schema.unvisited trail).length ≤ bound)
    (index : Nat) (members : Members) :
    Returns trail (InPlace.fields first owner location index fields members)
      (Mend.fields second owner location trail index fields members) := by
  match fields with
  | [] => exact .pure members
  | ⟨key, _, alternatives⟩ :: rest =>
      obtain ⟨haccepted, hdefault⟩ :=
        alternatives_refine hrefines alternatives owner (index :: location)
          trail hbound 0
      have hrest :=
        fields_refines hrefines rest owner location trail hbound (index + 1)
      simp only [InPlace.fields, Mend.fields]
      cases hlookup : Keyed.lookup key members with
      | none =>
          generalize Mend.lastFallback second owner (index :: location) trail 0
            alternatives = filled at hdefault ⊢
          obtain ⟨filled, events⟩ := filled
          cases filled with
          | some value => exact Returns.pure_bind (hdefault.bind (hrest _))
          | none => exact Returns.pure_bind (hdefault.bind (hrest _))
      | some value =>
          dsimp only
          have hkept := haccepted value
          generalize Mend.firstAccepted second owner (index :: location) trail 0
            alternatives value = kept at hkept ⊢
          obtain ⟨kept, earlier⟩ := kept
          cases kept with
          | some accepted => exact Returns.bind hkept (.pure_bind (hrest _))
          | none =>
              have hput : Keyed.put key value members = members :=
                Keyed.put_of_lookup hlookup
              generalize Mend.lastFallback second owner (index :: location)
                trail 0 alternatives = filled at hdefault ⊢
              obtain ⟨filled, events⟩ := filled
              refine Returns.bind hkept (.pure_bind ?_)
              dsimp only [verdict]
              rw [hput]
              cases filled with
              | some value => exact hdefault.bind (hrest _)
              | none => exact hdefault.bind (hrest _)

theorem alternatives_refine (hrefines : first.Refines schema bound second)
    (alternatives : List (AlternativeOf Shape)) (owner : String)
    (location : List Nat) (trail : Trail)
    (hbound : (schema.unvisited trail).length ≤ bound) (index : Nat) :
    (∀ value,
      Settles trail (accept first owner location index alternatives value) value
        (Mend.firstAccepted second owner location trail index alternatives
          value)) ∧
      Returns trail (lastFallback first owner location index alternatives)
        (Mend.lastFallback second owner location trail index alternatives) := by
  match alternatives with
  | [] => exact ⟨fun _ => .pure _, .pure _⟩
  | ⟨shape, isArray⟩ :: rest =>
      obtain ⟨hone, hlist, hdefault⟩ :=
        shape_refines hrefines shape owner (index :: location) trail hbound
      obtain ⟨hlater, hlast⟩ :=
        alternatives_refine hrefines rest owner location trail hbound
          (index + 1)
      refine ⟨fun value => ?_, ?_⟩
      · cases isArray with
        | true => exact (hlist value).orElse (hlater value)
        | false => exact (hone value).orElse (hlater value)
      · cases rest with
        | nil =>
            cases isArray with
            | true => exact .pure _
            | false => exact hdefault.bind (.pure _)
        | cons next rest => exact hlast

end

section Declared

variable (hrefines : first.Refines schema bound second)
  (declaration : Declaration) {trail : Trail}
  (hbound : (schema.unvisited trail).length ≤ bound)
include hrefines hbound

theorem change_refines (members : Members) :
    Returns trail (change declaration (some first) members)
      (declaration.change second trail members) :=
  fields_refines hrefines declaration.fields declaration.name [] trail hbound
    0 members

theorem acceptUnion_refines (value : Json) :
    Settles trail (acceptUnion declaration (some first) value) value
      (declaration.acceptUnion second trail value) :=
  (alternatives_refine hrefines declaration.unionAlternatives declaration.name
    Declaration.unionLocation trail hbound 0).1 value

theorem unionFallback_refines :
    Returns trail (unionFallback declaration (some first))
      (declaration.unionFallback second trail) :=
  (alternatives_refine hrefines declaration.unionAlternatives declaration.name
    Declaration.unionLocation trail hbound 0).2

end Declared

end

def References.RefinesInside (schema : Schema) (bound : Nat)
    (first : Option References) (second : Option ShapeMend.References) : Prop :=
  ∀ inside, bound = inside + 1 → ∃ below other,
    first = some below ∧ second = some other ∧ below.Refines schema inside other

section

variable {schema : Schema} {bound : Nat} {first : Option References}
  {second : Option ShapeMend.References}

private theorem References.RefinesInside.enter
    (h : RefinesInside schema bound first second) {declaration : Declaration}
    (hmem : declaration ∈ schema.declarations) {trail : Trail}
    (hbound : (schema.unvisited trail).length ≤ bound) :
    (declaration.site ∈ trail ∧
      ShapeMend.References.within second trail declaration.site = none) ∨
      (declaration.site ∉ trail ∧ ∃ inside below other,
        first = some below ∧ ShapeMend.References.within second trail
          declaration.site = some other ∧
          below.Refines schema inside other ∧
            (schema.unvisited (declaration.site :: trail)).length ≤
            inside) := by
  by_cases hsite : declaration.site ∈ trail
  · exact .inl ⟨hsite, if_pos hsite⟩
  · have hless := Schema.length_unvisited_lt hmem hsite
    obtain ⟨inside, rfl⟩ : ∃ inside, bound = inside + 1 := ⟨bound - 1, by omega⟩
    obtain ⟨below, other, hfirst, hsecond, hrefines⟩ := h inside rfl
    exact .inr ⟨hsite, inside, below, other, hfirst,
      (if_neg hsite).trans hsecond, hrefines, by omega⟩

private theorem References.ofSchema_refines
    (h : RefinesInside schema bound first second) :
    (ofSchema schema first).Refines schema bound
      (.ofSchema .tracked schema second) where
  enter := rfl
  -- In each of the three ways to a declaration its site is either under way, or
  -- one fewer is left.
  check trail hbound name value := by
    simp only [ofSchema, ShapeMend.References.ofSchema]
    cases hfind : schema.find? name with
    | none => exact Returns.bind (.note _) (.pure (true, value))
    | some declaration =>
        dsimp only
        have hmem := (Schema.mem_of_find?_eq_some hfind).1
        rcases h.enter hmem hbound with
          ⟨hsite, hwithin⟩ |
            ⟨hsite, inside, below, other, rfl, hwithin, hrefines, hinside⟩
        · rw [hwithin]
          dsimp only
          split
          · exact .accepted (.nested_of_mem hsite value) id
          · exact Returns.enter_of_mem hsite _ _
        · rw [hwithin]
          dsimp only
          split
          · exact .accepted
              (.nested value
                fun _ => change_refines hrefines declaration hinside) id
          · exact Returns.enter_of_not_mem
              hsite _ (acceptUnion_refines hrefines declaration hinside value)
  element trail hbound name item := by
    simp only [ofSchema, ShapeMend.References.ofSchema]
    cases hfind : schema.find? name with
    | none => exact .pure item
    | some declaration =>
        dsimp only
        have hmem := (Schema.mem_of_find?_eq_some hfind).1
        rcases h.enter hmem hbound with
          ⟨hsite, hwithin⟩ |
            ⟨hsite, inside, below, other, rfl, hwithin, hrefines, hinside⟩
        · rw [hwithin]
          dsimp only
          split
          · exact .nested_of_mem hsite item
          · exact .pure item
        · rw [hwithin]
          dsimp only
          split
          · exact .nested item fun _ =>
              change_refines hrefines declaration hinside
          · exact .pure item
  fallback trail hbound name := by
    simp only [ofSchema, ShapeMend.References.ofSchema]
    cases hfind : schema.find? name with
    | none => exact Returns.bind (.note _) (.pure (Json.object []))
    | some declaration =>
        dsimp only
        have hmem := (Schema.mem_of_find?_eq_some hfind).1
        rcases h.enter hmem hbound with
          ⟨hsite, hwithin⟩ |
            ⟨hsite, inside, below, other, rfl, hwithin, hrefines, hinside⟩
        · rw [hwithin]
          dsimp only
          split
          · exact .nested_of_mem hsite (.object [])
          · split
            · exact .pure Json.null
            · exact Returns.enter_of_mem hsite _ _
        · rw [hwithin]
          dsimp only
          split
          · exact .nested (.object []) fun _ =>
              change_refines hrefines declaration hinside
          · split
            · next hempty =>
                rw [Declaration.unionFallback, List.isEmpty_iff.mp hempty]
                exact .pure Json.null
            · exact Returns.enter_of_not_mem hsite _
                (.bind (unionFallback_refines hrefines declaration hinside)
                  (.pure (Option.getD _ Json.null)))
  describesObject _ := rfl

end

theorem references_refines (schema : Schema) (depth : Nat) :
    (references schema depth).Refines schema depth
      (schema.references depth) := by
  induction depth with
  | zero => exact References.ofSchema_refines nofun
  | succ depth ih =>
      apply References.ofSchema_refines
      intro inside hinside
      obtain rfl : depth = inside := Nat.succ.inj hinside
      exact ⟨_, _, rfl, rfl, ih⟩

end InPlace

theorem Schema.length_unvisited_le (schema : Schema) (trail : Trail) :
    (schema.unvisited trail).length ≤ schema.declarations.length :=
  List.length_filter_le ..

namespace InPlace

variable (schema : Schema) (declaration : Declaration)

private theorem mendOne_refines (value : Json) :
    Returns [] (mendOne schema declaration value)
      (schema.mendOne declaration value) := by
  have hrefines := references_refines schema schema.declarations.length
  dsimp only [mendOne, Schema.mendOne, References.mendOne]
  split
  · have hnested (value : Json) :
        Returns [] (Walk.nested declaration.site (change declaration
              (some (references schema schema.declarations.length))) value)
          (Mend.object .tracked [] declaration.site
            (declaration.change (schema.references schema.declarations.length))
              value) :=
      .nested value fun _ =>
        change_refines hrefines declaration
        (schema.length_unvisited_le [declaration.site])
    cases value with
    | null => exact hnested (.object [])
    | _ => exact hnested _
  · have hbound := schema.length_unvisited_le []
    have haccepted := acceptUnion_refines hrefines declaration hbound value
    generalize declaration.acceptUnion
      (schema.references schema.declarations.length) [] value =
      made at haccepted ⊢
    obtain ⟨result, events⟩ := made
    cases result with
    | some accepted => exact Returns.bind haccepted (.pure accepted)
    | none =>
        exact Returns.bind haccepted
          (.bind (unionFallback_refines hrefines declaration hbound)
            (.pure (Option.getD _ value)))

private theorem mend_refines (isArray : Bool) (value : Json) :
    Returns [] (mend schema declaration isArray value)
      (schema.mend declaration isArray value) := by
  have hitem (item : Json) :
      Returns []
        (if item.isObject then mendOne schema declaration item else pure item)
        (if item.isObject then schema.mendOne declaration item
          else pure item) := by
    split
    · exact mendOne_refines schema declaration item
    · exact .pure item
  cases isArray with
  | false => exact mendOne_refines schema declaration value
  | true =>
      change Returns [] (mendList schema declaration value)
        (schema.mendList declaration value)
      cases value with
      | array items =>
          simp only [mendList, Schema.mendList, Declaration.mendList]
          split
          · exact Returns.bind (.mapM items hitem) (.pure (Json.array _))
          · exact .pure _
      | _ => exact .pure _

end InPlace

/-- The walk comes to an end and hands the set on as it found it.  In place of
the value stands what is made if that is accepted, and the value itself if
nothing is. -/
def LeavesNoTrace (visited : Underway) (walk : Walk (Bool × Json))
    (value : Json) (made : Logged (Option Json)) : Prop :=
  ∃ accepted after,
    (walk visited).run = ⟨some ((accepted, after), visited), made.events⟩ ∧
    made.value = (if accepted then some after else none) ∧
      (accepted = false → after = value)

private theorem Settles.leavesNoTrace {trail : Trail} {visited : Underway}
    (hvisited : trail.toFinset = visited) {walk : Walk (Bool × Json)}
    {value : Json} {made : Logged (Option Json)}
    (h : Settles trail walk value made) :
    LeavesNoTrace visited walk value made := by
  subst hvisited
  obtain ⟨result, events⟩ := made
  cases result with
  | some accepted => exact ⟨true, accepted, h, rfl, nofun⟩
  | none => exact ⟨false, value, h, rfl, fun _ => rfl⟩

/-- Whatever sites are being mended, a refused alternative leaves the value and
the set as they were, and so does a refused list of alternatives.  An accepted
one leaves the set as it was.  Both come to what mending makes of the value, and
so does mending in place as a whole. -/
theorem leavesNoTrace_check_and_accept (schema : Schema) (visited : Underway)
    (owner : String) (location : List Nat) (index : Nat) (value : Json) :
    (∀ shape isArray, LeavesNoTrace visited
        (InPlace.check (InPlace.references schema schema.declarations.length)
          owner location ⟨shape, isArray⟩ value) value (if isArray then
          Mend.acceptList (schema.references schema.declarations.length) owner
          location visited.toList shape value
          else
            Mend.accept (schema.references schema.declarations.length) owner
              location visited.toList shape value)) ∧
      (∀ alternatives, LeavesNoTrace visited
        (InPlace.accept (InPlace.references schema schema.declarations.length)
          owner location index alternatives value) value
        (Mend.firstAccepted (schema.references schema.declarations.length) owner
          location visited.toList index alternatives value)) ∧
      ∀ declaration isArray,
        (InPlace.mend schema declaration isArray value ∅).run =
        ⟨some ((schema.mend declaration isArray value).value, ∅),
          (schema.mend declaration isArray value).events⟩ := by
  have hrefines := InPlace.references_refines schema schema.declarations.length
  have hbound := schema.length_unvisited_le visited.toList
  refine ⟨fun shape isArray => ?_, fun alternatives => ?_,
    fun declaration isArray => ?_⟩
  · obtain ⟨hone, hlist, -⟩ :=
      InPlace.shape_refines hrefines shape owner location visited.toList hbound
    cases isArray with
    | true => exact (hlist value).leavesNoTrace visited.toList_toFinset
    | false => exact (hone value).leavesNoTrace visited.toList_toFinset
  · obtain ⟨haccept, -⟩ :=
      InPlace.alternatives_refine hrefines alternatives owner location
        visited.toList hbound index
    exact (haccept value).leavesNoTrace visited.toList_toFinset
  · exact InPlace.mend_refines schema declaration isArray value

end ShapeMend
