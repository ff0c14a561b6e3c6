import ShapeMend.Proofs.Mend.References

/-!
# Objects written out in place

A declaration can be reached again from inside itself, an object that is written
out cannot: its place is on the trail only while its declaration is, and inside
the object there are only places further in.  So it does not matter what would
be done with an object whose place is on the trail already, nor whether places
are put on the trail at all. So mending with another entry for such objects is
the same.
-/

namespace ShapeMend

namespace Entry

/-- Places are put on the trail, and where one is found there, something is done
with the members as they are. -/
def again (repeated : Members → Logged Members) : Entry :=
  fun trail site change members =>
  if site ∈ trail then repeated members else change (site :: trail) members

/-- Places are neither put on the trail nor looked up there. -/
def untracked : Entry := fun trail _ change members => change trail members

end Entry

/-! ## Trails -/

structure Trail.Keeps (kept trail : Trail) : Prop where
  subset : kept ⊆ trail
  names : ∀ {name : String},
    .declaration name ∈ trail → .declaration name ∈ kept

def Trail.Owned (trail : Trail) : Prop :=
  ∀ {owner : String} {location : List Nat},
    .inline owner location ∈ trail → .declaration owner ∈ trail

/-- A trail on which are, of the places in a declaration that is being mended,
only those less than a limit deep. -/
structure Trail.Clear (owner : String) (limit : Nat) (trail : Trail) :
    Prop where
  active : .declaration owner ∈ trail
  owned : trail.Owned
  below : ∀ {location : List Nat},
    .inline owner location ∈ trail → location.length < limit

def Entry.Enters (entry : Entry) : Prop :=
  ∀ (owner : String) (location : List Nat) (kept : Trail),
    .inline owner location ∉ kept →
    ∃ next : Trail, next.Keeps (.inline owner location :: kept) ∧
      ∀ change members,
        entry kept (.inline owner location) change members = change next members

namespace Trail

variable {kept trail : Trail} {owner : String} {location : List Nat}
  {limit : Nat}

theorem Keeps.refl (trail : Trail) : trail.Keeps trail :=
  ⟨List.Subset.refl trail, id⟩

theorem Keeps.cons (h : kept.Keeps trail) (site : Site) :
    Keeps (site :: kept) (site :: trail) where
  subset := List.cons_subset_cons site h.subset
  names hname := by
    rcases List.mem_cons.mp hname with hsame | hname
    · exact hsame ▸ List.mem_cons_self
    · exact List.mem_cons_of_mem site (h.names hname)

private theorem Keeps.trans {next : Trail} (h : next.Keeps kept)
    (h' : kept.Keeps trail) : next.Keeps trail :=
  ⟨fun _ hsite => h'.subset (h.subset hsite),
    fun hname => h.names (h'.names hname)⟩

private theorem Owned.cons (h : trail.Owned) (name : String) :
    Owned (.declaration name :: trail) := by
  intro owner location hplace
  rcases List.mem_cons.mp hplace with hsame | hplace
  · cases hsame
  · exact List.mem_cons_of_mem _ (h hplace)

theorem Owned.clear (h : trail.Owned) {name : String}
    (hnew : .declaration name ∉ trail) (limit : Nat) :
    Clear name limit (.declaration name :: trail) where
  active := List.mem_cons_self
  owned := h.cons name
  below hplace := by
    rcases List.mem_cons.mp hplace with hsame | hplace
    · cases hsame
    · exact absurd (h hplace) hnew

private theorem Clear.mono (h : trail.Clear owner limit) {more : Nat}
    (hmore : limit ≤ more) : trail.Clear owner more :=
  ⟨h.active, h.owned, fun hplace => Nat.lt_of_lt_of_le (h.below hplace) hmore⟩

private theorem Clear.not_mem (h : trail.Clear owner location.length) :
    .inline owner location ∉ trail := fun hplace =>
  Nat.lt_irrefl _ (h.below hplace)

private theorem Clear.cons (h : trail.Clear owner location.length) :
    Clear owner (location.length + 1) (.inline owner location :: trail) where
  active := List.mem_cons_of_mem _ h.active
  owned := by
    intro other place hplace
    rcases List.mem_cons.mp hplace with hsame | hplace
    · cases hsame
      exact List.mem_cons_of_mem _ h.active
    · exact List.mem_cons_of_mem _ (h.owned hplace)
  below hplace := by
    rcases List.mem_cons.mp hplace with hsame | hplace
    · cases hsame
      exact Nat.lt_succ_self _
    · exact Nat.lt_succ_of_lt (h.below hplace)

end Trail

namespace Entry

private theorem enters_again (repeated : Members → Logged Members) :
    (again repeated).Enters := by
  intro owner location kept hnew
  exact ⟨_, .refl _, fun change members => if_neg hnew⟩

theorem enters_untracked : untracked.Enters := by
  intro owner location kept hnew
  refine ⟨kept, ⟨List.subset_cons_self _ _, fun hname => ?_⟩,
    fun change members => rfl⟩
  rcases List.mem_cons.mp hname with hsame | hname
  · cases hsame
  · exact hname

end Entry

/-! ## Entries do what mending does -/

structure References.Follows (first second : References) : Prop where
  enter : first.enter = .tracked
  enters : second.enter.Enters
  accept : ∀ {kept trail : Trail},
    kept.Keeps trail → trail.Owned → ∀ name value,
    second.accept kept name value = first.accept trail name value
  element : ∀ {kept trail : Trail},
    kept.Keeps trail → trail.Owned → ∀ name item,
    second.element kept name item = first.element trail name item
  fallback : ∀ {kept trail : Trail}, kept.Keeps trail → trail.Owned → ∀ name,
    second.fallback kept name = first.fallback trail name
  describesObject : ∀ name,
    second.describesObject name = first.describesObject name

namespace Mend

variable {first second : References}

mutual

theorem shape_eq (hfollows : first.Follows second) (shape : Shape)
    (owner : String) (location : List Nat) {kept trail : Trail}
    (hkeeps : kept.Keeps trail) (hclear : trail.Clear owner location.length) :
    (∀ value, accept second owner location kept shape value =
        accept first owner location trail shape value) ∧
      (∀ value, acceptList second owner location kept shape value =
        acceptList first owner location trail shape value) ∧
      fallback second owner location kept shape =
        fallback first owner location trail shape := by
  match shape with
  | .primitive primitive => exact ⟨fun _ => rfl, fun _ => rfl, rfl⟩
  | .literal literal => exact ⟨fun _ => rfl, fun _ => rfl, rfl⟩
  | .reference name =>
      refine ⟨hfollows.accept hkeeps hclear.owned name, fun value => ?_,
        hfollows.fallback hkeeps hclear.owned name⟩
      cases value with
      | array items =>
          simp only [acceptList]
          rw [funext (hfollows.element hkeeps hclear.owned name)]
      | _ => simp only [acceptList, hfollows.describesObject name]
  | .inline inside =>
      have hnew := hclear.not_mem
      obtain ⟨next, hnext, henter⟩ := hfollows.enters owner location kept
          fun hplace => hnew (hkeeps.subset hplace)
      have hobject (value : Json) :
          object second.enter kept (.inline owner location)
          (fun trail members =>
            Mend.fields second owner location trail 0 inside members) value =
            object first.enter trail (.inline owner location)
              (fun trail members => Mend.fields first owner location trail 0
                inside members) value := by
        cases value with
        | object members =>
            simp only [object, henter, hfollows.enter, Entry.tracked,
              if_neg hnew]
            rw [fields_eq hfollows inside owner location
              (hnext.trans (hkeeps.cons _)) hclear.cons 0 members]
        | _ => rfl
      refine ⟨fun value => ?_, fun value => ?_, hobject (.object [])⟩
      · simp only [accept, hobject]
      · cases value with
        | array items =>
            simp only [acceptList]
            rw [funext hobject]
        | _ => rfl

private theorem fields_eq (hfollows : first.Follows second)
    (list : List (FieldOf Shape)) (owner : String) (location : List Nat)
    {kept trail : Trail} (hkeeps : kept.Keeps trail)
    (hclear : trail.Clear owner (location.length + 1)) (index : Nat)
    (members : Members) :
    Mend.fields second owner location kept index list members =
      Mend.fields first owner location trail index list members := by
  match list with
  | [] => rfl
  | ⟨key, optional, alternatives⟩ :: rest =>
      obtain ⟨haccepted, hdefault⟩ :=
        alternatives_eq hfollows alternatives owner (index :: location) hkeeps
          hclear 0
      have hrest :=
        fields_eq hfollows rest owner location hkeeps hclear (index + 1)
      simp only [Mend.fields, haccepted, hdefault, hrest]

private theorem alternatives_eq (hfollows : first.Follows second)
    (alternatives : List (AlternativeOf Shape)) (owner : String)
    (location : List Nat) {kept trail : Trail} (hkeeps : kept.Keeps trail)
    (hclear : trail.Clear owner location.length) (index : Nat) :
    (∀ value,
      firstAccepted second owner location kept index alternatives value =
        firstAccepted first owner location trail index alternatives value) ∧
      lastFallback second owner location kept index alternatives =
        lastFallback first owner location trail index alternatives := by
  match alternatives with
  | [] => exact ⟨fun _ => rfl, rfl⟩
  | ⟨shape, isArray⟩ :: rest =>
      obtain ⟨hone, hlist, hdefault⟩ :=
        shape_eq hfollows shape owner (index :: location) hkeeps
        (hclear.mono (Nat.le_succ _))
      obtain ⟨hlater, hlast⟩ :=
        alternatives_eq hfollows rest owner location hkeeps hclear (index + 1)
      refine ⟨fun value => ?_, ?_⟩
      · simp only [firstAccepted, hone, hlist, hlater]
      cases rest with
      | nil => simp only [lastFallback, hdefault]
      | cons next rest => exact hlast

end

end Mend

namespace Declaration

section

variable {first second : References} (hfollows : first.Follows second)
  (declaration : Declaration) {kept trail : Trail}
  (hkeeps : kept.Keeps trail) (howned : trail.Owned)
include hfollows hkeeps howned

theorem object_follows (value : Json) :
    Mend.object .tracked kept declaration.site
      (declaration.change second) value =
      Mend.object .tracked trail declaration.site (declaration.change first)
        value := by
  cases value with
  | object members =>
      by_cases hsite : declaration.site ∈ trail
      · have hkept : declaration.site ∈ kept := hkeeps.names hsite
        simp only [Mend.object, Entry.tracked, if_pos hsite, if_pos hkept]
      · have hkept : declaration.site ∉ kept :=
          fun hkept => hsite (hkeeps.subset hkept)
        have hfields :
            declaration.change second (declaration.site :: kept) members =
            declaration.change first (declaration.site :: trail) members :=
          Mend.fields_eq hfollows declaration.fields declaration.name []
            (hkeeps.cons _) (howned.clear hsite _) 0
            members
        simp only [Mend.object, Entry.tracked, if_neg hsite, if_neg hkept,
          hfields]
  | _ => rfl

private theorem union_follows (hnew : declaration.site ∉ trail) :
    (∀ value, declaration.acceptUnion second (declaration.site :: kept) value =
        declaration.acceptUnion first (declaration.site :: trail) value) ∧
      declaration.unionFallback second (declaration.site :: kept) =
        declaration.unionFallback first (declaration.site :: trail) :=
  Mend.alternatives_eq hfollows declaration.unionAlternatives declaration.name
    Declaration.unionLocation
    (hkeeps.cons _) (howned.clear hnew _) 0

end

end Declaration

private theorem References.within_follows {first second : Option References}
    (hinner : Option.Rel Follows first second) {kept trail : Trail}
    (hkeeps : kept.Keeps trail) (declaration : Declaration) :
    within first trail declaration.site = none ∧
      within second kept declaration.site = none ∨
      ∃ below other, within first trail declaration.site = some below ∧
        within second kept declaration.site = some other ∧ below.Follows other ∧
          declaration.site ∉ trail := by
  by_cases hsite : declaration.site ∈ trail
  · exact .inl ⟨if_pos hsite, if_pos (hkeeps.names hsite)⟩
  · rw [within, within, if_neg hsite, if_neg fun h => hsite (hkeeps.subset h)]
    rcases hinner with hbelow | _
    · exact .inr ⟨_, _, rfl, rfl, hbelow, hsite⟩
    · exact .inl ⟨rfl, rfl⟩

private theorem References.Follows.ofSchema {entry : Entry}
    (hentry : entry.Enters) {schema : Schema} {first second : Option References}
    (hinner : Option.Rel Follows first second) :
    (ofSchema .tracked schema first).Follows
      (ofSchema entry schema second) where
  enter := rfl
  enters := hentry
  describesObject name := rfl
  accept hkeeps howned name value := by
    simp only [References.ofSchema]
    cases schema.find? name with
    | none => rfl
    | some declaration =>
        rcases within_follows hinner hkeeps declaration
          with ⟨hfirst, hsecond⟩ | ⟨_, _, hfirst, hsecond, hbelow, hnew⟩
        · simp only [hfirst, hsecond]
        · simp only [hfirst, hsecond,
            declaration.object_follows hbelow hkeeps howned value,
            (declaration.union_follows hbelow hkeeps howned hnew).1]
  element hkeeps howned name item := by
    simp only [References.ofSchema]
    cases schema.find? name with
    | none => rfl
    | some declaration =>
        rcases within_follows hinner hkeeps declaration
          with ⟨hfirst, hsecond⟩ | ⟨_, _, hfirst, hsecond, hbelow, -⟩
        · simp only [hfirst, hsecond]
        · simp only [hfirst, hsecond,
            declaration.object_follows hbelow hkeeps howned item]
  fallback hkeeps howned name := by
    simp only [References.ofSchema]
    cases schema.find? name with
    | none => rfl
    | some declaration =>
        rcases within_follows hinner hkeeps declaration
          with ⟨hfirst, hsecond⟩ | ⟨_, _, hfirst, hsecond, hbelow, hnew⟩
        · simp only [hfirst, hsecond]
        · simp only [hfirst, hsecond, Mend.fresh,
            declaration.object_follows hbelow hkeeps howned (.object []),
            (declaration.union_follows hbelow hkeeps howned hnew).2]

namespace Entry

variable {entry : Entry} (hentry : entry.Enters)
include hentry

private theorem follows_references (schema : Schema) (depth : Nat) :
    (schema.references depth).Follows (entry.references schema depth) := by
  induction depth with
  | zero => exact .ofSchema hentry .none
  | succ depth ih => exact .ofSchema hentry (.some ih)

end Entry

namespace References

variable {first second : References} (hfollows : first.Follows second)
  {declaration : Declaration}
  (hplain : declaration.Plain)
include hfollows hplain

/-- A literal union at the top is not on the trail, so there must be no places
in it. -/
private theorem mendOne_follows (value : Json) :
    first.mendOne declaration value = second.mendOne declaration value := by
  cases hkind : declaration.kind.isObject with
  | true =>
      have hobject := declaration.object_follows hfollows (.refl [])
          fun hplace => absurd hplace List.not_mem_nil
      cases value <;> simp only [mendOne, hkind, if_true, Mend.fresh, hobject]
  | false =>
      have hliteral := hplain.unionAlternatives_literal hkind
      cases hvalue : admitsLiteral declaration.unionAlternatives value <;>
        simp only [mendOne, hkind, Bool.false_eq_true, if_false, if_true,
          Logged.pure_bind, Declaration.acceptUnion_literals hliteral,
          Declaration.unionFallback_literals hliteral, hvalue]

private theorem mend_follows (isArray : Bool) (value : Json) :
    first.mend declaration isArray value =
      second.mend declaration isArray value := by
  have hone := mendOne_follows hfollows hplain
  cases isArray with
  | false => exact hone value
  | true =>
      simp only [mend, if_true]
      cases value with
      | array items => simp only [Declaration.mendList, hone]
      | _ => rfl

end References

theorem Entry.mend_eq {entry : Entry} (hentry : entry.Enters)
    {declaration : Declaration} (hplain : declaration.Plain) (schema : Schema)
    (isArray : Bool) (value : Json) :
    schema.mend declaration isArray value =
      entry.mend schema declaration isArray value :=
  References.mend_follows
    (follows_references hentry schema schema.declarations.length) hplain
    isArray value

namespace Schema

/-- Mending does the same if only names are followed, and it does not matter
what would be done with an object that is written out at a place on the trail,
as no place is ever found there. -/
theorem mend_eq_untracked {schema : Schema} (hplain : schema.LiteralUnionsPlain)
    {name : String} {declaration : Declaration}
    (hfind : schema.find? name = some declaration) (isArray : Bool)
    (value : Json) :
    schema.mend declaration isArray value =
      Entry.untracked.mend schema declaration isArray value ∧
      ∀ repeated, schema.mend declaration isArray value =
        (Entry.again repeated).mend schema declaration isArray value := by
  have hdeclaration := hplain declaration (mem_of_find?_eq_some hfind).1
  exact ⟨Entry.mend_eq Entry.enters_untracked hdeclaration schema isArray value,
    fun repeated => Entry.mend_eq (Entry.enters_again repeated) hdeclaration
      schema isArray value⟩

/-- Shelves on shelves, behind an object that is written out inside another one.
-/
def shelves : Schema where
  declarations := [
    { name := "Shelf"
      kind := .interface
      exported := true
      fields := [
        ⟨"label", false, [⟨.reference "Label", false⟩]⟩,
        ⟨"rows", false,
          [⟨.inline [⟨"top", true,
            [⟨.inline [⟨"shelf", false, [⟨.reference "Shelf", false⟩]⟩,
          ⟨"mark", false, [⟨.reference "Mark", false⟩]⟩], false⟩]⟩], true⟩]⟩] },
    { name := "Label"
      kind := .literalUnion
      exported := false
      fields :=
        [⟨"Label", false,
          [⟨.literal (.string "new"), false⟩,
          ⟨.literal (.boolean true), false⟩]⟩] }]
  distinct := by decide

theorem mend_eq_untracked_shelves : shelves.LiteralUnionsPlain ∧ ∃ declaration,
    shelves.find? "Shelf" = some declaration ∧
      shelves.mend declaration true
        (.array [.object [("rows", .array [.object []])]]) =
          Entry.untracked.mend shelves declaration true
            (.array [.object [("rows", .array [.object []])]]) ∧
        ∀ repeated,
          shelves.mend declaration true
          (.array [.object [("rows", .array [.object []])]]) =
          (Entry.again repeated).mend shelves declaration true
            (.array [.object [("rows", .array [.object []])]]) := by
  have hplain : shelves.LiteralUnionsPlain := by decide +kernel
  have hfind : shelves.find? "Shelf" = some shelves.declarations[0] := rfl
  exact ⟨hplain, _, hfind, mend_eq_untracked hplain hfind true _⟩

def coiled : Declaration where
  name := "Coil"
  kind := .literalUnion
  exported := false
  fields :=
    [⟨"Coil", false,
      [⟨.inline [⟨"in", false, [⟨.reference "Coil", false⟩]⟩], false⟩]⟩]

/-- At the top such a union is not on the trail, so it leads back to the object
inside it. -/
example : (Schema.mend ⟨[coiled], by decide⟩ coiled false (.object [])).value =
  .object [("in", .object [])] ∧
    (Entry.untracked.mend ⟨[coiled], by decide⟩ coiled false
      (.object [])).value =
      .object [("in", .object [("in", .null)])] := ⟨rfl, rfl⟩

end Schema

end ShapeMend
