import ShapeMend.Proofs.Schema.Descriptors

/-!
# Schemas from descriptor texts

A descriptor is read straight from its text, without a tree in between.  Where
the text is that of a tree in the written form, every scan of a part stops where
the scan of the tree stops, and answers what the tree describes.
-/

namespace ShapeMend

open Json

namespace Json.Scan

variable {α β : Type} {mark middle after : Mark} {path : Path}

/-! ## Scans that succeed -/

theorem bind_eq_ok {scan : Scan α} {next : α → Scan β} {result : β} :
    (scan >>= next) mark = .ok (result, after) ↔
      ∃ value middle, scan mark = .ok (value, middle) ∧ next value middle =
        .ok (result, after) := by
  change (scan >>= next).run mark = _ ↔ ∃ value middle, scan.run mark = _ ∧ _
  rw [StateT.run_bind]
  cases scan.run mark with
  | error failure => simp [bind, Except.bind]
  | ok found =>
      obtain ⟨value, middle⟩ := found
      simp [bind, Except.bind, StateT.run]

theorem pure_eq_ok {value result : α} :
    (pure value : Scan α) mark = .ok (result, after) ↔
      value = result ∧ mark = after := by
  change Except.ok (value, mark) = _ ↔ _
  simp

theorem within_eq_ok {place : Mark → Place} {scan : Scan α} {result : α} :
    within place scan mark = .ok (result, after) ↔
      scan mark = .ok (result, after) := by
  unfold within
  cases hscan : scan mark with
  | ok found => simp
  | error failure =>
      obtain ⟨cause, path, standing⟩ := failure
      cases standing <;> simp

theorem failHere_ne_ok {cause : ReadCause} {result : α} :
    (failHere path cause : Scan α) mark ≠ .ok (result, after) := by
  rintro ⟨⟩

theorem failNext_ne_ok {cause : ReadCause} {result : α} :
    (failNext path cause : Scan α) mark ≠ .ok (result, after) := by
  rintro ⟨⟩

private theorem firstByte_eq_ok {byte : UInt8} :
    firstByte path mark = .ok (byte, after) ↔
      peekToken mark = .ok (some byte, after) := by
  unfold firstByte
  rw [bind_eq_ok]
  constructor
  · rintro ⟨found, middle, hfound, h⟩
    cases found with
    | none => exact absurd h failNext_ne_ok
    | some other =>
        obtain ⟨rfl, rfl⟩ := pure_eq_ok.mp h
        exact hfound
  · exact fun h => ⟨some byte, after, h, rfl⟩

theorem runScan_eq_ok {scan : Scan α} {bytes : List UInt8} {result : α} :
    runScan scan bytes = .ok result ↔ ∃ after,
      scan (.start bytes) = .ok (result, after) := by
  unfold runScan
  rw [StateT.run]
  cases scan (.start bytes) with
  | ok found => simp [Prod.ext_iff]
  | error failure =>
      obtain ⟨cause, path, standing⟩ := failure
      cases standing <;> simp

inductive Begins (depth : Nat) (path : Path) (mark after : Mark) :
    UInt8 → Json → Prop
  | null : Begins depth path mark after 0x6E .null
  | true (h : (do advance; word path (ascii "rue")) mark = .ok ((), after)) :
      Begins depth path mark after 0x74 (.bool true)
  | false (h : (do advance; word path (ascii "alse")) mark = .ok ((), after)) :
      Begins depth path mark after 0x66 (.bool false)
  | number {byte : UInt8} {value : JsonNumber} :
      Begins depth path mark after byte (.number value)
  | string {value : String}
      (h : (do advance; string path) mark = .ok (value, after)) :
      Begins depth path mark after 0x22 (.string value)
  | array {inner : Nat} {items : List Json} (hdepth : depth = inner + 1)
      (h : list path (Scan.value inner) mark = .ok (items, after)) :
      Begins depth path mark after 0x5B (.array items)
  | object {inner : Nat} {members : List (String × Json)}
      (hdepth : depth = inner + 1)
      (h : object path (Scan.value inner) mark = .ok (members, after)) :
      Begins depth path mark after 0x7B (.object members)

private theorem begins_of_valueWith {depth : Nat}
    {listed object : Path → Scan Json} {json : Json}
    (hlisted : ∀ middle,
      listed path middle = .ok (json, after) →
      Begins depth path middle after 0x5B json)
    (hobject : ∀ middle,
      object path middle = .ok (json, after) →
      Begins depth path middle after 0x7B json)
    (h : valueWith listed object path mark = .ok (json, after)) :
    ∃ byte middle, firstByte path mark = .ok (byte, middle) ∧
      Begins depth path middle after byte json := by
  unfold valueWith at h
  obtain ⟨found, middle, hfound, h⟩ := bind_eq_ok.mp h
  cases found with
  | none => exact absurd h failNext_ne_ok
  | some byte =>
      refine ⟨byte, middle, firstByte_eq_ok.mpr hfound, ?_⟩
      simp only at h
      split at h
      · next hbyte =>
          simp only [bind_eq_ok, pure_eq_ok] at h
          obtain ⟨_, _, -, _, _, -, rfl, -⟩ := h
          exact hbyte ▸ .null
      split at h
      · next hbyte =>
          simp only [bind_eq_ok, pure_eq_ok] at h
          obtain ⟨_, opened, hopened, _, closed, hclosed, rfl, rfl⟩ := h
          exact hbyte ▸ .true (bind_eq_ok.mpr ⟨_, opened, hopened, hclosed⟩)
      split at h
      · next hbyte =>
          simp only [bind_eq_ok, pure_eq_ok] at h
          obtain ⟨_, opened, hopened, _, closed, hclosed, rfl, rfl⟩ := h
          exact hbyte ▸ .false (bind_eq_ok.mpr ⟨_, opened, hopened, hclosed⟩)
      split at h
      · simp only [bind_eq_ok, pure_eq_ok] at h
        obtain ⟨_, _, -, _, _, -, rfl, -⟩ := h
        exact .number
      split at h
      · simp only [bind_eq_ok, pure_eq_ok] at h
        obtain ⟨_, _, -, rfl, -⟩ := h
        exact .number
      split at h
      · next hbyte =>
          simp only [bind_eq_ok, pure_eq_ok] at h
          obtain ⟨_, opened, hopened, value, closed, hclosed, rfl, rfl⟩ := h
          exact hbyte ▸ .string (bind_eq_ok.mpr ⟨_, opened, hopened, hclosed⟩)
      split at h
      · next hbyte => exact hbyte ▸ hlisted middle h
      split at h
      · next hbyte => exact hbyte ▸ hobject middle h
      · exact absurd h failNext_ne_ok

theorem begins_of_value {depth : Nat} {json : Json}
    (h : Scan.value depth path mark = .ok (json, after)) :
    ∃ byte middle, firstByte path mark = .ok (byte, middle) ∧
      Begins depth path middle after byte json := by
  cases depth with
  | zero =>
      exact begins_of_valueWith (fun _ h => absurd h failNext_ne_ok)
        (fun _ h => absurd h failNext_ne_ok) h
  | succ inner =>
      refine begins_of_valueWith (fun middle h => ?_) (fun middle h => ?_) h
      · obtain ⟨items, _, hitems, hjson⟩ := bind_eq_ok.mp h
        obtain ⟨rfl, rfl⟩ := pure_eq_ok.mp hjson
        exact .array rfl hitems
      · obtain ⟨members, _, hmembers, hjson⟩ := bind_eq_ok.mp h
        obtain ⟨rfl, rfl⟩ := pure_eq_ok.mp hjson
        exact .object rfl hmembers

/-! ## Leaves -/

section Leaves

variable {depth : Nat}

theorem text_of_value {value : String}
    (h : Scan.value depth path mark = .ok (.string value, after)) :
    text path mark = .ok (value, after) := by
  obtain ⟨byte, middle, hbyte, hbegins⟩ := begins_of_value h
  cases hbegins with
  | string h => exact bind_eq_ok.mpr ⟨_, middle, hbyte, h⟩

theorem truth_of_value {value : Bool}
    (h : Scan.value depth path mark = .ok (.bool value, after)) :
    truth path mark = .ok (value, after) := by
  obtain ⟨byte, middle, hbyte, hbegins⟩ := begins_of_value h
  refine bind_eq_ok.mpr ⟨byte, middle, hbyte, ?_⟩
  cases hbegins with
  | true hrest =>
      obtain ⟨_, opened, hopened, hword⟩ := bind_eq_ok.mp hrest
      exact bind_eq_ok.mpr
        ⟨_, opened, hopened, bind_eq_ok.mpr ⟨_, after, hword, rfl⟩⟩
  | false hrest =>
      obtain ⟨_, opened, hopened, hword⟩ := bind_eq_ok.mp hrest
      exact bind_eq_ok.mpr
        ⟨_, opened, hopened, bind_eq_ok.mpr ⟨_, after, hword, rfl⟩⟩

theorem variant_of_value {known : List String} {value : String}
    (hknown : value ∈ known)
    (h : Scan.value depth path mark = .ok (.string value, after)) :
    variant path known mark = .ok (value, after) := by
  obtain ⟨byte, middle, hbyte, hbegins⟩ := begins_of_value h
  cases hbegins with
  | string h =>
      obtain ⟨_, opened, hopened, hstring⟩ := bind_eq_ok.mp h
      refine bind_eq_ok.mpr ⟨_, middle, hbyte, ?_⟩
      refine bind_eq_ok.mpr
        ⟨_, opened, hopened, bind_eq_ok.mpr ⟨value, after, hstring, ?_⟩⟩
      rw [if_pos (List.contains_iff_mem.mpr hknown)]
      rfl

end Leaves

/-! ## Lists and objects -/

section Nested

variable {element : Path → Scan α} {other : Path → Scan β}
  {related : α → β → Prop}
  (htransport : ∀ {path : Path} {mark after : Mark} {value : α} {result : β},
    related value result → element path mark = .ok (value, after) →
      other path mark = .ok (result, after))

include htransport

omit htransport in
/-- What is read between brackets can be read as something else if that holds
of the inside. -/
theorem bracketed_of_inside {γ δ : Type} (place : Mark → Place)
      (finish : Scan Unit)
    (first : Nat → Scan γ) (second : Nat → Scan δ) {found : γ} {result : δ}
    (hinside : ∀ {bound : Nat} {mark after : Mark},
      first bound mark = .ok (found, after) → second bound mark =
        .ok (result, after))
    (h : (do
      advance
      let found ← within place (first ((← remaining) + 1))
      finish
      return found) mark = .ok (found, after)) :
    (do
      advance
      let result ← within place (second ((← remaining) + 1))
      finish
      return result) mark = .ok (result, after) := by
  obtain ⟨_, opened, hopened, h⟩ := bind_eq_ok.mp h
  refine bind_eq_ok.mpr ⟨_, opened, hopened, ?_⟩
  obtain ⟨bound, _, hbound, h⟩ := bind_eq_ok.mp h
  refine bind_eq_ok.mpr ⟨bound, _, hbound, ?_⟩
  obtain ⟨_, last, hbetween, h⟩ := bind_eq_ok.mp h
  obtain ⟨_, _, hend, h⟩ := bind_eq_ok.mp h
  obtain ⟨rfl, rfl⟩ := pure_eq_ok.mp h
  refine bind_eq_ok.mpr ⟨result, last, ?_, bind_eq_ok.mpr ⟨_, _, hend, rfl⟩⟩
  exact within_eq_ok.mpr (hinside (within_eq_ok.mp hbetween))

private theorem elements_of_forall {items : List α} {results : List β}
    (h : List.Forall₂ related items results) {bound index : Nat} {mark : Mark}
    (hitems : elements path element bound index mark = .ok (items, after)) :
    elements path other bound index mark = .ok (results, after) := by
  induction bound generalizing index items results mark with
  | zero => exact absurd hitems failHere_ne_ok
  | succ bound ih =>
      obtain ⟨more, middle, hmore, hitems⟩ := bind_eq_ok.mp hitems
      refine bind_eq_ok.mpr ⟨more, middle, hmore, ?_⟩
      cases more with
      | false =>
          obtain ⟨rfl, rfl⟩ := pure_eq_ok.mp hitems
          cases h
          rfl
      | true =>
          obtain ⟨first, next, hfirst, hitems⟩ := bind_eq_ok.mp hitems
          obtain ⟨rest, last, hrest, hitems⟩ := bind_eq_ok.mp hitems
          obtain ⟨rfl, rfl⟩ := pure_eq_ok.mp hitems
          cases h with
          | cons hrelated hlater =>
              exact bind_eq_ok.mpr ⟨_, next, htransport hrelated hfirst,
                bind_eq_ok.mpr ⟨_, last, ih hlater hrest, rfl⟩⟩

private theorem list_of_forall {items : List α} {results : List β}
    (h : List.Forall₂ related items results)
    (hitems : list path element mark = .ok (items, after)) :
    list path other mark = .ok (results, after) :=
  bracketed_of_inside listPlace (endList path) (elements path element · 0)
    (elements path other · 0) (elements_of_forall htransport h) hitems

private theorem members_of_forall {items : List (String × α)}
    {results : List (String × β)}
    (h : List.Forall₂ (fun item result => item.1 = result.1 ∧
      related item.2 result.2) items results)
    {bound : Nat} {first : Bool} {mark : Mark}
    (hitems : members path element first bound mark = .ok (items, after)) :
    members path other first bound mark = .ok (results, after) := by
  induction bound generalizing first items results mark with
  | zero => exact absurd hitems failHere_ne_ok
  | succ bound ih =>
      obtain ⟨key, middle, hkey, hitems⟩ := bind_eq_ok.mp hitems
      refine bind_eq_ok.mpr ⟨key, middle, hkey, ?_⟩
      cases key with
      | none =>
          obtain ⟨rfl, rfl⟩ := pure_eq_ok.mp hitems
          cases h
          rfl
      | some key =>
          obtain ⟨_, begun, hcolon, hitems⟩ := bind_eq_ok.mp hitems
          obtain ⟨value, next, hvalue, hitems⟩ := bind_eq_ok.mp hitems
          obtain ⟨rest, last, hrest, hitems⟩ := bind_eq_ok.mp hitems
          obtain ⟨rfl, rfl⟩ := pure_eq_ok.mp hitems
          cases h with
          | @cons _ result _ results hrelated hlater =>
              obtain ⟨rfl, hrelated⟩ := hrelated
              exact bind_eq_ok.mpr ⟨_, begun, hcolon, bind_eq_ok.mpr ⟨_, next,
                htransport hrelated hvalue,
                  bind_eq_ok.mpr ⟨_, last, ih hlater hrest, rfl⟩⟩⟩

private theorem object_of_forall {items : List (String × α)}
    {results : List (String × β)}
    (h : List.Forall₂ (fun item result => item.1 = result.1 ∧
      related item.2 result.2) items results)
    (hitems : object path element mark = .ok (items, after)) :
    object path other mark = .ok (results, after) :=
  bracketed_of_inside objectPlace (endObject path) (members path element true)
    (members path other true) (members_of_forall htransport h) hitems

end Nested

theorem sequence_of_value {depth : Nat} {reader : Path → Scan α}
    {related : Json → α → Prop}
    (htransport : ∀ {path : Path} {mark after : Mark} {value : Json}
      {result : α}, related value result → Scan.value depth path mark =
      .ok (value, after) → reader path mark = .ok (result, after))
    {items : List Json} {results : List α}
    (h : List.Forall₂ related items results)
    (hvalue : Scan.value (depth + 1) path mark = .ok (.array items, after)) :
    sequence path reader mark = .ok (results, after) := by
  obtain ⟨byte, middle, hbyte, hbegins⟩ := begins_of_value hvalue
  cases hbegins with
  | @array inner _ hdepth hlist =>
      obtain rfl : depth = inner := by omega
      exact bind_eq_ok.mpr ⟨_, middle, hbyte, list_of_forall htransport h hlist⟩

/-! ## Records -/

inductive Collects {δ : Type} (depth : Nat) (path : Path)
    (member : String → δ → Scan δ) :
    List (String × Json) → δ → δ → Prop
  | nil {parts : δ} : Collects depth path member [] parts parts
  | cons {name : String} {value : Json} {rest : List (String × Json)}
      {start next stop : δ}
      (hmember : ∀ mark after,
        (do colon path; Scan.value depth (.key name :: path)) mark = .ok
        (value, after) →
          member name start mark = .ok (next, after))
      (hrest : Collects depth path member rest next stop) :
      Collects depth path member ((name, value) :: rest) start stop

section Records

variable {δ : Type} {depth : Nat} {member : String → δ → Scan δ}
  {start stop : δ}
  {found : List (String × Json)}

private theorem recordMembers_of_collects
    (h : Collects depth path member found start stop) {bound : Nat}
    {first : Bool} {mark : Mark}
    (hfound : members path (Scan.value depth) first bound mark =
      .ok (found, after)) :
    recordMembers path member first bound start mark = .ok (stop, after) := by
  induction bound generalizing first found start mark with
  | zero => exact absurd hfound failHere_ne_ok
  | succ bound ih =>
      obtain ⟨key, middle, hkey, hfound⟩ := bind_eq_ok.mp hfound
      refine bind_eq_ok.mpr ⟨key, middle, hkey, ?_⟩
      cases key with
      | none =>
          obtain ⟨rfl, rfl⟩ := pure_eq_ok.mp hfound
          cases h
          rfl
      | some key =>
          obtain ⟨_, begun, hcolon, hfound⟩ := bind_eq_ok.mp hfound
          obtain ⟨value, next, hvalue, hfound⟩ := bind_eq_ok.mp hfound
          obtain ⟨rest, last, hrest, hfound⟩ := bind_eq_ok.mp hfound
          obtain ⟨rfl, rfl⟩ := pure_eq_ok.mp hfound
          cases h with
          | cons hmember hlater =>
              have hpart :=
                hmember middle next (bind_eq_ok.mpr ⟨_, begun, hcolon, hvalue⟩)
              exact bind_eq_ok.mpr ⟨_, next, hpart, ih hlater hrest⟩

theorem record_of_value {typeName : String} {complete : δ → Scan α}
    {listed : Scan α} {result : α}
    (h : Collects depth path member found start stop)
    (hcomplete : ∀ mark, complete stop mark = .ok (result, mark))
    (hvalue : Scan.value (depth + 1) path mark = .ok (.object found, after)) :
    record path typeName start member complete listed mark =
      .ok (result, after) := by
  obtain ⟨byte, middle, hbyte, hbegins⟩ := begins_of_value hvalue
  cases hbegins with
  | @object inner _ hdepth hobject =>
      obtain rfl : depth = inner := by omega
      refine bind_eq_ok.mpr ⟨_, middle, hbyte, ?_⟩
      obtain ⟨_, opened, hopened, hobject⟩ := bind_eq_ok.mp hobject
      refine bind_eq_ok.mpr ⟨_, opened, hopened, ?_⟩
      obtain ⟨bound, _, hbound, hobject⟩ := bind_eq_ok.mp hobject
      obtain ⟨_, last, hinside, hobject⟩ := bind_eq_ok.mp hobject
      obtain ⟨_, _, hend, hobject⟩ := bind_eq_ok.mp hobject
      obtain ⟨rfl, rfl⟩ := pure_eq_ok.mp hobject
      refine bind_eq_ok.mpr ⟨result, last, ?_, bind_eq_ok.mpr ⟨_, _, hend, rfl⟩⟩
      refine within_eq_ok.mpr (bind_eq_ok.mpr ⟨bound, _, hbound, ?_⟩)
      exact bind_eq_ok.mpr
        ⟨stop, last, recordMembers_of_collects h (within_eq_ok.mp hinside),
        hcomplete last⟩

theorem memberValue_eq_ok {name : String} {reader : Path → Scan α} {result : α}
      {value : Json}
    (hreader : ∀ mark,
      Scan.value depth (.key name :: path) mark = .ok (value, after) →
      reader (.key name :: path) mark = .ok (result, after))
    (h : (do colon path; Scan.value depth (.key name :: path)) mark =
      .ok (value, after)) :
    memberValue path name none reader mark = .ok (some result, after) := by
  obtain ⟨_, begun, hcolon, hvalue⟩ := bind_eq_ok.mp h
  exact bind_eq_ok.mpr
    ⟨_, begun, hcolon, bind_eq_ok.mpr ⟨_, after, hreader begun hvalue, rfl⟩⟩

end Records

end Json.Scan

/-! ## Descriptors -/

namespace Descriptor

open Json.Scan

variable {depth : Nat} {path : Path} {mark after : Mark}

private theorem valueType_of_value {type : ValueType}
    (h : Scan.value depth path mark = .ok (.string type.keyword, after)) :
    valueType path mark = .ok (type, after) := by
  have hknown : type.keyword ∈ ValueType.all.map (·.keyword) := by
    cases type <;> decide
  refine bind_eq_ok.mpr ⟨type.keyword, after, variant_of_value hknown h, ?_⟩
  rw [ofKeyword?_keyword]
  rfl

private theorem kind_of_value {found : DeclarationKind}
    (h : Scan.value depth path mark = .ok (.string found.keyword, after)) :
    kind path mark = .ok (found, after) := by
  have hknown : found.keyword ∈ kinds.map (·.keyword) := by
    cases found <;> decide
  have hfind : kinds.find? (·.keyword = found.keyword) = some found :=
    kindOf?_keyword found
  refine bind_eq_ok.mpr ⟨found.keyword, after, variant_of_value hknown h, ?_⟩
  rw [hfind]
  rfl

private theorem alternativeValue_of_value {value : Json}
    (h : Scan.value depth path mark = .ok (value, after)) :
    alternativeValue depth path mark = .ok ((fieldsOf? value, value), after) :=
  bind_eq_ok.mpr ⟨value, after, h, rfl⟩

private theorem alternative_of_value {json : Json} {found : Alternative}
    (h : IsAlternative json found)
    (hvalue : Scan.value (depth + 1) path mark = .ok (json, after)) :
    alternative depth path mark = .ok (found, after) := by
  obtain ⟨value, type, rfl, hshape⟩ := h
  have hcollects : Collects depth path (alternativeMember depth path)
      [("value", value), ("isArray", .bool found.isArray),
        ("valueType", .string type.keyword)] {}
      ⟨some (fieldsOf? value, value), some found.isArray, some type⟩ := by
    apply Collects.cons
    · intro mark after h
      rw [alternativeMember, if_pos rfl]
      exact bind_eq_ok.mpr ⟨_, after,
        memberValue_eq_ok (fun _ => alternativeValue_of_value) h, rfl⟩
    apply Collects.cons
    · intro mark after h
      rw [alternativeMember, if_neg (by decide), if_pos rfl]
      exact bind_eq_ok.mpr
        ⟨_, after, memberValue_eq_ok (fun _ => truth_of_value) h, rfl⟩
    apply Collects.cons
    · intro mark after h
      rw [alternativeMember, if_neg (by decide), if_neg (by decide), if_pos rfl]
      exact bind_eq_ok.mpr
        ⟨_, after, memberValue_eq_ok (fun _ => valueType_of_value) h, rfl⟩
    exact .nil
  refine bind_eq_ok.mpr
    ⟨_, after, record_of_value hcollects (fun _ => rfl) hvalue, ?_⟩
  simp only [hshape]
  rfl

private theorem field_of_value {json : Json} {found : Field}
    (h : IsField json found)
    (hvalue : Scan.value (depth + 3) path mark = .ok (json, after)) :
    field depth path mark = .ok (found, after) := by
  obtain ⟨items, rfl, halternatives⟩ := h
  have hcollects : Collects (depth + 2) path (fieldMember depth path)
      [("key", .string found.key), ("optional", .bool found.optional),
        ("attribute", .array items)]
      {} ⟨some found.key, some found.optional, some found.alternatives⟩ := by
    apply Collects.cons
    · intro mark after h
      rw [fieldMember, if_pos rfl]
      exact bind_eq_ok.mpr
        ⟨_, after, memberValue_eq_ok (fun _ => text_of_value) h, rfl⟩
    apply Collects.cons
    · intro mark after h
      rw [fieldMember, if_neg (by decide), if_pos rfl]
      exact bind_eq_ok.mpr
        ⟨_, after, memberValue_eq_ok (fun _ => truth_of_value) h, rfl⟩
    apply Collects.cons
    · intro mark after h
      rw [fieldMember, if_neg (by decide), if_neg (by decide), if_pos rfl]
      exact bind_eq_ok.mpr ⟨_, after, memberValue_eq_ok
        (fun _ => sequence_of_value alternative_of_value halternatives) h, rfl⟩
    exact .nil
  exact record_of_value hcollects (fun _ => rfl) hvalue

private theorem declaration_of_value {json : Json} {found : Declaration}
    (h : IsDeclaration json found)
    (hvalue : Scan.value (depth + 5) path mark = .ok (json, after)) :
    declaration depth path mark = .ok (found, after) := by
  obtain ⟨items, rfl, hfields⟩ := h
  have hcollects : Collects (depth + 4) path (declarationMember depth path)
      [("name", .string found.name), ("kind", .string found.kind.keyword),
        ("exported", .bool found.exported), ("fields", .array items)]
      {} ⟨some found.name, some found.kind, some found.exported,
        some found.fields⟩ := by
    apply Collects.cons
    · intro mark after h
      rw [declarationMember, if_pos rfl]
      exact bind_eq_ok.mpr
        ⟨_, after, memberValue_eq_ok (fun _ => text_of_value) h, rfl⟩
    apply Collects.cons
    · intro mark after h
      rw [declarationMember, if_neg (by decide), if_pos rfl]
      exact bind_eq_ok.mpr
        ⟨_, after, memberValue_eq_ok (fun _ => kind_of_value) h, rfl⟩
    apply Collects.cons
    · intro mark after h
      rw [declarationMember, if_neg (by decide), if_neg (by decide), if_pos rfl]
      exact bind_eq_ok.mpr
        ⟨_, after, memberValue_eq_ok (fun _ => truth_of_value) h, rfl⟩
    apply Collects.cons
    · intro mark after h
      rw [declarationMember, if_neg (by decide), if_neg (by decide),
        if_neg (by decide), if_pos rfl]
      exact bind_eq_ok.mpr ⟨_, after, memberValue_eq_ok
        (fun _ => sequence_of_value field_of_value hfields) h, rfl⟩
    exact .nil
  exact record_of_value hcollects (fun _ => rfl) hvalue

private theorem entries_of_value {members : List (String × Json)}
    {declarations : List Declaration}
    (h : List.Forall₂ (fun member declaration => member.1 = declaration.name ∧
      IsDeclaration member.2 declaration) members declarations)
    (hvalue : Scan.value nestingLimit [] mark = .ok (.object members, after)) :
    entries mark =
      .ok (declarations.map fun declaration => (declaration.name, declaration),
        after) := by
  obtain ⟨byte, middle, hbyte, hbegins⟩ := begins_of_value hvalue
  cases hbegins with
  | @object inner _ hdepth hobject =>
      obtain rfl : inner = nestingLimit - outerLevels + 5 := by
        unfold nestingLimit outerLevels at *
        omega
      refine bind_eq_ok.mpr ⟨_, middle, hbyte, ?_⟩
      rw [if_pos rfl]
      refine object_of_forall declaration_of_value ?_ hobject
      rwa [List.forall₂_map_right_iff]

end Descriptor

namespace Schema

/-- A text that is read as a value in the written form is read as the schema
that the value describes. -/
private theorem ofDescriptor_of_isSchema {json : Json} {schema : Schema}
    (h : Descriptor.IsSchema json schema) {text : String}
    (htext : runScan (Scan.value nestingLimit []) text.toUTF8.toList =
      .ok json) : ofDescriptor text = .ok schema := by
  obtain ⟨members, rfl, hdeclarations⟩ := h
  obtain ⟨after, hvalue⟩ := Scan.runScan_eq_ok.mp htext
  have hentries :=
    Scan.runScan_eq_ok.mpr
      ⟨after, Descriptor.entries_of_value hdeclarations hvalue⟩
  have hnames :
      (schema.declarations.map
        fun declaration => (declaration.name, declaration)).find?
      (fun entry => entry.1 ≠ entry.2.name) = none := by
    simp
  unfold ofDescriptor
  simp only [hentries, ofEntries_declarations, hnames, List.map_map,
    Function.comp_def, List.map_id', ofDeclarations_declarations]

/-- The descriptor of a schema with finite literals is read back as the schema,
up to the sign of zeros and with the declarations in the same order.  A text
that is read as the descriptor loads as the same schema. -/
theorem exists_decoded_of_keeps {schema : Schema} (hfinite : schema.isFinite)
    {json : Json} (h : Keeps schema.toJson json) :
    ∃ decoded, ofJson? json = some decoded ∧
      List.Forall₂ (fun declaration other => declaration.agrees other)
        schema.declarations
        decoded.declarations ∧
      ∀ text : String,
        runScan (Scan.value nestingLimit []) text.toUTF8.toList = .ok json →
        ofDescriptor text = .ok decoded := by
  obtain ⟨decoded, hdecoded, hagree⟩ := Descriptor.exists_isSchema hfinite h
  exact ⟨decoded, ofJson?_of_isSchema hdecoded, hagree,
    fun _ htext => ofDescriptor_of_isSchema hdecoded htext⟩

/-- Names and strings that are keywords, lists without fields or alternatives,
and the numbers at the ends of the range of integers. -/
def keywords : Schema where
  declarations := [
    { name := "string"
      kind := .interface
      exported := true
      fields := [
        ⟨"valueType", true,
          [⟨.inline [], false⟩, ⟨.inline [⟨"key", false, []⟩], true⟩]⟩,
        ⟨"", false,
          [⟨.literal (.string "never"), false⟩, ⟨.reference "never", true⟩,
          ⟨.primitive .never, false⟩]⟩] },
    { name := "fields"
      kind := .literalUnion
      exported := false
      fields :=
        [⟨"fields", false,
          [⟨.literal (.number (.ofInt (Number.twoTo 63))), false⟩,
        ⟨.literal (.number ⟨true, .zero⟩), false⟩,
          ⟨.literal (.boolean false), false⟩]⟩] }]
  distinct := by decide

theorem exists_decoded_keywords :
    keywords.isFinite ∧ Keeps keywords.toJson keywords.toJson ∧
      ∃ decoded, ofJson? keywords.toJson = some decoded ∧
        List.Forall₂ (fun declaration other => declaration.agrees other)
          keywords.declarations
          decoded.declarations ∧
        ∀ text : String,
          runScan (Scan.value nestingLimit []) text.toUTF8.toList =
            .ok keywords.toJson →
            ofDescriptor text = .ok decoded :=
  ⟨by decide +kernel, Keeps.refl keywords.toJson,
    exists_decoded_of_keeps (by decide +kernel) (Keeps.refl keywords.toJson)⟩

end Schema

end ShapeMend
