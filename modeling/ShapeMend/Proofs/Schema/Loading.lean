import ShapeMend.Proofs.Json.Values
import ShapeMend.Proofs.Schema.DescriptorTexts

/-!
# Loading descriptors that were written

The descriptor of a schema with finite literals is loaded again if lists and
objects are nested in it no deeper than a descriptor is read, and is refused if
they are.
-/

namespace ShapeMend

open Json

namespace Json.Scan

variable {α β δ : Type} {path : Path} {blanks : List UInt8} {depth : Nat}

/-! ## Values of a known kind -/

theorem Reads.firstByte {next : UInt8 → Scan β} (hblanks : Blank blanks)
    {byte : UInt8} (hbyte : isSpace byte = false) {text : List UInt8}
    {behind : List UInt8 → Prop} {fits : Prop} {after : β → Prop}
    (h : Reads (next byte) (byte :: text) behind fits after) :
    Reads (do next (← firstByte path)) (blanks ++ byte :: text) behind fits
      after := by
  have hbegin :
      Reads (Scan.firstByte path) blanks (Starts byte) True (· = byte) :=
    token_behind hblanks hbyte (Reads.pure rfl) fun _ h => h
  exact hbegin.andThen (fun _ hvalue => hvalue ▸ h) fun _ _ => rfl

theorem Loads.text (value : String) :
    Loads text depth (.string value) True (· = value) := by
  intro path blanks hblanks
  have hread : Reads (do Scan.advance; Scan.string path) _ Any True _ :=
    Reads.string value
  rw [quotedBytes_eq] at hread
  rw [prettyBytes_string, quotedBytes_eq]
  refine Reads.firstByte hblanks (by decide) ?_
  rw [if_pos rfl]
  exact hread.imp Iff.rfl (fun _ h => h) fun _ _ => trivial

theorem Loads.truth (value : Bool) :
    Loads truth depth (.bool value) True (· = value) := by
  intro path blanks hblanks
  have hword (byte : UInt8) (rest : List UInt8) :
      Reads (do Scan.advance; Scan.word path rest; return value)
        ([byte] ++ rest) Closed True
        (· = value) :=
    (Reads.advance _).andThen
      (fun _ _ => (Reads.word path rest).last (fun _ _ => Reads.pure rfl)
      fun _ _ => trivial) fun _ _ => trivial
  rw [prettyBytes_bool]
  cases value with
  | true =>
      refine Reads.firstByte hblanks (by decide) ?_
      rw [if_pos rfl]
      exact hword _ _
  | false =>
      refine Reads.firstByte hblanks (by decide) ?_
      rw [if_neg (by decide), if_pos rfl]
      exact hword _ _

theorem Loads.variant {known : List String} {value : String}
    (hknown : value ∈ known) :
    Loads (variant · known) depth (.string value) True (· = value) := by
  intro path blanks hblanks
  have hread : Reads ((do Scan.advance; Scan.string path) >>= fun word =>
        if known.contains word then return word
        else failHere path (.unknownVariant word known))
      (quotedBytes value) Closed True (· = value) := by
    refine (Reads.string value).last (fun word hword => ?_) fun _ _ => trivial
    rw [hword, if_pos (List.contains_iff_mem.mpr hknown)]
    exact Reads.pure rfl
  rw [quotedBytes_eq] at hread
  rw [prettyBytes_string, quotedBytes_eq]
  refine Reads.firstByte hblanks (by decide) ?_
  rw [if_pos rfl]
  exact hread

theorem Loads.sequence {element : Path → Scan α} {items : List Json}
    {fits : Json → Prop} {post : Json → α → Prop}
    (h : ∀ item ∈ items,
      Loads element (depth + 1) item (fits item) (post item)) :
    Loads (sequence · element) depth (.array items) (∀ item ∈ items, fits item)
      (List.Forall₂ post items) := by
  intro path blanks hblanks
  have hread : Reads (Scan.list path element) _ Any _ _ := Reads.list h
  rw [prettyBytes_array] at hread ⊢
  refine Reads.firstByte hblanks (by decide) ?_
  rw [if_pos rfl]
  exact hread.imp Iff.rfl (fun _ h => h) fun _ _ => trivial

/-! ## Records -/

section Records

variable {member : String → δ → Scan δ} {parts : δ} {fits fit : Prop}
  {stop : δ → Prop}

def memberBytes (depth : Nat) (json : Json) : List UInt8 :=
  [0x3A] ++ ([0x20] ++ prettyBytes depth json)

theorem Reads.recordMembers_nil (hblanks : Blank blanks) {first : Bool}
    {bound : Nat} (hbound : 0 < bound) (h : stop parts) :
    Reads (recordMembers path member first bound parts)
      (membersBytes depth first [] ++ blanks)
      (Starts 0x7D) True stop := by
  obtain ⟨inner, rfl⟩ : ∃ inner, bound = inner + 1 := ⟨bound - 1, by omega⟩
  refine (Reads.key?_end hblanks first).last (fun key hkey => ?_) fun _ h => h
  rw [hkey]
  exact Reads.pure h

section Cons

variable {next : δ → Prop} {name : String} {value : Json}
  {members : List (String × Json)}
  {bound : Nat} {first : Bool}

theorem Reads.recordMembers_cons (hblanks : Blank blanks)
    (hbound : members.length + 1 < bound)
    (h : Reads (member name parts) (memberBytes depth value) Closed fits next)
    (hrest : ∀ parts bound,
      next parts → members.length < bound →
      Reads (recordMembers path member false bound parts)
      (membersBytes depth false members ++ blanks) (Starts 0x7D) fit stop) :
    Reads (recordMembers path member first bound parts)
      (membersBytes depth first ((name, value) :: members) ++ blanks)
        (Starts 0x7D) (fits ∧ fit)
      stop := by
  obtain ⟨inner, rfl⟩ : ∃ inner, bound = inner + 1 := ⟨bound - 1, by omega⟩
  have htext : membersBytes depth first ((name, value) :: members) ++ blanks =
      ((commaBytes first ++ lineBytes depth) ++ quotedBytes name) ++
        (memberBytes depth value ++
          (membersBytes depth false members ++ blanks)) := by
    simp only [membersBytes, memberBytes, List.append_assoc]
  rw [recordMembers, htext]
  refine (Reads.key? depth first name).andThen (fun key hkey => ?_)
    fun _ _ => trivial
  rw [hkey]
  exact h.bind (fun parts hparts => hrest parts inner hparts (by omega))
    fun _ => closed_membersBytes hblanks depth members

theorem Reads.recordMembers_free (hblanks : Blank blanks)
    (hbound : members.length + 1 < bound)
    (h : Reads (member name parts) (memberBytes depth value) Closed True next)
    (hrest : ∀ parts bound,
      next parts → members.length < bound →
      Reads (recordMembers path member false bound parts)
      (membersBytes depth false members ++ blanks) (Starts 0x7D) fit stop) :
    Reads (recordMembers path member first bound parts)
      (membersBytes depth first ((name, value) :: members) ++ blanks)
        (Starts 0x7D) fit stop := by
  rw [← true_and fit]
  exact Reads.recordMembers_cons hblanks hbound h hrest

theorem Reads.recordMembers_only (hblanks : Blank blanks)
    (hbound : members.length + 1 < bound)
    (h : Reads (member name parts) (memberBytes depth value) Closed fits next)
    (hrest : ∀ parts bound,
      next parts → members.length < bound →
      Reads (recordMembers path member false bound parts)
      (membersBytes depth false members ++ blanks) (Starts 0x7D) True stop) :
    Reads (recordMembers path member first bound parts)
      (membersBytes depth first ((name, value) :: members) ++ blanks)
        (Starts 0x7D) fits stop := by
  rw [← and_true fits]
  exact Reads.recordMembers_cons hblanks hbound h hrest

end Cons

theorem Reads.record {typeName : String} {complete : δ → Scan α}
    {listed : Scan α} {post : α → Prop} {members : List (String × Json)}
    (hblanks : Blank blanks)
    (h : ∀ closing bound,
      Blank closing → members.length < bound →
      Reads (recordMembers path member true bound parts)
      (membersBytes (depth + 1) true members ++ closing) (Starts 0x7D)
      fits stop)
    (hcomplete : ∀ parts,
      stop parts → Reads (complete parts) [] (Starts 0x7D) True post) :
    Reads (record path typeName parts member complete listed)
      (blanks ++ prettyBytes depth (.object members)) Any fits post := by
  rw [prettyBytes_object]
  refine Reads.firstByte hblanks (by decide) ?_
  rw [if_neg (by decide), if_pos rfl]
  refine (Reads.advance 0x7B).andThen (fun _ _ => ?_) fun _ _ => trivial
  have hinside :
      Reads
        (do
          let bound ← Scan.remaining
          complete (← recordMembers path member true (bound + 1) parts))
        (membersBytes (depth + 1) true members ++ closingBytes depth members)
        (Starts 0x7D) fits post := by
    refine Reads.remaining fun count hcount => ?_
    have hbound : members.length < count + 1 := by
      have hlength := length_le_membersBytes (depth + 1) true members
      rw [List.length_append] at hcount
      omega
    exact (h _ _ (blank_closingBytes depth members) hbound).finish hcomplete
      fun _ h => h
  rw [← and_true fits]
  exact (hinside.within objectPlace).bind
    (fun _ hfound => Reads.endObject.last (fun _ _ => Reads.pure hfound)
      fun _ h => h) fun _ _ => rfl

theorem Reads.memberValue {name : String} {reader : Path → Scan α} {json : Json}
    {post : α → Prop} (h : Loads reader depth json fits post) :
    Reads (memberValue path name none reader) (memberBytes depth json)
      Closed fits
      fun found => ∃ value, found = some value ∧ post value := by
  refine Reads.colon.andThen (fun _ _ => ?_) fun _ _ => trivial
  exact (h _ _ blank_space).map fun value hvalue => ⟨value, rfl, hvalue⟩

end Records

end Json.Scan

/-! ## Shapes -/

open Number

theorem Literal.exists_toJson_number {x : Binary64} (h : x.isFinite) :
    ∃ number : JsonNumber,
      numberToJson x = .number number ∧ number.isBounded := by
  unfold numberToJson
  split
  · split
    · next n _ hword =>
        refine ⟨_, rfl, ?_⟩
        simp only [JsonNumber.isBounded, JsonNumber.isWord, Bool.and_eq_true,
          decide_eq_true_eq]
        simp only [twoTo, Nat.pow_eq] at hword ⊢
        omega
    · exact ⟨_, rfl, h⟩
  · rw [if_pos h]
    exact ⟨_, rfl, h⟩

mutual

private theorem Shape.isBounded_toJson {shape : Shape} (h : shape.isFinite) :
    shape.toJson.isBounded := by
  cases shape with
  | primitive primitive => simp [Shape.toJson, isBounded]
  | literal literal =>
      rw [Shape.isFinite] at h
      cases literal with
      | number value =>
          obtain ⟨number, hnumber, hbounded⟩ := Literal.exists_toJson_number h
          rw [Shape.toJson, Literal.toJson, hnumber, isBounded]
          exact hbounded
      | _ => simp [Shape.toJson, Literal.toJson, isBounded]
  | reference name => simp [Shape.toJson, isBounded]
  | inline fields =>
      rw [Shape.isFinite] at h
      rw [Shape.toJson, isBounded]
      exact bounded_fieldsToJson h

theorem bounded_fieldsToJson {fields : List (FieldOf Shape)}
    (h : fieldsFinite fields) : itemsBounded (fieldsToJson fields) := by
  match fields with
  | [] => simp [fieldsToJson, itemsBounded]
  | ⟨key, optional, alternatives⟩ :: fields =>
      rw [fieldsFinite, Bool.and_eq_true] at h
      simp [fieldsToJson, itemsBounded, isBounded, membersBounded,
        bounded_alternativesToJson h.1, bounded_fieldsToJson h.2]

theorem bounded_alternativesToJson {alternatives : List (AlternativeOf Shape)}
    (h : alternativesFinite alternatives) :
    itemsBounded (alternativesToJson alternatives) := by
  match alternatives with
  | [] => simp [alternativesToJson, itemsBounded]
  | ⟨shape, isArray⟩ :: alternatives =>
      rw [alternativesFinite, Bool.and_eq_true] at h
      simp [alternativesToJson, itemsBounded, isBounded, membersBounded,
        Shape.isBounded_toJson h.1, bounded_alternativesToJson h.2]

end

mutual

private theorem Shape.exists_ofValue_of_resembles {shape : Shape}
    (hfinite : shape.isFinite) {found : Json}
    (h : shape.toJson.Resembles found) :
    ∃ decoded,
      Shape.ofValue shape.valueType (fieldsOf? found) found = .ok decoded := by
  cases shape with
  | primitive primitive =>
      rw [Shape.toJson, Resembles] at h
      exact ⟨.primitive primitive, by cases primitive <;> rw [h] <;> rfl⟩
  | literal literal =>
      rw [Shape.isFinite] at hfinite
      cases literal with
      | string value =>
          rw [Shape.toJson, Literal.toJson, Resembles] at h
          exact ⟨.literal (.string value), by rw [h]; rfl⟩
      | number value =>
          obtain ⟨number, hnumber, -⟩ := Literal.exists_toJson_number hfinite
          rw [Shape.toJson, Literal.toJson, hnumber, Resembles] at h
          obtain ⟨other, rfl⟩ := h
          exact ⟨.literal (.number other.toBinary64), rfl⟩
      | notANumber => cases hfinite
      | boolean value =>
          rw [Shape.toJson, Literal.toJson, Resembles] at h
          exact ⟨.literal (.boolean value), by rw [h]; rfl⟩
  | reference name =>
      rw [Shape.toJson, Resembles] at h
      exact ⟨.reference name, by rw [h]; rfl⟩
  | inline fields =>
      rw [Shape.toJson, Resembles] at h
      obtain ⟨others, rfl, hothers⟩ := h
      rw [Shape.isFinite] at hfinite
      obtain ⟨decoded, hdecoded⟩ := exists_fieldItems? hfinite hothers
      exact ⟨.inline decoded, by rw [fieldsOf?, hdecoded]; rfl⟩

theorem exists_fieldItems? {fields : List (FieldOf Shape)}
    (hfinite : fieldsFinite fields) {others : List Json}
    (h : ItemsResemble (fieldsToJson fields) others) :
    ∃ decoded, fieldItems? others = some decoded := by
  match fields with
  | [] =>
      rw [fieldsToJson, ItemsResemble] at h
      exact ⟨[], by rw [h, fieldItems?]⟩
  | ⟨key, optional, alternatives⟩ :: fields =>
      rw [fieldsToJson, ItemsResemble] at h
      obtain ⟨first, more, rfl, hfirst, hmore⟩ := h
      simp only [Resembles, MembersResemble] at hfirst
      obtain ⟨_, rfl, _, _, rfl, rfl, _, _, rfl, rfl, _, _, rfl,
          ⟨items, rfl, hitems⟩, rfl⟩ := hfirst
      rw [fieldsFinite, Bool.and_eq_true] at hfinite
      obtain ⟨inner, hinner⟩ := exists_alternativeItems? hfinite.1 hitems
      obtain ⟨later, hlater⟩ := exists_fieldItems? hfinite.2 hmore
      refine ⟨⟨key, optional, inner⟩ :: later, ?_⟩
      simp [fieldItems?, fieldOf?, fieldMembers?, FieldParts.withKey?,
        FieldParts.withOptional?, alternativesOf?, hinner,
        FieldParts.complete?, hlater]

theorem exists_alternativeItems? {alternatives : List (AlternativeOf Shape)}
    (hfinite : alternativesFinite alternatives) {others : List Json}
    (h : ItemsResemble (alternativesToJson alternatives) others) :
    ∃ decoded, alternativeItems? others = some decoded := by
  match alternatives with
  | [] =>
      rw [alternativesToJson, ItemsResemble] at h
      exact ⟨[], by rw [h, alternativeItems?]⟩
  | ⟨shape, isArray⟩ :: alternatives =>
      rw [alternativesToJson, ItemsResemble] at h
      obtain ⟨first, more, rfl, hfirst, hmore⟩ := h
      simp only [Resembles, MembersResemble] at hfirst
      obtain ⟨_, rfl, found, _, rfl, hfound, _, _, rfl, rfl, _, _, rfl, rfl,
          rfl⟩ := hfirst
      rw [alternativesFinite, Bool.and_eq_true] at hfinite
      obtain ⟨decoded, hdecoded⟩ :=
        Shape.exists_ofValue_of_resembles hfinite.1 hfound
      obtain ⟨later, hlater⟩ := exists_alternativeItems? hfinite.2 hmore
      refine ⟨⟨decoded, isArray⟩ :: later, ?_⟩
      simp [alternativeItems?, alternativeOf?, alternativeMembers?,
        AlternativeParts.withIsArray?, AlternativeParts.withValueType?,
        variantOf?, Descriptor.ofKeyword?_keyword, AlternativeParts.complete?,
        hdecoded, Except.toOption, hlater]

end

/-! ## Alternatives and fields -/

namespace Descriptor

open Json.Scan

variable {limit depth : Nat}

private theorem loads_alternativeValue {json : Json}
    (hbounded : json.isBounded) :
    Loads (alternativeValue limit) depth json (json.nesting ≤ limit)
      fun found =>
      json.Resembles found.2 ∧ found.1 = fieldsOf? found.2 :=
  fun path blanks hblanks =>
    (loads_value hbounded limit depth path blanks hblanks).map fun _ hfound =>
      ⟨hfound, rfl⟩

private theorem loads_valueType (type : ValueType) :
    Loads valueType depth (.string type.keyword) True (· = type) := by
  intro path blanks hblanks
  have hknown : type.keyword ∈ ValueType.all.map (·.keyword) := by
    cases type <;> decide
  refine (Loads.variant hknown path blanks hblanks).last (fun word hword => ?_)
    fun _ h => h
  rw [hword, ofKeyword?_keyword]
  exact Reads.pure rfl

private theorem loads_kind (found : DeclarationKind) :
    Loads kind depth (.string found.keyword) True (· = found) := by
  intro path blanks hblanks
  have hknown : found.keyword ∈ kinds.map (·.keyword) := by
    cases found <;> decide
  have hfind : kinds.find? (·.keyword = found.keyword) = some found :=
    kindOf?_keyword found
  refine (Loads.variant hknown path blanks hblanks).last (fun word hword => ?_)
    fun _ h => h
  rw [hword, hfind]
  exact Reads.pure rfl

private theorem reads_alternativeMembers {value : Json}
    (hbounded : value.isBounded) (type : ValueType) (isArray : Bool)
    {path : Path} {blanks : List UInt8} (hblanks : Blank blanks) {bound : Nat}
    (hbound : 3 < bound) :
    Reads (recordMembers path (alternativeMember limit path) true bound {})
      (membersBytes depth true [("value", value), ("isArray", .bool isArray),
        ("valueType", .string type.keyword)] ++ blanks) (Starts 0x7D)
      (value.nesting ≤ limit) fun parts => ∃ found, value.Resembles found ∧
        parts = ⟨some (fieldsOf? found, found), some isArray, some type⟩ := by
  have hvalue : Reads (alternativeMember limit path "value" {})
      (memberBytes depth value) Closed
      (value.nesting ≤ limit) fun parts => ∃ found, value.Resembles found ∧
        parts = ⟨some (fieldsOf? found, found), none, none⟩ := by
    rw [alternativeMember, if_pos rfl]
    refine (Reads.memberValue (loads_alternativeValue hbounded)).map ?_
    rintro _ ⟨found, rfl, hfound, hfields⟩
    exact ⟨found.2, hfound, by rw [← hfields]⟩
  have harray (found : Option (List Field) × Json) :
      Reads (alternativeMember limit path "isArray" ⟨some found, none, none⟩)
        (memberBytes depth (.bool isArray)) Closed True
          (· = ⟨some found, some isArray, none⟩) := by
    rw [alternativeMember, if_neg (by decide), if_pos rfl]
    refine (Reads.memberValue (Loads.truth isArray)).map ?_
    rintro _ ⟨_, rfl, rfl⟩
    rfl
  have htype (found : Option (List Field) × Json) :
      Reads
        (alternativeMember limit path "valueType"
          ⟨some found, some isArray, none⟩)
        (memberBytes depth (.string type.keyword)) Closed True
        (· = ⟨some found, some isArray, some type⟩) := by
    rw [alternativeMember, if_neg (by decide), if_neg (by decide), if_pos rfl]
    refine (Reads.memberValue (loads_valueType type)).map ?_
    rintro _ ⟨_, rfl, rfl⟩
    rfl
  refine Reads.recordMembers_only hblanks hbound hvalue ?_
  rintro _ bound ⟨found, hfound, rfl⟩ hbound
  refine Reads.recordMembers_free hblanks hbound (harray _) ?_
  rintro _ bound rfl hbound
  refine Reads.recordMembers_free hblanks hbound (htype _) ?_
  rintro _ bound rfl hbound
  exact Reads.recordMembers_nil hblanks hbound ⟨found, hfound, rfl⟩

private theorem loads_alternative {value : Json} (hbounded : value.isBounded)
    {type : ValueType}
    (hshape : ∀ found, value.Resembles found → ∃ shape,
      Shape.ofValue type (fieldsOf? found) found = .ok shape)
    (isArray : Bool) :
    Loads (alternative limit) depth
      (.object [("value", value), ("isArray", .bool isArray),
        ("valueType", .string type.keyword)])
      (value.nesting ≤ limit) fun _ => True := by
  intro path blanks hblanks
  have hrecord :
      Reads (record path "RawAlternative" {} (alternativeMember limit path)
        (completeAlternative path) (listedAlternative limit path))
      (blanks ++ prettyBytes depth
        (.object [("value", value), ("isArray", .bool isArray),
        ("valueType", .string type.keyword)])) Any (value.nesting ≤ limit)
      fun parts => ∃ found, value.Resembles found ∧
        parts = ((fieldsOf? found, found), isArray, type) := by
    refine Reads.record hblanks (fun closing bound hclosing hbound =>
      reads_alternativeMembers hbounded type isArray hclosing hbound) ?_
    rintro _ ⟨found, hfound, rfl⟩
    exact Reads.pure ⟨found, hfound, rfl⟩
  refine hrecord.finish ?_ fun _ _ => trivial
  rintro _ ⟨found, hfound, rfl⟩
  obtain ⟨shape, hshape⟩ := hshape found hfound
  simp only [hshape]
  exact Reads.pure trivial

private theorem loads_alternatives {alternatives : List (AlternativeOf Shape)}
    (hfinite : alternativesFinite alternatives) :
    ∀ json ∈ alternativesToJson alternatives,
      Loads (alternative limit) depth json (json.nesting ≤ limit + 1) fun _ =>
        True := by
  induction alternatives with
  | nil => simp [alternativesToJson]
  | cons first alternatives ih =>
      obtain ⟨shape, isArray⟩ := first
      rw [alternativesFinite, Bool.and_eq_true] at hfinite
      rw [alternativesToJson]
      refine List.forall_mem_cons.mpr
        ⟨fun path blanks hblanks => ?_, ih hfinite.2⟩
      refine (loads_alternative (Shape.isBounded_toJson hfinite.1)
        (fun _ => Shape.exists_ofValue_of_resembles hfinite.1) isArray path
          blanks hblanks).imp ?_
        (fun _ h => h) fun _ h => h
      simp [nesting, membersNesting]

private theorem loads_field {key : String} {optional : Bool}
    {alternatives : List (AlternativeOf Shape)}
    (hfinite : alternativesFinite alternatives) :
    Loads (field limit) depth
      (.object [("key", .string key), ("optional", .bool optional),
        ("attribute", .array (alternativesToJson alternatives))])
      (nesting (.object [("key", .string key), ("optional", .bool optional),
        ("attribute", .array (alternativesToJson alternatives))]) ≤ limit + 3)
          fun _ => True := by
  intro path blanks hblanks
  have hkey : Reads (fieldMember limit path "key" {})
      (memberBytes (depth + 1) (.string key)) Closed True
      (· = ⟨some key, none, none⟩) := by
    rw [fieldMember, if_pos rfl]
    refine (Reads.memberValue (Loads.text key)).map ?_
    rintro _ ⟨_, rfl, rfl⟩
    rfl
  have hoptional :
      Reads (fieldMember limit path "optional" ⟨some key, none, none⟩)
      (memberBytes (depth + 1) (.bool optional)) Closed True
        (· = ⟨some key, some optional, none⟩) := by
    rw [fieldMember, if_neg (by decide), if_pos rfl]
    refine (Reads.memberValue (Loads.truth optional)).map ?_
    rintro _ ⟨_, rfl, rfl⟩
    rfl
  have hattribute :
      Reads (fieldMember limit path "attribute" ⟨some key, some optional, none⟩)
      (memberBytes (depth + 1) (.array (alternativesToJson alternatives)))
        Closed
      (∀ json ∈ alternativesToJson alternatives, json.nesting ≤ limit + 1)
      fun parts => ∃ found, parts = ⟨some key, some optional, some found⟩ := by
    rw [fieldMember, if_neg (by decide), if_neg (by decide), if_pos rfl]
    refine (Reads.memberValue (Loads.sequence (loads_alternatives hfinite))).map
      ?_
    rintro _ ⟨found, rfl, -⟩
    exact ⟨found, rfl⟩
  have hmembers (closing : List UInt8) (bound : Nat) (hclosing : Blank closing)
      (hbound : 3 < bound) :
      Reads (recordMembers path (fieldMember limit path) true bound {})
        (membersBytes (depth + 1) true
          [("key", .string key), ("optional", .bool optional),
          ("attribute", .array (alternativesToJson alternatives))] ++ closing)
            (Starts 0x7D)
        (∀ json ∈ alternativesToJson alternatives, json.nesting ≤ limit + 1)
        fun parts => ∃ found,
          parts = ⟨some key, some optional, some found⟩ := by
    refine Reads.recordMembers_free hclosing hbound hkey ?_
    rintro _ bound rfl hbound
    refine Reads.recordMembers_free hclosing hbound hoptional ?_
    rintro _ bound rfl hbound
    refine Reads.recordMembers_only hclosing hbound hattribute
      fun parts bound hparts hbound => ?_
    exact Reads.recordMembers_nil hclosing hbound hparts
  refine Reads.imp
    (Reads.record hblanks
      (fun _ _ hclosing hbound => hmembers _ _ hclosing hbound) ?_) ?_
    (fun _ h => h) fun _ _ => trivial
  · rintro _ ⟨found, rfl⟩
    exact Reads.pure trivial
  · simp [nesting, membersNesting, itemsNesting_le_iff]

private theorem loads_fields {fields : List (FieldOf Shape)}
    (hfinite : fieldsFinite fields) :
    ∀ json ∈ fieldsToJson fields,
      Loads (field limit) depth json (json.nesting ≤ limit + 3) fun _ =>
        True := by
  induction fields with
  | nil => simp [fieldsToJson]
  | cons first fields ih =>
      obtain ⟨key, optional, alternatives⟩ := first
      rw [fieldsFinite, Bool.and_eq_true] at hfinite
      rw [fieldsToJson]
      exact List.forall_mem_cons.mpr ⟨loads_field hfinite.1, ih hfinite.2⟩

/-! ## Declarations -/

private theorem loads_declaration {found : Declaration}
    (hfinite : fieldsFinite found.fields) :
    Loads (declaration limit) depth found.toJson
      (found.toJson.nesting ≤ limit + 5)
      (·.name = found.name) := by
  intro path blanks hblanks
  have hname : Reads (declarationMember limit path "name" {})
      (memberBytes (depth + 1) (.string found.name))
      Closed True (· = ⟨some found.name, none, none, none⟩) := by
    rw [declarationMember, if_pos rfl]
    refine (Reads.memberValue (Loads.text found.name)).map ?_
    rintro _ ⟨_, rfl, rfl⟩
    rfl
  have hkind :
      Reads
      (declarationMember limit path "kind" ⟨some found.name, none, none, none⟩)
      (memberBytes (depth + 1) (.string found.kind.keyword)) Closed True
      (· = ⟨some found.name, some found.kind, none, none⟩) := by
    rw [declarationMember, if_neg (by decide), if_pos rfl]
    refine (Reads.memberValue (loads_kind found.kind)).map ?_
    rintro _ ⟨_, rfl, rfl⟩
    rfl
  have hexported : Reads (declarationMember limit path "exported"
        ⟨some found.name, some found.kind, none, none⟩)
      (memberBytes (depth + 1) (.bool found.exported)) Closed True
      (· = ⟨some found.name, some found.kind, some found.exported, none⟩) := by
    rw [declarationMember, if_neg (by decide), if_neg (by decide), if_pos rfl]
    refine (Reads.memberValue (Loads.truth found.exported)).map ?_
    rintro _ ⟨_, rfl, rfl⟩
    rfl
  have hfields : Reads (declarationMember limit path "fields"
        ⟨some found.name, some found.kind, some found.exported, none⟩)
      (memberBytes (depth + 1) (.array (fieldsToJson found.fields))) Closed
      (∀ json ∈ fieldsToJson found.fields, json.nesting ≤ limit + 3)
      fun parts => ∃ fields,
        parts =
        ⟨some found.name, some found.kind, some found.exported,
          some fields⟩ := by
    rw [declarationMember, if_neg (by decide), if_neg (by decide),
      if_neg (by decide), if_pos rfl]
    refine (Reads.memberValue (Loads.sequence (loads_fields hfinite))).map ?_
    rintro _ ⟨fields, rfl, -⟩
    exact ⟨fields, rfl⟩
  have hmembers (closing : List UInt8) (bound : Nat) (hclosing : Blank closing)
      (hbound : 4 < bound) :
      Reads (recordMembers path (declarationMember limit path) true bound {})
        (membersBytes (depth + 1) true
          [("name", .string found.name), ("kind", .string found.kind.keyword),
          ("exported", .bool found.exported),
            ("fields", .array (fieldsToJson found.fields))] ++ closing)
        (Starts 0x7D) (∀ json ∈ fieldsToJson found.fields,
          json.nesting ≤ limit + 3)
        fun parts => ∃ fields,
          parts =
            ⟨some found.name, some found.kind, some found.exported,
              some fields⟩ := by
    refine Reads.recordMembers_free hclosing hbound hname ?_
    rintro _ bound rfl hbound
    refine Reads.recordMembers_free hclosing hbound hkind ?_
    rintro _ bound rfl hbound
    refine Reads.recordMembers_free hclosing hbound hexported ?_
    rintro _ bound rfl hbound
    refine Reads.recordMembers_only hclosing hbound hfields
      fun parts bound hparts hbound => ?_
    exact Reads.recordMembers_nil hclosing hbound hparts
  refine Reads.imp
    (Reads.record hblanks
      (fun _ _ hclosing hbound => hmembers _ _ hclosing hbound) ?_) ?_
    (fun _ h => h) fun _ _ => trivial
  · rintro _ ⟨fields, rfl⟩
    exact Reads.pure rfl
  · simp [Declaration.toJson, nesting, membersNesting, itemsNesting_le_iff]

private theorem reads_entries {schema : Schema} (hfinite : schema.isFinite) :
    Reads entries (prettyBytes 0 schema.toJson) Any
      (schema.toJson.nesting ≤ nestingLimit)
      fun found => ∀ entry ∈ found, entry.1 = entry.2.name := by
  have hmembers : ∀ entry ∈ schema.declarations.map fun found =>
      (found.name, found.toJson),
      Loads (declaration (nestingLimit - outerLevels)) 1 entry.2
        (entry.2.nesting ≤ nestingLimit - outerLevels + 5) fun found =>
          entry.1 = found.name := by
    intro entry hentry
    obtain ⟨found, hfound, rfl⟩ := List.mem_map.mp hentry
    have hfields := List.all_eq_true.mp hfinite found hfound
    exact fun path blanks hblanks =>
      (loads_declaration hfields path blanks hblanks).imp Iff.rfl
      (fun _ h => h.symm) fun _ h => h
  have hnames :
      ∀ (members : List (String × Json)) (found : List (String × Declaration)),
      List.Forall₂ (fun entry result => entry.1 = result.1 ∧
        entry.1 = result.2.name) members found →
        ∀ entry ∈ found, entry.1 = entry.2.name := by
    intro members found h
    induction h with
    | nil => exact List.forall_mem_nil _
    | cons hfirst _ ih =>
        exact List.forall_mem_cons.mpr ⟨hfirst.1.symm.trans hfirst.2, ih⟩
  have hread : Reads (object [] (declaration (nestingLimit - outerLevels)))
      (prettyBytes 0 schema.toJson) Any (schema.toJson.nesting ≤ nestingLimit)
      fun found => ∀ entry ∈ found, entry.1 = entry.2.name :=
    (Reads.object hmembers).imp nesting_object_le_iff.symm (hnames _)
      fun _ h => h
  rw [Schema.toJson, prettyBytes_object] at hread ⊢
  refine Reads.firstByte Blank.nil (by decide) ?_
  rw [if_pos rfl]
  exact hread

end Descriptor

namespace Schema

/-- The written descriptor of a schema is loaded again if it is nested no deeper
than descriptors are read. -/
theorem exists_ofDescriptor_pretty_iff {schema : Schema}
    (hfinite : schema.isFinite) :
    (∃ loaded, ofDescriptor schema.toJson.pretty = .ok loaded) ↔
      schema.toJson.nesting ≤ nestingLimit := by
  have hbytes : schema.toJson.pretty.toUTF8.toList =
      prettyBytes 0 schema.toJson ++ [] := by
    rw [toList_toUTF8, List.append_nil]
    rfl
  unfold ofDescriptor
  rw [hbytes]
  rcases Descriptor.reads_entries hfinite [] ⟨1, 0⟩ trivial with
    ⟨hfits, found, stop, hscan, hnames⟩ | ⟨hfits, failure, hscan⟩
  · have hrun : runScan Descriptor.entries (prettyBytes 0 schema.toJson ++ []) =
        .ok found :=
      Scan.runScan_eq_ok.mpr ⟨_, hscan⟩
    have hmatch :
        (Keyed.ofEntries found).find? (fun entry => entry.1 ≠ entry.2.name) =
        none := by
      rw [List.find?_eq_none]
      intro entry hentry
      simpa using hnames entry (Keyed.mem_of_mem_ofEntries hentry)
    simp only [hrun, hmatch]
    exact iff_of_true ⟨_, rfl⟩ hfits
  · refine iff_of_false ?_ hfits
    rintro ⟨loaded, hloaded⟩
    split at hloaded
    · cases hloaded
    · next entries hrun =>
        obtain ⟨after, hok⟩ := Scan.runScan_eq_ok.mp hrun
        exact absurd (hscan.symm.trans hok) (by simp)

end Schema

end ShapeMend
