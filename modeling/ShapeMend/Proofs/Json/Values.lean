import ShapeMend.Proofs.Json.Nested
import ShapeMend.Proofs.Json.Numerals

/-!
# Reading values back

A value that is written is read as a value of the same form if lists and objects
are nested in it no deeper than the reader goes, and is refused if they are.
Only numbers may come back as others: they are rounded as they are scaled.
-/

namespace ShapeMend.Json

open ShapeMend.Script

/-! ## Nesting -/

mutual

def nesting : Json → Nat
  | .array items => itemsNesting items + 1
  | .object members => membersNesting members + 1
  | _ => 0

def itemsNesting : List Json → Nat
  | [] => 0
  | item :: items => max item.nesting (itemsNesting items)

def membersNesting : List (String × Json) → Nat
  | [] => 0
  | (_, value) :: members => max value.nesting (membersNesting members)

end

theorem itemsNesting_le_iff {items : List Json} {depth : Nat} :
    itemsNesting items ≤ depth ↔ ∀ item ∈ items, item.nesting ≤ depth := by
  induction items with
  | nil => simp [itemsNesting]
  | cons item items ih =>
      rw [itemsNesting, Nat.max_le, List.forall_mem_cons, ih]

private theorem membersNesting_le_iff {members : List (String × Json)}
    {depth : Nat} :
    membersNesting members ≤ depth ↔ ∀ member ∈ members,
      member.2.nesting ≤ depth := by
  induction members with
  | nil => simp [membersNesting]
  | cons member members ih =>
      obtain ⟨key, value⟩ := member
      rw [membersNesting, Nat.max_le, List.forall_mem_cons, ih]

private theorem nesting_array_le_iff {items : List Json} {depth : Nat} :
    (array items).nesting ≤ depth + 1 ↔ ∀ item ∈ items,
      item.nesting ≤ depth := by
  rw [nesting, Nat.add_le_add_iff_right, itemsNesting_le_iff]

theorem nesting_object_le_iff {members : List (String × Json)} {depth : Nat} :
    (object members).nesting ≤ depth + 1 ↔ ∀ member ∈ members,
      member.2.nesting ≤ depth := by
  rw [nesting, Nat.add_le_add_iff_right, membersNesting_le_iff]

/-! ## Numbers that are bounded -/

mutual

def isBounded : Json → Bool
  | .number value => value.isBounded
  | .array items => itemsBounded items
  | .object members => membersBounded members
  | _ => true

def itemsBounded : List Json → Bool
  | [] => true
  | item :: items => item.isBounded && itemsBounded items

def membersBounded : List (String × Json) → Bool
  | [] => true
  | (_, value) :: members => value.isBounded && membersBounded members

end

/-! ## Values of the same form -/

mutual

def Resembles : Json → Json → Prop
  | .null, other => other = .null
  | .bool value, other => other = .bool value
  | .number _, other => ∃ value, other = .number value
  | .string value, other => other = .string value
  | .array items, other =>
      ∃ others, other = .array others ∧ ItemsResemble items others
  | .object members, other =>
      ∃ others, other = .object others ∧ MembersResemble members others

def ItemsResemble : List Json → List Json → Prop
  | [], others => others = []
  | item :: items, others =>
    ∃ first more, others = first :: more ∧ item.Resembles first ∧
      ItemsResemble items more

def MembersResemble : List (String × Json) → List (String × Json) → Prop
  | [], others => others = []
  | (key, value) :: members, others =>
    ∃ first more, others = (key, first) :: more ∧ value.Resembles first ∧
      MembersResemble members more

end

private theorem itemsResemble_of_forall {items others : List Json}
    (h : List.Forall₂ Resembles items others) : ItemsResemble items others := by
  induction h with
  | nil => rw [ItemsResemble]
  | cons hfirst _ ih =>
      rw [ItemsResemble]
      exact ⟨_, _, rfl, hfirst, ih⟩

private theorem membersResemble_of_forall
    {members others : List (String × Json)}
    (h : List.Forall₂ (fun member other => member.1 = other.1 ∧
      member.2.Resembles other.2) members others) :
    MembersResemble members others := by
  induction h with
  | nil => rw [MembersResemble]
  | @cons member other members others hfirst _ ih =>
      obtain ⟨key, value⟩ := member
      obtain ⟨name, found⟩ := other
      obtain ⟨rfl, hfirst⟩ := hfirst
      rw [MembersResemble]
      exact ⟨_, _, rfl, hfirst, ih⟩

namespace Scan

variable {α : Type} {path : Path} {blanks : List UInt8}

/-! ## Leaves -/

section ValueWith

variable {listed keyed : Path → Scan Json} {depth : Nat}

private theorem Loads.null :
    Loads (valueWith listed keyed) depth .null True (· = .null) := by
  intro path blanks hblanks
  have htext : prettyBytes depth .null = 0x6E :: ascii "ull" := by
    rw [prettyBytes, prettyAt]
    rfl
  rw [htext]
  refine Reads.token hblanks (by decide) ?_
  dsimp only
  rw [if_pos rfl]
  refine (Reads.advance 0x6E).andThen (fun _ _ => ?_) fun _ _ => trivial
  exact (Reads.word path (ascii "ull")).last (fun _ _ => Reads.pure rfl)
    fun _ _ => trivial

theorem prettyBytes_bool (depth : Nat) (value : Bool) :
    prettyBytes depth (.bool value) =
      if value then [0x74] ++ ascii "rue" else [0x66] ++ ascii "alse" := by
  rw [prettyBytes, prettyAt]
  cases value <;> rfl

private theorem Loads.bool (value : Bool) :
    Loads (valueWith listed keyed) depth (.bool value) True
      (· = .bool value) := by
  intro path blanks hblanks
  have hword (byte : UInt8) (rest : List UInt8) :
      Reads (do Scan.advance; Scan.word path rest; return Json.bool value)
        ([byte] ++ rest) Closed True
        (· = Json.bool value) :=
    (Reads.advance _).andThen
      (fun _ _ => (Reads.word path rest).last (fun _ _ => Reads.pure rfl)
      fun _ _ => trivial) fun _ _ => trivial
  rw [prettyBytes_bool]
  cases value with
  | true =>
      refine Reads.token hblanks (by decide) ?_
      dsimp only
      rw [if_neg (by decide), if_pos rfl]
      exact hword _ _
  | false =>
      refine Reads.token hblanks (by decide) ?_
      dsimp only
      rw [if_neg (by decide), if_neg (by decide), if_pos rfl]
      exact hword _ _

theorem prettyBytes_string (depth : Nat) (value : String) :
    prettyBytes depth (.string value) = quotedBytes value := by
  rw [prettyBytes, prettyAt, quotedBytes]

private theorem Loads.string (value : String) :
    Loads (valueWith listed keyed) depth (.string value) True
      (· = .string value) := by
  intro path blanks hblanks
  have hread : Reads (do Scan.advance; return Json.string (← Scan.string path))
      (quotedBytes value)
      Any True (· = Json.string value) :=
    (Reads.string value).map fun _ hvalue => congrArg Json.string hvalue
  rw [quotedBytes_eq] at hread
  rw [prettyBytes_string, quotedBytes_eq]
  refine Reads.token hblanks (by decide) ?_
  dsimp only
  rw [if_neg (by decide), if_neg (by decide), if_neg (by decide),
    if_neg (by decide), if_neg (by decide), if_pos rfl]
  exact hread.imp Iff.rfl (fun _ h => h) fun _ _ => trivial

private theorem Loads.number {value : JsonNumber} (h : value.isBounded) :
    Loads (valueWith listed keyed) depth (.number value) True
      fun found => ∃ n, found = Json.number n := by
  intro path blanks hblanks
  obtain ⟨negative, d, hd, htext⟩ := JsonNumber.exists_isNumber h
  have hread : Reads (do return Json.number (← Scan.number path negative))
      (bytes d.text) Closed True
      fun found => ∃ n, found = Json.number n :=
        (Reads.number hd).map fun n _ => ⟨n, rfl⟩
  rw [prettyBytes, prettyAt, htext, bytes_append]
  cases negative with
  | true =>
      refine Reads.token hblanks (by decide) ?_
      dsimp only
      rw [if_neg (by decide), if_neg (by decide), if_neg (by decide),
        if_pos (by decide)]
      exact (Reads.advance _).andThen (fun _ _ => hread) fun _ _ => trivial
  | false =>
      obtain ⟨c, more, hcons⟩ :=
        List.exists_cons_of_ne_nil (DecimalText.of_isWritten hd.written).1
      obtain ⟨hcode, hbyte, -⟩ := encode_digit
        ((DecimalText.of_isWritten hd.written).2.1 c
          (hcons ▸ List.mem_cons_self))
      have hfront : bytes d.text =
          UInt8.ofNat c.toNat ::
            bytes (more ++ (d.fractionText ++ d.exponentText)) := by
        rw [DecimalText.text, hcons, List.cons_append, bytes_cons, hcode,
          List.singleton_append]
      have hother {byte : UInt8} (h : isDigit byte = false) :
          UInt8.ofNat c.toNat ≠ byte := by
        rintro rfl
        rw [hbyte] at h
        cases h
      rw [hfront] at hread
      rw [if_neg (by decide), bytes_nil, List.nil_append, hfront]
      refine Reads.token hblanks (isSpace_of_isDigit hbyte) ?_
      dsimp only
      rw [if_neg (hother (by decide)), if_neg (hother (by decide)),
        if_neg (hother (by decide)), if_neg (hother (by decide)), if_pos hbyte]
      exact hread

private theorem Loads.array {items : List Json} {fits : Prop}
    {post : Json → Prop}
    (h : ∀ path,
      Reads (listed path) (prettyBytes depth (.array items)) Closed fits post) :
    Loads (valueWith listed keyed) depth (.array items) fits post := by
  intro path blanks hblanks
  have hread := h path
  rw [prettyBytes_array] at hread ⊢
  refine Reads.token hblanks (by decide) ?_
  dsimp only
  rw [if_neg (by decide), if_neg (by decide), if_neg (by decide),
    if_neg (by decide), if_neg (by decide), if_neg (by decide), if_pos rfl]
  exact hread

private theorem Loads.object {members : List (String × Json)} {fits : Prop}
    {post : Json → Prop}
    (h : ∀ path,
      Reads (keyed path) (prettyBytes depth (.object members)) Closed
      fits post) :
    Loads (valueWith listed keyed) depth (.object members) fits post := by
  intro path blanks hblanks
  have hread := h path
  rw [prettyBytes_object] at hread ⊢
  refine Reads.token hblanks (by decide) ?_
  dsimp only
  rw [if_neg (by decide), if_neg (by decide), if_neg (by decide),
    if_neg (by decide), if_neg (by decide), if_neg (by decide),
    if_neg (by decide), if_pos rfl]
  exact hread

end ValueWith

/-! ## Values -/

private theorem loads_leaf {json : Json} {limit depth : Nat}
    (hleaf : json.nesting = 0) {post : Json → Prop}
    (hpost : ∀ found, post found → json.Resembles found)
    (h : ∀ listed keyed, Loads (valueWith listed keyed) depth json True post) :
    Loads (value limit) depth json (json.nesting ≤ limit) json.Resembles := by
  have hfits : True ↔ json.nesting ≤ limit :=
    iff_of_true trivial (hleaf ▸ Nat.zero_le _)
  intro path blanks hblanks
  cases limit with
  | zero => exact (h _ _ path blanks hblanks).imp hfits hpost fun _ h => h
  | succ limit => exact (h _ _ path blanks hblanks).imp hfits hpost fun _ h => h

mutual

theorem loads_value {json : Json} (hbounded : json.isBounded)
    (limit depth : Nat) :
    Loads (value limit) depth json (json.nesting ≤ limit) json.Resembles := by
  cases json with
  | null =>
      refine loads_leaf (by simp [nesting]) (fun _ hfound => ?_) fun _ _ =>
        Loads.null
      rwa [Resembles]
  | bool value =>
      refine loads_leaf (by simp [nesting]) (fun _ hfound => ?_) fun _ _ =>
        Loads.bool value
      rwa [Resembles]
  | number value =>
      rw [isBounded] at hbounded
      refine loads_leaf (by simp [nesting]) (fun _ hfound => ?_) fun _ _ =>
        Loads.number hbounded
      rwa [Resembles]
  | string value =>
      refine loads_leaf (by simp [nesting]) (fun _ hfound => ?_) fun _ _ =>
        Loads.string value
      rwa [Resembles]
  | array items =>
      rw [isBounded] at hbounded
      cases limit with
      | zero => exact Loads.array fun path => Reads.refuse (by simp [nesting])
      | succ limit =>
          have hread (path : Path) :
              Reads (do return Json.array (← Scan.list path (value limit)))
              (prettyBytes depth (.array items)) Any (∀ item ∈ items,
                item.nesting ≤ limit)
              (Json.array items).Resembles :=
            (Reads.list (loads_items hbounded limit (depth + 1))).map
              fun found hfound => by
              rw [Resembles]
              exact ⟨found, rfl, itemsResemble_of_forall hfound⟩
          refine Loads.array fun path => ?_
          exact (hread path).imp nesting_array_le_iff.symm (fun _ h => h)
            fun _ _ => trivial
  | object members =>
      rw [isBounded] at hbounded
      cases limit with
      | zero => exact Loads.object fun path => Reads.refuse (by simp [nesting])
      | succ limit =>
          have hread (path : Path) :
              Reads (do return Json.object (← Scan.object path (value limit)))
              (prettyBytes depth (.object members)) Any (∀ member ∈ members,
                member.2.nesting ≤ limit)
              (Json.object members).Resembles :=
            (Reads.object (loads_members hbounded limit (depth + 1))).map
              fun found hfound => by
              rw [Resembles]
              exact ⟨found, rfl, membersResemble_of_forall hfound⟩
          refine Loads.object fun path => ?_
          exact (hread path).imp nesting_object_le_iff.symm (fun _ h => h)
            fun _ _ => trivial

theorem loads_items {items : List Json} (hbounded : itemsBounded items)
    (limit depth : Nat) :
    ∀ item ∈ items,
      Loads (value limit) depth item (item.nesting ≤ limit) item.Resembles := by
  cases items with
  | nil => exact List.forall_mem_nil _
  | cons item items =>
      rw [itemsBounded, Bool.and_eq_true] at hbounded
      exact List.forall_mem_cons.mpr
        ⟨loads_value hbounded.1 limit depth, loads_items hbounded.2 limit depth⟩

theorem loads_members {members : List (String × Json)}
    (hbounded : membersBounded members) (limit depth : Nat) :
    ∀ member ∈ members,
      Loads (value limit) depth member.2 (member.2.nesting ≤ limit)
        member.2.Resembles := by
  cases members with
  | nil => exact List.forall_mem_nil _
  | cons member members =>
      obtain ⟨key, value⟩ := member
      rw [membersBounded, Bool.and_eq_true] at hbounded
      exact List.forall_mem_cons.mpr
        ⟨loads_value hbounded.1 limit depth,
          loads_members hbounded.2 limit depth⟩

end

end Scan

end ShapeMend.Json
