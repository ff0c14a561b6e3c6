import ShapeMend.Proofs.Json.Strings
import ShapeMend.Proofs.Module.Numbers

/-!
# Reading lists and objects back

The items of a list and the members of an object are written with a line each.
A reader of the single values makes a reader of the whole: one fits where each
of its values does.
-/

namespace ShapeMend.Json

/-! ## Written values -/

def prettyBytes (depth : Nat) (json : Json) : List UInt8 :=
  bytes (prettyAt depth json).toList

def lineBytes (depth : Nat) : List UInt8 := bytes (newline depth).toList

def commaBytes (first : Bool) : List UInt8 := if first then [] else [0x2C]

def itemsBytes (depth : Nat) (first : Bool) : List Json → List UInt8
  | [] => []
  | item :: items =>
    (commaBytes first ++ lineBytes depth) ++
      (prettyBytes depth item ++ itemsBytes depth false items)

def membersBytes (depth : Nat) (first : Bool) :
    List (String × Json) → List UInt8
  | [] => []
  | (key, value) :: members =>
    (commaBytes first ++ lineBytes depth ++ quotedBytes key) ++
      ([0x3A] ++
        (([0x20] ++ prettyBytes depth value) ++
        membersBytes depth false members))

theorem toList_newline (depth : Nat) :
    (newline depth).toList = '\n' :: List.replicate (2 * depth) ' ' := by
  unfold newline
  generalize 2 * depth = count
  induction count with
  | zero => rfl
  | succ count ih =>
      have hpush :
          "\n".pushn ' ' (count + 1) = ("\n".pushn ' ' count).push ' ' := rfl
      rw [hpush, String.toList_push, ih, List.replicate_succ', List.cons_append]

theorem blank_lineBytes (depth : Nat) : Scan.Blank (lineBytes depth) := by
  intro byte hbyte
  rw [lineBytes, toList_newline, bytes, List.mem_flatMap] at hbyte
  obtain ⟨c, hc, hbyte⟩ := hbyte
  rcases List.mem_cons.mp hc with rfl | hc
  · exact List.mem_singleton.mp hbyte ▸ rfl
  · rw [(List.mem_replicate.mp hc).2] at hbyte
    exact List.mem_singleton.mp hbyte ▸ rfl

private theorem itemsBytes_eq (depth : Nat) (first : Bool) {items : List Json}
    (hne : items ≠ []) :
    itemsBytes depth first items = commaBytes first ++
      bytes (prettyItems depth items).toList := by
  induction items generalizing first with
  | nil => exact absurd rfl hne
  | cons item items ih =>
      cases items with
      | nil => simp [prettyItems, itemsBytes, lineBytes, prettyBytes]
      | cons other items =>
          have hcomma : bytes ",".toList = commaBytes false := rfl
          have hstep : prettyItems depth (item :: other :: items) =
              newline depth ++ prettyAt depth item ++ "," ++
                prettyItems depth (other :: items) := by
            rw [prettyItems]
            exact List.cons_ne_nil _ _
          rw [itemsBytes, ih false (List.cons_ne_nil _ _), hstep]
          simp only [String.toList_append, bytes_append, hcomma, lineBytes,
            prettyBytes, List.append_assoc]

private theorem membersBytes_eq (depth : Nat) (first : Bool)
    {members : List (String × Json)} (hne : members ≠ []) :
    membersBytes depth first members =
      commaBytes first ++ bytes (prettyMembers depth members).toList := by
  have hcolon : bytes ": ".toList = [0x3A] ++ [0x20] := rfl
  induction members generalizing first with
  | nil => exact absurd rfl hne
  | cons member members ih =>
      obtain ⟨key, value⟩ := member
      cases members with
      | nil =>
          simp only [prettyMembers, membersBytes, lineBytes, prettyBytes,
            quotedBytes, String.toList_append, bytes_append, hcolon,
            List.append_assoc, List.append_nil]
      | cons other members =>
          have hcomma : bytes ",".toList = commaBytes false := rfl
          have hstep : prettyMembers depth ((key, value) :: other :: members) =
              newline depth ++ quoted key ++ ": " ++
                prettyAt depth value ++ "," ++
                prettyMembers depth (other :: members) := by
            rw [prettyMembers]
            exact List.cons_ne_nil _ _
          rw [membersBytes, ih false (List.cons_ne_nil _ _), hstep]
          simp only [String.toList_append, bytes_append, hcomma, hcolon,
            lineBytes, prettyBytes, quotedBytes, List.append_assoc]

private theorem length_le_itemsBytes (depth : Nat) (first : Bool)
    (items : List Json) :
    items.length ≤ (itemsBytes depth first items).length := by
  have hline : 0 < (lineBytes depth).length := by
    rw [lineBytes, toList_newline]
    exact Nat.succ_pos _
  induction items generalizing first with
  | nil => exact Nat.le_refl _
  | cons item items ih =>
      have hlater := ih false
      simp only [itemsBytes, List.length_append, List.length_cons]
      omega

theorem length_le_membersBytes (depth : Nat) (first : Bool)
    (members : List (String × Json)) :
    members.length ≤ (membersBytes depth first members).length := by
  induction members generalizing first with
  | nil => exact Nat.le_refl _
  | cons member members ih =>
      have hlater := ih false
      simp only [membersBytes, List.length_append, List.length_cons]
      omega

def closingBytes {α : Type} (depth : Nat) (items : List α) : List UInt8 :=
  if items.isEmpty then [] else lineBytes depth

theorem blank_closingBytes {α : Type} (depth : Nat) (items : List α) :
    Scan.Blank (closingBytes depth items) := by
  unfold closingBytes
  split
  · exact List.forall_mem_nil _
  · exact blank_lineBytes depth

theorem prettyBytes_array (depth : Nat) (items : List Json) :
    prettyBytes depth (.array items) =
    [0x5B] ++
      ((itemsBytes (depth + 1) true items ++ closingBytes depth items) ++
        [0x5D]) := by
  cases items with
  | nil =>
      rw [prettyBytes, prettyAt]
      rfl
  | cons item items =>
      have hopen : bytes "[".toList = [0x5B] := rfl
      have hclose : bytes "]".toList = [0x5D] := rfl
      rw [itemsBytes_eq _ _ (List.cons_ne_nil _ _)]
      simp only [prettyBytes, prettyAt, String.toList_append, bytes_append,
        hopen, hclose, commaBytes, closingBytes, lineBytes, List.isEmpty_cons,
        if_true, Bool.false_eq_true, if_false, List.nil_append,
        List.append_assoc]

theorem prettyBytes_object (depth : Nat) (members : List (String × Json)) :
    prettyBytes depth (.object members) =
      [0x7B] ++
        ((membersBytes (depth + 1) true members ++
          closingBytes depth members) ++ [0x7D]) := by
  cases members with
  | nil =>
      rw [prettyBytes, prettyAt]
      rfl
  | cons member members =>
      have hopen : bytes "\x7b".toList = [0x7B] := rfl
      have hclose : bytes "\x7d".toList = [0x7D] := rfl
      rw [membersBytes_eq _ _ (List.cons_ne_nil _ _)]
      simp only [prettyBytes, prettyAt, String.toList_append, bytes_append,
        hopen, hclose, commaBytes, closingBytes, lineBytes, List.isEmpty_cons,
        if_true, Bool.false_eq_true, if_false, List.nil_append,
        List.append_assoc]

namespace Scan

variable {α : Type} {path : Path} {blanks : List UInt8}

/-! ## Lists -/

theorem isSpace_of_isDigit {byte : UInt8} (h : isDigit byte) :
    isSpace byte = false := by
  cases hspace : isSpace byte with
  | false => rfl
  | true =>
      simp only [isSpace, Bool.or_eq_true, decide_eq_true_eq, or_assoc]
        at hspace
      rcases hspace with rfl | rfl | rfl | rfl <;> exact absurd h (by decide)

def Loads (reader : Path → Scan α) (depth : Nat) (json : Json) (fits : Prop)
    (post : α → Prop) : Prop :=
  ∀ path blanks, Blank blanks →
    Reads (reader path) (blanks ++ prettyBytes depth json) Closed fits post

private theorem exists_prettyBytes (depth : Nat) (json : Json) : ∃ byte rest,
    prettyBytes depth json = byte :: rest ∧ isSpace byte = false ∧
      byte ≠ 0x5D := by
  cases json with
  | null =>
      exact ⟨0x6E, _, by rw [prettyBytes, prettyAt]; rfl, by decide, by decide⟩
  | bool value =>
      cases value
      · exact ⟨0x66, _, by
          rw [prettyBytes, prettyAt]; rfl, by decide, by decide⟩
      · exact ⟨0x74, _, by
          rw [prettyBytes, prettyAt]; rfl, by decide, by decide⟩
  | number value =>
      obtain ⟨negative, d, hd, htext⟩ := value.exists_text
      obtain ⟨hne, hwhole, -⟩ := Script.DecimalText.of_isWritten hd
      obtain ⟨c, digits, hdigits⟩ := List.exists_cons_of_ne_nil hne
      have hdigit : c.isDigit := hwhole c (hdigits ▸ List.mem_cons_self)
      rw [prettyBytes, prettyAt, htext, Script.DecimalText.text, hdigits]
      cases negative with
      | true => exact ⟨0x2D, _, rfl, by decide, by decide⟩
      | false =>
          obtain ⟨hcode, hbyte, -⟩ := encode_digit hdigit
          refine ⟨UInt8.ofNat c.toNat,
            bytes (digits ++ (d.fractionText ++ d.exponentText)), ?_,
            isSpace_of_isDigit hbyte, ?_⟩
          · rw [if_neg (by decide), List.nil_append, List.cons_append,
              bytes_cons, hcode]
            rfl
          · rintro hbracket
            rw [hbracket] at hbyte
            exact absurd hbyte (by decide)
  | string value =>
      have hquoted : prettyBytes depth (.string value) = quotedBytes value := by
        rw [prettyBytes, prettyAt, quotedBytes]
      exact ⟨0x22, _, hquoted.trans (quotedBytes_eq value), by
        decide, by decide⟩
  | array items =>
      exact ⟨_, _, prettyBytes_array depth items, by decide, by decide⟩
  | object members =>
      exact ⟨_, _, prettyBytes_object depth members, by decide, by decide⟩

private theorem Reads.hasElement_end {blanks : List UInt8}
    (hblanks : Blank blanks) (first : Bool) :
    Reads (hasElement path first) blanks (Starts 0x5D) True (· = false) := by
  refine Reads.token_behind hblanks (by decide) ?_ fun _ h => h
  dsimp only
  rw [if_pos rfl]
  exact Reads.pure rfl

private theorem Reads.hasElement {byte : UInt8} (hspace : isSpace byte = false)
    (hbyte : byte ≠ 0x5D) (depth : Nat) (first : Bool) :
    Reads (hasElement path first) (commaBytes first ++ lineBytes depth)
      (Starts byte) True (· = true) := by
  cases first with
  | true =>
      refine Reads.token_behind (blank_lineBytes depth) hspace ?_ fun _ h => h
      dsimp only
      rw [if_neg hbyte, if_pos rfl]
      exact Reads.pure rfl
  | false =>
      refine Reads.token_front (by decide) ?_
      dsimp only
      rw [if_neg (by decide), if_neg (by decide), if_pos rfl]
      refine (Reads.advance _).andThen ?_ fun _ _ => trivial
      intro _ _
      refine Reads.token_behind (blank_lineBytes depth) hspace ?_ fun _ h => h
      dsimp only
      rw [if_neg hbyte]
      exact Reads.pure rfl

theorem closed_of_head {byte : UInt8}
    (h : byte = 0x2C ∨ isSpace byte ∨ byte = 0x5D ∨ byte = 0x7D)
    {rest : List UInt8} (hrest : Starts byte rest) : Closed rest := by
  intro other hother
  rw [hrest] at hother
  obtain rfl := Option.some.inj hother
  rcases h with rfl | hspace | rfl | rfl
  · decide
  · simp only [isSpace, Bool.or_eq_true, decide_eq_true_eq, or_assoc] at hspace
    rcases hspace with rfl | rfl | rfl | rfl <;> decide
  · decide
  · decide

theorem closed_blanks (hblanks : Blank blanks) {byte : UInt8}
    (hbyte : byte = 0x5D ∨ byte = 0x7D) {rest : List UInt8}
    (hrest : Starts byte rest) : Closed (blanks ++ rest) := by
  cases blanks with
  | nil => exact closed_of_head (.inr (.inr hbyte)) hrest
  | cons blank blanks =>
      exact closed_of_head (.inr (.inl (hblanks blank List.mem_cons_self))) rfl

private theorem closed_itemsBytes (hblanks : Blank blanks) (depth : Nat)
    (items : List Json) {rest : List UInt8} (hrest : Starts 0x5D rest) :
    Closed (itemsBytes depth false items ++ blanks ++ rest) := by
  cases items with
  | nil => exact closed_blanks hblanks (.inl rfl) hrest
  | cons item items => exact closed_of_head (.inl rfl) rfl

private theorem Reads.elements {element : Path → Scan α} {depth : Nat}
    {items : List Json} {fits : Json → Prop} {post : Json → α → Prop}
    (h : ∀ item ∈ items, Loads element depth item (fits item) (post item))
    (hblanks : Blank blanks) {bound index : Nat}
    (hbound : items.length < bound) :
    Reads (elements path element bound index)
      (itemsBytes depth (index = 0) items ++ blanks)
      (Starts 0x5D) (∀ item ∈ items, fits item) (List.Forall₂ post items) := by
  induction items generalizing bound index with
  | nil =>
      obtain ⟨bound, rfl⟩ : ∃ inner, bound = inner + 1 := ⟨bound - 1, by omega⟩
      rw [iff_true_intro (List.forall_mem_nil fits)]
      refine (Reads.hasElement_end hblanks _).last ?_ fun _ h => h
      rintro _ rfl
      exact Reads.pure .nil
  | cons item items ih =>
      obtain ⟨bound, rfl⟩ : ∃ inner, bound = inner + 1 := ⟨bound - 1, by omega⟩
      obtain ⟨hitem, hlater⟩ := List.forall_mem_cons.mp h
      obtain ⟨byte, front, hfront, hspace, hbyte⟩ :=
        exists_prettyBytes depth item
      have hread (path : Path) :
          Reads (element path) (prettyBytes depth item) Closed (fits item)
          (post item) := hitem path [] (List.forall_mem_nil _)
      have hrest : Reads (Scan.elements path element bound (index + 1))
          (itemsBytes depth false items ++ blanks) (Starts 0x5D)
            (∀ item ∈ items, fits item)
          (List.Forall₂ post items) := ih hlater (Nat.lt_of_succ_lt_succ hbound)
      have hboth : Reads (do
            let first ← element (.index index :: path)
            return first :: (← Scan.elements path element bound (index + 1)))
          (prettyBytes depth item ++ (itemsBytes depth false items ++ blanks))
            (Starts 0x5D)
          (fits item ∧ ∀ item ∈ items,
            fits item) (List.Forall₂ post (item :: items)) :=
        (hread _).bind
          (fun _ hfirst => hrest.map fun _ hmore => .cons hfirst hmore)
          fun _ => closed_itemsBytes hblanks depth items
      have htext : itemsBytes depth (index = 0) (item :: items) ++ blanks =
          (commaBytes (index = 0) ++ lineBytes depth) ++
            (prettyBytes depth item ++
              (itemsBytes depth false items ++ blanks)) := by
        simp only [itemsBytes, List.append_assoc]
      rw [Scan.elements, htext, List.forall_mem_cons]
      refine (Reads.hasElement hspace hbyte depth (index = 0)).andThen
        (fun value hvalue => ?_)
        fun rest _ => ?_
      · rw [hvalue, if_pos rfl]
        exact hboth
      · rw [hfront]
        rfl

theorem Reads.list {element : Path → Scan α} {depth : Nat} {items : List Json}
    {fits : Json → Prop} {post : Json → α → Prop}
    (h : ∀ item ∈ items,
      Loads element (depth + 1) item (fits item) (post item)) :
    Reads (Scan.list path element) (prettyBytes depth (.array items)) Any
      (∀ item ∈ items, fits item)
      (List.Forall₂ post items) := by
  rw [prettyBytes_array]
  refine (Reads.advance _).andThen (fun _ _ => ?_) fun _ _ => trivial
  refine Reads.remaining fun count hcount => ?_
  have hbound : items.length < count + 1 := by
    have hlength := length_le_itemsBytes (depth + 1) true items
    rw [List.length_append, List.length_append] at hcount
    omega
  have hinside : Reads (Scan.elements path element (count + 1) 0)
      (itemsBytes (depth + 1) true items ++ closingBytes depth items)
        (Starts 0x5D)
      (∀ item ∈ items, fits item) (List.Forall₂ post items) :=
    Reads.elements h (blank_closingBytes depth items) hbound
  have hend : Reads (endList path) [0x5D] Any True fun _ => True := by
    refine Reads.token_front (by decide) ?_
    dsimp only
    rw [if_pos rfl]
    exact Reads.advance _
  rw [← and_true (∀ item ∈ items, fits item)]
  exact (hinside.within listPlace).bind
    (fun _ hfound => hend.last (fun _ _ => Reads.pure hfound) fun _ h => h)
      fun _ _ => rfl

/-! ## Objects -/

theorem Reads.key?_end (hblanks : Blank blanks) (first : Bool) :
    Reads (key? path first) blanks (Starts 0x7D) True (· = none) := by
  refine Reads.token_behind hblanks (by decide) ?_ fun _ h => h
  dsimp only
  rw [if_pos rfl]
  exact Reads.pure rfl

theorem Reads.key? (depth : Nat) (first : Bool) (key : String) :
    Reads (key? path first)
      ((commaBytes first ++ lineBytes depth) ++ quotedBytes key) Any True
      (· = some key) := by
  have hstring :
      Reads (do Scan.advance; return some (← Scan.string (.unknown :: path)))
      (quotedBytes key) Any True (· = some key) :=
    (Reads.string key).map fun _ hvalue => congrArg some hvalue
  rw [quotedBytes_eq] at hstring ⊢
  cases first with
  | true =>
      refine Reads.token (blank_lineBytes depth) (by decide) ?_
      dsimp only
      rw [if_neg (by decide), if_pos rfl, if_pos rfl]
      exact hstring
  | false =>
      refine Reads.token_front (by decide) ?_
      dsimp only
      rw [if_neg (by decide), if_neg (by decide), if_pos rfl]
      refine (Reads.advance _).andThen (fun _ _ => ?_) fun _ _ => trivial
      refine Reads.token (blank_lineBytes depth) (by decide) ?_
      dsimp only
      rw [if_pos rfl]
      exact hstring

theorem Reads.colon : Reads (colon path) [0x3A] Any True fun _ => True := by
  refine Reads.token_front (by decide) ?_
  dsimp only
  rw [if_pos rfl]
  exact Reads.advance _

theorem Reads.endObject :
    Reads (endObject path) [0x7D] Any True fun _ => True := by
  refine Reads.token_front (by decide) ?_
  dsimp only
  rw [if_pos rfl]
  exact Reads.advance _

theorem closed_membersBytes (hblanks : Blank blanks) (depth : Nat)
    (members : List (String × Json)) {rest : List UInt8}
    (hrest : Starts 0x7D rest) :
    Closed (membersBytes depth false members ++ blanks ++ rest) := by
  cases members with
  | nil => exact closed_blanks hblanks (.inr rfl) hrest
  | cons member members => exact closed_of_head (.inl rfl) rfl

theorem blank_space : Blank [0x20] := List.forall_mem_singleton.mpr rfl

private theorem Reads.members {member : Path → Scan α} {depth : Nat}
    {members : List (String × Json)} {fits : String × Json → Prop}
    {post : String × Json → α → Prop}
    (h : ∀ entry ∈ members,
      Loads member depth entry.2 (fits entry) (post entry))
    (hblanks : Blank blanks) {first : Bool} {bound : Nat}
    (hbound : members.length < bound) :
    Reads (Scan.members path member first bound)
      (membersBytes depth first members ++ blanks)
      (Starts 0x7D) (∀ entry ∈ members, fits entry)
      (List.Forall₂ (fun entry found => entry.1 = found.1 ∧ post entry found.2)
        members) := by
  induction members generalizing bound first with
  | nil =>
      obtain ⟨bound, rfl⟩ : ∃ inner, bound = inner + 1 := ⟨bound - 1, by omega⟩
      rw [iff_true_intro (List.forall_mem_nil fits)]
      refine (Reads.key?_end hblanks _).last ?_ fun _ h => h
      rintro _ rfl
      exact Reads.pure .nil
  | cons entry members ih =>
      obtain ⟨bound, rfl⟩ : ∃ inner, bound = inner + 1 := ⟨bound - 1, by omega⟩
      obtain ⟨key, value⟩ := entry
      obtain ⟨hvalue, hlater⟩ := List.forall_mem_cons.mp h
      have hrest := @ih hlater false bound (Nat.lt_of_succ_lt_succ hbound)
      have htext :
          membersBytes depth first ((key, value) :: members) ++ blanks =
          ((commaBytes first ++ lineBytes depth) ++ quotedBytes key) ++
            ([0x3A] ++ (([0x20] ++ prettyBytes depth value) ++
              (membersBytes depth false members ++ blanks))) := by
        simp only [membersBytes, List.append_assoc]
      rw [Scan.members, htext, List.forall_mem_cons]
      refine (Reads.key? depth first key).andThen (fun name hname => ?_)
        fun _ _ => trivial
      rw [hname]
      refine Reads.colon.andThen (fun _ _ => ?_) fun _ _ => trivial
      exact (hvalue _ _ blank_space).bind
        (fun _ hfound => hrest.map fun _ hmore => .cons ⟨rfl, hfound⟩ hmore)
        fun _ => closed_membersBytes hblanks depth members

theorem Reads.object {member : Path → Scan α} {depth : Nat}
    {members : List (String × Json)} {fits : String × Json → Prop}
    {post : String × Json → α → Prop}
    (h : ∀ entry ∈ members,
      Loads member (depth + 1) entry.2 (fits entry) (post entry)) :
    Reads (Scan.object path member) (prettyBytes depth (.object members)) Any
      (∀ entry ∈ members, fits entry)
      (List.Forall₂ (fun entry found => entry.1 = found.1 ∧ post entry found.2)
        members) := by
  rw [prettyBytes_object]
  refine (Reads.advance _).andThen (fun _ _ => ?_) fun _ _ => trivial
  refine Reads.remaining fun count hcount => ?_
  have hbound : members.length < count + 1 := by
    have hlength := length_le_membersBytes (depth + 1) true members
    rw [List.length_append, List.length_append] at hcount
    omega
  have hinside : Reads (Scan.members path member true (count + 1))
      (membersBytes (depth + 1) true members ++ closingBytes depth members)
        (Starts 0x7D) _ _ :=
    Reads.members h (blank_closingBytes depth members) hbound
  rw [← and_true (∀ entry ∈ members, fits entry)]
  exact (hinside.within objectPlace).bind
    (fun _ hfound => Reads.endObject.last (fun _ _ => Reads.pure hfound)
      fun _ h => h) fun _ _ => rfl

end Scan

end ShapeMend.Json
