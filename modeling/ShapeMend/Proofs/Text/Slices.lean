import ShapeMend.Proofs.Text.Lines

/-!
# Slices that can fail

A slice of a text is asked for by two offsets in its bytes.  There is none if
the second offset is before the first, or if one of them is behind the text or
inside of a character.  The lines of a source are slices, by a table that is
made once.
-/

namespace ShapeMend.Text

/-- The number of bytes in UTF-8. -/
def byteSize (text : List Char) : Nat := (String.ofList text).utf8ByteSize

@[simp] theorem byteSize_nil : byteSize [] = 0 := rfl

@[simp] theorem byteSize_cons (c : Char) (rest : List Char) :
    byteSize (c :: rest) = c.utf8Size + byteSize rest :=
  Source.bytes_cons c rest

@[simp] theorem byteSize_append (first second : List Char) :
    byteSize (first ++ second) = byteSize first + byteSize second := by
  induction first with
  | nil => simp
  | cons c rest ih => simp [ih, Nat.add_assoc]

theorem byteSize_replicate (n : Nat) (c : Char) :
    byteSize (List.replicate n c) = n * c.utf8Size := by
  induction n with
  | zero => rw [Nat.zero_mul]; rfl
  | succ n ih =>
      rw [List.replicate_succ, byteSize_cons, ih, Nat.succ_mul, Nat.add_comm]

private theorem length_le_byteSize (text : List Char) :
    text.length ≤ byteSize text := by
  induction text with
  | nil => exact Nat.le_refl 0
  | cons c rest ih =>
      have hpos := c.utf8Size_pos
      rw [List.length_cons, byteSize_cons]
      omega

/-! ## Slices -/

def dropBytes? : Nat → List Char → Option (List Char)
  | 0, text => some text
  | _ + 1, [] => none
  | n + 1, c :: rest =>
      if c.utf8Size ≤ n + 1 then dropBytes? (n + 1 - c.utf8Size) rest else none

def takeBytes? : Nat → List Char → Option (List Char)
  | 0, _ => some []
  | _ + 1, [] => none
  | n + 1, c :: rest =>
    if c.utf8Size ≤ n + 1 then
      (takeBytes? (n + 1 - c.utf8Size) rest).map (c :: ·)
    else none

def slice? (text : List Char) (start stop : Nat) : Option (List Char) :=
  if start ≤ stop then (dropBytes? start text).bind (takeBytes? (stop - start))
  else none

private theorem dropBytes?_append (before after : List Char) :
    dropBytes? (byteSize before) (before ++ after) = some after := by
  induction before with
  | nil => cases after <;> rfl
  | cons c rest ih =>
      obtain ⟨n, hn⟩ :=
        Nat.exists_eq_succ_of_ne_zero (n := c.utf8Size + byteSize rest)
        (by have := c.utf8Size_pos; omega)
      rw [byteSize_cons, hn, List.cons_append, dropBytes?, if_pos (by omega),
        ← Nat.succ_eq_add_one, ← hn, Nat.add_sub_cancel_left, ih]

private theorem takeBytes?_append (lexeme after : List Char) :
    takeBytes? (byteSize lexeme) (lexeme ++ after) = some lexeme := by
  induction lexeme with
  | nil => cases after <;> rfl
  | cons c rest ih =>
      obtain ⟨n, hn⟩ :=
        Nat.exists_eq_succ_of_ne_zero (n := c.utf8Size + byteSize rest)
        (by have := c.utf8Size_pos; omega)
      rw [byteSize_cons, hn, List.cons_append, takeBytes?, if_pos (by omega),
        ← Nat.succ_eq_add_one, ← hn, Nat.add_sub_cancel_left, ih,
        Option.map_some]

theorem slice?_middle (before lexeme after : List Char) :
    slice? (before ++ lexeme ++ after) (byteSize before)
      (byteSize (before ++ lexeme)) = some lexeme := by
  rw [slice?, byteSize_append, if_pos (Nat.le_add_right ..), List.append_assoc,
    dropBytes?_append, Option.bind_some, Nat.add_sub_cancel_left,
    takeBytes?_append]

theorem slice?_eq_some {text front middle back : List Char} {start stop : Nat}
    (h : text = front ++ middle ++ back) (hstart : start = byteSize front)
    (hstop : stop = byteSize (front ++ middle)) :
    slice? text start stop = some middle := by
  rw [h, hstart, hstop, slice?_middle]

/-! ## Numbers in 32 bits -/

def checked32 (n : Nat) : Option Nat := if n < UInt32.size then some n else none

def wrapped32 (n : Nat) : Nat := n % UInt32.size

/-- What a count does that has no room in 32 bits: it stops the program, or it
goes on with its lowest bits. -/
inductive Overflow where
  | stops
  | wraps
  deriving DecidableEq, Repr

def Overflow.count? : Overflow → Nat → Option Nat
  | stops, n => checked32 n
  | wraps, n => some (wrapped32 n)

def minus? (n m : Nat) : Option Nat := if m ≤ n then some (n - m) else none

theorem checked32_of_lt {n : Nat} (h : n < UInt32.size) :
    checked32 n = some n := if_pos h

theorem wrapped32_of_lt {n : Nat} (h : n < UInt32.size) : wrapped32 n = n :=
  Nat.mod_eq_of_lt h

theorem Overflow.count?_of_lt (overflow : Overflow) {n : Nat}
    (h : n < UInt32.size) : overflow.count? n = some n := by
  cases overflow with
  | stops => exact checked32_of_lt h
  | wraps => exact congrArg some (wrapped32_of_lt h)

theorem minus?_of_le {n m : Nat} (h : m ≤ n) : minus? n m = some (n - m) :=
  if_pos h

/-! ## Counted places -/

namespace Overflow

def step? (overflow : Overflow) (position : Position) (c : Char) :
    Option Position :=
  if c = '\n' then do
    let line ← overflow.count? (position.line + 1)
    return ⟨line, 1, position.offset + c.utf8Size⟩
  else do
    let column ← overflow.count? (position.column + 1)
    return ⟨position.line, column, position.offset + c.utf8Size⟩

def after? (overflow : Overflow) (position : Position) (text : List Char) :
    Option Position :=
  text.foldlM overflow.step? position

private theorem step?_behind (overflow : Overflow) {before : List Char}
    {c : Char} (hsize : byteSize (before ++ [c]) + 1 < UInt32.size) :
    overflow.step? (.behind before) c = some (.behind (before ++ [c])) := by
  have hlength := length_le_byteSize before
  have hbreaks : before.count '\n' ≤ before.length := List.count_le_length
  have hcolumn : (before.rtakeWhile (· ≠ '\n')).length ≤ before.length :=
    (List.rtakeWhile_suffix _ _).length_le
  have hpos := c.utf8Size_pos
  rw [byteSize_append, byteSize_cons, byteSize_nil] at hsize
  rw [← Position.step_behind]
  by_cases hc : c = '\n'
  · have hline : before.count '\n' + 1 + 1 < UInt32.size := by omega
    replace hline : (Position.behind before).line + 1 < UInt32.size := hline
    rw [step?, if_pos hc, overflow.count?_of_lt hline, Position.step, if_pos hc]
    rfl
  · have hroom : (before.rtakeWhile (· ≠ '\n')).length + 1 + 1 <
        UInt32.size := by omega
    replace hroom : (Position.behind before).column + 1 < UInt32.size := hroom
    rw [step?, if_neg hc, overflow.count?_of_lt hroom, Position.step,
      if_neg hc]
    rfl

theorem after?_behind (overflow : Overflow) {before text : List Char}
    (hsize : byteSize (before ++ text) + 1 < UInt32.size) :
    overflow.after? (.behind before) text =
      some (.behind (before ++ text)) := by
  induction text generalizing before with
  | nil => rw [List.append_nil]; rfl
  | cons c rest ih =>
      have hcut : before ++ c :: rest = before ++ [c] ++ rest := by simp
      rw [hcut] at hsize ⊢
      have hfirst : byteSize (before ++ [c]) + 1 < UInt32.size := by
        rw [byteSize_append] at hsize
        omega
      rw [after?, List.foldlM_cons, overflow.step?_behind hfirst]
      exact ih hsize

/-! ### Along a line -/

private theorem step?_of_ne (overflow : Overflow) (position : Position)
    {c : Char} (hc : c ≠ '\n') : overflow.step? position c =
      (overflow.count? (position.column + 1)).map fun column =>
        ⟨position.line, column, position.offset + c.utf8Size⟩ := by
  rw [step?, if_neg hc]
  cases overflow.count? (position.column + 1) <;> rfl

theorem after?_of_room (overflow : Overflow) (position : Position)
    {line : List Char} (hline : '\n' ∉ line)
    (hroom : position.column + line.length < UInt32.size) :
    overflow.after? position line = some ⟨position.line,
      position.column + line.length, position.offset + byteSize line⟩ := by
  induction line generalizing position with
  | nil => rfl
  | cons c rest ih =>
      rw [List.mem_cons, not_or] at hline
      rw [List.length_cons] at hroom
      have hcount := overflow.count?_of_lt
        (show position.column + 1 < UInt32.size by omega)
      rw [after?, List.foldlM_cons,
        overflow.step?_of_ne position (Ne.symm hline.1), hcount]
      refine (ih _ hline.2 ?_).trans ?_
      · rw [show position.column + 1 + rest.length =
          position.column + (rest.length + 1) by omega]
        exact hroom
      · rw [List.length_cons, byteSize_cons, Nat.add_assoc, Nat.add_comm 1,
          Nat.add_assoc]

theorem after?_stops (position : Position) {line : List Char}
    (hline : '\n' ∉ line) (hcolumn : position.column < UInt32.size)
    (hfull : UInt32.size ≤ position.column + line.length) :
    stops.after? position line = none := by
  induction line generalizing position with
  | nil =>
      rw [List.length_nil] at hfull
      omega
  | cons c rest ih =>
      rw [List.mem_cons, not_or] at hline
      rw [List.length_cons] at hfull
      rw [after?, List.foldlM_cons,
        stops.step?_of_ne position (Ne.symm hline.1), count?, checked32]
      split
      · next hlt =>
          refine ih _ hline.2 hlt ?_
          rw [show position.column + 1 + rest.length =
            position.column + (rest.length + 1) by omega]
          exact hfull
      · rfl

theorem after?_wraps (position : Position) {line : List Char}
    (hline : '\n' ∉ line) (hcolumn : position.column < UInt32.size) :
    wraps.after? position line = some ⟨position.line,
      wrapped32 (position.column + line.length),
      position.offset + byteSize line⟩ := by
  induction line generalizing position with
  | nil =>
      rw [List.length_nil, Nat.add_zero, wrapped32_of_lt hcolumn]
      rfl
  | cons c rest ih =>
      rw [List.mem_cons, not_or] at hline
      rw [after?, List.foldlM_cons,
        wraps.step?_of_ne position (Ne.symm hline.1)]
      refine (ih _ hline.2 (Nat.mod_lt _ (by decide))).trans ?_
      rw [List.length_cons, byteSize_cons, Nat.add_assoc, wrapped32, wrapped32,
        wrapped32, Nat.mod_add_mod, Nat.add_assoc, Nat.add_comm 1]

end Overflow

/-! ## Lines -/

/-- Where the line stops that has its line feed at an offset: there, or before a
carriage return. -/
def lineStop? (front : List Char) (start offset : Nat) : Option Nat :=
  if front.getLast? = some '\r' then
    if start < offset then some (offset - 1) else none
  else some offset

/-- Where the lines start and stop in the rest of a text, from an offset in the
line with the given start. -/
def lineTable? (overflow : Overflow) (text : List Char) (start offset : Nat) :
    List Char → Option (List (Nat × Nat))
  | [] => some [(start, wrapped32 offset)]
  | c :: rest =>
    if c = '\n' then do
      let stop ← lineStop? (← slice? text 0 offset) start offset
      let next ← overflow.count? (wrapped32 offset + 1)
      let later ← lineTable? overflow text next (offset + c.utf8Size) rest
      return (start, wrapped32 stop) :: later
    else lineTable? overflow text start (offset + c.utf8Size) rest

/-- The line of a number, counted from one; no characters where the table has no
such line. -/
def tabledLine? (text : List Char) (table : List (Nat × Nat)) (number : Nat) :
    Option (List Char) :=
  if number = 0 then some []
  else
    match table[number - 1]? with
    | some (start, stop) => slice? text start stop
    | none => some []

private theorem pieces_append {line : List Char} (h : '\n' ∉ line)
    (rest : List Char) :
    pieces '\n' (line ++ '\n' :: rest) = line :: pieces '\n' rest := by
  induction line with
  | nil => rw [List.nil_append, pieces, if_pos rfl]
  | cons c line ih =>
      rw [List.mem_cons, not_or] at h
      rw [List.cons_append, pieces, if_neg (Ne.symm h.1), ih h.2]

private theorem pieces_of_plain {line : List Char} (h : '\n' ∉ line) :
    pieces '\n' line = [line] := by
  induction line with
  | nil => rfl
  | cons c line ih =>
      rw [List.mem_cons, not_or] at h
      rw [pieces, if_neg (Ne.symm h.1), ih h.2]

private theorem lines_of_plain {line : List Char} (h : '\n' ∉ line) :
    lines line = [line] :=
  Source.lines_of_pieces
    ((pieces_of_plain h).trans (List.nil_append [line]).symm)

private theorem lines_append {line : List Char} (h : '\n' ∉ line)
    (rest : List Char) :
    lines (line ++ '\n' :: rest) = dropReturn line :: lines rest := by
  obtain ⟨ended, last, hpieces, -⟩ := exists_pieces rest
  have hline :
      pieces '\n' (line ++ '\n' :: rest) = (line :: ended) ++ [last] := by
    rw [pieces_append h, hpieces, List.cons_append]
  rw [Source.lines_of_pieces hline, Source.lines_of_pieces hpieces,
    List.map_cons, List.cons_append]

def EndsLines (front : List Char) : Prop := ∀ c ∈ front.getLast?, c = '\n'

/-- A line that ends at its line feed stops where the piece without its carriage
return does. -/
private theorem lineStop?_append {front : List Char} (hfront : EndsLines front)
    (line : List Char) :
    lineStop? (front ++ line) (byteSize front) (byteSize (front ++ line)) =
      some (byteSize (front ++ dropReturn line)) := by
  rcases List.eq_nil_or_concat line with rfl | ⟨shown, c, rfl⟩
  · have hlast : (front ++ []).getLast? ≠ some '\r' := by
      rw [List.append_nil]
      intro hreturn
      exact absurd (hfront _ hreturn) (by decide)
    rw [lineStop?, if_neg hlast, dropReturn, if_neg (by simp)]
  · rw [List.concat_eq_append, ← List.append_assoc, lineStop?,
      List.getLast?_concat, dropReturn, List.getLast?_concat]
    by_cases hc : c = '\r'
    · subst hc
      have hsize : byteSize (front ++ shown ++ ['\r']) =
          byteSize (front ++ shown) + 1 := byteSize_append _ _
      rw [if_pos rfl, if_pos rfl, hsize, List.dropLast_concat,
        if_pos (by rw [byteSize_append]; omega), Nat.add_sub_cancel]
    · rw [if_neg (by simpa using hc), if_neg (by simpa using hc),
        List.append_assoc]

theorem wrapped32_byteSize {text front back : List Char}
    (htext : text = front ++ back) (hsize : byteSize text < UInt32.size) :
    wrapped32 (byteSize front) = byteSize front := by
  rw [htext, byteSize_append] at hsize
  exact wrapped32_of_lt (by omega)

theorem lineTable?_of_plain (overflow : Overflow) (text : List Char)
    (start offset : Nat) {line : List Char} (hline : '\n' ∉ line) :
    lineTable? overflow text start offset line =
      some [(start, wrapped32 (offset + byteSize line))] := by
  induction line generalizing offset with
  | nil => rfl
  | cons c rest ih =>
      rw [List.mem_cons, not_or] at hline
      rw [lineTable?, if_neg (Ne.symm hline.1), ih _ hline.2, byteSize_cons,
        Nat.add_assoc]

/-- The table of the rest of a text has the lines of the rest, behind whole
lines and the front of one more. -/
private theorem exists_lineTable? (overflow : Overflow) {text : List Char}
    (front line rest : List Char) (htext : text = front ++ line ++ rest)
    (hfront : EndsLines front) (hline : '\n' ∉ line)
    (hsize : byteSize text < UInt32.size) :
    ∃ table, lineTable? overflow text (byteSize front)
        (byteSize (front ++ line)) rest = some table ∧
      table.map (fun place => slice? text place.1 place.2) =
        (lines (line ++ rest)).map some := by
  induction rest generalizing front line with
  | nil =>
      refine ⟨_, rfl, ?_⟩
      rw [List.append_nil, lines_of_plain hline, List.map_singleton,
        List.map_singleton, wrapped32_byteSize htext hsize,
        slice?_eq_some htext rfl rfl]
  | cons c rest ih =>
      have hmore : text = front ++ (line ++ [c]) ++ rest := by simp [htext]
      have hbehind : byteSize (front ++ (line ++ [c])) =
          byteSize (front ++ line) + c.utf8Size := by
        rw [← List.append_assoc, byteSize_append, byteSize_cons, byteSize_nil,
          Nat.add_zero]
      by_cases hc : c = '\n'
      · subst hc
        have hends : EndsLines (front ++ (line ++ ['\n'])) := by
          simp [EndsLines]
        obtain ⟨table, htable, hlines⟩ :=
          ih _ [] (by rw [List.append_nil, hmore]) hends List.not_mem_nil
        rw [List.append_nil, hbehind] at htable
        obtain ⟨back, hback⟩ : ∃ back,
            text = front ++ dropReturn line ++ back := by
          rcases shownOf_dropReturn line with hreturn | ⟨hplain, -⟩
          · exact ⟨'\r' :: '\n' :: rest, by
              rw [htext]; nth_rewrite 1 [hreturn]; simp⟩
          · exact ⟨'\n' :: rest, by rw [← hplain, htext]⟩
        have hfits : byteSize (front ++ line) + 1 < UInt32.size := by
          rw [hmore, byteSize_append, hbehind] at hsize
          exact Nat.lt_of_le_of_lt (Nat.le_add_right _ _) hsize
        refine ⟨(byteSize front, byteSize (front ++ dropReturn line)) ::
          table, ?_, ?_⟩
        · have hslice :
              slice? text 0 (byteSize (front ++ line)) = some (front ++ line) :=
            slice?_eq_some (show text = [] ++ (front ++ line) ++ '\n' ::
              rest from htext) rfl rfl
          rw [lineTable?, if_pos rfl, hslice, wrapped32_byteSize htext hsize]
          simp only [Option.bind_eq_bind, Option.bind_some,
            lineStop?_append hfront, overflow.count?_of_lt hfits,
            wrapped32_byteSize hback hsize]
          exact congrArg (· >>= fun table => some (_ :: table)) htable
        · rw [lines_append hline, List.map_cons, List.map_cons,
            slice?_eq_some hback rfl rfl, hlines, List.nil_append]
      · obtain ⟨table, htable, hlines⟩ :=
          ih front _ hmore hfront (by simp [hline, Ne.symm hc])
        rw [hbehind] at htable
        rw [List.append_assoc, List.singleton_append] at hlines
        exact ⟨table, by rw [lineTable?, if_neg hc, htable], hlines⟩

/-- Every line of a source is a slice of its text, by the table of the whole
text. -/
theorem exists_tabledLine? (overflow : Overflow) (source : Source)
    (hsize : byteSize source.chars < UInt32.size) :
    ∃ table, lineTable? overflow source.chars 0 0 source.chars = some table ∧
      ∀ number, tabledLine? source.chars table number =
        some (source.line number) := by
  obtain ⟨table, htable, hlines⟩ := exists_lineTable? overflow [] []
    source.chars rfl (by simp [EndsLines]) List.not_mem_nil hsize
  refine ⟨table, htable, fun number => ?_⟩
  have hplace := congrArg (·[number - 1]?) hlines
  simp only [List.getElem?_map, List.nil_append] at hplace
  unfold tabledLine? Source.line
  split
  · rfl
  · split
    · next start stop hsome =>
        rw [hsome, Option.map_some, eq_comm, Option.map_eq_some_iff] at hplace
        obtain ⟨line, hline, hslice⟩ := hplace
        rw [← hslice, hline, Option.getD_some]
    · next hnone =>
        rw [hnone, Option.map_none, eq_comm, Option.map_eq_none_iff] at hplace
        rw [hplace, Option.getD_none]

end ShapeMend.Text
