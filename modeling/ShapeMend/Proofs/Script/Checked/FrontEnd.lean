import ShapeMend.Proofs.Script.Checked.ItemReaders

/-!
# The front end with checks

A text of fewer than `2 ^ 32 - 1` bytes is read with all checks as it is read
without them.
-/

namespace ShapeMend.Script

open ShapeMend.Text ShapeMend.Number

/-! ## Measured tokens -/

theorem TokenStream.Tiles.exists_measure {previous : Option Token}
    {before text : List Char} {stream : TokenStream}
    (h : stream.Tiles previous before text) {token : Token}
    (htoken : token ∈ stream.tokens) :
    ∃ earlier c tail after, Token.measure earlier c (tail ++ after) =
      .ok (token.kind, tail.length + 1) ∧
      token.text = String.ofList (c :: tail) := by
  induction h with
  | stop hgap => simp at htoken
  | token hgap hmeasure hfirst hrest ih =>
      rcases List.mem_cons.mp htoken with rfl | hlater
      · subst hfirst
        exact ⟨_, _, _, _, hmeasure, rfl⟩
      · exact ih hlater

namespace Token

private theorem symbol_of_measure {previous : Option Token} {c : Char}
    {rest : List Char} {kind : Kind} {n : Nat}
    (hc : c ∈ ['(', '[', '\x7b', ';', '='])
    (h : measure previous c rest = .ok (kind, n)) : kind = .symbol := by
  obtain ⟨hpunctuation, hpoint, hslash⟩ :
      isPunctuation c ∧ c ≠ '.' ∧ c ≠ '/' := by
    simp only [List.mem_cons, List.not_mem_nil, or_false] at hc
    rcases hc with rfl | rfl | rfl | rfl | rfl <;> decide
  obtain ⟨hstart, hdigit, -, hquote, htick⟩ := of_isPunctuation hpunctuation
  unfold measure at h
  simp only [hquote, hdigit, hstart, hpoint, hslash, htick, hpunctuation,
    Bool.false_eq_true, false_and, false_or, if_false, if_true] at h
  split at h <;> exact (Prod.mk.inj (Except.ok.inj h)).1.symm

private theorem isWellFormed_of_measure {previous : Option Token} {c : Char}
    {tail after : List Char}
    (h : measure previous c (tail ++ after) = .ok (.numeral, tail.length + 1)) :
    Numeral.isWellFormed (c :: tail) := by
  revert h
  fun_cases measure previous c (tail ++ after) with
  | case3 =>
      intro h
      cases hbody :
        Template.body 0 1 (tail ++ after) <;> simp [hbody, Except.map] at h
  | case4 _ _ _ n hform =>
      intro h
      obtain hn : n = tail.length + 1 := (Prod.mk.inj (Except.ok.inj h)).2
      rwa [hn, List.take_succ_cons, List.take_left] at hform
  | _ => rintro ⟨⟩

end Token

/-! ## The tokens of a text on a tape -/

def Checked.Recording.ofText {text : List Char} {table : List (Nat × Nat)}
    {stream : TokenStream} (h : TokenStream.ofText text = .ok stream)
    (htable : ∀ number, (tabledLine? text table number).isSome)
    (stop : Position) (hstop : stop.offset = byteSize text) :
    Checked.Recording where
  text := text
  table := table
  stream := { stream with stop }
  ends := hstop
  bounds token htoken := by
    have hbounds := (TokenStream.tiling_ofText h).bounds token htoken
    rw [(TokenStream.tiling_ofText h).stop_eq] at hbounds
    exact ⟨hbounds.1, Nat.le_trans hbounds.2 hstop.ge⟩
  pieces := (TokenStream.tiling_ofText h).pieces
  ordered := (TokenStream.tiling_ofText h).ordered
  lined := htable
  symbols token htoken hown := by
    obtain ⟨previous, c, tail, after, hmeasure, htext⟩ :=
      (TokenStream.tiles_ofText h).exists_measure htoken
    refine Token.symbol_of_measure ?_ hmeasure
    have hfirst : token.text.toList.head? = some c := by simp [htext]
    simp only [Checked.ownSymbols, List.mem_cons, List.not_mem_nil, or_false]
      at hown
    rcases hown with hown | hown | hown | hown | hown <;> rw [hown]
      at hfirst <;> cases hfirst <;> decide
  numerals token htoken hkind := by
    obtain ⟨previous, c, tail, after, hmeasure, htext⟩ :=
      (TokenStream.tiles_ofText h).exists_measure htoken
    rw [htext, String.toList_ofList]
    exact Token.isWellFormed_of_measure (hkind ▸ hmeasure)

namespace Checked

open Attempt

/-! ## Tapes of texts -/

variable {overflow : Overflow} {source : Source} {tape : Tape}

/-- The tokens are on the tape, each over its own characters, and then the end
of the text. -/
structure Tape.Keeps (tape : Tape) (stream : TokenStream) : Prop where
  entries_eq : tape.entries = Checked.entries stream
  stands : ∀ token ∈ stream.tokens, StandsIn tape.text token

private theorem standsIn_of_piece {text : List Char} {token : Token}
    (h : ∃ before lexeme after, text = before ++ lexeme ++ after ∧
      token.text = String.ofList lexeme ∧ token.span =
        ⟨.behind before, (Position.behind (before ++ lexeme)).offset⟩) :
    StandsIn text token := by
  obtain ⟨before, lexeme, after, htext, hlexeme, hspan⟩ := h
  rw [StandsIn, Entry.ofToken, Entry.text?, hspan, hlexeme]
  exact congrArg (Option.map String.ofList) (slice?_behind htext)

theorem Recording.keeps (r : Recording) : r.tape.Keeps r.stream :=
  ⟨rfl, fun token htoken => standsIn_of_piece (r.pieces token htoken)⟩

theorem exists_tapeOfText_eq (overflow : Overflow) (source : Source)
    (hsize : byteSize source.chars + 1 < UInt32.size) : ∃ table,
      lineTable? overflow source.chars 0 0 source.chars = some table ∧
      (∀ number, tabledLine? source.chars table number =
        some (source.line number)) ∧
      tapeOfText overflow source.chars =
        sound (((TokenStream.ofText source.chars).mapError .ofLexical).map
          fun stream => ⟨source.chars, table, entries stream⟩) := by
  obtain ⟨table, htable, hlines⟩ :=
    exists_tabledLine? overflow source (Nat.lt_of_succ_lt hsize)
  have hsome (number : Nat) :
      (tabledLine? source.chars table number).isSome := by
    rw [hlines]
    rfl
  refine ⟨table, htable, hlines, ?_⟩
  rw [tapeOfText, htable, need_some, pure_bind, scan_eq overflow hsome hsize]
  cases TokenStream.ofText source.chars <;> rfl

theorem exists_recording (hsize : byteSize source.chars < UInt32.size)
    (h : tapeOfText overflow source.chars = pure tape) :
    ∃ (r : Recording) (stream : TokenStream), r.tape = tape ∧
      r.text = source.chars ∧ TokenStream.ofText source.chars = .ok stream ∧
      r.stream = { stream with stop := r.stream.stop } := by
  obtain ⟨table, htable, hlines⟩ := exists_tabledLine? overflow source hsize
  have hsome (number : Nat) :
      (tabledLine? source.chars table number).isSome := by
    rw [hlines]
    rfl
  rw [tapeOfText, htable, need_some, pure_bind] at h
  obtain ⟨found, hscan, h⟩ := exists_of_bind_eq_pure h
  obtain ⟨stream, stop, hstream, hstop, rfl⟩ :=
    exists_stream_of_scan hsize hscan
  obtain rfl := Except.ok.inj (Option.some.inj h)
  exact ⟨.ofText hstream hsome stop hstop, stream, rfl, rfl, hstream, rfl⟩

/-! ## As many blanks as columns -/

/-- A source of blanks on a single line. -/
def blanks (n : Nat) : Source :=
  ⟨"blanks.ts", String.ofList (List.replicate n ' ')⟩

@[simp] theorem chars_blanks (n : Nat) :
    (blanks n).chars = List.replicate n ' ' := String.toList_ofList

private theorem byteSize_blanks (n : Nat) : byteSize (blanks n).chars = n := by
  rw [chars_blanks, byteSize_replicate]
  exact Nat.mul_one n

private theorem not_mem_blanks (n : Nat) : '\n' ∉ List.replicate n ' ' := by
  simp

private theorem tapeOfText_blanks (overflow : Overflow) (n : Nat) :
    tapeOfText overflow (blanks n).chars = do
      let stop ← need (overflow.after? .origin (List.replicate n ' '))
      return ⟨(blanks n).chars, [(0, wrapped32 n)],
        [⟨none, ⟨kept stop, wrapped32 stop.offset⟩, false⟩]⟩ := by
  have hgap : Gap.openingLength (List.replicate n ' ') = n := by
    have hplain : ¬ ['#', '!'] <+: List.replicate n ' ' := by
      cases n <;> simp [List.replicate_succ]
    have hlength := Gap.length_replicate (c := ' ') (by decide) (by decide) n []
    rw [List.append_nil] at hlength
    rw [Gap.openingLength_eq hplain, hlength]
    rfl
  have htake : (List.replicate n ' ').take n = List.replicate n ' ' :=
    List.take_of_length_le (by simp)
  have hdrop : (List.replicate n ' ').drop n = [] :=
    List.drop_eq_nil_of_le (by simp)
  have hbreak : (List.replicate n ' ').contains '\n' = false := by simp
  have hsize := byteSize_blanks n
  rw [chars_blanks] at hsize ⊢
  rw [tapeOfText, lineTable?_of_plain overflow _ 0 0 (not_mem_blanks n), hsize,
    Nat.zero_add]
  simp only [scan, hgap, htake, List.length_replicate, hdrop, hbreak,
    scanAfter, need_some, pure_bind, bind_assoc]

/-! ## Tilings -/

/-- The tokens on the tape of a short text tile it. -/
theorem exists_tiling_of_tapeOfText
    (hsize : byteSize source.chars + 1 < UInt32.size)
    (h : tapeOfText overflow source.chars = pure tape) :
    tape.text = source.chars ∧
      ∃ stream, tape.Keeps stream ∧ stream.Tiling source.chars := by
  obtain ⟨table, -, -, htape⟩ := exists_tapeOfText_eq overflow source hsize
  rw [htape] at h
  cases hstream : TokenStream.ofText source.chars with
  | error error =>
      rw [hstream] at h
      cases h
  | ok stream =>
      rw [hstream] at h
      obtain rfl := Except.ok.inj (Option.some.inj h)
      have htiling := TokenStream.tiling_ofText hstream
      exact ⟨rfl, stream, ⟨rfl, fun token htoken =>
        standsIn_of_piece (htiling.pieces token htoken)⟩, htiling⟩

/-- An interpreter line, a comment over two lines, a string over two lines, and
a letter of two bytes. -/
def greeting : Source := ⟨"greeting.ts",
  "#! run\nlet é = 'a\\\nb' /* c\n*/ // d"⟩

theorem exists_tiling_greeting :
    byteSize greeting.chars + 1 < UInt32.size ∧
      ∃ tape, tapeOfText .stops greeting.chars = pure tape ∧
        tape.text = greeting.chars ∧
          ∃ stream, tape.Keeps stream ∧ stream.Tiling greeting.chars := by
  have hsize : byteSize greeting.chars + 1 < UInt32.size := by decide +kernel
  have hok : (TokenStream.ofText greeting.chars).isOk := by decide +kernel
  obtain ⟨table, -, -, htape⟩ := exists_tapeOfText_eq .stops greeting hsize
  cases hstream : TokenStream.ofText greeting.chars with
  | error error => simp [hstream, Except.isOk, Except.toBool] at hok
  | ok stream =>
      rw [hstream] at htape
      exact ⟨hsize, _, htape, exists_tiling_of_tapeOfText hsize htape⟩

private theorem column_behind_ne_zero (text : List Char) :
    (Position.behind text).column ≠ 0 := Nat.succ_ne_zero _

theorem not_tiling_blanks :
    byteSize (blanks (UInt32.size - 1)).chars < UInt32.size ∧
      ∃ tape, tapeOfText .wraps (blanks (UInt32.size - 1)).chars = pure tape ∧
        ¬ ∃ stream, tape.Keeps stream ∧
          stream.Tiling (blanks (UInt32.size - 1)).chars := by
  have hstop := Overflow.after?_wraps .origin
    (not_mem_blanks (UInt32.size - 1)) (by decide)
  have hcolumn : wrapped32 (Position.origin.column +
      (List.replicate (UInt32.size - 1) ' ').length) = 0 := by
    rw [List.length_replicate]
    decide
  rw [byteSize_blanks, tapeOfText_blanks, hstop, hcolumn]
  refine ⟨by decide, _, rfl, ?_⟩
  rintro ⟨stream, hkeeps, htiling⟩
  have hlast := congrArg List.getLast? hkeeps.entries_eq
  rw [entries, List.getLast?_concat] at hlast
  have hplace : stream.stop.column = 0 :=
    congrArg (·.span.start.column) (Option.some.inj hlast).symm
  rw [htiling.stop_eq] at hplace
  exact column_behind_ne_zero _ hplace

/-! ## No check fails -/

/-- What the checks on a source come to: none of them fails, from the table of
its lines to its last item.  The items are those without checks, and the error
for a numeral without a value is never theirs. -/
structure Holds (overflow : Overflow) (source : Source) : Prop where
  lines : ∃ table,
    lineTable? overflow source.chars 0 0 source.chars = some table ∧
    ∀ number, tabledLine? source.chars table number =
      some (source.line number)
  ends : ∀ tape, tapeOfText overflow source.chars = pure tape → ∃ front last,
    tape.entries = front ++ [last] ∧ last.kind = none ∧
      ∀ entry ∈ front, entry.kind ≠ none
  numerals : ∀ tape, tapeOfText overflow source.chars = pure tape →
    ∀ entry ∈ tape.entries, entry.kind = some .numeral → ∃ digits,
      entry.text? source.chars = some (String.ofList digits) ∧
      ((Numeral.significant digits).getLast? ≠ some 'n' →
        LiteralValue.radixOfMark (Numeral.significant digits) = none →
          (Decimal.ofText? (Numeral.significant digits)).isSome)
  items : itemsOfText overflow source.chars =
    sound (Script.itemsOfText source.chars)
  flaws : ∀ error, Script.itemsOfText source.chars = .error error →
    error.flaw ≠ .numeral

/-- The entries of a stream end with the one for the end of the text, and no
other is one. -/
private theorem exists_entries (stream : TokenStream) : ∃ front last,
    entries stream = front ++ [last] ∧ last.kind = none ∧
      ∀ entry ∈ front, entry.kind ≠ none := by
  refine ⟨stream.tokens.map .ofToken, _, rfl, rfl, fun entry hentry => ?_⟩
  obtain ⟨token, -, rfl⟩ := List.mem_map.mp hentry
  rintro ⟨⟩

theorem Recording.items_eq (r : Recording) :
    r.tape.items = sound r.stream.items ∧
      ∀ error, r.stream.items = .error error → error.flaw ≠ .numeral := by
  have hitems : r.stream.items =
      ((Reader.items (r.tokens.length + 1)).run (r.cursorAt 0)).map (·.1) :=
    StateT.run'_eq ..
  rw [Tape.items, Recording.length_entries, hitems]
  cases MirrorsAt.items (r := r) (i := 0) (r.tokens.length + 1) with
  | error error hmachine hreader hflaw =>
      replace hmachine : Machine.items (r.tokens.length + 1) r.tape 0 =
        throw error := hmachine
      rw [hmachine, hreader]
      refine ⟨rfl, fun other hother => ?_⟩
      obtain rfl := Except.error.inj hother
      exact hflaw
  | ok value next hmachine hreader =>
      replace hmachine : Machine.items (r.tokens.length + 1) r.tape 0 =
        pure (value, next.val) := hmachine
      rw [hmachine, hreader]
      exact ⟨rfl, by rintro _ ⟨⟩⟩

private theorem Recording.exists_digits (r : Recording) {entry : Entry}
    (hentry : entry ∈ r.tape.entries) (hkind : entry.kind = some .numeral) :
    ∃ digits, entry.text? r.text = some (String.ofList digits) ∧
      ((Numeral.significant digits).getLast? ≠ some 'n' →
        LiteralValue.radixOfMark (Numeral.significant digits) = none →
          (Decimal.ofText? (Numeral.significant digits)).isSome) := by
  rw [r.keeps.entries_eq] at hentry
  rcases List.mem_append.mp hentry with hfront | hend
  · obtain ⟨token, htoken, rfl⟩ := List.mem_map.mp hfront
    have hform := r.numerals token htoken (Option.some.inj hkind)
    refine ⟨token.text.toList, ?_, fun hinteger hradix => ?_⟩
    · rw [String.ofList_toList]
      exact r.keeps.stands token htoken
    · have hdecimal := Numeral.isDecimal_of_isWellFormed hform hradix
      exact (Numeral.ofText?_of_isDecimal hdecimal).resolve_left hinteger
  · rw [List.mem_singleton.mp hend] at hkind
    cases hkind

/-- No check fails on a source of fewer than `2 ^ 32 - 1` bytes, whatever an
overflow does. -/
theorem holds_of_byteSize_lt (overflow : Overflow) (source : Source)
    (hsize : byteSize source.chars + 1 < UInt32.size) :
    Holds overflow source := by
  have hshort : byteSize source.chars < UInt32.size := Nat.lt_of_succ_lt hsize
  obtain ⟨table, htable, hlines, htape⟩ :=
    exists_tapeOfText_eq overflow source hsize
  have hsome (number : Nat) :
      (tabledLine? source.chars table number).isSome := by
    rw [hlines]
    rfl
  have hread : itemsOfText overflow source.chars =
        sound (Script.itemsOfText source.chars) ∧
      ∀ error, Script.itemsOfText source.chars = .error error →
        error.flaw ≠ .numeral := by
    rw [itemsOfText, htape, Script.itemsOfText]
    cases hstream : TokenStream.ofText source.chars with
    | error error =>
        refine ⟨rfl, fun other hother => ?_⟩
        obtain rfl := Except.error.inj hother
        rintro ⟨⟩
    | ok stream =>
        have hstop := (TokenStream.tiling_ofText hstream).stop_eq
        exact (Recording.ofText hstream hsome stream.stop
          (congrArg Position.offset hstop)).items_eq
  refine ⟨⟨table, htable, hlines⟩, fun tape h => ?_, fun tape h => ?_, hread.1,
    hread.2⟩
  · obtain ⟨r, -, rfl, -⟩ := exists_recording hshort h
    exact exists_entries r.stream
  · obtain ⟨r, -, rfl, htext, -⟩ := exists_recording hshort h
    rw [← htext]
    exact fun entry hentry hkind => r.exists_digits hentry hkind

/-- A source with line ends of both kinds, a letter of more than one byte,
brackets and numerals. -/
def shelf : Source := ⟨"shelf.ts",
  "type A = (é: B<[1_0.5e3]>) => '\\u\x7b41\x7d'\r\nlet b = [0x1F];\n"⟩

theorem holds_shelf : byteSize shelf.chars + 1 < UInt32.size ∧
    Holds .stops shelf ∧ (Script.itemsOfText shelf.chars).isOk := by
  have hsize : byteSize shelf.chars + 1 < UInt32.size := by decide +kernel
  exact ⟨hsize, holds_of_byteSize_lt .stops shelf hsize, by decide +kernel⟩

theorem run_itemsOfText_blanks :
    byteSize (blanks (UInt32.size - 1)).chars < UInt32.size ∧
      (itemsOfText .stops (blanks (UInt32.size - 1)).chars).run = none := by
  have hfull : UInt32.size ≤ Position.origin.column +
      (List.replicate (UInt32.size - 1) ' ').length := by
    rw [List.length_replicate]
    decide
  have hstop := Overflow.after?_stops .origin
    (not_mem_blanks (UInt32.size - 1)) (by decide) hfull
  rw [byteSize_blanks]
  refine ⟨by decide, ?_⟩
  rw [itemsOfText, tapeOfText_blanks, hstop]
  rfl

end Checked

end ShapeMend.Script
