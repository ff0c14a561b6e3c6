import Mathlib
import ShapeMend.Proofs.Script.Checked.FrontEnd
import ShapeMend.Proofs.Script.Errors
import ShapeMend.Proofs.Script.NestedSpans

/-!
# Places with checks

The spans of items and trees, and the places of errors, as they are read with
all checks.  They are as they should be for a text whose offsets have room; the
texts at the end of each section have one byte too many.
-/

namespace ShapeMend.Script.Checked

open ShapeMend.Text Attempt

variable {overflow : Overflow} {source : Source} {tape : Tape}
  {found : List Item}

/-! ## Tapes and their tokens -/

private theorem exists_tape (overflow : Overflow) (source : Source)
    (hsize : byteSize source.chars + 1 < UInt32.size) {count : Nat}
    (hcount : (Script.itemsOfText source.chars).toOption.map List.length =
      some count) : ∃ tape found,
      tapeOfText overflow source.chars = pure tape ∧
        tape.items = pure found ∧ found.length = count := by
  have hitems := (holds_of_byteSize_lt overflow source hsize).items
  cases hfound : Script.itemsOfText source.chars with
  | error error =>
      rw [hfound] at hcount
      cases hcount
  | ok found =>
      rw [hfound] at hcount hitems
      rw [itemsOfText] at hitems
      obtain ⟨tape, htape, h⟩ := exists_of_bind_eq_pure hitems
      exact ⟨tape, found, htape, h, Option.some.inj hcount⟩

private theorem Recording.ordered_tokens (r : Recording) :
    Ordered r.stream.tokens :=
  ⟨fun token htoken => (r.bounds token htoken).1, r.ordered⟩

private theorem Recording.exists_run (r : Recording)
    (h : r.tape.items = pure found) : ∃ next,
      (Reader.items (r.stream.tokens.length + 1)).run
        ⟨r.stream.tokens, 0, r.stream.stop⟩ = .ok (found, next) := by
  rw [r.items_eq.1] at h
  exact TokenStream.exists_run_of_items (Option.some.inj h)

private theorem tokens_eq_of_stands {text : List Char}
    {tokens others : List Token}
    (hentries : tokens.map Entry.ofToken = others.map Entry.ofToken)
    (hstands : ∀ token ∈ tokens, StandsIn text token)
    (hothers : ∀ token ∈ others, StandsIn text token) : tokens = others := by
  induction tokens generalizing others with
  | nil => exact (List.map_eq_nil_iff.mp hentries.symm).symm
  | cons token tokens ih =>
      obtain ⟨other, others, rfl, hentry, hrest⟩ :=
        List.map_eq_cons_iff.mp hentries.symm
      rw [List.forall_mem_cons] at hstands hothers
      have htext : some other.text = some token.text := by
        rw [← hothers.1, ← hstands.1, hentry]
      obtain ⟨kind, characters, span, breakBefore⟩ := token
      obtain ⟨_, _, _, _⟩ := other
      obtain ⟨rfl, rfl, rfl⟩ : _ = kind ∧ _ = span ∧ _ = breakBefore := by
        simpa [Entry.ofToken] using hentry
      obtain rfl := Option.some.inj htext
      rw [ih hrest.symm hstands.2 hothers.2]

private theorem Tape.Keeps.unique {stream other : TokenStream}
    (h : tape.Keeps stream) (hother : tape.Keeps other) : stream = other := by
  obtain ⟨tokens, stop, breakBefore⟩ := stream
  obtain ⟨others, place, broken⟩ := other
  have hentries := h.entries_eq.symm.trans hother.entries_eq
  obtain ⟨hmap, hlast⟩ := List.append_inj' hentries rfl
  have hstop : stop = place :=
    congrArg (·.span.start) (List.singleton_inj.mp hlast)
  have hbreak : breakBefore = broken :=
    congrArg Entry.breakBefore (List.singleton_inj.mp hlast)
  have htokens : tokens = others :=
    tokens_eq_of_stands hmap h.stands hother.stands
  rw [htokens, hstop, hbreak]

/-! ## Texts with long gaps -/

private theorem tapeOfText_line {text : List Char} (hline : '\n' ∉ text)
    {stop : Nat} (hstop : wrapped32 (byteSize text) = stop)
    {entries : List Entry}
    (hscan : scan overflow text [(0, stop)] = pure entries) :
    tapeOfText overflow text = pure ⟨text, [(0, stop)], entries⟩ := by
  rw [tapeOfText, lineTable?_of_plain overflow text 0 0 hline, need_some,
    pure_bind, Nat.zero_add, hstop, hscan]
  rfl

/-- An empty string behind a gap of characters of two bytes. -/
def spread (front : List Char) (n : Nat) : List Char :=
  front ++ (List.replicate n '\u00a0' ++ ['\x27', '\x27'])

private theorem not_mem_spread {front : List Char} (hfront : '\n' ∉ front)
    (n : Nat) : '\n' ∉ spread front n := by
  simp [spread, hfront]

private theorem wrapped32_spread {front : List Char} {offset n : Nat}
    (hfront : byteSize front = offset)
    (hoffset : offset + n * 2 = UInt32.size) :
    wrapped32 (byteSize (spread front n)) = 2 := by
  have hquotes : byteSize ['\x27', '\x27'] = 2 := by
    rw [byteSize_cons, byteSize_cons]
    rfl
  rw [spread, byteSize_append, byteSize_append, byteSize_replicate, hquotes,
    hfront, show '\u00a0'.utf8Size = 2 from rfl, ← Nat.add_assoc, hoffset]
  decide

private theorem scanFrom_spread {text : List Char} {table : List (Nat × Nat)}
    {previous : Option Entry} {column offset n : Nat} (hcolumn : column ≤ 9)
    (hoffset : offset + n * 2 = UInt32.size) :
    scanFrom overflow text table previous ⟨1, column, offset⟩ (spread [] n) =
      pure [⟨some (.quoted ""), ⟨⟨1, column + n, 0⟩, 2⟩, false⟩,
        ⟨none, .point ⟨1, column + n + 2, 2⟩, false⟩] := by
  have hroom : column + n + 2 < UInt32.size := by
    have hsize : UInt32.size = 4294967296 := rfl
    omega
  have hline : '\n' ∉ List.replicate n '\u00a0' := by simp
  have hgap := overflow.after?_of_room ⟨1, column, offset⟩ hline
    (by simp; omega)
  rw [List.length_replicate, byteSize_replicate,
    show '\u00a0'.utf8Size = 2 from rfl, hoffset] at hgap
  have hmeasure : measure text previous ⟨1, column + n, UInt32.size⟩ '\x27'
      (['\x27'] ++ []) = pure (.quoted "", 1 + 1) := by cbv
  have hquotes : byteSize ['\x27', '\x27'] = 2 := by
    rw [byteSize_cons, byteSize_cons]
    rfl
  have hplain : '\n' ∉ ['\x27', '\x27'] := by decide
  have hstop := overflow.after?_of_room ⟨1, column + n, UInt32.size⟩ hplain
    hroom
  rw [hquotes] at hstop
  have hstart : wrapped32 UInt32.size = 0 := by decide
  have hbehind : wrapped32 (UInt32.size + 2) = 2 := by decide
  let entry : Entry :=
    ⟨some (.quoted ""), ⟨⟨1, column + n, 0⟩, 2⟩, false⟩
  have hentry : entry = ⟨some (.quoted ""),
      ⟨kept ⟨1, column + n, UInt32.size⟩, wrapped32 (UInt32.size + 2)⟩,
      false⟩ := by
    rw [kept, hstart, hbehind]
  rw [spread, List.nil_append, scanFrom_replicate (by decide) (by decide)
    (by decide) n (by decide) hgap]
  refine scanAfter_eq_pure ['\x27'] hmeasure hstop hentry ?_
  rw [scanFrom_eq_scanAfter rfl, scanAfter, kept, hbehind]
  rfl

/-! ## Runs of items -/

/-- The items on a tape cut its tokens into runs, and stand one behind the
other; an item that is read anywhere moves the index. -/
theorem itemRuns_of_items (hsize : byteSize source.chars < UInt32.size)
    (htape : tapeOfText overflow source.chars = pure tape)
    (h : tape.items = pure found) :
    ∃ stream, tape.Keeps stream ∧ ItemRuns stream.tokens found ∧
      (found.Pairwise fun first later =>
        first.span.stop ≤ later.span.start.offset) ∧
      (∀ item ∈ found, item.span.start.offset < item.span.stop) ∧
      ∀ index item next, index < stream.tokens.length →
        Machine.item tape index = pure (item, next) →
          index < next ∧ next ≤ stream.tokens.length := by
  obtain ⟨r, -, rfl, -⟩ := exists_recording hsize htape
  have hordered := r.ordered_tokens
  obtain ⟨next, hrun⟩ := r.exists_run h
  have hruns : ItemRuns r.stream.tokens found :=
    itemRuns_of_run_items hordered (Nat.lt_succ_self _) hrun
  refine ⟨r.stream, r.keeps, hruns, hruns.pairwise hordered,
    fun item hitem => ?_, fun index item next hindex hitem => ?_⟩
  · obtain ⟨first, -, last, -, hspan, hlt⟩ := hruns.exists_span hordered hitem
    rw [hspan]
    exact hlt
  · let i : r.Index := ⟨index, Nat.lt_succ_of_lt hindex⟩
    have hmirrors : r.MirrorsAt i Machine.item Reader.item := .item
    cases hmirrors with
    | error error hmachine =>
        cases hitem.symm.trans hmachine
    | ok value j hmachine hreader =>
        obtain ⟨rfl, rfl⟩ := Prod.mk.inj
          (Except.ok.inj (Option.some.inj (hitem.symm.trans hmachine)))
        have hahead : r.ahead i ≠ [] := by
          rw [Recording.ahead, ne_eq, List.drop_eq_nil_iff, not_le]
          exact hindex
        obtain ⟨run, hnonempty, hcut, -⟩ := exists_run_of_item hahead hreader
        have hlength := congrArg List.length hcut
        have hpos := List.length_pos_iff.mpr hnonempty
        have hj := j.isLt
        simp only [Recording.cursorAt, Recording.ahead, Recording.tokens,
          List.length_append, List.length_drop, i] at hlength hj
        omega

/-- A statement behind modifiers, semicolons, an alias without one, and an
interface with modifiers. -/
def mixedItems : Source := ⟨"mixed.ts",
  "export declare const x: A;;\ntype A = string\n" ++
    "export default interface B \x7b\x7d"⟩

theorem itemRuns_mixedItems :
    byteSize mixedItems.chars < UInt32.size ∧ ∃ tape found,
      tapeOfText .stops mixedItems.chars = pure tape ∧
      tape.items = pure found ∧ found.length = 3 ∧
      ∃ stream, tape.Keeps stream ∧ ItemRuns stream.tokens found ∧
        (found.Pairwise fun first later =>
          first.span.stop ≤ later.span.start.offset) ∧
        (∀ item ∈ found, item.span.start.offset < item.span.stop) ∧
        ∀ index item next, index < stream.tokens.length →
          Machine.item tape index = pure (item, next) →
            index < next ∧ next ≤ stream.tokens.length := by
  have hsize : byteSize mixedItems.chars + 1 < UInt32.size := by
    decide +kernel
  have hcount : (Script.itemsOfText mixedItems.chars).toOption.map
      List.length = some 3 := by decide +kernel
  obtain ⟨tape, found, htape, hitems, hlength⟩ :=
    exists_tape .stops mixedItems hsize hcount
  have hshort : byteSize mixedItems.chars < UInt32.size := by omega
  exact ⟨hshort, tape, found, htape, hitems, hlength,
    itemRuns_of_items hshort htape hitems⟩

private theorem tapeOfText_statements {n : Nat}
    (hn : 2 + n * 2 = UInt32.size) (overflow : Overflow) :
    tapeOfText overflow (spread ['a', ';'] n) =
      pure ⟨spread ['a', ';'] n, [(0, 2)], [
        ⟨some .word, ⟨⟨1, 1, 0⟩, 1⟩, false⟩,
        ⟨some .symbol, ⟨⟨1, 2, 1⟩, 2⟩, false⟩,
        ⟨some (.quoted ""), ⟨⟨1, 3 + n, 0⟩, 2⟩, false⟩,
        ⟨none, .point ⟨1, 3 + n + 2, 2⟩, false⟩]⟩ := by
  have hfront : byteSize ['a', ';'] = 2 := by
    rw [byteSize_cons, byteSize_cons]
    rfl
  have hword : overflow.after? .origin ['a'] = some ⟨1, 2, 1⟩ := by
    cases overflow <;> rfl
  have hsymbol : overflow.after? ⟨1, 2, 1⟩ [';'] = some ⟨1, 3, 2⟩ := by
    cases overflow <;> rfl
  refine tapeOfText_line (not_mem_spread (by decide) n)
    (wrapped32_spread hfront hn) ?_
  refine (scan_eq_scanFrom (by simp [spread])).trans ?_
  refine (scanFrom_eq_scanAfter rfl).trans ?_
  refine scanAfter_eq_pure [] (by cbv) hword rfl ?_
  refine (scanFrom_eq_scanAfter rfl).trans ?_
  refine scanAfter_eq_pure [] (by cbv) hsymbol rfl ?_
  exact scanFrom_spread (by decide) hn

private theorem not_pairwise_spread {n : Nat} (hn : 2 + n * 2 = UInt32.size)
    (overflow : Overflow) : ∃ tape found,
      tapeOfText overflow (spread ['a', ';'] n) = pure tape ∧
        tape.items = pure found ∧ ¬ found.Pairwise fun first later =>
          first.span.stop ≤ later.span.start.offset := by
  refine ⟨_, [.other ⟨⟨1, 1, 0⟩, 2⟩, .other ⟨⟨1, 3 + n, 0⟩, 2⟩],
    tapeOfText_statements hn overflow, ?_, ?_⟩
  · cbv
  · simp [Item.span]

theorem not_pairwise_statements :
    let text := spread ['a', ';'] (UInt32.size / 2 - 1)
    ∀ overflow, ∃ tape found, tapeOfText overflow text = pure tape ∧
      tape.items = pure found ∧ ¬ found.Pairwise fun first later =>
        first.span.stop ≤ later.span.start.offset :=
  not_pairwise_spread (by decide)

/-! ## Nested spans -/

/-- The spans in the items on a tape are well nested, and the items are disjoint
and in order. -/
theorem wellNested_of_items (hsize : byteSize source.chars < UInt32.size)
    (htape : tapeOfText overflow source.chars = pure tape)
    (h : tape.items = pure found) :
    ∃ stream, tape.Keeps stream ∧
      (∀ item ∈ found, item.outline.span = item.span ∧
        WellNested stream.tokens item.outline) ∧
      (found.map Item.outline).Pairwise Outline.Before := by
  obtain ⟨r, -, rfl, -⟩ := exists_recording hsize htape
  obtain ⟨next, hrun⟩ := r.exists_run h
  have hrow : Row r.stream.tokens (found.map Item.outline) :=
    row_of_run_items r.ordered_tokens hrun
  obtain ⟨hinside, hpairwise⟩ := hrow.wellNested r.ordered_tokens
  exact ⟨r.stream, r.keeps,
    fun item hitem => ⟨rfl, hinside _ (List.mem_map_of_mem hitem)⟩, hpairwise⟩

/-- A constraint, a default, entries that are extended, a leading bar, and types
inside of types. -/
def manyNodes : Source := ⟨"nodes.ts",
  "export interface A<T extends B = C> extends D, E<F, G> \x7b " ++
    "a: | H & -1 | (I)[]; [k: string]: J \x7d\n" ++
    "type K = [L?, ...M['x'][]] | keyof N"⟩

theorem wellNested_manyNodes :
    byteSize manyNodes.chars < UInt32.size ∧ ∃ tape found,
      tapeOfText .stops manyNodes.chars = pure tape ∧
      tape.items = pure found ∧ found.length = 2 ∧
      ∃ stream, tape.Keeps stream ∧
        (∀ item ∈ found, item.outline.span = item.span ∧
          WellNested stream.tokens item.outline) ∧
        (found.map Item.outline).Pairwise Outline.Before := by
  have hsize : byteSize manyNodes.chars + 1 < UInt32.size := by
    decide +kernel
  have hcount : (Script.itemsOfText manyNodes.chars).toOption.map
      List.length = some 2 := by decide +kernel
  obtain ⟨tape, found, htape, hitems, hlength⟩ :=
    exists_tape .stops manyNodes hsize hcount
  have hshort : byteSize manyNodes.chars < UInt32.size := by omega
  exact ⟨hshort, tape, found, htape, hitems, hlength,
    wellNested_of_items hshort htape hitems⟩

private theorem tapeOfText_alias {n : Nat} (hn : 8 + n * 2 = UInt32.size)
    (overflow : Overflow) :
    tapeOfText overflow (spread " type A=".toList n) =
      pure ⟨spread " type A=".toList n, [(0, 2)], [
        ⟨some .word, ⟨⟨1, 2, 1⟩, 5⟩, false⟩,
        ⟨some .word, ⟨⟨1, 7, 6⟩, 7⟩, false⟩,
        ⟨some .symbol, ⟨⟨1, 8, 7⟩, 8⟩, false⟩,
        ⟨some (.quoted ""), ⟨⟨1, 9 + n, 0⟩, 2⟩, false⟩,
        ⟨none, .point ⟨1, 9 + n + 2, 2⟩, false⟩]⟩ := by
  have hpos : n ≠ 0 := by
    rintro rfl
    exact absurd hn (by decide)
  have hfront : byteSize " type A=".toList = 8 := by decide +kernel
  have hfirst : overflow.after? .origin [' '] = some ⟨1, 2, 1⟩ := by
    cases overflow <;> rfl
  have hword : overflow.after? ⟨1, 2, 1⟩ "type".toList = some ⟨1, 6, 5⟩ := by
    cases overflow <;> rfl
  have hgap : overflow.after? ⟨1, 6, 5⟩ [' '] = some ⟨1, 7, 6⟩ := by
    cases overflow <;> rfl
  have hname : overflow.after? ⟨1, 7, 6⟩ ['A'] = some ⟨1, 8, 7⟩ := by
    cases overflow <;> rfl
  have hsymbol : overflow.after? ⟨1, 8, 7⟩ ['='] = some ⟨1, 9, 8⟩ := by
    cases overflow <;> rfl
  have hequals (text : List Char) (previous : Option Entry) :
      measure text previous ⟨1, 8, 7⟩ '=' ([] ++ spread [] n) =
        pure (.symbol, 1) := by
    obtain ⟨m, rfl⟩ := Nat.exists_eq_succ_of_ne_zero hpos
    cbv
  refine tapeOfText_line (not_mem_spread (by decide) n)
    (wrapped32_spread hfront hn) ?_
  refine (scan_eq_scanFrom (by simp [spread])).trans ?_
  refine (scanFrom_replicate (by decide) (by decide) (by decide) 1 rfl
    hfirst).trans ?_
  refine scanAfter_eq_pure "ype".toList (by cbv) hword rfl ?_
  refine (scanFrom_replicate (by decide) (by decide) (by decide) 1 rfl
    hgap).trans ?_
  refine scanAfter_eq_pure [] (by cbv) hname rfl ?_
  refine (scanFrom_eq_scanAfter rfl).trans ?_
  refine scanAfter_eq_pure [] (hequals _ _) hsymbol rfl ?_
  exact scanFrom_spread (by decide) hn

set_option maxRecDepth 8000 in
private theorem not_wellNested_spread {n : Nat} (hn : 8 + n * 2 = UInt32.size)
    (overflow : Overflow) : ∃ tape found,
      tapeOfText overflow (spread " type A=".toList n) = pure tape ∧
        tape.items = pure found ∧ ¬ ∃ tokens, ∀ item ∈ found,
          WellNested tokens item.outline := by
  refine ⟨_, [.typeAlias ⟨⟨⟨1, 2, 1⟩, 5⟩, ⟨"A", ⟨⟨1, 7, 6⟩, 7⟩⟩, false, [],
    .literal ⟨⟨1, 9 + n, 0⟩, 2⟩ (.string "")⟩], tapeOfText_alias hn overflow,
    ?_, ?_⟩
  · cbv
  · rintro ⟨tokens, hnested⟩
    cases hnested _ (List.mem_singleton_self _) with
    | node haround hencloses hordered hinside =>
        have hliteral := hencloses (.node ⟨⟨1, 9 + n, 0⟩, 2⟩ [])
          (List.mem_of_getLast? rfl)
        exact absurd hliteral.1 (show ¬ 1 ≤ 0 by decide)

theorem not_wellNested_alias :
    let text := spread " type A=".toList (UInt32.size / 2 - 4)
    ∀ overflow, ∃ tape found, tapeOfText overflow text = pure tape ∧
      tape.items = pure found ∧ ¬ ∃ tokens, ∀ item ∈ found,
        WellNested tokens item.outline :=
  not_wellNested_spread (by decide)

/-! ## Places of errors -/

/-- An error points into one of the lines of its source, and all of them are in
the table. -/
theorem pointsInto_of_itemsOfText (overflow : Overflow) (source : Source)
    (hsize : byteSize source.chars + 1 < UInt32.size) :
    ∃ ended last table, source.Cut ended last ∧
      lineTable? overflow source.chars 0 0 source.chars = some table ∧
      (∀ number, tabledLine? source.chars table number =
        some (source.line number)) ∧
      ∀ error, itemsOfText overflow source.chars = throw error →
        (∀ exportAll, schemaOfSource source exportAll =
          .error ⟨source, error⟩) ∧
        SourceError.PointsInto ⟨source, error⟩ (ended.length + 1) := by
  obtain ⟨ended, last, hcut, hpoints⟩ := pointsInto_of_source source
  have hholds := holds_of_byteSize_lt overflow source hsize
  obtain ⟨table, htable, hlines⟩ := hholds.lines
  refine ⟨ended, last, table, hcut, htable, hlines, fun error h => ?_⟩
  rw [hholds.items] at h
  have hread : Script.itemsOfText source.chars = .error error :=
    Option.some.inj h
  have hfails (exportAll : Bool) :
      schemaOfSource source exportAll = .error ⟨source, error⟩ := by
    rw [schemaOfSource, hread]
  exact ⟨hfails, (hpoints false _ (hfails false)).2⟩

/-- Line ends of two characters, and a tab before the bracket where a type is
missing. -/
def tabbed : Source :=
  ⟨"tabbed.ts", "interface A \x7b\r\n\té:\t]\r\n\x7d"⟩

theorem pointsInto_tabbed :
    byteSize tabbed.chars + 1 < UInt32.size ∧
      ∃ ended last table error, tabbed.Cut ended last ∧
        lineTable? .stops tabbed.chars 0 0 tabbed.chars = some table ∧
        (∀ number, tabledLine? tabbed.chars table number =
          some (tabbed.line number)) ∧
        itemsOfText .stops tabbed.chars = throw error ∧
        error.position = ⟨2, 5, 20⟩ ∧
        (∀ exportAll, schemaOfSource tabbed exportAll =
          .error ⟨tabbed, error⟩) ∧
        SourceError.PointsInto ⟨tabbed, error⟩ (ended.length + 1) := by
  have hsize : byteSize tabbed.chars + 1 < UInt32.size := by decide +kernel
  obtain ⟨ended, last, table, hcut, htable, hlines, hpoints⟩ :=
    pointsInto_of_itemsOfText .stops tabbed hsize
  have hitems := (holds_of_byteSize_lt .stops tabbed hsize).items
  have hplace : (((Script.itemsOfText tabbed.chars).map fun _ =>
      none).tryCatch fun error => .ok (some error.position)).toOption =
        some (some ⟨2, 5, 20⟩) := by decide +kernel
  cases hread : Script.itemsOfText tabbed.chars with
  | ok items =>
      rw [hread] at hplace
      cases hplace
  | error error =>
      rw [hread] at hitems hplace
      exact ⟨hsize, ended, last, table, error, hcut, htable, hlines, hitems,
        Option.some.inj (Option.some.inj hplace), hpoints error hitems⟩

/-- An interface without its members. -/
def openHead (n : Nat) : Source := ⟨"open.ts",
  String.ofList ("interface A".toList ++ List.replicate n ' ')⟩

private def openStream (n : Nat) : TokenStream :=
  ⟨[⟨.word, "interface", ⟨⟨1, 1, 0⟩, 9⟩, false⟩,
    ⟨.word, "A", ⟨⟨1, 11, 10⟩, 11⟩, false⟩], ⟨1, 0, 11 + n⟩, false⟩

private theorem items_openStream (n : Nat) : (openStream n).items =
    .error ⟨⟨1, 0, 11 + n⟩, .missing "\x7b" .memberList⟩ := by
  cbv

private theorem chars_openHead (n : Nat) : (openHead n).chars =
    "interface A".toList ++ List.replicate n ' ' := String.toList_ofList

private theorem byteSize_openHead (n : Nat) :
    byteSize (openHead n).chars = 11 + n := by
  have hfront : byteSize "interface A".toList = 11 := by decide +kernel
  rw [chars_openHead, byteSize_append, hfront, byteSize_replicate]
  exact congrArg (11 + ·) (Nat.mul_one n)

private theorem tapeOfText_openHead {n : Nat} (hn : 11 + n + 1 = UInt32.size) :
    tapeOfText .wraps (openHead n).chars =
      pure ⟨(openHead n).chars, [(0, 11 + n)], entries (openStream n)⟩ := by
  have hline : '\n' ∉ (openHead n).chars := by simp [chars_openHead]
  have hoffset : wrapped32 (11 + n) = 11 + n := wrapped32_of_lt (by omega)
  have hstop : wrapped32 (byteSize (openHead n).chars) = 11 + n := by
    rw [byteSize_openHead, hoffset]
  have hname (text : List Char) (previous : Option Entry) :
      measure text previous ⟨1, 11, 10⟩ 'A' ([] ++ List.replicate n ' ') =
        pure (.word, 1) := by
    obtain ⟨m, rfl⟩ := Nat.exists_eq_succ_of_ne_zero
      (show n ≠ 0 by rintro rfl; exact absurd hn (by decide))
    cbv
  have hcolumn : wrapped32 (12 + n) = 0 := by
    rw [show 12 + n = UInt32.size by omega]
    decide
  have hplain : '\n' ∉ List.replicate n ' ' := by simp
  have hend := Overflow.after?_wraps ⟨1, 12, 11⟩ hplain (by decide)
  rw [List.length_replicate, byteSize_replicate, hcolumn,
    show ' '.utf8Size = 1 from rfl, Nat.mul_one] at hend
  have hentry : kept ⟨1, 0, 11 + n⟩ = ⟨1, 0, 11 + n⟩ := by
    rw [kept, show wrapped32 (Position.mk 1 0 (11 + n)).offset = 11 + n
      from hoffset]
  have hblanks (text : List Char) (previous : Option Entry) :
      scanFrom .wraps text [(0, 11 + n)] previous ⟨1, 12, 11⟩
        (List.replicate n ' ') =
          pure [⟨none, .point ⟨1, 0, 11 + n⟩, false⟩] := by
    rw [← List.append_nil (List.replicate n ' ')]
    refine (scanFrom_replicate (by decide) (by decide) (by decide) n rfl
      hend).trans ?_
    rw [scanAfter, hentry, hoffset]
    rfl
  have hword : Overflow.wraps.after? .origin "interface".toList =
    some ⟨1, 10, 9⟩ := rfl
  have hgap : Overflow.wraps.after? ⟨1, 10, 9⟩ [' '] = some ⟨1, 11, 10⟩ := rfl
  have hletter : Overflow.wraps.after? ⟨1, 11, 10⟩ ['A'] =
    some ⟨1, 12, 11⟩ := rfl
  refine tapeOfText_line hline hstop ?_
  rw [chars_openHead]
  refine (scan_eq_scanFrom (by simp)).trans ?_
  refine (scanFrom_eq_scanAfter rfl).trans ?_
  refine scanAfter_eq_pure "nterface".toList (by cbv) hword rfl ?_
  refine (scanFrom_replicate (by decide) (by decide) (by decide) 1 rfl
    hgap).trans ?_
  exact scanAfter_eq_pure [] (hname _ _) hletter rfl (hblanks _ _)

private theorem keeps_openHead (n : Nat) (table : List (Nat × Nat)) :
    Tape.Keeps ⟨(openHead n).chars, table, entries (openStream n)⟩
      (openStream n) := by
  refine ⟨rfl, fun token htoken => ?_⟩
  rw [chars_openHead]
  simp only [openStream, List.mem_cons, List.not_mem_nil, or_false] at htoken
  rcases htoken with rfl | rfl
  · rw [StandsIn]
    cbv
  · rw [StandsIn]
    cbv

private theorem itemsOfText_openHead {n : Nat}
    (hn : 11 + n + 1 = UInt32.size) :
    itemsOfText .wraps (openHead n).chars =
      throw ⟨⟨1, 0, 11 + n⟩, .missing "\x7b" .memberList⟩ := by
  have hsize : byteSize (openHead n).chars < UInt32.size := by
    rw [byteSize_openHead]
    omega
  have htape := tapeOfText_openHead hn
  obtain ⟨r, -, hr, -⟩ := exists_recording hsize htape
  have hkeeps := r.keeps
  rw [hr] at hkeeps
  rw [itemsOfText, htape, pure_bind, ← hr, r.items_eq.1,
    hkeeps.unique (keeps_openHead n _), items_openStream]
  rfl

theorem not_pointsInto_openHead :
    let source := openHead (UInt32.size - 12)
    byteSize source.chars < UInt32.size ∧ ∃ error,
      itemsOfText .wraps source.chars = throw error ∧
        ∀ count, ¬ SourceError.PointsInto ⟨source, error⟩ count := by
  have hn : 11 + (UInt32.size - 12) + 1 = UInt32.size := by decide
  refine ⟨?_, _, itemsOfText_openHead hn, fun count hpoints => ?_⟩
  · rw [byteSize_openHead]
    decide
  · exact absurd hpoints.column.1 (show ¬ 1 ≤ 0 by decide)

end ShapeMend.Script.Checked
