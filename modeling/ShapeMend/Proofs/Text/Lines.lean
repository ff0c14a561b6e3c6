import ShapeMend.Proofs.Script.Tiling

/-!
# Lines of a source

A source is cut at its line feeds and nowhere else, and what it shows as a line
is the piece without the carriage return of its line end.  A place that is not
right before a line feed is within its line or right behind it, so a caret can
be put there.
-/

namespace ShapeMend.Text

/-! ## Pieces -/

theorem exists_pieces (text : List Char) :
    ∃ ended last, pieces '\n' text = ended ++ [last] ∧
    text = ended.flatMap (· ++ ['\n']) ++ last ∧ ∀ piece ∈ last :: ended,
      '\n' ∉ piece := by
  induction text with
  | nil => exact ⟨[], [], rfl, rfl, by simp⟩
  | cons c rest ih =>
      obtain ⟨ended, last, hpieces, hrest, hplain⟩ := ih
      rw [List.forall_mem_cons] at hplain
      by_cases hc : c = '\n'
      · refine ⟨[] :: ended, last, ?_, ?_, ?_⟩
        · rw [pieces, if_pos hc, hpieces, List.cons_append]
        · simpa [hc] using hrest
        · simpa [hplain.1] using hplain.2
      · have hfresh : '\n' ≠ c := fun h => hc h.symm
        cases ended with
        | nil =>
            refine ⟨[], c :: last, ?_, ?_, ?_⟩
            · rw [pieces, if_neg hc, hpieces]
              rfl
            · simpa using hrest
            · simp [hfresh, hplain.1]
        | cons piece ended =>
            rw [List.forall_mem_cons] at hplain
            refine ⟨(c :: piece) :: ended, last, ?_, ?_, ?_⟩
            · rw [pieces, if_neg hc, hpieces]
              rfl
            · simpa using hrest
            · simpa [hfresh, hplain.1, hplain.2.1] using hplain.2.2

def ShownOf (piece line : List Char) : Prop :=
  piece = line ++ ['\r'] ∨ piece = line ∧ line.getLast? ≠ some '\r'

theorem shownOf_dropReturn (piece : List Char) :
    ShownOf piece (dropReturn piece) := by
  by_cases hreturn : piece.getLast? = some '\r'
  · rw [dropReturn, if_pos hreturn]
    exact .inl (List.dropLast_append_getLast? '\r' hreturn).symm
  · rw [dropReturn, if_neg hreturn]
    exact .inr ⟨rfl, hreturn⟩

private theorem ShownOf.length_le {piece line : List Char}
    (h : ShownOf piece line) : piece.length ≤ line.length + 1 := by
  rcases h with rfl | ⟨rfl, -⟩ <;> simp

/-! ## Lines by number -/

namespace Source

/-- The source is cut at its line feeds, and its lines are shown by number:
those with a line feed behind them without the carriage return before it, and
the last one as it is. -/
structure Cut (source : Source) (ended : List (List Char)) (last : List Char) :
    Prop where
  text_eq : source.chars = ended.flatMap (· ++ ['\n']) ++ last
  plain : ∀ piece ∈ last :: ended, '\n' ∉ piece
  line_ended : ∀ n piece,
    ended[n]? = some piece → ShownOf piece (source.line (n + 1))
  line_last : source.line (ended.length + 1) = last
  line_outside : ∀ n, n = 0 ∨ ended.length + 1 < n → source.line n = []

theorem lines_of_pieces {text : List Char} {ended : List (List Char)}
    {last : List Char} (h : pieces '\n' text = ended ++ [last]) :
    lines text = ended.map dropReturn ++ [last] := by
  simp [lines, h]

theorem exists_cut (source : Source) : ∃ ended last, source.Cut ended last := by
  obtain ⟨ended, last, hpieces, htext, hplain⟩ := exists_pieces source.chars
  have hline (n : Nat) :
      source.line (n + 1) = (ended.map dropReturn ++ [last])[n]?.getD [] := by
    rw [line, if_neg (Nat.succ_ne_zero n), lines_of_pieces hpieces,
      Nat.add_sub_cancel]
  refine ⟨ended, last, htext, hplain, ?_, ?_, ?_⟩
  · intro n piece hpiece
    have hn : n < (ended.map dropReturn).length := by
      simpa using (List.getElem?_eq_some_iff.mp hpiece).1
    rw [hline, List.getElem?_append_left hn, List.getElem?_map, hpiece]
    exact shownOf_dropReturn piece
  · simp [hline]
  · rintro (_ | n) houtside
    · rfl
    · rw [hline, List.getElem?_eq_none]
      · rfl
      · simp only [List.length_append, List.length_map, List.length_singleton]
        omega

end Source

/-! ## Places of a text -/

def Position.LiesIn (text : List Char) (position : Position) : Prop :=
  ∃ before after, text = before ++ after ∧ position = .behind before ∧
    after.head? ≠ some '\n'

namespace Position

private theorem column_behind_of_plain {before : List Char}
    (h : '\n' ∉ before) : (behind before).column = before.length + 1 := by
  have hall : before.rtakeWhile (· ≠ '\n') = before := by
    rw [List.rtakeWhile_eq_self_iff]
    rintro c hc
    simpa using ne_of_mem_of_not_mem hc h
  rw [behind, hall]

private theorem column_behind_append (first before : List Char) :
    (behind (first ++ '\n' :: before)).column = (behind before).column := by
  have htake (cs : List Char) :
      (cs ++ '\n' :: first.reverse).takeWhile (· ≠ '\n') =
      cs.takeWhile (· ≠ '\n') := by
    induction cs with
    | nil => simp
    | cons c cs ih => simp only [List.cons_append, List.takeWhile_cons, ih]
  rw [behind, behind, List.rtakeWhile, List.rtakeWhile, List.reverse_append,
    List.reverse_cons, List.append_assoc, List.singleton_append, htake]

/-- The line of a place is the piece after as many others as there are line
feeds before the place. -/
private theorem column_le_of_cut {ended : List (List Char)}
    {last before after : List Char}
    (htext : before ++ after = ended.flatMap (· ++ ['\n']) ++ last)
    (hplain : ∀ piece ∈ last :: ended, '\n' ∉ piece)
    (hafter : after.head? ≠ some '\n') :
    (∃ piece, ended[before.count '\n']? = some piece ∧ (behind before).column ≤
      piece.length) ∨
      before.count '\n' = ended.length ∧
        (behind before).column ≤ last.length + 1 := by
  induction ended generalizing before with
  | nil =>
      rw [List.flatMap_nil, List.nil_append] at htext
      have hbefore : '\n' ∉ before := fun hmem =>
        hplain last List.mem_cons_self (htext ▸ List.mem_append_left after hmem)
      rw [column_behind_of_plain hbefore, ← htext, List.length_append]
      exact .inr ⟨List.count_eq_zero.mpr hbefore, by omega⟩
  | cons piece ended ih =>
      simp only [List.forall_mem_cons] at hplain ih
      rw [List.flatMap_cons, List.append_assoc, List.append_assoc,
        List.append_eq_append_iff] at htext
      rcases htext with ⟨more, rfl, hmore⟩ | ⟨more, rfl, hmore⟩
      · have hbefore : '\n' ∉ before :=
          fun hmem => hplain.2.1 (List.mem_append_left more hmem)
        have hne : more ≠ [] := by
          rintro rfl
          simp [hmore] at hafter
        have hpos := List.length_pos_iff.mpr hne
        refine .inl
          ⟨before ++ more, by simp [List.count_eq_zero.mpr hbefore], ?_⟩
        rw [column_behind_of_plain hbefore, List.length_append]
        omega
      · cases more with
        | nil => exact absurd (congrArg List.head? hmore).symm hafter
        | cons c more =>
            obtain ⟨rfl, hrest⟩ := List.cons_eq_cons.mp hmore
            have hcount :
                (piece ++ '\n' :: more).count '\n' = more.count '\n' + 1 := by
              simp [List.count_eq_zero.mpr hplain.2.1]
            rw [hcount, column_behind_append, List.getElem?_cons_succ,
              List.length_cons, Nat.add_right_cancel_iff]
            exact ih hrest.symm ⟨hplain.1, hplain.2.2⟩

theorem LiesIn.bounds {source : Source} {ended : List (List Char)}
    {last : List Char} {position : Position} (hcut : source.Cut ended last)
    (h : position.LiesIn source.chars) :
    (1 ≤ position.line ∧ position.line ≤ ended.length + 1) ∧
      1 ≤ position.column ∧
        position.column ≤ (source.line position.line).length + 1 := by
  obtain ⟨before, after, htext, rfl, hafter⟩ := h
  have hline : (behind before).line = before.count '\n' + 1 := rfl
  have hcolumn : 1 ≤ (behind before).column := Nat.le_add_left _ _
  rw [hline]
  rcases column_le_of_cut (htext.symm.trans hcut.text_eq) hcut.plain hafter with
    ⟨piece, hpiece, hle⟩ | ⟨hcount, hle⟩
  · have hn := (List.getElem?_eq_some_iff.mp hpiece).1
    have hshown := (hcut.line_ended _ piece hpiece).length_le
    omega
  · rw [hcount, hcut.line_last]
    omega

end Position

/-! ## The caret -/

namespace Source

/-- The blanks put what follows them under the column: one for each character
before it, as wide. -/
structure PadsTo (shown : List Char) (column : Nat) (pad : List Char) :
    Prop where
  length_eq : pad.length = column - 1
  tab_iff : ∀ n, pad[n]? = some '\t' ↔ n < column - 1 ∧ shown[n]? = some '\t'
  blank : ∀ c ∈ pad, c = '\t' ∨ c = ' '

theorem padsTo_caretPad {line : List Char} {column : Nat}
    (h : column ≤ line.length + 1) :
    PadsTo line column (caretPad line column) where
  length_eq := by
    simp only [caretPad, List.length_map, List.length_take]
    omega
  tab_iff n := by
    have hmark (c : Char) : (if c = '\t' then '\t' else ' ') = '\t' ↔
        c = '\t' := by
      split <;> simp_all
    simp only [caretPad, List.getElem?_map, Option.map_eq_some_iff, hmark,
      exists_eq_right]
    rw [List.getElem?_take]
    split
    · next hn => simp [hn]
    · next hn => simp [hn]
  blank c hc := by
    obtain ⟨d, -, rfl⟩ := List.mem_map.mp hc
    split
    · exact .inl rfl
    · exact .inr rfl

end Source

end ShapeMend.Text
