import ShapeMend.Proofs.Script.Checked.FrontEnd
import ShapeMend.Proofs.Script.Strings
import ShapeMend.Proofs.Script.Templates

/-!
# What opens a text

A string as it is written, and a template at the beginning of a text, are read
with all checks as a single token.  Either has to be short enough for its last
column.
-/

namespace ShapeMend.Script.Checked

open ShapeMend.Text Attempt

variable {overflow : Overflow} {table : List (Nat × Nat)}
  {previous : Option Entry} {position : Position} {whole : List Char}

private theorem scan_full {c : Char} {tail after : List Char}
    {kind : Token.Kind} (hblank : isBlank c = false) (hslash : c ≠ '/')
    (hplain : ¬ ['#', '!'] <+: c :: tail ++ after)
    (hmeasure : measure (c :: tail ++ after) none .origin c (tail ++ after) =
      pure (kind, tail.length + 1))
    (hline : '\n' ∉ c :: tail)
    (hfull : (c :: tail).length = UInt32.size - 1) :
    (scan .stops (c :: tail ++ after) table).run = none := by
  have hgap : Gap.length .blank (c :: tail ++ after) = 0 := by
    rw [List.cons_append, Gap.length_blank_cons _ hslash, hblank]
    rfl
  have hstop : Overflow.stops.after? .origin (c :: tail) = none := by
    refine Overflow.after?_stops .origin hline (by decide) ?_
    rw [hfull]
    decide
  rw [scan_eq_scanFrom hplain, scanFrom_eq_scanAfter hgap]
  exact scanAfter_full hmeasure hstop

/-! ## Strings -/

private theorem measure_quoted {c : Char} {rest value : List Char} {n : Nat}
    (hquote : Quoted.isQuote c) (hbody : Quoted.body c rest = .ok (n, value)) :
    measure whole previous position c rest =
      pure (.quoted (String.ofList value), n + 1) := by
  have hstring : stringBody c rest = pure (n, value) :=
    eq_pure_of_reasons (by rw [reasons_stringBody, hbody])
  rw [measure, if_pos hquote, hstring]
  rfl

/-- A written string is one token over the whole text, with the string as its
value, and then the text ends. -/
theorem entries_quoted (overflow : Overflow) (value : String)
    (hsize : (Json.quoted value).utf8ByteSize + 1 < UInt32.size) :
    let text := Json.quoted value
    Tape.entries <$> tapeOfText overflow text.toList = pure [
      ⟨some (.quoted value), ⟨.origin, text.utf8ByteSize⟩, false⟩,
      ⟨none, .point ⟨1, text.length + 1, text.utf8ByteSize⟩, false⟩] := by
  intro text
  let source : Source := ⟨"", text⟩
  have hchars : byteSize source.chars = text.utf8ByteSize :=
    congrArg String.utf8ByteSize String.ofList_toList
  obtain ⟨table, -, -, htape⟩ :=
    exists_tapeOfText_eq overflow source (hchars ▸ hsize)
  replace htape : tapeOfText overflow text.toList = _ := htape
  rw [htape, show source.chars = text.toList from rfl,
    TokenStream.ofText_quoted value]
  rfl

theorem entries_quoted_note :
    (Json.quoted "é\n").utf8ByteSize + 1 < UInt32.size ∧
      Tape.entries <$> tapeOfText .stops (Json.quoted "é\n").toList = pure [
        ⟨some (.quoted "é\n"),
          ⟨.origin, (Json.quoted "é\n").utf8ByteSize⟩, false⟩,
        ⟨none, .point ⟨1, (Json.quoted "é\n").length + 1,
          (Json.quoted "é\n").utf8ByteSize⟩, false⟩] := by
  have hsize : (Json.quoted "é\n").utf8ByteSize + 1 < UInt32.size := by
    decide +kernel
  exact ⟨hsize, entries_quoted .stops "é\n" hsize⟩

private theorem toList_quoted_replicate (n : Nat) :
    (Json.quoted (String.ofList (List.replicate n 'a'))).toList =
      '\x22' :: (List.replicate n 'a' ++ ['\x22']) := by
  have hplain : (List.replicate n 'a').flatMap Json.escapeChar =
      List.replicate n 'a' := by
    induction n with
    | zero => rfl
    | succ n ih =>
        rw [List.replicate_succ, List.flatMap_cons, ih]
        rfl
  rw [Json.quoted, String.toList_ofList, String.toList_ofList, hplain,
    List.cons_append]

private theorem byteSize_between {c d : Char} (hc : c.utf8Size = 1)
    (hd : d.utf8Size = 1) (n : Nat) :
    byteSize (c :: (List.replicate n 'a' ++ [d])) = n + 2 := by
  rw [byteSize_cons, byteSize_append, byteSize_replicate, byteSize_cons,
    byteSize_nil, hc, hd, show 'a'.utf8Size = 1 from rfl]
  omega

private theorem run_tapeOfText_replicate {n : Nat}
    (hn : n + 2 = UInt32.size - 1) :
    let text := Json.quoted (String.ofList (List.replicate n 'a'))
    text.utf8ByteSize < UInt32.size ∧
      (tapeOfText .stops text.toList).run = none := by
  intro text
  have hchars : text.toList = '\x22' :: (List.replicate n 'a' ++ ['\x22']) :=
    toList_quoted_replicate n
  have hbytes : text.utf8ByteSize = n + 2 := by
    have hsum := byteSize_between (c := '\x22') (d := '\x22') rfl rfl n
    rwa [← hchars, byteSize, String.ofList_toList] at hsum
  have hinside : ∀ c ∈ List.replicate n 'a', c ∉ ['\x22', '\\', '\n'] := by
    simp
  have hbody := Quoted.body_plain hinside (by decide) []
  have hmeasure : measure ('\x22' :: (List.replicate n 'a' ++ ['\x22']) ++ [])
      none .origin '\x22' (List.replicate n 'a' ++ ['\x22'] ++ []) =
        pure (.quoted (String.ofList (List.replicate n 'a')),
          (List.replicate n 'a' ++ ['\x22']).length + 1) := by
    refine measure_quoted (by decide) ?_
    rw [List.append_nil, hbody, List.length_append, List.length_singleton]
  have hline : '\n' ∉ text.toList := Json.not_mem_quoted_newline _
  refine ⟨by omega, ?_⟩
  rw [tapeOfText, lineTable?_of_plain .stops _ 0 0 hline, need_some, pure_bind]
  rw [hchars] at hline ⊢
  generalize [(0, wrapped32 _)] = table
  have hscan : (scan .stops ('\x22' :: (List.replicate n 'a' ++ ['\x22']) ++ [])
      table).run = none :=
    scan_full (by decide) (by decide) (by simp) hmeasure hline (by simp [hn])
  rw [List.append_nil] at hscan
  rw [ExceptT.run_bind, hscan]
  rfl

theorem run_tapeOfText_quoted :
    let text := Json.quoted
      (String.ofList (List.replicate (UInt32.size - 3) 'a'))
    text.utf8ByteSize < UInt32.size ∧
      (tapeOfText .stops text.toList).run = none :=
  run_tapeOfText_replicate (by decide)

/-! ## Templates -/

private theorem measure_template {rest : List Char} {n : Nat}
    (hbody : Template.body 0 1 rest = .ok n) :
    measure whole previous position '`' rest = pure (.template, n) := by
  have htemplate : templateBody 0 1 rest = pure n :=
    eq_pure_of_reasons (by rw [reasons_template.1, hbody])
  rw [measure, if_neg (by decide), if_pos rfl, htemplate]
  rfl

private theorem measure_isParts {parts : List Char}
    (h : Template.IsParts parts) (behind : List Char) :
    measure whole previous position '`' (parts ++ ['`'] ++ behind) =
      pure (.template, (parts ++ ['`']).length + 1) := by
  have hlength : 0 + 1 + parts.length + 1 = (parts ++ ['`']).length + 1 := by
    rw [List.length_append, List.length_singleton]
    omega
  refine measure_template ?_
  rw [List.append_assoc, List.singleton_append, h.body_eq 0 (0 + 1) behind,
    hlength]

/-- A template at the beginning of a text is its first token, over exactly its
own characters; the others are those of the text behind it. -/
theorem scan_template (overflow : Overflow) (table : List (Nat × Nat))
    {text : List Char} (h : Template.IsTemplate text)
    (hsize : byteSize text + 1 < UInt32.size) (behind : List Char) :
    let entry : Entry := ⟨some .template, ⟨.origin, byteSize text⟩, false⟩
    entry.text? (text ++ behind) = some (String.ofList text) ∧
      scan overflow (text ++ behind) table = do
        let later ← scanFrom overflow (text ++ behind) table (some entry)
          (.behind text) behind
        return entry :: later := by
  obtain @⟨parts, hparts⟩ := h
  intro entry
  have hplain : ¬ ['#', '!'] <+: '`' :: (parts ++ ['`']) ++ behind := by simp
  have hgap :
      Gap.length .blank ('`' :: (parts ++ ['`']) ++ behind) = 0 := by
    rw [List.cons_append, Gap.length_blank_cons _ (by decide)]
    rfl
  have hstop : overflow.after? (.behind []) ('`' :: (parts ++ ['`'])) =
      some (.behind ([] ++ '`' :: (parts ++ ['`']))) :=
    overflow.after?_behind hsize
  have hentry : entry = ⟨some .template, ⟨kept .origin, wrapped32
      (Position.behind ('`' :: (parts ++ ['`']))).offset⟩, false⟩ := by
    have hcut : wrapped32
        (Position.behind ('`' :: (parts ++ ['`']))).offset =
          byteSize ('`' :: (parts ++ ['`'])) :=
      wrapped32_of_lt (Nat.lt_of_succ_lt hsize)
    rw [hcut]
    rfl
  refine ⟨?_, ?_⟩
  · have hslice := slice?_middle [] ('`' :: (parts ++ ['`'])) behind
    exact congrArg (Option.map String.ofList) hslice
  · rw [scan_eq_scanFrom hplain, scanFrom_eq_scanAfter hgap]
    exact scanAfter_cons (measure_isParts hparts behind) hstop hentry

theorem scan_template_nested :
    let text := "`p$\x7b \x7bq: `r$\x7bs\x7d`\x7d.q \x7dt`".toList
    let behind := "\ntype".toList
    let entry : Entry := ⟨some .template, ⟨.origin, byteSize text⟩, false⟩
    Template.IsTemplate text ∧ byteSize text + 1 < UInt32.size ∧
      entry.text? (text ++ behind) = some (String.ofList text) ∧
      scan .stops (text ++ behind) [] = do
        let later ← scanFrom .stops (text ++ behind) [] (some entry)
          (.behind text) behind
        return entry :: later := by
  intro text behind entry
  have hsize : byteSize text + 1 < UInt32.size := by decide +kernel
  have hinner : Template.IsTemplate "`r$\x7bs\x7d`".toList :=
    @Template.IsTemplate.mk ['r', '$', '{', 's', '}'] (.plain (by decide)
      (@Template.IsParts.substituted ['s'] [] (.plain (by decide) .nil) .nil))
  have hnamed : Template.IsSubstitution
      "q: `r$\x7bs\x7d`".toList :=
    .plain (by decide) (.plain (by decide) (.plain (by decide)
      (.template hinner .nil)))
  have hbehind : Template.IsSubstitution ".q ".toList :=
    .plain (by decide) (.plain (by decide) (.plain (by decide) .nil))
  have hbraces : Template.IsSubstitution
      " \x7bq: `r$\x7bs\x7d`\x7d.q ".toList :=
    .plain (by decide) (.braces hnamed hbehind)
  have hparts : Template.IsParts
      "p$\x7b \x7bq: `r$\x7bs\x7d`\x7d.q \x7dt".toList :=
    .plain (by decide) (@Template.IsParts.substituted
      " \x7bq: `r$\x7bs\x7d`\x7d.q ".toList ['t'] hbraces
      (.plain (by decide) .nil))
  have houter : Template.IsTemplate text := .mk hparts
  exact ⟨houter, hsize, scan_template .stops [] houter hsize behind⟩

private theorem isParts_replicate (n : Nat) :
    Template.IsParts (List.replicate n 'a') := by
  induction n with
  | zero => exact .nil
  | succ n ih => exact .plain (by decide) ih

private theorem run_scan_replicate {n : Nat} (hn : n + 2 = UInt32.size - 1) :
    let text := '`' :: (List.replicate n 'a' ++ ['`'])
    Template.IsTemplate text ∧ byteSize text < UInt32.size ∧
      ∀ table, (scan .stops (text ++ ['\n']) table).run = none := by
  intro text
  have hbytes : byteSize text = n + 2 := byteSize_between rfl rfl n
  refine ⟨.mk (isParts_replicate n), by omega, fun table => ?_⟩
  exact scan_full (by decide) (by decide) (by simp)
    (measure_isParts (isParts_replicate n) ['\n']) (by simp) (by simp [hn])

theorem run_scan_template :
    let text := '`' :: (List.replicate (UInt32.size - 3) 'a' ++ ['`'])
    Template.IsTemplate text ∧ byteSize text < UInt32.size ∧
      ∀ table, (scan .stops (text ++ ['\n']) table).run = none :=
  run_scan_replicate (by decide)

end ShapeMend.Script.Checked
