import ShapeMend.Proofs.Script.Checked.Lexemes
import ShapeMend.Proofs.Script.Lexing

/-!
# Splitting a text with checks

The scan once more, on a text in bytes with numbers in 32 bits.  Whatever has to
be there is checked: the slice for an offset, the room for a number, the
difference of two.  Lines and columns are counted over every character that is
passed, also by a scan that fails.
-/

namespace ShapeMend.Script.Checked

open ShapeMend.Text ShapeMend.Number Attempt

variable {ε α : Type}

/-! ## Entries -/

/-- A token as it is kept: what it is and where, with its characters left in the
text.  An entry without a kind is the end of the text. -/
structure Entry where
  kind : Option Token.Kind
  span : Span
  breakBefore : Bool
  deriving DecidableEq, Repr

namespace Entry

def text? (text : List Char) (entry : Entry) : Option String :=
  (slice? text entry.span.start.offset entry.span.stop).map String.ofList

def ofToken (token : Token) : Entry :=
  ⟨some token.kind, token.span, token.breakBefore⟩

end Entry

def entries (stream : TokenStream) : List Entry :=
  stream.tokens.map .ofToken ++
    [⟨none, .point stream.stop, stream.breakBeforeStop⟩]

def kept (position : Position) : Position :=
  { position with offset := wrapped32 position.offset }

def raise (text : List Char) (table : List (Nat × Nat)) (position : Position)
    (flaw : SyntaxFlaw) : Attempt SyntaxError α := do
  let _line ← need (tabledLine? text table position.line)
  throw ⟨position, flaw⟩

/-! ## The scan -/

def slashOpensPattern (text : List Char) : Option Entry → Attempt ε Bool
  | none => return true
  | some entry =>
    match entry.kind with
    | some .symbol => do
      let lexeme ← need (entry.text? text)
      return !(lexeme = ")" || lexeme = "]" || lexeme = "\x7d")
    | some .word => return operandWords.contains (← need (entry.text? text))
    | _ => return false

def measure (text : List Char) (previous : Option Entry) (position : Position)
    (c : Char) (rest : List Char) :
    Attempt (Stop Fault) (Token.Kind × Nat) :=
  if Quoted.isQuote c then do
    let (n, value) ← (stringBody c rest).recover fun stop =>
      throw ⟨1 + stop.passed, ⟨0, stop.reason⟩⟩
    return (.quoted (String.ofList value), n + 1)
  else if c = '`' then return (.template, ← templateBody 0 1 rest)
  else if c.isDigit ∨ (c = '.' ∧ rest.head?.any Char.isDigit) then do
    let n := Numeral.runLength (Numeral.hasRadixMark (c :: rest)) (c :: rest)
    let stop := position.after ((c :: rest).take n)
    let lexeme ← need
      (slice? text (wrapped32 position.offset) (wrapped32 stop.offset))
    if Numeral.isWellFormed lexeme then return (.numeral, n)
    else throw ⟨n, ⟨0, .numeral⟩⟩
  else if c = '.' ∧ rest.take 2 = ['.', '.'] then return (.symbol, 3)
  else if c = '=' ∧ rest.head? = some '>' then return (.symbol, 2)
  else if startsWord c then
    return (.word, 1 + (rest.takeWhile continuesWord).length)
  else if c = '/' ∧ rest.head? = some '*' then
    throw ⟨(c :: rest).length, ⟨0, .unterminatedComment⟩⟩
  else do
    let opens ← if c = '/' then slashOpensPattern text previous else pure false
    if opens then
      match Token.patternLength? false rest with
      | some n => return (.pattern, n + 1)
      | none =>
        let line := rest.takeWhile (· ≠ '\n')
        throw ⟨1 + line.length, ⟨0, .unterminatedPattern⟩⟩
    else if isPunctuation c then return (.symbol, 1)
    else throw ⟨0, ⟨0, .character⟩⟩

/-- The entries from a place on, with the gap before it already measured. -/
def scanAfter (overflow : Overflow) (text : List Char)
    (table : List (Nat × Nat)) (previous : Option Entry) (breakBefore : Bool)
    (position : Position) : List Char → Attempt SyntaxError (List Entry)
  | [] =>
    return [⟨none, ⟨kept position, wrapped32 position.offset⟩, breakBefore⟩]
  | c :: rest => do
    let (kind, n) ← (measure text previous position c rest).recover
      fun ⟨passed, skip, flaw⟩ => do
        let _reached ← need (overflow.after? position ((c :: rest).take passed))
        let place ← need (overflow.after? position ((c :: rest).take skip))
        raise text table (kept place) (.lexical flaw)
    let stop ← need (overflow.after? position (c :: rest.take (n - 1)))
    let entry : Entry :=
      ⟨some kind, ⟨kept position, wrapped32 stop.offset⟩, breakBefore⟩
    let rest := rest.drop (n - 1)
    let gap := rest.take (Gap.length .blank rest)
    let next ← need (overflow.after? stop gap)
    let later ← scanAfter overflow text table (some entry) (gap.contains '\n')
      next (rest.drop gap.length)
    return entry :: later
termination_by s => s.length
decreasing_by simp only [List.length_cons, List.length_drop]; omega

/-- The entries of a whole text. -/
def scan (overflow : Overflow) (text : List Char)
    (table : List (Nat × Nat)) : Attempt SyntaxError (List Entry) := do
  let gap := text.take (Gap.openingLength text)
  let first ← need (overflow.after? .origin gap)
  scanAfter overflow text table none (gap.contains '\n') first
    (text.drop gap.length)

/-! ## One entry after another -/

/-- The entries from a place in front of a gap on. -/
def scanFrom (overflow : Overflow) (text : List Char)
    (table : List (Nat × Nat)) (previous : Option Entry) (position : Position)
    (rest : List Char) : Attempt SyntaxError (List Entry) := do
  let gap := rest.take (Gap.length .blank rest)
  let next ← need (overflow.after? position gap)
  scanAfter overflow text table previous (gap.contains '\n') next
    (rest.drop gap.length)

section

variable {overflow : Overflow} {text : List Char} {table : List (Nat × Nat)}
  {previous : Option Entry} {position stop : Position}

theorem scan_eq_scanFrom {rest : List Char} (h : ¬ ['#', '!'] <+: rest) :
    scan overflow rest table =
      scanFrom overflow rest table none .origin rest := by
  simp only [scan, scanFrom, Gap.openingLength_eq h]

theorem scanFrom_replicate {c : Char} (hblank : isBlank c) (hslash : c ≠ '/')
    (hline : c ≠ '\n') (n : Nat) {rest : List Char}
    (hrest : Gap.length .blank rest = 0)
    (hstop : overflow.after? position (List.replicate n c) = some stop) :
    scanFrom overflow text table previous position
        (List.replicate n c ++ rest) =
      scanAfter overflow text table previous false stop rest := by
  have hbreak : (List.replicate n c).contains '\n' = false := by
    simp [Ne.symm hline]
  have htake : (List.replicate n c ++ rest).take n = List.replicate n c :=
    List.take_left' List.length_replicate
  have hdrop : (List.replicate n c ++ rest).drop n = rest :=
    List.drop_left' List.length_replicate
  simp only [scanFrom, Gap.length_replicate hblank hslash, hrest, Nat.add_zero,
    htake, hstop, need_some, pure_bind, hbreak, List.length_replicate, hdrop]

theorem scanFrom_eq_scanAfter {rest : List Char}
    (hrest : Gap.length .blank rest = 0) :
    scanFrom overflow text table previous position rest =
      scanAfter overflow text table previous false position rest := by
  simp only [scanFrom, hrest, List.take_zero, List.length_nil, List.drop_zero]
  rfl

variable {breakBefore : Bool} {c : Char} {tail after : List Char}
  {kind : Token.Kind}

theorem scanAfter_cons {entry : Entry}
    (hmeasure : measure text previous position c (tail ++ after) =
      pure (kind, tail.length + 1))
    (hstop : overflow.after? position (c :: tail) = some stop)
    (hentry : entry =
      ⟨some kind, ⟨kept position, wrapped32 stop.offset⟩, breakBefore⟩) :
    scanAfter overflow text table previous breakBefore position
        (c :: tail ++ after) = do
      let later ← scanFrom overflow text table (some entry) stop after
      return entry :: later := by
  rw [List.cons_append, scanAfter, hmeasure, recover_pure, pure_bind, hentry]
  simp only [Nat.add_sub_cancel, List.take_left, List.drop_left, hstop,
    need_some, pure_bind, scanFrom, bind_assoc]

theorem scanAfter_eq_pure (tail : List Char) {entry : Entry}
    {later : List Entry}
    (hmeasure : measure text previous position c (tail ++ after) =
      pure (kind, tail.length + 1))
    (hstop : overflow.after? position (c :: tail) = some stop)
    (hentry : entry =
      ⟨some kind, ⟨kept position, wrapped32 stop.offset⟩, breakBefore⟩)
    (hlater : scanFrom overflow text table (some entry) stop after =
      pure later) :
    scanAfter overflow text table previous breakBefore position
      (c :: tail ++ after) = pure (entry :: later) := by
  rw [scanAfter_cons hmeasure hstop hentry, hlater, pure_bind]

theorem scanAfter_full (hmeasure : measure text previous position c
      (tail ++ after) = pure (kind, tail.length + 1))
    (hstop : overflow.after? position (c :: tail) = none) :
    (scanAfter overflow text table previous breakBefore position
      (c :: tail ++ after)).run = none := by
  rw [List.cons_append, scanAfter, hmeasure, recover_pure, pure_bind]
  simp only [Nat.add_sub_cancel, List.take_left, hstop]
  rfl

end

/-! ## No check of the scan fails -/

section

variable {text : List Char} {table : List (Nat × Nat)}

def StandsIn (text : List Char) (token : Token) : Prop :=
  (Entry.ofToken token).text? text = some token.text

private theorem slashOpensPattern_eq {previous : Option Token}
    (hprevious : ∀ token ∈ previous, StandsIn text token) :
    (slashOpensPattern text (previous.map .ofToken) : Attempt ε Bool) =
      pure (Script.slashOpensPattern previous) := by
  cases previous with
  | none => rfl
  | some token =>
      have hlexeme := hprevious token rfl
      rw [StandsIn] at hlexeme
      rw [Option.map_some, slashOpensPattern, Script.slashOpensPattern, hlexeme,
        Entry.ofToken]
      cases token.kind <;> rfl

private theorem wrapped32_behind {before after : List Char}
    (htext : text = before ++ after) (hsize : byteSize text < UInt32.size) :
    wrapped32 (Position.behind before).offset =
      (Position.behind before).offset :=
  wrapped32_byteSize htext hsize

private theorem kept_behind {before after : List Char}
    (htext : text = before ++ after) (hsize : byteSize text < UInt32.size) :
    kept (.behind before) = .behind before := by
  rw [kept, wrapped32_behind htext hsize]

theorem slice?_behind {before lexeme after : List Char}
    (htext : text = before ++ lexeme ++ after) :
    slice? text (Position.behind before).offset
      (Position.behind (before ++ lexeme)).offset = some lexeme :=
  slice?_eq_some htext rfl rfl

private theorem after?_place (overflow : Overflow)
    {before lexeme after : List Char} (htext : text = before ++ lexeme ++ after)
    (hsize : byteSize text + 1 < UInt32.size) :
    overflow.after? (.behind before) lexeme =
      some (.behind (before ++ lexeme)) := by
  rw [htext, byteSize_append] at hsize
  exact overflow.after?_behind (by omega)

theorem reasons_measure (hsize : byteSize text < UInt32.size)
    {previous : Option Token}
    (hprevious : ∀ token ∈ previous, StandsIn text token)
    {before rest : List Char} {c : Char} (htext : text = before ++ c :: rest) :
    (measure text (previous.map .ofToken) (.behind before) c rest).reasons =
      sound (Token.measure previous c rest) := by
  unfold measure Token.measure
  by_cases hquote : Quoted.isQuote c
  · rw [if_pos hquote, if_pos hquote, reasons_bind, reasons_innerString]
    cases Quoted.body c rest <;> rfl
  rw [if_neg hquote, if_neg hquote]
  by_cases htick : c = '`'
  · rw [if_pos htick, if_pos htick, reasons_bind, reasons_template.1]
    cases Template.body 0 1 rest <;> rfl
  rw [if_neg htick, if_neg htick]
  by_cases hdigit : c.isDigit ∨ (c = '.' ∧ rest.head?.any Char.isDigit)
  · rw [if_pos hdigit, if_pos hdigit]
    generalize Numeral.runLength _ _ = n
    have hcut : text =
        before ++ (c :: rest).take n ++ (c :: rest).drop n := by
      rw [List.append_assoc, List.take_append_drop, htext]
    simp only [Position.after_behind, wrapped32_behind hcut hsize,
      wrapped32_behind htext hsize, slice?_behind hcut, need_some, pure_bind]
    split <;> rfl
  rw [if_neg hdigit, if_neg hdigit]
  by_cases hellipsis : c = '.' ∧ rest.take 2 = ['.', '.']
  · rw [if_pos hellipsis, if_pos hellipsis, sound_ok, reasons_pure]
  rw [if_neg hellipsis, if_neg hellipsis]
  by_cases harrow : c = '=' ∧ rest.head? = some '>'
  · rw [if_pos harrow, if_pos harrow, sound_ok, reasons_pure]
  rw [if_neg harrow, if_neg harrow]
  by_cases hword : startsWord c
  · rw [if_pos hword, if_pos hword, sound_ok, reasons_pure]
  rw [if_neg hword, if_neg hword]
  by_cases hcomment : c = '/' ∧ rest.head? = some '*'
  · rw [if_pos hcomment, if_pos hcomment, sound_error, reasons_throw]
  rw [if_neg hcomment, if_neg hcomment]
  by_cases hslash : c = '/'
  · rw [if_pos hslash, slashOpensPattern_eq hprevious]
    simp only [pure_bind, hslash, true_and]
    split
    · cases Token.patternLength? false rest <;> rfl
    · split <;> rfl
  · rw [if_neg hslash]
    simp only [pure_bind, hslash, false_and, Bool.false_eq_true, if_false]
    split <;> rfl

theorem raise_eq
    (htable : ∀ number, (tabledLine? text table number).isSome)
    (position : Position) (flaw : SyntaxFlaw) :
    (raise text table position flaw : Attempt SyntaxError α) =
      throw ⟨position, flaw⟩ := by
  obtain ⟨line, hline⟩ := Option.isSome_iff_exists.mp (htable position.line)
  rw [raise, hline, need_some, pure_bind]

private theorem eq_append_lexeme {before rest : List Char} {c : Char}
    (htext : text = before ++ c :: rest) (n : Nat) :
    text = before ++ (c :: rest.take n) ++ rest.drop n := by
  rw [List.append_assoc, List.cons_append, List.take_append_drop, htext]

private theorem length_drop_lt_cons (c : Char) (rest : List Char) (n : Nat) :
    (rest.drop n).length < (c :: rest).length := by
  rw [List.length_cons, List.length_drop]
  omega

private theorem standsIn_lexeme {before lexeme after : List Char}
    (hcut : text = before ++ lexeme ++ after) (kind : Token.Kind)
    (breakBefore : Bool) :
    ∀ token ∈ some (⟨kind, String.ofList lexeme,
      ⟨.behind before, (Position.behind (before ++ lexeme)).offset⟩,
      breakBefore⟩ : Token), StandsIn text token := by
  rintro _ ⟨⟩
  exact congrArg (Option.map String.ofList) (slice?_behind hcut)

private theorem scanAfter_eq (overflow : Overflow)
    (htable : ∀ number, (tabledLine? text table number).isSome)
    (hsize : byteSize text + 1 < UInt32.size) {previous : Option Token}
    (hprevious : ∀ token ∈ previous, StandsIn text token) (breakBefore : Bool)
    {before rest : List Char} (htext : text = before ++ rest) :
    scanAfter overflow text table (previous.map .ofToken) breakBefore
        (.behind before) rest =
      sound (((TokenStream.scanAfter previous breakBefore (.behind before)
        rest).mapError .ofLexical).map entries) := by
  have hshort : byteSize text < UInt32.size := by omega
  generalize hlength : rest.length = length
  induction length using Nat.strong_induction_on
    generalizing previous before breakBefore rest with
  | _ length ih =>
  cases rest with
  | nil =>
      rw [scanAfter, TokenStream.scanAfter, kept_behind htext hshort,
        wrapped32_behind htext hshort]
      rfl
  | cons c rest =>
      have hreached (n : Nat) : overflow.after? (.behind before)
          ((c :: rest).take n) = some (.behind (before ++ (c :: rest).take n)) ∧
          kept (.behind (before ++ (c :: rest).take n)) =
            .behind (before ++ (c :: rest).take n) := by
        have hcut : text =
            before ++ (c :: rest).take n ++ (c :: rest).drop n := by
          rw [List.append_assoc, List.take_append_drop, htext]
        exact ⟨after?_place overflow hcut hsize, kept_behind hcut hshort⟩
      have hmeasured := reasons_measure hshort hprevious htext
      rw [scanAfter, TokenStream.scanAfter]
      cases hmeasure : Token.measure previous c rest with
      | error fault =>
          rw [hmeasure] at hmeasured
          obtain ⟨passed, hthrow⟩ := exists_throw_of_reasons hmeasured
          obtain ⟨hskipped, hkept⟩ := hreached fault.skip
          simp only [hthrow, recover_throw, (hreached passed).1, hskipped,
            need_some, pure_bind, hkept, raise_eq htable,
            Position.after_behind]
          rfl
      | ok measured =>
          obtain ⟨kind, n⟩ := measured
          rw [hmeasure] at hmeasured
          have hcut := eq_append_lexeme htext (n - 1)
          have hless := hlength ▸ length_drop_lt_cons c rest (n - 1)
          rw [eq_pure_of_reasons hmeasured, recover_pure, pure_bind]
          simp only [kept_behind htext hshort, Position.after_behind]
          generalize c :: rest.take (n - 1) = lexeme, rest.drop (n - 1) = after
            at hcut hless ⊢
          rw [after?_place overflow hcut hsize, need_some, pure_bind]
          simp only [wrapped32_behind hcut hshort]
          obtain ⟨gap, later, rfl, htake, -⟩ := Gap.exists_fills after
          have hlater : text = before ++ lexeme ++ gap ++ later := by
            rw [hcut, List.append_assoc _ gap later]
          simp only [htake, List.drop_left,
            after?_place overflow hlater hsize, need_some, pure_bind]
          rw [List.length_append] at hless
          have hrest := ih later.length (by omega)
            (standsIn_lexeme hcut kind breakBefore) (gap.contains '\n') hlater
            rfl
          rw [Option.map_some, Entry.ofToken] at hrest
          rw [hrest]
          cases TokenStream.scanAfter _ _ _ later <;> rfl

theorem scan_eq (overflow : Overflow)
    (htable : ∀ number, (tabledLine? text table number).isSome)
    (hsize : byteSize text + 1 < UInt32.size) : scan overflow text table =
      sound (((TokenStream.ofText text).mapError .ofLexical).map entries) := by
  obtain ⟨gap, after, hcut, htake, -⟩ := Gap.exists_separates text
  have hdrop : text.drop gap.length = after := by rw [hcut, List.drop_left]
  have horigin : Position.origin = .behind [] := rfl
  have hgap : overflow.after? (.behind []) gap = some (.behind ([] ++ gap)) :=
    after?_place overflow hcut hsize
  rw [List.nil_append] at hgap
  simp only [scan, TokenStream.ofText, htake, hdrop, horigin, hgap, need_some,
    pure_bind, Position.after_behind]
  exact scanAfter_eq overflow htable hsize
    (show ∀ token ∈ none, StandsIn text token by simp) _ hcut

/-! ## Scans that return -/

private structure Near (text before rest : List Char) (position : Position) :
    Prop where
  offset : position.offset = byteSize before
  eq_behind : rest ≠ [] → position = .behind before

private theorem offset_after? {overflow : Overflow} {passed : List Char}
    {position reached : Position}
    (h : overflow.after? position passed = some reached) :
    reached.offset = position.offset + byteSize passed := by
  induction passed generalizing position with
  | nil =>
      obtain rfl := Option.some.inj h
      rfl
  | cons c rest ih =>
      rw [Overflow.after?, List.foldlM_cons] at h
      obtain ⟨next, hstep, hrest⟩ := Option.bind_eq_some_iff.mp h
      have hnext : next.offset = position.offset + c.utf8Size := by
        unfold Overflow.step? at hstep
        split at hstep <;>
          · obtain ⟨count, -, hcount⟩ := Option.bind_eq_some_iff.mp hstep
            rw [← Option.some.inj hcount]
      rw [ih hrest, hnext, byteSize_cons, Nat.add_assoc]

private theorem Near.after? {overflow : Overflow}
    {before lexeme after : List Char} {position reached : Position}
    (hnear : Near text before (lexeme ++ after) position)
    (htext : text = before ++ lexeme ++ after)
    (hsize : byteSize text < UInt32.size)
    (h : overflow.after? position lexeme = some reached) :
    Near text (before ++ lexeme) after reached := by
  refine ⟨?_, fun hafter => ?_⟩
  · rw [offset_after? h, hnear.offset, byteSize_append]
  · have hposition :=
      hnear.eq_behind (List.append_ne_nil_of_right_ne_nil _ hafter)
    obtain ⟨c, rest, rfl⟩ := List.exists_cons_of_ne_nil hafter
    have hpos := c.utf8Size_pos
    rw [htext, byteSize_append, byteSize_cons] at hsize
    rw [hposition, overflow.after?_behind (by omega)] at h
    exact (Option.some.inj h).symm

private theorem raise_ne_pure {position : Position} {flaw : SyntaxFlaw}
    {found : α} : raise text table position flaw ≠ pure found := by
  intro h
  obtain ⟨_, -, h⟩ := exists_of_bind_eq_pure h
  cases h

private theorem recovery_ne_pure {overflow : Overflow} {position : Position}
    {rest : List Char} {found : α} (stop : Stop Fault) : (do
      let _reached ← need (overflow.after? position (rest.take stop.passed))
      let place ← need
        (overflow.after? position (rest.take stop.reason.skip))
      raise text table (kept place) (.lexical stop.reason.flaw)) ≠
        pure found := by
  intro h
  obtain ⟨_, -, h⟩ := exists_of_bind_eq_pure h
  obtain ⟨_, -, h⟩ := exists_of_bind_eq_pure h
  exact raise_ne_pure h

private theorem exists_stream_of_scanAfter {overflow : Overflow}
    (hsize : byteSize text < UInt32.size) {previous : Option Token}
    (hprevious : ∀ token ∈ previous, StandsIn text token) {breakBefore : Bool}
    {before rest : List Char} (htext : text = before ++ rest)
    {position : Position} (hnear : Near text before rest position)
    {found : List Entry} (h : scanAfter overflow text table
      (previous.map .ofToken) breakBefore position rest = pure found) :
    ∃ stream stop, TokenStream.scanAfter previous breakBefore
        (.behind before) rest = .ok stream ∧
      stop.offset = byteSize text ∧ found = entries { stream with stop } := by
  generalize hlength : rest.length = length
  induction length using Nat.strong_induction_on
    generalizing previous before breakBefore rest position found with
  | _ length ih =>
  cases rest with
  | nil =>
      have hend : byteSize text = position.offset := by
        rw [htext, List.append_nil, hnear.offset]
      rw [scanAfter, wrapped32_of_lt (hend ▸ hsize)] at h
      obtain rfl := Except.ok.inj (Option.some.inj h)
      refine ⟨_, kept position, TokenStream.scanAfter.eq_1 .., ?_, ?_⟩
      · rw [kept, wrapped32_of_lt (hend ▸ hsize), hend]
      · rw [kept, wrapped32_of_lt (hend ▸ hsize)]
        rfl
  | cons c rest =>
      obtain rfl := hnear.eq_behind (List.cons_ne_nil _ _)
      rw [scanAfter] at h
      obtain ⟨⟨kind, n⟩, hrecover, h⟩ := exists_of_bind_eq_pure h
      have hmeasure := eq_pure_of_recover hrecover recovery_ne_pure
      have hmeasured := reasons_measure hsize hprevious htext
      rw [hmeasure, reasons_pure] at hmeasured
      replace hmeasured : Token.measure previous c rest = .ok (kind, n) :=
        (Option.some.inj hmeasured).symm
      obtain ⟨stop, hstop, h⟩ := exists_of_bind_eq_pure h
      obtain ⟨next, hnext, h⟩ := exists_of_bind_eq_pure h
      obtain ⟨later, hlater, h⟩ := exists_of_bind_eq_pure h
      have hcut := eq_append_lexeme htext (n - 1)
      have hless := hlength ▸ length_drop_lt_cons c rest (n - 1)
      have hbehind : Near text before
          (c :: rest.take (n - 1) ++ rest.drop (n - 1)) (.behind before) :=
        ⟨rfl, fun _ => rfl⟩
      rw [TokenStream.scanAfter, hmeasured]
      simp only [Position.after_behind]
      generalize c :: rest.take (n - 1) = lexeme, rest.drop (n - 1) = after
        at hcut hless hstop hnext hlater hbehind h ⊢
      have hstopped := hbehind.after? hcut hsize (eq_some_of_need hstop)
      obtain ⟨gap, tail, rfl, htake, -⟩ := Gap.exists_fills after
      simp only [htake, List.drop_left] at hnext hlater h ⊢
      have htail : text = before ++ lexeme ++ gap ++ tail := by
        rw [hcut, List.append_assoc _ gap tail]
      have hreached := hstopped.after? htail hsize (eq_some_of_need hnext)
      have hspan : wrapped32 stop.offset =
          (Position.behind (before ++ lexeme)).offset := by
        rw [hstopped.offset]
        exact wrapped32_byteSize hcut hsize
      rw [List.length_append] at hless
      rw [kept_behind htext hsize, hspan] at hlater h
      obtain ⟨stream, place, hstream, hplace, rfl⟩ :=
        ih tail.length (by omega) (standsIn_lexeme hcut kind breakBefore) htail
          hreached hlater rfl
      obtain rfl := Except.ok.inj (Option.some.inj h)
      rw [hstream]
      exact ⟨_, place, rfl, hplace, rfl⟩

theorem exists_stream_of_scan {overflow : Overflow} {found : List Entry}
    (hsize : byteSize text < UInt32.size)
    (h : scan overflow text table = pure found) :
    ∃ stream stop, TokenStream.ofText text = .ok stream ∧
      stop.offset = byteSize text ∧ found = entries { stream with stop } := by
  obtain ⟨gap, after, hcut, htake, -⟩ := Gap.exists_separates text
  have hdrop : text.drop gap.length = after := by rw [hcut, List.drop_left]
  have hstart : Near text [] (gap ++ after) .origin := ⟨rfl, fun _ => rfl⟩
  have horigin : Position.origin = .behind [] := rfl
  simp only [scan, htake, hdrop] at h
  obtain ⟨first, hfirst, hscan⟩ := exists_of_bind_eq_pure h
  have hnear := hstart.after? hcut hsize (eq_some_of_need hfirst)
  simp only [TokenStream.ofText, htake, hdrop, horigin, Position.after_behind]
  exact exists_stream_of_scanAfter hsize
    (show ∀ token ∈ none, StandsIn text token by simp) hcut hnear hscan

end

end ShapeMend.Script.Checked
