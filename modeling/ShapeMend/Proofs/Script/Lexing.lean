import ShapeMend.Proofs.Number.Integers
import ShapeMend.Proofs.Script.Numerals
import ShapeMend.Proofs.Script.Writing
import ShapeMend.Script.Tree.Numeral

/-!
# Splitting written text into tokens

A text is split from its front: a blank only moves the scan, and a lexeme whose
end shows yields one token before those of the text behind it.
-/

namespace ShapeMend.Script

open ShapeMend.Text ShapeMend.Number

/-! ## Kinds of characters -/

private theorem startsWord_of_isBlank {c : Char} (h : isBlank c) :
    startsWord c = false := by
  have htable : ∀ range ∈ blankRanges,
      ∀ n ∈ List.range' range.first (range.last + 1 - range.first),
        startsWord (Char.ofNat n) = false := by
    decide +kernel
  obtain ⟨range, hrange, hinside⟩ := List.any_eq_true.mp h
  have hmem :
      c.toNat ∈ List.range' range.first (range.last + 1 - range.first) := by
    simp only [CodeRange.contains, Bool.and_eq_true, decide_eq_true_eq]
      at hinside
    rw [List.mem_range'_1]
    omega
  have hfalse := htable range hrange c.toNat hmem
  rwa [Char.ofNat_toNat] at hfalse

theorem of_isPunctuation {c : Char} (h : isPunctuation c) :
    startsWord c = false ∧
    c.isDigit = false ∧ isBlank c = false ∧ Quoted.isQuote c = false ∧
      c ≠ '\x60' := by
  have htable : punctuation.all fun c =>
      decide (startsWord c = false ∧ c.isDigit = false ∧
      isBlank c = false ∧ Quoted.isQuote c = false ∧ c ≠ '\x60') := by
    decide +kernel
  exact of_decide_eq_true
    (List.all_eq_true.mp htable c (List.contains_iff_mem.mp h))

def closers : List Char := [' ', '[', ';', ':', '?']

def Closed (after : List Char) : Prop :=
  ∃ c ∈ closers, ∃ rest, after = c :: rest

private theorem of_mem_closers {c : Char} (h : c ∈ closers) :
    continuesWord c = false ∧ Numeral.isRun c = false := by
  have htable : closers.all fun c =>
      decide (continuesWord c = false ∧ Numeral.isRun c = false) := by
    decide +kernel
  exact of_decide_eq_true (List.all_eq_true.mp htable c h)

theorem Closed.head? {after : List Char} (h : Closed after) :
    ∀ c ∈ after.head?, continuesWord c = false ∧ Numeral.isRun c = false := by
  obtain ⟨c, hc, rest, rfl⟩ := h
  rintro _ ⟨⟩
  exact of_mem_closers hc

/-! ## Tokens without their places -/

namespace Token

def unplaced (token : Token) : Token := { token with span := .point .origin }

def lone (kind : Kind) (text : String) : Token :=
  ⟨kind, text, .point .origin, false⟩

def ofWord (text : String) : Token := lone .word text

def ofSymbol (text : String) : Token := lone .symbol text

def ofQuoted (value : String) : Token :=
  lone (.quoted value) (Json.quoted value)

def ofNumeral (n : Nat) : Token :=
  lone .numeral (String.ofList (Nat.toDigits 10 n))

def afterBreak (broken : Bool) : List Token → List Token
  | [] => []
  | token :: tokens =>
      { token with breakBefore := broken || token.breakBefore } :: tokens

theorem afterBreak_false (tokens : List Token) :
    afterBreak false tokens = tokens := by
  cases tokens <;> rfl

private theorem afterBreak_true (broken : Bool) (tokens : List Token) :
    afterBreak broken (afterBreak true tokens) = afterBreak true tokens := by
  cases tokens <;> simp [afterBreak]

end Token

/-! ## Decimal digits as numerals -/

namespace LiteralValue

private theorem radixOfMark_toDigits (n : Nat) :
    radixOfMark (Nat.toDigits 10 n) = none := by
  unfold radixOfMark
  split
  · next mark rest heq =>
      have hdigit : mark.isDigit :=
        Decimal.isDigit_of_mem (n := n) (by simp [heq])
      have hmark := (of_isDigit hdigit).2.2.2.2.1
      simp only [radixMarks, List.mem_cons, not_or] at hmark
      simp [hmark]
  · rfl

theorem ofNumeral?_toDigits (negative : Bool) {n : Nat} (h : n ≤ twoTo 53) :
    ofNumeral? negative (String.ofList (Nat.toDigits 10 n)) =
      some (.number ⟨negative, .ofNat n⟩) := by
  have hfilter : (Nat.toDigits 10 n).filter (· ≠ '_') = Nat.toDigits 10 n := by
    rw [List.filter_eq_self]
    intro c hc
    have hmarks := (of_isDigit (Decimal.isDigit_of_mem hc)).2.2.2.2.2
    simp only [List.mem_cons, not_or] at hmarks
    simp [hmarks]
  have hlast : (Nat.toDigits 10 n).getLast? ≠ some 'n' := by
    intro hlast
    have hdigit : 'n'.isDigit :=
      Decimal.isDigit_of_mem (List.mem_of_getLast? hlast)
    exact absurd hdigit (by decide)
  unfold ofNumeral? magnitude?
  simp only [String.toList_ofList, hfilter, if_neg hlast, radixOfMark_toDigits,
    Decimal.ofText?_toDigits, Option.map_some, Decimal.toMagnitude_ofNat h]

end LiteralValue

/-! ## Written strings -/

namespace Quoted

private theorem hexDigit?_digitChar {n : Nat} (h : n < 16) :
    hexDigit? (Nat.digitChar n) = some n := by
  have htable : ∀ n < 16, hexDigit? (Nat.digitChar n) = some n := by decide
  exact htable n h

private theorem escape_control {c : Char} (rest : List Char)
    (h : c.toNat < 0x20) :
    escape ('u' :: '0' :: '0' :: Nat.digitChar (c.toNat / 16) ::
      Nat.digitChar (c.toNat % 16) :: rest) =
      .ok (5, [c]) := by
  have hzero : hexDigit? '0' = some 0 := by decide
  have hhigh : hexDigit? (Nat.digitChar (c.toNat / 16)) = some (c.toNat / 16) :=
    hexDigit?_digitChar (by omega)
  have hlow : hexDigit? (Nat.digitChar (c.toNat % 16)) = some (c.toNat % 16) :=
    hexDigit?_digitChar (by omega)
  have hcode : codeEscape? ('0' :: '0' :: Nat.digitChar (c.toNat / 16) ::
      Nat.digitChar (c.toNat % 16) :: rest) = some (4, c.toNat) := by
    have hsum : c.toNat / 16 * 16 + c.toNat % 16 = c.toNat := by omega
    simp [codeEscape?, hexRun, hzero, hhigh, hlow, hsum]
  have hlead : isLead c.toNat = false := by
    simp [isLead]
    omega
  have hchar : ofCode c.toNat = c := by
    have hvalid : c.toNat.isValidChar := c.valid
    rw [ofCode, if_pos hvalid, Char.ofNat_toNat]
  unfold escape
  simp [hcode, hlead, hchar]

theorem body_escape {quote : Char} {text chars more : List Char} {n m : Nat}
    (hescape : escape text = .ok (n, chars))
    (hbody : body quote (text.drop n) = .ok (m, more)) :
    body quote ('\\' :: text) = .ok (n + m + 1, chars ++ more) := by
  rw [body, hescape]
  simp only [bind, Except.bind, hbody]
  rfl

private theorem body_escapeChar {rest more : List Char} {m : Nat} (c : Char)
    (h : body '\x22' rest = .ok (m, more)) :
    body '\x22' (Json.escapeChar c ++ rest) =
      .ok (m + (Json.escapeChar c).length, c :: more) := by
  have hescape : ∀ {text : List Char} {n : Nat}, escape text = .ok (n, [c]) →
      text.drop n = rest → body '\x22' ('\\' :: text) =
        .ok (m + (n + 1), c :: more) := by
    intro text n hescape hdrop
    rw [body_escape hescape (hdrop ▸ h), List.singleton_append]
    congr 2
    omega
  unfold Json.escapeChar
  iterate 7
    split
    · next heq => exact hescape (by subst heq; rfl) rfl
  split
  · next hcontrol => exact hescape (escape_control rest hcontrol) rfl
  · next hquote hslash _ _ hline _ _ _ =>
      rw [List.singleton_append, body]
      · simp only [hquote, if_false, bind, Except.bind, h]
        rfl
      · exact hline
      · exact hslash

theorem body_quoted (value after : List Char) :
    body '\x22' (value.flatMap Json.escapeChar ++ '\x22' :: after) =
      .ok ((value.flatMap Json.escapeChar).length + 1, value) := by
  induction value with
  | nil =>
      rw [List.flatMap_nil, List.nil_append, body]
      · rfl
      · simp
      · simp
  | cons c value ih =>
      rw [List.flatMap_cons, List.append_assoc, body_escapeChar c ih,
        List.length_append]
      congr 2
      omega

end Quoted

/-! ## The tokens of single lexemes -/

private theorem takeWhile_append_of_head {test : Char → Bool}
    {tail after : List Char} (htail : ∀ c ∈ tail, test c)
    (hafter : ∀ c ∈ after.head?, test c = false) :
    (tail ++ after).takeWhile test = tail := by
  rw [List.takeWhile_append_of_pos htail]
  cases after with
  | nil => simp
  | cons c rest =>
      rw [List.takeWhile_cons_of_neg (by simp [hafter c rfl]), List.append_nil]

theorem ne_of_startsWord {c d : Char} (hc : startsWord c)
    (hd : startsWord d = false) : c ≠ d := by
  rintro rfl
  exact Bool.false_ne_true (hd.symm.trans hc)

theorem exists_of_isName {name : String} (h : isName name) :
    ∃ c tail, name.toList = c :: tail ∧
    startsWord c ∧ (∀ d ∈ tail, continuesWord d) ∧ isBlank c = false := by
  unfold isName at h
  split at h
  · exact absurd h Bool.false_ne_true
  · next c tail hchars =>
      rw [Bool.and_eq_true, List.all_eq_true] at h
      refine ⟨c, tail, hchars, h.1, h.2, ?_⟩
      rw [Bool.eq_false_iff]
      intro hblank
      exact Bool.false_ne_true ((startsWord_of_isBlank hblank).symm.trans h.1)

namespace Token

theorem measure_word (previous : Option Token) {c : Char}
    {tail after : List Char} (hstart : startsWord c)
    (htail : ∀ d ∈ tail, continuesWord d)
    (hafter : ∀ d ∈ after.head?, continuesWord d = false) :
    measure previous c (tail ++ after) = .ok (.word, tail.length + 1) := by
  have hquote : Quoted.isQuote c = false := by
    simp [Quoted.isQuote, ne_of_startsWord hstart (d := '\x22') (by decide),
      ne_of_startsWord hstart (d := '\x27') (by decide)]
  have hdigit : ¬ c.isDigit := fun h =>
    Bool.false_ne_true ((of_isDigit h).1.symm.trans hstart)
  have hrest : (tail ++ after).takeWhile continuesWord = tail :=
    takeWhile_append_of_head htail hafter
  unfold measure
  simp [hquote, hdigit, hstart, hrest,
    ne_of_startsWord hstart (d := '\x60') (by decide),
    ne_of_startsWord hstart (d := '.') (by decide),
    ne_of_startsWord hstart (d := '=') (by decide), Nat.add_comm]

theorem measure_quoted (previous : Option Token) (value : String)
    (after : List Char) :
    measure previous '\x22'
      (value.toList.flatMap Json.escapeChar ++ ['\x22'] ++ after) =
      .ok (.quoted value,
        (value.toList.flatMap Json.escapeChar ++ ['\x22']).length + 1) := by
  unfold measure
  rw [if_pos (by decide), List.append_assoc, List.singleton_append,
    Quoted.body_quoted, List.length_append, List.length_singleton]
  simp only [String.ofList_toList]

theorem measure_symbol (previous : Option Token) {c : Char} {after : List Char}
    (hsymbol : isPunctuation c) (hslash : c ≠ '/')
    (hdot : c = '.' → ∀ d ∈ after.head?, d.isDigit = false ∧ d ≠ '.')
    (harrow : c = '=' → after.head? ≠ some '>') :
    measure previous c after = .ok (.symbol, 1) := by
  obtain ⟨hword, hdigit, -, hquote, htick⟩ := of_isPunctuation hsymbol
  have hfraction : ¬(c = '.' ∧ after.head?.any Char.isDigit) := by
    rintro ⟨hc, hany⟩
    obtain ⟨d, hd, hdigit⟩ := (Option.any_eq_true _ _).mp hany
    exact Bool.false_ne_true ((hdot hc d hd).1.symm.trans hdigit)
  have hellipsis : ¬(c = '.' ∧ after.take 2 = ['.', '.']) := by
    rintro ⟨hc, htake⟩
    obtain ⟨d, rest, rfl⟩ :=
      List.exists_cons_of_ne_nil (l := after) (by rintro rfl; cases htake)
    obtain ⟨rfl, -⟩ := List.cons.inj htake
    exact (hdot hc '.' rfl).2 rfl
  have harrow : ¬(c = '=' ∧ after.head? = some '>') := fun h => harrow h.1 h.2
  unfold measure
  rw [hquote, if_neg Bool.false_ne_true, if_neg htick,
    if_neg (by simp [hdigit, hfraction]), if_neg hellipsis, if_neg harrow,
    hword, if_neg Bool.false_ne_true, if_neg (by simp [hslash]),
    if_neg (by simp [hslash]), if_pos hsymbol]

end Token

/-! ## From gap to gap -/

theorem Gap.length_blank_cons {c : Char} (rest : List Char) (h : c ≠ '/') :
    Gap.length .blank (c :: rest) = if isBlank c then Gap.length .blank rest + 1
      else 0 := by
  rw [Gap.length]
  · intro rest' heq
    exact absurd heq h
  · intro rest' heq
    exact absurd heq h

theorem Gap.length_replicate {c : Char} (hblank : isBlank c) (hslash : c ≠ '/')
    (n : Nat) (rest : List Char) :
    Gap.length .blank (List.replicate n c ++ rest) =
      n + Gap.length .blank rest := by
  induction n with
  | zero => rw [List.replicate_zero, List.nil_append, Nat.zero_add]
  | succ n ih =>
      rw [List.replicate_succ, List.cons_append, length_blank_cons _ hslash,
        if_pos hblank, ih, Nat.add_right_comm]

theorem Gap.openingLength_eq {text : List Char} (h : ¬ ['#', '!'] <+: text) :
    Gap.openingLength text = Gap.length .blank text := by
  unfold Gap.openingLength
  split
  · next rest => exact absurd ⟨rest, rfl⟩ h
  · rfl

namespace TokenStream

def scanFrom (previous : Option Token) (broken : Bool) (position : Position)
    (text : List Char) : Except LexicalError TokenStream :=
  let gap := text.take (Gap.length .blank text)
  scanAfter previous (broken || gap.contains '\n') (position.after gap)
    (text.drop gap.length)

theorem scanFrom_of_isBlank (previous : Option Token) (broken : Bool)
    (position : Position) {c : Char} (text : List Char) (h : isBlank c) :
    scanFrom previous broken position (c :: text) =
      scanFrom previous (broken || c = '\n') (position.step c) text := by
  have hslash : c ≠ '/' := by
    rintro rfl
    exact absurd h (by decide)
  unfold scanFrom
  rw [Gap.length_blank_cons text hslash, if_pos h]
  simp [Bool.or_assoc, eq_comm]

/-- A lexeme that does not begin as a gap does is the first token, whether or
not the text behind it can be scanned. -/
private theorem scanFrom_eq_map {previous : Option Token} {broken : Bool}
    {position : Position} {c : Char} {tail after : List Char}
    {kind : Token.Kind} {token : Token} (hslash : c ≠ '/')
    (hblank : isBlank c = false)
    (hmeasure : Token.measure previous c (tail ++ after) =
      .ok (kind, tail.length + 1))
    (htoken : token =
      ⟨kind, String.ofList (c :: tail),
      ⟨position, (position.after (c :: tail)).offset⟩, broken⟩) :
    scanFrom previous broken position (c :: tail ++ after) =
      (scanFrom (some token) false (position.after (c :: tail)) after).map
        fun stream =>
        { stream with tokens := token :: stream.tokens } := by
  have hgap : Gap.length .blank (c :: (tail ++ after)) = 0 := by
    rw [Gap.length_blank_cons _ hslash, hblank]
    rfl
  subst htoken
  unfold scanFrom
  rw [List.cons_append, hgap]
  simp only [List.take_zero, List.contains_nil, Bool.or_false,
    Position.after_nil, List.length_nil, List.drop_zero, Bool.false_or]
  rw [scanAfter, hmeasure]
  simp only [Nat.add_sub_cancel, List.take_left, List.drop_left]
  split
  · next hscan => rw [hscan, Except.map]
  · next hscan => rw [hscan, Except.map]

theorem scanFrom_eq_ok {previous : Option Token} {broken : Bool}
    {position : Position} {c : Char} {tail after : List Char}
    {kind : Token.Kind} {token : Token} {stream : TokenStream}
    (hslash : c ≠ '/') (hblank : isBlank c = false)
    (hmeasure : Token.measure previous c (tail ++ after) =
      .ok (kind, tail.length + 1))
    (htoken : token =
      ⟨kind, String.ofList (c :: tail),
      ⟨position, (position.after (c :: tail)).offset⟩, broken⟩)
    (hstream : scanFrom (some token) false (position.after (c :: tail)) after =
      .ok stream) :
    scanFrom previous broken position (c :: tail ++ after) =
      .ok { stream with tokens := token :: stream.tokens } := by
  rw [scanFrom_eq_map hslash hblank hmeasure htoken, hstream, Except.map]

theorem ofText_eq_scanFrom {text : List Char} (h : ¬ ['#', '!'] <+: text) :
    ofText text = scanFrom none false .origin text := by
  simp only [ofText, scanFrom, Gap.openingLength_eq h, Bool.false_or]

end TokenStream

def Lexes (text : List Char) (tokens : List Token) : Prop :=
  ∀ (previous : Option Token) (broken : Bool) (position : Position), ∃ stream,
    TokenStream.scanFrom previous broken position text = .ok stream ∧
      stream.tokens.map Token.unplaced = Token.afterBreak broken tokens

namespace Lexes

variable {text after : List Char} {tokens : List Token} {c : Char}

theorem nil : Lexes [] [] := by
  intro previous broken position
  exact ⟨_, by
    rw [TokenStream.scanFrom, TokenStream.scanAfter.eq_def]; rfl, rfl⟩

theorem blank (h : Lexes text tokens) : Lexes (' ' :: text) tokens := by
  intro previous broken position
  obtain ⟨stream, hscan, htokens⟩ := h previous broken (position.step ' ')
  refine ⟨stream, ?_, htokens⟩
  rw [TokenStream.scanFrom_of_isBlank _ _ _ _ (by decide), ← hscan]
  simp

theorem newline (h : Lexes text tokens) :
    Lexes ('\n' :: text) (Token.afterBreak true tokens) := by
  intro previous broken position
  obtain ⟨stream, hscan, htokens⟩ := h previous true (position.step '\n')
  refine ⟨stream, ?_, ?_⟩
  · rw [TokenStream.scanFrom_of_isBlank _ _ _ _ (by decide), ← hscan]
    simp
  · rw [htokens, Token.afterBreak_true]

theorem cons {kind : Token.Kind} (tail : List Char) (hslash : c ≠ '/')
    (hblank : isBlank c = false)
    (hmeasure : ∀ previous,
      Token.measure previous c (tail ++ after) = .ok (kind, tail.length + 1))
    (h : Lexes after tokens) :
    Lexes (c :: tail ++ after)
      (.lone kind (String.ofList (c :: tail)) :: tokens) := by
  intro previous broken position
  obtain ⟨stream, hscan, htokens⟩ :=
    h (some _) false (position.after (c :: tail))
  refine ⟨_,
    TokenStream.scanFrom_eq_ok hslash hblank (hmeasure previous) rfl hscan, ?_⟩
  rw [Token.afterBreak_false] at htokens
  simp [Token.unplaced, Token.lone, Token.afterBreak, htokens]

theorem word {name : String} (hname : isName name) (hafter : Closed after)
    (h : Lexes after tokens) :
    Lexes (name.toList ++ after) (.ofWord name :: tokens) := by
  obtain ⟨c, tail, hchars, hstart, htail, hblank⟩ := exists_of_isName hname
  have hlexes := cons tail (ne_of_startsWord hstart (by decide)) hblank
    (fun previous => Token.measure_word previous hstart htail
      fun d hd => (hafter.head? d hd).1) h
  rwa [← hchars, String.ofList_toList] at hlexes

theorem symbol (text : String) (c : Char) (htext : text.toList = [c])
    (hsymbol : isPunctuation c) (hlong : c ∉ ['/', '.'])
    (harrow : c = '=' → after.head? ≠ some '>') (h : Lexes after tokens) :
    Lexes (c :: after) (.ofSymbol text :: tokens) := by
  simp only [List.mem_cons, not_or] at hlong
  have hblank : isBlank c = false := (of_isPunctuation hsymbol).2.2.1
  have hlexes := cons [] hlong.1 hblank
    (fun previous => Token.measure_symbol previous hsymbol hlong.1
      (absurd · hlong.2.1) harrow) h
  rwa [← htext, String.ofList_toList, htext] at hlexes

theorem mark (text : String) (c : Char) (htext : text.toList = [c])
    (hmark : isPunctuation c ∧ c ∉ ['/', '.', '=']) (h : Lexes after tokens) :
    Lexes (c :: after) (.ofSymbol text :: tokens) := by
  obtain ⟨hsymbol, hlong⟩ := hmark
  simp only [List.mem_cons, not_or] at hlong
  exact h.symbol text c htext hsymbol (by simp [hlong]) (by simp [hlong])

theorem quoted (value : String) (h : Lexes after tokens) :
    Lexes ((Json.quoted value).toList ++ after)
      (.ofQuoted value :: tokens) := by
  have hlexes := cons _ (by decide) (by decide)
    (fun previous => Token.measure_quoted previous value after) h
  simpa [Json.quoted, Token.ofQuoted] using hlexes

theorem numeral (n : Nat) (hafter : Closed after) (h : Lexes after tokens) :
    Lexes (Nat.toDigits 10 n ++ after) (.ofNumeral n :: tokens) := by
  let decimal : DecimalText := ⟨Nat.toDigits 10 n, [], none⟩
  have hwritten : decimal.isWritten := by
    simpa [decimal, DecimalText.isWritten, Nat.toDigits_ne_nil] using
      fun c hc => Decimal.isDigit_of_mem hc
  have htext : decimal.text = Nat.toDigits 10 n := List.append_nil _
  obtain ⟨c, tail, hsplit, hdigit, hmeasure⟩ :=
    Token.measure_decimal hwritten fun d hd => (hafter.head? d hd).2
  obtain ⟨-, hblank, -, -, -, hmarks⟩ := of_isDigit hdigit
  simp only [List.mem_cons, not_or] at hmarks
  unfold Token.ofNumeral
  rw [← htext, hsplit]
  exact cons tail hmarks.2.1 hblank hmeasure h

end Lexes

end ShapeMend.Script
