import ShapeMend.Proofs.Script.Nesting

/-!
# Readers take whole groups

Every reader of types and declarations opens a bracket only to close it again.
The readers of nested types are taken to do so; tying them to themselves is an
induction on their depth.
-/

namespace ShapeMend.Script

open ShapeMend.Text Reader

/-! ## Single tokens -/

def SymbolPasses (test : String → Bool) (tokens : List Token) : Prop :=
  ∀ token ∈ tokens.head?, token.kind = .symbol → test token.text

namespace SymbolPasses

variable {test : String → Bool} {tokens : List Token}

theorem nil : SymbolPasses test [] := by simp [SymbolPasses]

theorem cons {token : Token} (h : token.kind = .symbol → test token.text) :
    SymbolPasses test (token :: tokens) := by
  intro first hfirst
  obtain rfl : token = first := by simpa using hfirst
  exact h

theorem of_text {text : String} (hfront : frontText tokens = text)
    (htext : test text) : SymbolPasses test tokens := by
  cases tokens with
  | nil => exact nil
  | cons token tokens =>
      refine cons fun hsymbol => ?_
      obtain rfl : token.text = text := by
        simpa [frontText, Token.syntacticText, hsymbol] using hfront
      exact htext

theorem of_mem {texts : List String}
    (hfront : texts.contains (frontText tokens)) (htexts : texts.all test) :
    SymbolPasses test tokens :=
  of_text rfl (List.all_eq_true.mp htexts _ (List.contains_iff_mem.mp hfront))

theorem of_kind {token : Token} (h : token.kind ≠ .symbol) :
    SymbolPasses test (token :: tokens) :=
  cons fun hsymbol => absurd hsymbol h

theorem of_word (h : frontIsWord tokens) : SymbolPasses test tokens := by
  cases tokens with
  | nil => exact nil
  | cons token tokens =>
      refine of_kind fun hsymbol => ?_
      simp [frontIsWord, hsymbol] at h

theorem of_wordOnLine (h : frontIsWordOnLine tokens) :
    SymbolPasses test tokens := by
  cases tokens with
  | nil => exact nil
  | cons token tokens =>
      rw [frontIsWordOnLine, Bool.and_eq_true, decide_eq_true_eq] at h
      exact of_kind (by simp [h.1])

theorem of_typeOperator {operator : TypeOperator}
    (h : typeOperator? (frontText tokens) = some operator)
    (htexts : ["keyof", "readonly", "unique"].all test) :
    SymbolPasses test tokens := by
  suffices hword : ["keyof", "readonly", "unique"].contains (frontText tokens)
      from of_mem hword htexts
  unfold typeOperator? at h
  split at h
  · next hword => simp [hword]
  split at h
  · next hword => simp [hword]
  split at h
  · next hword => simp [hword]
  · cases h

end SymbolPasses

def isPlainText (text : String) : Bool :=
  !(Bracket.isOpener text || Bracket.isCloser text)

abbrev PlainFront (tokens : List Token) : Prop :=
  SymbolPasses isPlainText tokens

theorem PlainFront.whole_drop {tokens : List Token} (h : PlainFront tokens) :
    Whole tokens (tokens.drop 1) := by
  cases tokens with
  | nil => exact .refl []
  | cons token tokens =>
      refine (Within.refl tokens).plain ?_
      have hplain : token.kind = .symbol → isPlainText token.text := h token rfl
      simpa [Token.isBracket, isPlainText] using hplain

private theorem whole_runLength {test : List Token → Bool}
    (htest : ∀ tokens, test tokens → PlainFront tokens) (tokens : List Token) :
    Whole tokens (tokens.drop (runLength test tokens)) := by
  induction tokens with
  | nil => exact .refl []
  | cons token tokens ih =>
      rw [runLength]
      split
      · next hpasses => exact (htest _ hpasses).whole_drop.trans ih
      · exact .refl _

theorem length_drop_lt {text : String} {tokens : List Token}
    (hfront : frontText tokens = text) (hne : text ≠ "") :
    (tokens.drop 1).length < tokens.length := by
  cases tokens with
  | nil => exact absurd hfront.symm hne
  | cons token tokens => simp

/-! ## Readers of whole runs -/

abbrev Takes {α : Type} (reader : Reader α) (tokens : List Token) : Prop :=
  Leaves reader tokens fun _ rest => Whole tokens rest

namespace Takes

variable {α β : Type} {tokens : List Token} {reader : Reader α}
  {next : α → Reader β}

theorem pure (value : α) : Takes (Pure.pure value) tokens :=
  Leaves.pure (.refl tokens)

theorem bind (hfirst : Takes reader tokens)
    (hnext : ∀ value rest, Takes (next value) rest) :
    Takes (reader >>= next) tokens := by
  refine Leaves.bind hfirst fun value rest hrest => ?_
  exact (hnext value rest).imp fun _ _ hlater => hrest.trans hlater

theorem look {mid : α → Prop} (hfirst : Looks reader tokens mid)
    (hnext : ∀ value, Takes (next value) tokens) :
    Takes (reader >>= next) tokens :=
  Leaves.look hfirst fun value _ => hnext value

theorem advance (h : PlainFront tokens) : Takes advance tokens :=
  Leaves.advance.imp fun _ _ hrest => hrest ▸ h.whole_drop

theorem step {next : Unit → Reader β} (h : PlainFront tokens)
    (hnext : Takes (next ()) (tokens.drop 1)) :
    Takes (Reader.advance >>= next) tokens := by
  refine Leaves.advance.bind ?_
  rintro _ _ rfl
  exact hnext.imp fun _ _ hrest => h.whole_drop.trans hrest

theorem discard (h : Takes reader tokens) : Takes (discard reader) tokens :=
  Leaves.discard h

theorem spanned {first : Span} {value : Span → β} :
    Takes (Reader.spanFrom first >>= fun span => Pure.pure (value span))
      tokens :=
  Leaves.spanned fun _ => .refl tokens

theorem skip (text : String) (htext : isPlainText text) :
    Takes (skip text) tokens :=
  (Leaves.skip text).imp fun _ _ h => by
    obtain ⟨hfront, rfl⟩ | ⟨-, rfl⟩ := h
    · exact PlainFront.whole_drop (.of_text hfront htext)
    · exact .refl _

theorem skipThen (text : String) (htext : isPlainText text)
    {next : Unit → Reader β}
    (hyes : frontText tokens = text → Takes (next ()) (tokens.drop 1))
    (hno : frontText tokens ≠ text → Takes (next ()) tokens) :
    Takes (Reader.skip text >>= next) tokens := by
  refine (Leaves.skip text).bind fun _ rest h => ?_
  obtain ⟨hfront, rfl⟩ | ⟨hfront, rfl⟩ := h
  · exact (hyes hfront).imp fun _ _ hrest =>
      (PlainFront.whole_drop (.of_text hfront htext)).trans hrest
  · exact hno hfront

theorem expect (text : String) (place : Place) (htext : isPlainText text) :
    Takes (expect text place) tokens :=
  (Leaves.expect text place).imp fun _ _ ⟨hfront, hrest⟩ =>
    hrest ▸ PlainFront.whole_drop (.of_text hfront htext)

theorem name (place : Place) : Takes (name place) tokens := by
  refine Leaves.onAhead ?_
  cases tokens with
  | nil => exact Leaves.fail
  | cons token tokens =>
      simp only
      split
      · next hkind =>
          exact step (.of_kind (by simp [hkind])) (pure _)
      · exact Leaves.fail

private theorem advanceBy {length : Except SyntaxError Nat}
    {next : Unit → Reader β}
    (hlength : ∀ n, length = .ok n → Whole tokens (tokens.drop n))
    (hnext : ∀ rest, Takes (next ()) rest) :
    Takes (liftM length >>= fun n => Reader.advanceBy n >>= next) tokens := by
  refine (Leaves.lift length).look fun n hn => ?_
  refine bind ?_ fun _ => hnext
  exact (Leaves.advanceBy n).imp fun _ _ hrest => hrest ▸ hlength n hn

theorem group : Takes group tokens := by
  refine look Leaves.here fun first => Leaves.onAhead ?_
  refine advanceBy (fun n => Bracket.whole_of_groupLength) fun rest => ?_
  exact (Leaves.spanFrom first).imp fun _ _ h => h.1 ▸ .refl _

theorem angles (hfront : frontText tokens = "<") : Takes angles tokens := by
  refine Leaves.onAhead ?_
  cases tokens with
  | nil => exact pure ()
  | cons opener tokens =>
      refine Leaves.onAhead ?_
      refine (Leaves.lift _).look fun n hn => ?_
      exact (Leaves.advanceBy n).imp fun _ _ hrest =>
        hrest ▸ Bracket.whole_of_anglesLength hfront hn

theorem anglesFirst {next : Unit → Reader β}
    (hnext : ∀ rest, Takes (next ()) rest) :
    Takes (Reader.at? "<" >>= fun opens =>
      if opens then Reader.angles >>= next else next ()) tokens :=
  Leaves.atFront "<" (fun hfront => (angles hfront).bind fun _ => hnext)
    fun _ => hnext tokens

theorem skipWhile {test : List Token → Bool}
    (htest : ∀ tokens, test tokens → PlainFront tokens) :
    Takes (skipWhile test) tokens := by
  refine Leaves.onAhead ?_
  exact (Leaves.advanceBy _).imp fun _ _ hrest =>
    hrest ▸ whole_runLength htest tokens

theorem separated (separator : String) (hseparator : isPlainText separator)
    {item : Reader α} (hitem : ∀ tokens, Takes item tokens) (bound : Nat) :
    Takes (separated separator item bound) tokens := by
  induction bound generalizing tokens with
  | zero => exact (hitem tokens).bind fun _ _ => pure _
  | succ bound ih =>
      refine (hitem tokens).bind fun first rest =>
        Leaves.atFront separator (fun hfront => ?_) ?_
      · refine step (.of_text hfront hseparator) ?_
        exact ih.bind fun _ _ => pure _
      · exact fun _ => pure _

end Takes

/-! ## Readers up to a closing bracket -/

abbrev Closes {α : Type} (text : String) (reader : Reader α)
    (tokens : List Token) : Prop :=
  Leaves reader tokens fun _ rest => ClosedBy text tokens rest

section

variable {α β : Type} {text : String} {tokens : List Token} {reader : Reader α}

theorem Takes.thenCloses {next : α → Reader β} (hfirst : Takes reader tokens)
    (hnext : ∀ value rest, Whole tokens rest → Closes text (next value) rest) :
    Closes text (reader >>= next) tokens := by
  refine Leaves.bind hfirst fun value rest hrest => ?_
  exact (hnext value rest hrest).imp fun _ _ hclosed => hclosed.before hrest

namespace Closes

theorem bind {next : α → Reader β} (h : Closes text reader tokens)
    (hnext : ∀ value rest, Takes (next value) rest) :
    Closes text (reader >>= next) tokens := by
  refine Leaves.bind h fun value rest hclosed => ?_
  exact (hnext value rest).imp fun _ _ => hclosed.trans

theorem step {next : Unit → Reader β} (h : PlainFront tokens)
    (hnext : Closes text (next ()) (tokens.drop 1)) :
    Closes text (Reader.advance >>= next) tokens := by
  refine Leaves.advance.bind ?_
  rintro _ _ rfl
  exact hnext.imp fun _ _ hclosed => hclosed.before h.whole_drop

theorem advance {next : Unit → Reader β} (hfront : frontText tokens = text)
    (hne : text ≠ "") (hnext : ∀ rest, Takes (next ()) rest) :
    Closes text (Reader.advance >>= next) tokens := by
  refine Leaves.advance.bind ?_
  rintro _ _ rfl
  exact (hnext _).imp fun _ _ => (ClosedBy.of_front hfront hne).trans

theorem expect (place : Place) (hne : text ≠ "") :
    Closes text (Reader.expect text place) tokens :=
  (Leaves.expect text place).imp fun _ _ ⟨hfront, hrest⟩ =>
    hrest ▸ .of_front hfront hne

end Closes

/-- A bracket in front, through the one that closes it and what is taken behind
it. -/
theorem Takes.bracketed (opener closer : String) {next : Unit → Reader β}
    (hfront : frontText tokens = opener)
    (hpair : (opener, closer) ∈ bracketPairs)
    (hnext : Closes closer (next ()) (tokens.drop 1)) :
    Takes (Reader.advance >>= next) tokens := by
  refine Leaves.advance.bind ?_
  rintro _ _ rfl
  exact hnext.imp fun _ _ => ClosedBy.whole hfront hpair

end

namespace Takes

variable {α β : Type} {tokens : List Token} {reader : Reader α}
  {next : α → Reader β}

/-! ## Names and literals -/

theorem dottedTail (bound : Nat) : Takes (dottedTail bound) tokens := by
  induction bound generalizing tokens with
  | zero => exact pure _
  | succ bound ih =>
      refine Leaves.atFront "." (fun hfront => ?_) fun _ => pure _
      refine step (.of_text hfront (by decide)) ?_
      refine (name _).bind fun _ _ => ?_
      exact ih.bind fun _ _ => pure _

private theorem dottedName : Takes dottedName tokens := by
  refine (name _).bind fun _ _ => ?_
  refine look Leaves.remaining fun _ => ?_
  exact (dottedTail _).bind fun _ _ => pure _

private theorem moduleTail (h : PlainFront tokens) :
    Takes moduleTail tokens := by
  refine step h <| group.discard.bind fun _ _ => ?_
  exact look Leaves.remaining fun _ => (dottedTail _).discard

private theorem skippedArguments : Takes skippedArguments tokens := by
  refine Leaves.onAhead ?_
  cases tokens with
  | nil => exact pure ()
  | cons token tokens =>
      simp only
      split
      · next hopens =>
          simp only [Bool.and_eq_true, decide_eq_true_eq] at hopens
          exact angles hopens.1
      · exact pure ()

theorem numeral (span : Span) (negative : Bool) (text : String) :
    Takes (numeral span negative text) tokens := by
  unfold Reader.numeral
  split
  · exact pure _
  · exact Leaves.throw

private theorem skipLabel : Takes skipLabel tokens := by
  refine Leaves.onAhead ?_
  simp only
  split
  · next hlabel =>
      simp only [Bool.and_eq_true, Bool.or_eq_true, decide_eq_true_eq] at hlabel
      obtain ⟨hword, hcolon⟩ := hlabel
      refine step (.of_word hword) ?_
      refine skipThen "?" (by decide) (fun hmark => ?_) fun hmark => ?_
      · have hcolon := hcolon.resolve_left (by rw [hmark]; decide)
        exact advance (.of_text hcolon.2 (by decide))
      · have hcolon := hcolon.resolve_right fun h => hmark h.1
        exact advance (.of_text hcolon (by decide))
  · exact pure ()

theorem plainKey : Takes plainKey tokens := by
  refine Leaves.onAhead ?_
  cases tokens with
  | nil => exact Leaves.fail
  | cons token tokens =>
      simp only
      split
      · next hkind => exact step (.of_kind (by simp [hkind])) (pure _)
      · next hkind => exact step (.of_kind (by simp [hkind])) (pure _)
      · next hkind => exact step (.of_kind (by simp [hkind])) (pure _)
      · split
        · next hhash =>
            simp only [Bool.and_eq_true, decide_eq_true_eq] at hhash
            refine step (.of_text hhash.1 (by decide)) ?_
            exact (name _).bind fun _ _ => pure _
        · exact Leaves.fail

private theorem accessorKey : Takes accessorKey tokens := by
  refine Leaves.atFront "[" (fun _ => group.bind fun _ _ => pure _) fun _ => ?_
  exact plainKey.bind fun _ _ => pure _

private theorem memberMayFollow :
    Looks memberMayFollow tokens fun _ => True := by
  refine Leaves.onAhead ?_
  cases tokens with
  | nil => exact Leaves.pure ⟨rfl, trivial⟩
  | cons token tokens => exact Leaves.pure ⟨rfl, trivial⟩

theorem operandFollows : Looks operandFollows tokens fun _ => True :=
  Leaves.onAhead (Leaves.pure ⟨rfl, trivial⟩)

private theorem opensFunction : Looks opensFunction tokens fun _ => True := by
  refine Leaves.atFront "<" (fun _ => Leaves.pure ⟨rfl, trivial⟩) fun _ => ?_
  refine Leaves.atFront "(" (fun _ => ?_) fun _ => Leaves.pure ⟨rfl, trivial⟩
  refine Leaves.onAhead ?_
  exact (Leaves.lift _).look fun _ _ => Leaves.pure ⟨rfl, trivial⟩

/-! ## Functions and signatures -/

section

variable {inner : Nested → Reader TypeNode}
  (hinner : ∀ kind tokens, Takes (inner kind) tokens)
include hinner

theorem returnType : Takes (returnType inner) tokens := by
  have htype : ∀ rest, Takes (Functor.discard (inner .type)) rest := fun rest =>
    (hinner .type rest).discard
  refine Leaves.onAhead ((Leaves.at? "asserts").look ?_)
  rintro _ rfl
  simp only [Bool.and_eq_true, decide_eq_true_eq]
  split
  · next hasserts =>
      refine step (.of_text hasserts.1 (by decide))
        (step (.of_wordOnLine hasserts.2) ?_)
      refine Leaves.atFront "is" (fun hfront => ?_) fun _ => pure _
      exact step (.of_text hfront (by decide)) (htype _)
  · refine Leaves.onAhead ?_
    split
    · next his =>
        exact step (.of_word his.1.1) (step (.of_wordOnLine his.2) (htype _))
    · exact htype _

private theorem functionType (first : Span) :
    Takes (functionType inner first) tokens := by
  refine anglesFirst fun rest => ?_
  refine Leaves.atFront "(" (fun _ => ?_) fun _ => Leaves.fail
  refine group.discard.bind fun _ _ => ?_
  refine (expect _ _ (by decide)).discard.bind fun _ _ => ?_
  exact (returnType hinner).bind fun _ _ => spanned

theorem signature : Takes (signature inner) tokens := by
  refine anglesFirst fun rest => ?_
  refine Leaves.atFront "(" (fun _ => ?_) fun _ => Leaves.fail
  refine group.discard.bind fun _ _ => ?_
  refine Leaves.atFront ":" (fun hcolon => ?_) fun _ => pure ()
  exact step (.of_text hcolon (by decide)) (returnType hinner)

/-! ## Lists in brackets -/

private theorem arguments (bound : Nat) :
    Takes (arguments inner bound) tokens := by
  induction bound generalizing tokens with
  | zero => exact pure _
  | succ bound ih =>
      refine Leaves.atFront ">"
        (fun hfront => step (.of_text hfront (by decide)) (pure _)) fun _ => ?_
      refine (hinner _ _).bind fun argument rest => ?_
      refine Leaves.atFront "," (fun hfront => ?_) fun _ =>
        Leaves.atFront ">" (fun _ => ?_) fun _ => ?_
      · refine step (.of_text hfront (by decide)) ?_
        exact ih.bind fun _ _ => pure _
      · exact ih.bind fun _ _ => pure _
      · exact Leaves.failed

private theorem elements {bound : Nat}
    (hbound : tokens.length < bound ∨ frontText tokens = "]" ∧ 0 < bound) :
    Closes "]" (elements inner bound) tokens := by
  induction bound generalizing tokens with
  | zero => omega
  | succ bound ih =>
      refine Leaves.atFront "]" (fun hfront => Closes.advance hfront (by decide)
        fun _ => pure _) fun hopen => ?_
      have hlength : tokens.length < bound + 1 := hbound.resolve_right fun h =>
          hopen h.1
      refine (skip "..." (by decide)).thenCloses fun _ _ hspread => ?_
      refine skipLabel.thenCloses fun _ _ hlabel => ?_
      refine (hinner .type _).thenCloses fun element _ helement => ?_
      refine (skip "?" (by decide)).thenCloses fun _ rest hmark => ?_
      have hrest : rest.length ≤ tokens.length :=
        (hspread.trans (hlabel.trans (helement.trans hmark))).length_le
      refine Leaves.atFront "," (fun hcomma => ?_) fun _ =>
        Leaves.atFront "]" (fun hclose => ?_) fun _ => Leaves.failed
      · have hshorter := length_drop_lt hcomma (by decide)
        refine Closes.step (.of_text hcomma (by decide)) ?_
        exact (ih (.inl (by omega))).bind fun _ _ => pure _
      · have hshorter := length_drop_lt hclose (by decide)
        exact (ih (.inr ⟨hclose, by omega⟩)).bind fun _ _ => pure _

/-! ## Members -/

private theorem bracketedMember (first : Span) :
    Takes (bracketedMember inner first) tokens := by
  refine Leaves.onAhead ?_
  refine group.discard.bind fun _ _ => ?_
  refine (skip "?" (by decide)).bind fun _ rest => ?_
  split
  · refine (expect _ _ (by decide)).discard.bind fun _ _ => ?_
    exact (hinner _ _).discard.bind fun _ _ => spanned
  · refine look (Leaves.at? "(") fun _ => ?_
    refine look (Leaves.at? "<") fun _ => ?_
    split
    · exact (signature hinner).bind fun _ _ => spanned
    · refine Leaves.atFront ":" (fun hcolon => ?_) fun _ => spanned
      refine step (.of_text hcolon (by decide)) ?_
      exact (hinner _ _).discard.bind fun _ _ => spanned

private theorem namedMember (first : Span) :
    Takes (namedMember inner first) tokens := by
  refine plainKey.bind fun key _ => ?_
  refine look (Leaves.at? "?") fun optional => ?_
  refine (skip "?" (by decide)).bind fun _ rest => ?_
  refine look (Leaves.at? "(") fun _ => ?_
  refine look (Leaves.at? "<") fun _ => ?_
  split
  · exact (signature hinner).bind fun _ _ => spanned
  · refine Leaves.atFront ":" (fun hcolon => ?_) fun _ => spanned
    refine step (.of_text hcolon (by decide)) ?_
    exact (hinner _ _).bind fun _ _ => spanned

private theorem member : Takes (member inner) tokens := by
  refine look Leaves.here fun first => ?_
  refine (skipWhile fun tokens htokens => ?_).bind fun _ rest =>
    Leaves.onAhead ?_
  · rw [Bool.and_eq_true] at htokens
    exact .of_mem htokens.1 (by decide)
  refine look (Leaves.at? "(") fun _ => ?_
  refine look (Leaves.at? "<") fun _ => ?_
  split
  · exact (signature hinner).bind fun _ _ => spanned
  refine (Leaves.at? "new").look ?_
  rintro _ rfl
  split
  · next hnew =>
      simp only [Bool.and_eq_true, decide_eq_true_eq] at hnew
      refine step (.of_text hnew.1 (by decide)) ?_
      exact (signature hinner).bind fun _ _ => spanned
  refine (Leaves.at? "get").look ?_
  rintro _ rfl
  refine (Leaves.at? "set").look ?_
  rintro _ rfl
  split
  · next haccess =>
      simp only [Bool.and_eq_true, Bool.or_eq_true, decide_eq_true_eq]
        at haccess
      have hplain : PlainFront rest :=
        haccess.1.elim (.of_text · (by decide)) (.of_text · (by decide))
      refine step hplain ?_
      refine accessorKey.bind fun _ _ => ?_
      exact (signature hinner).bind fun _ _ => spanned
  exact Leaves.atFront "[" (fun _ => bracketedMember hinner first) fun _ =>
    namedMember hinner first

private theorem memberTail (opener : Span) (bound : Nat) :
    Closes "\x7d" (memberTail inner opener bound) tokens := by
  induction bound generalizing tokens with
  | zero => exact Leaves.throw
  | succ bound ih =>
      refine (skipWhile fun tokens htokens => ?_).thenCloses fun _ rest _ => ?_
      · simp only [Bool.or_eq_true, decide_eq_true_eq] at htokens
        exact htokens.elim (.of_text · (by decide)) (.of_text · (by decide))
      refine Leaves.atFront "\x7d"
        (fun hfront => Closes.advance hfront (by decide) fun _ => pure _)
        fun _ => Leaves.onAhead ?_
      split
      · exact Leaves.throw
      refine (member hinner).thenCloses fun first rest _ => ?_
      refine (Leaves.at? ";").look ?_
      rintro _ rfl
      refine (Leaves.at? ",").look ?_
      rintro _ rfl
      split
      · next hseparator =>
          simp only [Bool.or_eq_true, decide_eq_true_eq] at hseparator
          have hplain : PlainFront rest :=
            hseparator.elim (.of_text · (by decide)) (.of_text · (by decide))
          refine Closes.step hplain ?_
          exact ih.bind fun _ _ => pure _
      · refine memberMayFollow.look fun _ _ => ?_
        split
        · exact ih.bind fun _ _ => pure _
        · exact Leaves.failed

theorem members : Takes (members inner) tokens := by
  refine (Leaves.expect _ _).bind ?_
  rintro opener _ ⟨hfront, rfl⟩
  refine Leaves.look Leaves.remaining fun _ _ => ?_
  exact (memberTail hinner opener _).imp fun _ _ =>
    ClosedBy.whole hfront (by decide)

/-! ## Operands -/

private theorem worded : Takes (worded inner) tokens := by
  refine look Leaves.here fun first => (Leaves.textAt 0).look ?_
  rintro _ rfl
  rw [List.drop_zero]
  refine (Leaves.textAt 1).look ?_
  rintro _ rfl
  split
  · next hboolean =>
      simp only [Bool.or_eq_true, decide_eq_true_eq] at hboolean
      have hplain : PlainFront tokens :=
        hboolean.elim (.of_text · (by decide)) (.of_text · (by decide))
      exact step hplain (pure _)
  refine operandFollows.look fun follows _ => ?_
  split
  · next hquery =>
      simp only [Bool.and_eq_true, decide_eq_true_eq] at hquery
      refine step (.of_text hquery.1 (by decide))
        ((Leaves.at? "import").look ?_)
      rintro _ rfl
      refine look (Leaves.textAt 1) fun _ => ?_
      split
      · next himport =>
          simp only [Bool.and_eq_true, decide_eq_true_eq] at himport
          refine (moduleTail (.of_text himport.1 (by decide))).bind
            fun _ _ => ?_
          exact skippedArguments.bind fun _ _ => spanned
      · refine dottedName.discard.bind fun _ _ => ?_
        exact skippedArguments.bind fun _ _ => spanned
  split
  · next himport =>
      simp only [Bool.and_eq_true, decide_eq_true_eq] at himport
      refine (moduleTail (.of_text himport.1 (by decide))).bind fun _ _ => ?_
      exact skippedArguments.bind fun _ _ => spanned
  split
  · next hkeyword =>
      rw [Bool.and_eq_true] at hkeyword
      exact step (.of_mem hkeyword.1 (by decide)) (pure _)
  refine dottedName.bind fun name rest => Leaves.onAhead ?_
  obtain ⟨name, qualified⟩ := name
  cases rest with
  | nil => exact spanned
  | cons token later =>
      simp only
      split
      · next hopens =>
          simp only [Bool.and_eq_true, decide_eq_true_eq] at hopens
          refine step (.of_text hopens.1 (by decide)) ?_
          refine look Leaves.remaining fun _ => ?_
          exact (arguments hinner _).bind fun _ _ => spanned
      · exact spanned

private theorem symbolic {token : Token} {later : List Token}
    (hkind : token.kind = .symbol) :
    Takes (symbolic inner token.span token.text later) (token :: later) := by
  have hfront : frontText (token :: later) = token.text := by
    simp [frontText, Token.syntacticText, hkind]
  unfold Reader.symbolic
  split
  · next digits hdigits =>
      cases later with
      | nil => cases hdigits
      | cons next later =>
          simp only [negated?, Option.ite_none_right_eq_some, Bool.and_eq_true,
            decide_eq_true_eq, Option.some.injEq] at hdigits
          obtain ⟨⟨hminus, hdigits⟩, rfl⟩ := hdigits
          exact step (.of_text (hfront.trans hminus) (by decide))
            (step (.of_kind (by simp [hdigits])) (numeral _ _ _))
  · split
    · next hopens =>
        refine bracketed "(" ")" (hfront.trans hopens) (by decide) ?_
        refine (hinner .type _).thenCloses fun _ _ _ => ?_
        exact Closes.bind (Closes.expect _ (by decide)).discard
          fun _ _ => spanned
    split
    · next hopens =>
        refine bracketed "[" "]" (hfront.trans hopens) (by decide) ?_
        refine Leaves.remaining.look ?_
        rintro _ rfl
        exact (elements hinner (.inl (Nat.lt_succ_self _))).bind
          fun _ _ => spanned
    split
    · refine Leaves.onAhead ?_
      split
      · exact group.bind fun _ _ => pure _
      · exact (members hinner).bind fun _ _ => spanned
    · exact Leaves.fail

private theorem primary : Takes (primary inner) tokens := by
  refine Leaves.onAhead ?_
  cases tokens with
  | nil => exact Leaves.fail
  | cons token later =>
      simp only
      split
      · next hkind => exact step (.of_kind (by simp [hkind])) (pure _)
      · next hkind => exact step (.of_kind (by simp [hkind])) (numeral _ _ _)
      · next hkind => exact step (.of_kind (by simp [hkind])) (pure _)
      · exact worded hinner
      · exact Leaves.fail
      · next hkind => exact symbolic hinner hkind

private theorem brackets (first : Span) (bound : Nat) (type : TypeNode) :
    Takes (brackets inner first bound type) tokens := by
  induction bound generalizing tokens type with
  | zero => exact pure _
  | succ bound ih =>
      refine Leaves.onAhead ?_
      cases tokens with
      | nil => exact pure _
      | cons token later =>
          simp only
          split
          · next hopens =>
              simp only [Bool.and_eq_true, decide_eq_true_eq] at hopens
              refine bracketed "[" "]" hopens.1 (by decide) ?_
              refine Leaves.atFront "]" (fun hclose => ?_) fun _ => ?_
              · refine Closes.advance hclose (by decide) fun _ => ?_
                exact look (Leaves.spanFrom first) fun _ => ih _
              · refine (hinner .type _).thenCloses fun _ _ _ => ?_
                refine Closes.bind (Closes.expect _ (by decide)).discard
                  fun _ _ => ?_
                exact look (Leaves.spanFrom first) fun _ => ih _
          · exact pure _

private theorem postfixed : Takes (postfixed inner) tokens := by
  refine look Leaves.here fun first => ?_
  refine (primary hinner).bind fun _ _ => ?_
  exact look Leaves.remaining fun _ => brackets hinner first _ _

private theorem inferredConstraint :
    Takes (inferredConstraint inner) tokens := by
  refine Leaves.atFront "extends" (fun hfront => ?_) fun _ => pure _
  have hplain : Whole tokens (tokens.drop 1) :=
    PlainFront.whole_drop (.of_text hfront (by decide))
  refine Leaves.get.look fun start hstart => Leaves.advance.bind ?_
  rintro _ _ rfl
  refine Leaves.get.look fun behind hbehind => ?_
  split
  · next result after hrun =>
      refine (Leaves.set _).imp ?_
      rintro _ _ rfl
      split
      · rw [hstart]
        exact .refl tokens
      · exact hplain.trans (hinner .union _ behind result after hbehind hrun)
  · refine (Leaves.set start).imp ?_
    rintro _ _ rfl
    rw [hstart]
    exact .refl tokens

theorem operand (bound : Nat) : Takes (operand inner bound) tokens := by
  induction bound generalizing tokens with
  | zero => exact postfixed hinner
  | succ bound ih =>
      refine look Leaves.here fun first => (Leaves.textAt 0).look ?_
      rintro _ rfl
      rw [List.drop_zero]
      refine operandFollows.look fun follows _ => ?_
      split
      · next operator hoperator =>
          refine step (.of_typeOperator hoperator (by decide)) ?_
          exact ih.bind fun _ _ => spanned
      · refine (Leaves.at? "infer").look ?_
        rintro _ rfl
        refine Leaves.onAhead ?_
        split
        · next hinfer =>
            simp only [Bool.and_eq_true, decide_eq_true_eq] at hinfer
            refine step (.of_text hinfer.1 (by decide))
              (step (.of_word hinfer.2) ?_)
            exact (inferredConstraint hinner).bind fun _ _ => spanned
        · exact postfixed hinner

/-! ## Combinations -/

private theorem intersection : Takes (intersection inner) tokens := by
  refine look Leaves.here fun first => ?_
  refine (skip "&" (by decide)).bind fun _ _ => ?_
  refine look Leaves.remaining fun _ => ?_
  refine (separated "&" (by decide)
    (fun _ => look Leaves.remaining fun _ => operand hinner _) _).bind
    fun parts _ => ?_
  split
  · exact pure _
  · exact spanned

theorem union : Takes (union inner) tokens := by
  refine look Leaves.here fun first => ?_
  refine (skip "|" (by decide)).bind fun _ _ => ?_
  refine look Leaves.remaining fun _ => ?_
  refine (separated "|" (by decide) (fun _ => intersection hinner) _).bind
    fun branches _ => ?_
  split
  · exact pure _
  · exact spanned

private theorem condition (first : Span)
    (hfront : frontText tokens = "extends") :
    Takes (condition inner first) tokens := by
  refine step (.of_text hfront (by decide)) <| (union hinner).discard.bind
    fun _ _ => ?_
  refine (expect _ _ (by decide)).discard.bind fun _ _ => ?_
  refine (hinner _ _).discard.bind fun _ _ => ?_
  refine (expect _ _ (by decide)).discard.bind fun _ _ => ?_
  exact (hinner _ _).discard.bind fun _ _ => spanned

private theorem anyType : Takes (anyType inner) tokens := by
  refine look Leaves.here fun first => ?_
  refine opensFunction.look fun opens _ => ?_
  split
  · exact functionType hinner first
  refine (Leaves.at? "new").look ?_
  rintro _ rfl
  refine (Leaves.at? "abstract").look ?_
  rintro _ rfl
  refine (Leaves.textAt 1).look ?_
  rintro _ rfl
  split
  · next hnew =>
      simp only [Bool.or_eq_true, Bool.and_eq_true, decide_eq_true_eq] at hnew
      refine skipThen "abstract" (by decide) (fun habstract => ?_)
        fun habstract => ?_
      · have hnew := (hnew.resolve_left (by rw [habstract]; decide)).2
        refine step (.of_text hnew (by decide)) ?_
        exact (functionType hinner first).discard.bind fun _ _ => spanned
      · have hnew := hnew.resolve_right fun h => habstract h.1
        refine step (.of_text hnew (by decide)) ?_
        exact (functionType hinner first).discard.bind fun _ _ => spanned
  · refine (union hinner).bind fun checked rest => ?_
    exact Leaves.atFront "extends" (fun hfront => condition hinner first hfront)
      fun _ => pure _

end

theorem nested (depth : Nat) (kind : Nested) (tokens : List Token) :
    Takes (nested depth kind) tokens := by
  induction depth generalizing kind tokens with
  | zero => exact Leaves.fail
  | succ depth ih =>
      cases kind with
      | type => exact anyType ih
      | union => exact union ih

theorem type : Takes type tokens := look Leaves.remaining fun _ => nested _ _ _

end Takes

end ShapeMend.Script
