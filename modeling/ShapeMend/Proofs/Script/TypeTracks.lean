import ShapeMend.Proofs.Script.Tracks

/-!
# Types with more tokens behind

Every reader of a type reads the same type with more tokens behind.  What
follows a semicolon cannot continue one.
-/

namespace ShapeMend.Script

open ShapeMend.Text Reader

theorem exists_bounds {n extra bound bound' : Nat} (hbound : n + 1 ≤ bound)
    (hbound' : n + 1 + extra ≤ bound') :
    ∃ b b', bound = b + 1 ∧ bound' = b' + 1 ∧ n ≤ b ∧ n + extra ≤ b' :=
  ⟨bound - 1, bound' - 1, by omega, by omega, by omega, by omega⟩

/-! ## Mapped types -/

section

variable {more tokens others : List Token} {n : Nat}

def startsMappedKey (tokens : List Token) : Bool :=
  frontText tokens = "[" && frontIsWord (tokens.drop 1) &&
    frontText (tokens.drop 2) = "in"

private theorem startsMappedKey_beside (h : Beside more n tokens others) :
    startsMappedKey others = startsMappedKey tokens := by
  have htwo (tokens : List Token) : tokens.drop 2 = (tokens.drop 1).drop 1 := by
    rw [List.drop_drop]
  simp only [startsMappedKey, h.frontText, Bool.and_assoc, htwo]
  refine h.and_later _ (fun later => frontIsWord later &&
    frontText (later.drop 1) = "in")
    (fun hopens => ?_) fun hlater => ?_
  · exact .of_text (of_decide_eq_true hopens) (by decide)
  rw [hlater.frontIsWord]
  exact hlater.and_later _ (fun later => frontText later = "in") .of_word
    fun hlast => by simp only [hlast.frontText]

private theorem Beside.dropIf (h : Beside more n tokens others) (test : Prop)
    [Decidable test] (hon : test → Ongoing tokens) :
    Beside more n (if test then tokens.drop 1 else tokens)
      (if test then others.drop 1 else others) := by
  split
  · next htest => exact (h.later (hon htest)).mono (Nat.sub_le _ _)
  · exact h

private theorem startsMapped_beside (h : Beside more n tokens others)
    (hfront : frontText tokens = "\x7b") :
    startsMapped others = startsMapped tokens := by
  have hmarked {k : Nat} {tokens others : List Token}
      (h : Beside more k tokens others) :
      startsMappedKey
        (if frontText others = "readonly" then others.drop 1 else others) =
        startsMappedKey (if frontText tokens = "readonly" then tokens.drop 1
          else tokens) := by
    rw [h.frontText]
    exact startsMappedKey_beside (h.dropIf _ (.of_text · (by decide)))
  have hbody := h.later (.of_text hfront (by decide))
  have hsign :
      (frontText (tokens.drop 1) = "+" || frontText (tokens.drop 1) = "-") =
      true →
      Ongoing (tokens.drop 1) := by
    simp only [Bool.or_eq_true, decide_eq_true_eq]
    exact fun h => h.elim (.of_text · (by decide)) (.of_text · (by decide))
  have hsigned := hmarked (hbody.dropIf _ hsign)
  unfold startsMapped
  simp only [hbody.frontText]
  exact hsigned

end

namespace Tracks

variable {β δ : Type} {lost : List Token → Prop}
  {beside : List Token → List Token → Prop}
  {sight : β → δ} {more tokens others : List Token} {n bound bound' : Nat}

/-! ## Names and literals -/

private theorem run_dottedTail_nil (bound : Nat) {cursor : Cursor}
    (h : cursor.ahead = []) :
    (dottedTail bound).run cursor = .ok ([], cursor) := by
  obtain ⟨actual, lastStop, stop⟩ := cursor
  obtain rfl : actual = [] := h
  cases bound <;> rfl

theorem dottedTail (h : Beside more n tokens others) (hbound : n ≤ bound)
    (hbound' : n + more.length ≤ bound') :
    Tracks more n id (dottedTail bound) (dottedTail bound') tokens others := by
  induction n generalizing bound bound' tokens others with
  | zero =>
      obtain ⟨rfl, rfl⟩ := h.of_zero
      exact Follows.idle (fun _ => run_dottedTail_nil _)
        (fun _ => run_dottedTail_nil _) rfl h
  | succ n ih =>
      obtain ⟨bound, bound', rfl, rfl, hbound, hbound'⟩ :=
        exists_bounds hbound hbound'
      refine Follows.atFront h "." (fun hfront => ?_) fun _ => pure rfl h
      refine Follows.step ?_
      refine (name (h.later (.of_text hfront (by decide))) _).bind
        fun next next' rest later hnext hrest => ?_
      refine (ih (hrest.mono (Nat.sub_le _ _)) hbound hbound').bind
        fun names names' rest later hnames hrest => ?_
      obtain rfl : names' = names := hnames
      exact pure (by rw [Name.text_of_unplaced hnext])
        (hrest.mono (Nat.le_succ n))

private theorem dottedName (h : Beside more n tokens others) :
    Tracks more (n - 1) id dottedName dottedName tokens others := by
  refine (name h _).bind fun first first' rest later hfirst hrest =>
    Follows.remaining ?_
  refine (dottedTail hrest.exact (Nat.le_refl _) hrest.length.ge).bind
    fun names names' rest' later' hnames hrest' => ?_
  obtain rfl : names' = names := hnames
  exact pure (by rw [Name.text_of_unplaced hfirst])
    (hrest'.mono hrest.length_le)

private theorem moduleTail (h : Beside more n tokens others)
    (hon : Ongoing tokens) (hopens : Ongoing (tokens.drop 1)) :
    Tracks more (n - 1) unseen moduleTail moduleTail tokens others := by
  refine Follows.step ?_
  refine (group (h.later hon) hopens).discard.bind
    fun _ _ rest later _ hrest => ?_
  refine Follows.remaining
    (dottedTail hrest.exact (Nat.le_refl _) hrest.length.ge).discard
    |>.imp ?_ ?_
  · exact fun _ => id
  · exact fun _ _ hlast => hlast.mono (hrest.length_le.trans (Nat.sub_le _ _))

private theorem skippedArguments (h : Beside more n tokens others) :
    Tracks more n unseen skippedArguments skippedArguments tokens others := by
  refine Follows.onAhead ?_
  cases tokens with
  | nil =>
      obtain ⟨rfl, -⟩ := h.of_nil
      exact pure rfl h
  | cons token rest =>
      obtain ⟨span, later, rfl⟩ := h.of_cons
      exact Follows.ite Iff.rfl (fun _ => angles h) fun _ => pure rfl h

theorem numeral (h : Beside more n tokens others) (span span' : Span)
    (negative : Bool) (text : String) :
    Tracks more n TypeNode.unplaced (numeral span negative text)
      (numeral span' negative text)
      tokens others := by
  unfold Reader.numeral
  cases LiteralValue.ofNumeral? negative text with
  | none => exact Follows.throw
  | some value => exact pure rfl h

private theorem skipLabel (h : Beside more n tokens others) :
    Tracks more n unseen skipLabel skipLabel tokens others := by
  have hlabel : (frontIsWord tokens && (frontText (others.drop 1) = ":" ||
        (frontText (others.drop 1) = "?" && frontText ((others.drop 1).drop 1) =
          ":"))) =
      (frontIsWord tokens && (frontText (tokens.drop 1) = ":" ||
        (frontText (tokens.drop 1) = "?" && frontText ((tokens.drop 1).drop 1) =
          ":"))) :=
    h.and_later _ (fun later => frontText later = ":" ||
      (frontText later = "?" && frontText (later.drop 1) = ":")) .of_word
        fun hlater => by
        simp only [hlater.frontText]
        congr 1
        refine hlater.and_later _ (fun later => frontText later = ":")
          (fun hmark => ?_) fun hlast => ?_
        · exact .of_text (of_decide_eq_true hmark) (by decide)
        · simp only [hlast.frontText]
  refine Follows.onAhead ?_
  refine Follows.choose ?_ (fun hword => ?_) fun _ => pure rfl h
  · simp only [h.frontIsWord, hlabel]
  simp only [Bool.and_eq_true, Bool.or_eq_true, decide_eq_true_eq] at hword
  obtain ⟨hword, hcolon⟩ := hword
  have hlater := h.later (.of_word hword)
  refine Follows.step ?_
  refine Follows.skipThen hlater "?" (fun hmark => ?_) fun hmark => ?_
  · have hcolon := (hcolon.resolve_left (by rw [hmark]; decide)).2
    exact (advance (hlater.later (.of_text hmark (by decide)))
      (.of_text hcolon (by decide))).mono (by omega)
  · have hcolon := hcolon.resolve_right fun h => hmark h.1
    exact (advance hlater (.of_text hcolon (by decide))).mono (by omega)

theorem plainKey (h : Beside more n tokens others) :
    Tracks more (n - 1) id plainKey plainKey tokens others := by
  refine Follows.onAhead ?_
  cases tokens with
  | nil => exact Follows.fail
  | cons token rest =>
      obtain ⟨span, later, rfl⟩ := h.of_cons
      simp only
      split
      · next hkind =>
            exact Follows.step (pure rfl (h.later (.of_kind (by simp [hkind]))))
      · next hkind =>
            exact Follows.step (pure rfl (h.later (.of_kind (by simp [hkind]))))
      · next hkind =>
            exact Follows.step (pure rfl (h.later (.of_kind (by simp [hkind]))))
      · refine Follows.choose ?_ (fun hhash => ?_) fun _ => Follows.fail
        · exact h.and_later _ frontIsWord
            (fun hhash => .of_text (of_decide_eq_true hhash) (by decide))
            (·.frontIsWord)
        simp only [Bool.and_eq_true, decide_eq_true_eq] at hhash
        have hlater := h.later (.of_text hhash.1 (by decide))
        refine Follows.step ?_
        refine (name hlater _).bind fun key key' _ _ hkey hrest => ?_
        exact pure (by rw [Name.text_of_unplaced hkey])
          (hrest.mono (Nat.sub_le _ _))

private theorem accessorKey (h : Beside more n tokens others) :
    Tracks more (n - 1) AccessorKey.unplaced accessorKey accessorKey tokens
      others := by
  refine Follows.atFront h "[" (fun hfront => ?_) fun _ => ?_
  · exact (group h (.of_text hfront (by decide))).bind fun _ _ _ _ _ hrest =>
      pure rfl hrest
  · refine (plainKey h).bind fun key key' _ _ hkey hrest => ?_
    obtain rfl : key' = key := hkey
    exact pure rfl hrest

private theorem memberMayFollow (h : Beside more n tokens others) :
    Tracks more n id memberMayFollow memberMayFollow tokens others := by
  refine Follows.onAhead ?_
  cases tokens with
  | nil =>
      obtain ⟨rfl, -⟩ := h.of_nil
      exact pure rfl h
  | cons token rest =>
      obtain ⟨span, later, rfl⟩ := h.of_cons
      exact pure rfl h

theorem operandFollows (h : Beside more n tokens others)
    {next next' : Bool → Reader β}
    (hnext : ∀ follows follows',
      (Ongoing tokens → follows' = follows) →
      Follows lost beside sight (next follows) (next' follows') tokens others) :
    Follows lost beside sight (operandFollows >>= next)
      (operandFollows >>= next') tokens others := by
  refine Follows.look (fun cursor => !(cursor.ahead.drop 1).isEmpty &&
    !typeTerminators.contains (frontText (cursor.ahead.drop 1)))
      (fun _ => rfl) ?_
  rintro start other rfl rfl
  refine hnext _ _ fun hon => ?_
  rw [(h.later hon).frontText, (h.later hon).isEmpty]

theorem opensFunction (h : Beside more n tokens others) :
    Tracks more n id opensFunction opensFunction tokens others := by
  refine Follows.atFront h "<" (fun _ => pure rfl h) fun _ => ?_
  refine Follows.atFront h "(" (fun hfront => ?_) fun _ => pure rfl h
  refine Follows.onAhead ?_
  refine Follows.lift fun length hlength => ?_
  obtain ⟨hlength, hrest⟩ :=
    Bracket.groupLength_beside (fun _ => .of_text hfront (by decide)) rfl
      h hlength
  exact ⟨hlength, pure (by rw [id, id, hrest.frontText]) h⟩

/-! ## Functions and signatures -/

theorem anglesFirst {next next' : Unit → Reader β}
    (h : Beside more n tokens others)
    (hnext : ∀ {rest later},
      Beside more n rest later →
      Follows lost beside sight (next ()) (next' ()) rest later) :
    Follows lost beside sight (Reader.at? "<" >>=
      fun opens => if opens then Reader.angles >>= next else next ())
      (Reader.at? "<" >>= fun opens => if opens then Reader.angles >>= next'
        else next' ()) tokens others :=
  Follows.atFront h "<" (fun _ => (angles h).bind fun _ _ _ _ _ => hnext)
    fun _ => hnext h

section

variable {limit : Nat} {inner inner' : Nested → Reader TypeNode}
  (hinner : ∀ {k tokens others}, k ≤ limit → Beside more k tokens others →
    Tracks more (k - 1) TypeNode.unplaced (inner .type) (inner' .type)
      tokens others)
include hinner

theorem returnType (hn : n ≤ limit) (h : Beside more n tokens others) :
    Tracks more n unseen (returnType inner) (returnType inner') tokens
      others := by
  have htype {k : Nat} {tokens others : List Token} (hk : k ≤ n)
      (h : Beside more k tokens others) :
      Tracks more n unseen (Functor.discard (inner .type))
        (Functor.discard (inner' .type)) tokens others :=
    ((hinner (hk.trans hn) h).mono (by omega)).discard
  refine Follows.onAhead
    (Follows.at?
      h.frontText _ (Follows.choose ?_ (fun hasserts => ?_) fun _ => ?_))
  · exact h.and_later _ frontIsWordOnLine
      (fun hasserts => .of_text (of_decide_eq_true hasserts) (by decide))
        (·.frontIsWordOnLine)
  · simp only [Bool.and_eq_true, decide_eq_true_eq] at hasserts
    have hlater := h.later (.of_text hasserts.1 (by decide))
    have hrest := hlater.later (.of_wordOnLine hasserts.2)
    refine Follows.step
      (Follows.step (Follows.atFront hrest "is" (fun his => ?_) fun _ => ?_))
    · exact Follows.step
        (htype (by omega) (hrest.later (.of_text his (by decide))))
    · exact pure rfl (hrest.mono (by omega))
  · refine Follows.onAhead ?_
    refine Follows.choose ?_ (fun his => ?_) fun _ => htype (Nat.le_refl n) h
    · rw [h.frontIsWord, Bool.and_assoc, Bool.and_assoc]
      exact h.and_later _ (fun later => frontText later = "is" &&
        frontIsWordOnLine later) .of_word
        fun hlater => by simp only [hlater.frontText, hlater.frontIsWordOnLine]
    · simp only [Bool.and_eq_true] at his
      have hlater := h.later (.of_word his.1.1)
      exact Follows.step
        (Follows.step (htype (by omega) (hlater.later (.of_wordOnLine his.2))))

theorem functionType (hn : n ≤ limit + 1) (first first' : Span)
    (h : Beside more n tokens others) :
    Tracks more (n - 1) TypeNode.unplaced (functionType inner first)
      (functionType inner' first') tokens others := by
  refine anglesFirst h fun h => ?_
  refine Follows.atFront h "(" (fun hfront => ?_) fun _ => Follows.fail
  refine (group h (.of_text hfront (by decide))).discard.bind
    fun _ _ _ _ _ hrest => ?_
  refine (expect hrest _ _ (by decide)).discard.bind fun _ _ _ _ _ hrest => ?_
  refine (returnType hinner (by omega) hrest).bind fun _ _ _ _ _ hrest => ?_
  exact spanned (hrest.mono (by omega)) fun _ _ => rfl

theorem signature (hn : n ≤ limit) (h : Beside more n tokens others) :
    Tracks more (n - 1) unseen (signature inner) (signature inner') tokens
      others := by
  refine anglesFirst h fun h => ?_
  refine Follows.atFront h "(" (fun hfront => ?_) fun _ => Follows.fail
  refine (group h (.of_text hfront (by decide))).discard.bind
    fun _ _ _ _ _ hrest => ?_
  refine Follows.atFront hrest ":" (fun hcolon => ?_) fun _ => pure rfl hrest
  exact Follows.step
    ((returnType hinner (by omega)
      (hrest.later (.of_text hcolon (by decide)))).mono (by omega))

/-! ## Lists in brackets -/

private theorem arguments (hn : n ≤ limit) (h : Beside more n tokens others)
    (hbound : n + 1 ≤ bound) (hbound' : n + 1 + more.length ≤ bound') :
    Tracks more n (List.map TypeNode.unplaced) (arguments inner bound)
      (arguments inner' bound')
      tokens others := by
  induction bound generalizing n bound' tokens others with
  | zero => omega
  | succ bound ih =>
      obtain ⟨bound', rfl⟩ :=
        Nat.exists_eq_add_of_le'
          (Nat.le_of_add_left_le (Nat.le_of_add_right_le hbound'))
      refine Follows.atFront h ">" (fun hfront => ?_) fun _ => ?_
      · exact Follows.step
          (pure rfl ((h.later (.of_text hfront (by decide))).mono (by omega)))
      refine (hinner hn h).bind
        fun argument argument' rest later hargument hrest => ?_
      have hlength := hrest.length_le
      have hmore {k : Nat} {rest later : List Token}
          (hrest : Beside more k rest later) (hk : k < n)
          (hpos : 0 < n - 1) : Tracks more n (List.map TypeNode.unplaced)
            (Reader.arguments inner bound >>=
              fun more => Pure.pure (argument :: more))
            (Reader.arguments inner' bound' >>=
              fun more => Pure.pure (argument' :: more)) rest later :=
        (ih (by omega) hrest (by omega) (by omega)).bind
          fun _ _ _ _ hnodes hrest =>
          pure (by simp [hargument, hnodes]) (hrest.mono (by omega))
      refine Follows.atFront hrest "," (fun hcomma => ?_) fun _ =>
        Follows.atFront hrest ">" (fun hclose => ?_) fun _ => Follows.failed
      · have hshorter := length_drop_lt hcomma (by decide)
        exact Follows.step
          (hmore (hrest.later (.of_text hcomma (by decide))) (by omega)
            (by omega))
      · have hshorter := length_drop_lt hclose (by decide)
        exact hmore hrest (by omega) (by omega)

private theorem elements (hn : n ≤ limit) (h : Beside more n tokens others)
    (hbound : n + 1 ≤ bound) (hbound' : n + 1 + more.length ≤ bound') :
    Tracks more n (List.map TypeNode.unplaced) (elements inner bound)
      (elements inner' bound')
      tokens others := by
  induction bound generalizing n bound' tokens others with
  | zero => omega
  | succ bound ih =>
      obtain ⟨bound', rfl⟩ :=
        Nat.exists_eq_add_of_le'
          (Nat.le_of_add_left_le (Nat.le_of_add_right_le hbound'))
      refine Follows.atFront h "]" (fun hfront => ?_) fun _ => ?_
      · exact Follows.step
          (pure rfl ((h.later (.of_text hfront (by decide))).mono (by omega)))
      refine (skip h "..." (by decide)).bind fun _ _ _ _ _ hrest => ?_
      refine (skipLabel hrest).bind fun _ _ _ _ _ hrest => ?_
      refine (hinner hn hrest).bind
        fun element element' _ _ helement hrest => ?_
      refine (skip hrest "?" (by decide)).bind fun _ _ rest later _ hrest => ?_
      have hlength := hrest.length_le
      have hmore {k : Nat} {rest later : List Token}
          (hrest : Beside more k rest later) (hk : k < n)
          (hpos : 0 < n - 1) : Tracks more n (List.map TypeNode.unplaced)
            (Reader.elements inner bound >>=
              fun more => Pure.pure (element :: more))
            (Reader.elements inner' bound' >>=
              fun more => Pure.pure (element' :: more)) rest later :=
        (ih (by omega) hrest (by omega) (by omega)).bind
          fun _ _ _ _ hnodes hrest =>
          pure (by simp [helement, hnodes]) (hrest.mono (by omega))
      refine Follows.atFront hrest "," (fun hcomma => ?_) fun _ =>
        Follows.atFront hrest "]" (fun hclose => ?_) fun _ => Follows.failed
      · have hshorter := length_drop_lt hcomma (by decide)
        exact Follows.step
          (hmore (hrest.later (.of_text hcomma (by decide))) (by omega)
            (by omega))
      · have hshorter := length_drop_lt hclose (by decide)
        exact hmore hrest (by omega) (by omega)

/-! ## Members -/

private theorem bracketedMember (hn : n ≤ limit) (first first' : Span)
    (hfront : frontText tokens = "[") (h : Beside more n tokens others) :
    Tracks more (n - 1) Member.unplaced (bracketedMember inner first)
      (bracketedMember inner' first')
      tokens others := by
  have hopens : Ongoing tokens := .of_text hfront (by decide)
  have hlater := h.later hopens
  refine Follows.onAhead ?_
  refine (group h hopens).discard.bind fun _ _ _ _ _ hrest => ?_
  refine (skip hrest "?" (by decide)).bind fun _ _ rest later _ hrest => ?_
  refine Follows.choose ?_ (fun _ => ?_) fun _ => ?_
  · simp only [hlater.frontIsWord]
    exact hlater.and_later _ (fun later => frontText later = ":") .of_word
      fun hlast => by simp only [hlast.frontText]
  · refine (expect hrest _ _ (by decide)).discard.bind fun _ _ _ _ _ hrest => ?_
    refine (hinner (by omega) hrest).discard.bind fun _ _ _ _ _ hrest => ?_
    exact spanned (hrest.mono (by omega)) fun _ _ => rfl
  · refine Follows.at? hrest.frontText _ (Follows.at? hrest.frontText _ ?_)
    refine Follows.choose rfl (fun _ => ?_) fun _ => ?_
    · refine (signature hinner (by omega) hrest).bind fun _ _ _ _ _ hrest => ?_
      exact spanned (hrest.mono (by omega)) fun _ _ => rfl
    · refine Follows.atFront hrest ":" (fun hcolon => ?_) fun _ =>
        spanned hrest fun _ _ => rfl
      have htype := hrest.later (.of_text hcolon (by decide))
      refine Follows.step ?_
      refine (hinner (by omega) htype).discard.bind fun _ _ _ _ _ hrest => ?_
      exact spanned (hrest.mono (by omega)) fun _ _ => rfl

private theorem namedMember (hn : n ≤ limit) (first first' : Span)
    (h : Beside more n tokens others) :
    Tracks more (n - 1) Member.unplaced (namedMember inner first)
      (namedMember inner' first')
      tokens others := by
  refine (plainKey h).bind fun key key' rest later hkey hrest => ?_
  obtain rfl : key' = key := hkey
  refine Follows.at? hrest.frontText _ ?_
  refine (skip hrest "?" (by decide)).bind fun _ _ _ _ _ hrest => ?_
  refine Follows.at? hrest.frontText _ (Follows.at? hrest.frontText _ ?_)
  refine Follows.choose rfl (fun _ => ?_) fun _ => ?_
  · refine (signature hinner (by omega) hrest).bind fun _ _ _ _ _ hrest => ?_
    exact spanned (hrest.mono (by omega)) fun _ _ => rfl
  · refine Follows.atFront hrest ":" (fun hcolon => ?_) fun _ =>
      spanned hrest fun _ _ => rfl
    have htype := hrest.later (.of_text hcolon (by decide))
    refine Follows.step ?_
    refine (hinner (by omega) htype).bind
      fun declared declared' _ _ hdeclared hrest => ?_
    refine spanned (hrest.mono (by omega)) fun _ _ => ?_
    rw [Member.unplaced, Member.unplaced, declaredUnplaced, declaredUnplaced,
      hdeclared]

private theorem member (hn : n ≤ limit) (h : Beside more n tokens others) :
    Tracks more (n - 1) Member.unplaced (member inner) (member inner') tokens
      others := by
  refine Follows.here fun first first' => ?_
  refine (skipWhile h (fun h => ?_) (.inl fun tokens htokens => ?_)).bind
    fun _ _ rest later _ h => ?_
  · rw [h.frontText]
    exact h.and_later _ Reader.startsKey
      (fun hword => .of_mem hword (by decide)) (·.startsKey)
  · rw [Bool.and_eq_true] at htokens
    exact .of_mem htokens.1 (by decide)
  refine Follows.onAhead
    (Follows.at? h.frontText _ (Follows.at? h.frontText _ ?_))
  refine Follows.choose rfl (fun _ => ?_) fun _ => ?_
  · refine (signature hinner hn h).bind fun _ _ _ _ _ hrest => ?_
    exact spanned hrest fun _ _ => rfl
  refine Follows.at? h.frontText _ ?_
  refine Follows.choose ?_ (fun hnew => ?_) fun _ => ?_
  · exact h.and_later _ (fun later => frontText later = "(" ||
      frontText later = "<")
      (fun hnew => .of_text (of_decide_eq_true hnew) (by decide))
        fun hlater => by
        simp only [hlater.frontText]
  · simp only [Bool.and_eq_true, decide_eq_true_eq] at hnew
    have hlater := h.later (.of_text hnew.1 (by decide))
    refine Follows.step ?_
    refine (signature hinner (by omega) hlater).bind fun _ _ _ _ _ hrest => ?_
    exact spanned (hrest.mono (by omega)) fun _ _ => rfl
  have haccess : (frontText rest = "get" || frontText rest = "set") →
      Ongoing rest := by
    simp only [Bool.or_eq_true, decide_eq_true_eq]
    exact fun h => h.elim (.of_text · (by decide)) (.of_text · (by decide))
  refine Follows.at? h.frontText _ (Follows.at? h.frontText _ ?_)
  refine Follows.choose (h.and_later _ Reader.startsKey haccess (·.startsKey))
    (fun hboth => ?_) fun _ => ?_
  · rw [Bool.and_eq_true] at hboth
    have hlater := h.later (haccess hboth.1)
    refine Follows.step ?_
    refine (accessorKey hlater).bind fun key key' _ _ hkey hrest => ?_
    refine (signature hinner (by omega) hrest).bind fun _ _ _ _ _ hrest => ?_
    exact spanned (hrest.mono (by omega)) fun _ _ => by
      simp [Member.unplaced, MemberForm.unplaced, hkey]
  · exact Follows.atFront h "["
      (fun hfront => bracketedMember hinner hn first first' hfront h)
      fun _ => namedMember hinner hn first first' h

omit hinner in
private theorem memberTail_exhausted {opener : Span}
    (hnil :
      tokens.drop
      (runLength (fun tokens => frontText tokens = ";" || frontText tokens =
        ",") tokens) = []) :
    Leaves (memberTail inner opener bound) tokens fun _ _ => False := by
  cases bound with
  | zero => exact Leaves.throw
  | succ bound =>
      have hskip :
          Leaves (Reader.skipWhile fun tokens => frontText tokens = ";" ||
            frontText tokens = ",") tokens
          fun _ rest => rest = [] :=
        Leaves.onAhead
          ((Leaves.advanceBy _).imp fun _ _ hrest => hrest.trans hnil)
      refine hskip.bind ?_
      rintro _ _ rfl
      refine Leaves.atFront "\x7d" (fun hfront => ?_) fun _ =>
        Leaves.onAhead Leaves.throw
      exact absurd hfront (by decide)

private theorem memberTail (hn : n ≤ limit) (opener opener' : Span)
    (h : Beside more n tokens others) (hbound : n + 1 ≤ bound)
    (hbound' : n + 1 + more.length ≤ bound') :
    Tracks more n (List.map Member.unplaced) (memberTail inner opener bound)
      (memberTail inner' opener' bound') tokens others := by
  induction bound generalizing n bound' tokens others with
  | zero => omega
  | succ bound ih =>
      by_cases hnil : tokens.drop (runLength
        (fun tokens => frontText tokens = ";" || frontText tokens = ",")
          tokens) = []
      · exact Follows.of_lost (memberTail_exhausted hnil)
      obtain ⟨bound', rfl⟩ :=
        Nat.exists_eq_add_of_le'
          (Nat.le_of_add_left_le (Nat.le_of_add_right_le hbound'))
      refine (skipWhile h (fun h => ?_) (.inr hnil)).bind
        fun _ _ rest later _ h => ?_
      · simp only [h.frontText]
      refine Follows.atFront h "\x7d" (fun hfront => ?_) fun _ =>
        Follows.onAhead ?_
      · exact Follows.step
          (pure rfl ((h.later (.of_text hfront (by decide))).mono (by omega)))
      refine Follows.choose h.isEmpty (fun _ => Follows.throw) fun hsome => ?_
      have hpos : 0 < n :=
        (List.length_pos_iff.mpr (by simpa using hsome)).trans_le h.length_le
      refine (member hinner hn h).bind
        fun first first' rest later hfirst hrest => ?_
      have hmore {k : Nat} {rest later : List Token}
          (hrest : Beside more k rest later) (hk : k < n) :
          Tracks more n (List.map Member.unplaced)
            (Reader.memberTail inner opener bound >>=
              fun more => Pure.pure (first :: more))
            (Reader.memberTail inner' opener' bound' >>=
              fun more => Pure.pure (first' :: more)) rest later :=
        (ih (by omega) hrest (by omega) (by omega)).bind
          fun _ _ _ _ hmembers hrest =>
          pure (by simp [hfirst, hmembers]) (hrest.mono (by omega))
      refine Follows.at? hrest.frontText _ (Follows.at? hrest.frontText _ ?_)
      refine Follows.choose rfl (fun _ => ?_) fun _ => ?_
      · by_cases hlast : rest.drop 1 = []
        · refine Follows.of_lost (Leaves.advance.bind ?_)
          rintro _ _ rfl
          rw [hlast]
          exact (memberTail_exhausted rfl).bind fun _ _ => False.elim
        · exact Follows.step (hmore (hrest.tail (.inl hlast)) (by omega))
      · refine (memberMayFollow hrest).bind
          fun follows follows' rest later hfollows hrest => ?_
        refine Follows.choose hfollows (fun _ => hmore hrest (by omega))
          fun _ => Follows.failed

theorem members (hn : n ≤ limit + 1) (h : Beside more n tokens others) :
    Tracks more (n - 1) (List.map Member.unplaced) (members inner)
      (members inner') tokens others := by
  refine (expect h _ _ (by decide)).bind
    fun opener opener' rest later _ hrest => ?_
  have hlength := hrest.length_le
  refine Follows.remaining
    ((memberTail hinner (by omega) opener opener' hrest.exact (Nat.le_refl _)
      ?_).mono hlength)
  have := hrest.length
  omega

/-! ## Operands -/

private theorem worded (hn : n ≤ limit + 1) (hword : frontIsWord tokens)
    (h : Beside more n tokens others) :
    Tracks more (n - 1) TypeNode.unplaced (worded inner) (worded inner') tokens
      others := by
  have hon : Ongoing tokens := .of_word hword
  have hlater := h.later hon
  refine Follows.here fun first first' => Follows.textAt 0 (Follows.textAt 1 ?_)
  rw [List.drop_zero, List.drop_zero, h.frontText, hlater.frontText]
  refine Follows.choose rfl (fun _ => Follows.step (pure rfl hlater))
    fun _ => ?_
  refine operandFollows h fun follows follows' hfollows => ?_
  rw [hfollows hon]
  refine Follows.choose rfl (fun _ => ?_) fun _ =>
    Follows.choose rfl (fun himport => ?_) fun _ => ?_
  · refine Follows.step (Follows.at? hlater.frontText _ (Follows.textAt 1 ?_))
    have hmodule : (frontText (tokens.drop 1) = "import" : Bool) →
        Ongoing (tokens.drop 1) := fun h =>
      .of_text (of_decide_eq_true h) (by decide)
    refine Follows.choose ?_ (fun himport => ?_) fun _ => ?_
    · exact hlater.and_later _ (fun later => frontText later = "(") hmodule
        fun h => by
        simp only [h.frontText]
    · simp only [Bool.and_eq_true, decide_eq_true_eq] at himport
      refine (moduleTail hlater (.of_text himport.1 (by decide))
        (.of_text himport.2 (by decide))).bind fun _ _ _ _ _ hrest => ?_
      refine (skippedArguments hrest).bind fun _ _ _ _ _ hrest => ?_
      exact spanned (hrest.mono (by omega)) fun _ _ => rfl
    · refine (dottedName hlater).discard.bind fun _ _ _ _ _ hrest => ?_
      refine (skippedArguments hrest).bind fun _ _ _ _ _ hrest => ?_
      exact spanned (hrest.mono (by omega)) fun _ _ => rfl
  · simp only [Bool.and_eq_true, decide_eq_true_eq] at himport
    refine (moduleTail h hon (.of_text himport.2 (by decide))).bind
      fun _ _ _ _ _ hrest => ?_
    refine (skippedArguments hrest).bind fun _ _ _ _ _ hrest => ?_
    exact spanned hrest fun _ _ => rfl
  refine Follows.choose rfl (fun _ => Follows.step (pure rfl hlater))
    fun _ => ?_
  refine (dottedName h).bind fun name name' rest later hname hrest =>
    Follows.onAhead ?_
  obtain rfl : name' = name := hname
  cases rest with
  | nil =>
      obtain ⟨rfl, -⟩ := hrest.of_nil
      exact spanned hrest fun _ _ => rfl
  | cons token rest =>
      obtain ⟨span, later, rfl⟩ := hrest.of_cons
      refine Follows.choose rfl (fun hopens => ?_) fun _ =>
        spanned hrest fun _ _ => rfl
      simp only [Bool.and_eq_true, decide_eq_true_eq] at hopens
      have hgiven := hrest.later (.of_text hopens.1 (by decide))
      refine Follows.step (Follows.remaining ?_)
      have hlength := hgiven.length
      have hle := hgiven.length_le
      refine (arguments hinner (by omega) hgiven.exact (Nat.le_refl _)
        (by omega)).bind fun given given' _ _ hgiven hrest => ?_
      refine spanned (hrest.mono (by omega)) fun _ _ => ?_
      simp [TypeNode.unplaced, nodesUnplaced_eq, hgiven]

private theorem symbolic (hn : n ≤ limit + 1) {token : Token}
    {rest later : List Token} (hkind : token.kind = .symbol) (span : Span)
    (h : Beside more n (token :: rest) ({ token with span := span } :: later)) :
    Tracks more (n - 1) TypeNode.unplaced
      (symbolic inner token.span token.text rest)
      (symbolic inner' span token.text later) (token :: rest)
        ({ token with span := span } :: later) := by
  have hfront : frontText (token :: rest) = token.text := by
    simp [frontText, Token.syntacticText, hkind]
  have hplain (hnone : negated? token.text rest = none)
      (hnone' : negated? token.text later = none) :
      Tracks more (n - 1) TypeNode.unplaced
        (Reader.symbolic inner token.span token.text rest)
        (Reader.symbolic inner' span token.text later) (token :: rest)
          ({ token with span := span } :: later) := by
    unfold Reader.symbolic
    rw [hnone, hnone']
    refine Follows.ite Iff.rfl (fun hopens => ?_) fun _ => ?_
    · have hinside := h.later (.of_text (hfront.trans hopens) (by decide))
      refine Follows.step ?_
      refine (hinner (by omega) hinside).bind
        fun type type' _ _ htype hrest => ?_
      refine (expect hrest _ _ (by decide)).discard.bind
        fun _ _ _ _ _ hrest => ?_
      refine spanned (hrest.mono (by omega)) fun _ _ => ?_
      rw [TypeNode.unplaced, TypeNode.unplaced, htype]
    refine Follows.ite Iff.rfl (fun hopens => ?_) fun _ => ?_
    · have hinside := h.later (.of_text (hfront.trans hopens) (by decide))
      have hlength := hinside.length
      have hle := hinside.length_le
      refine Follows.step
        (Follows.remaining
          ((elements hinner (by omega) hinside.exact (Nat.le_refl _)
        (by omega)).bind fun types types' _ _ htypes hrest => ?_))
      refine spanned (hrest.mono hle) fun _ _ => ?_
      simp [TypeNode.unplaced, nodesUnplaced_eq, htypes]
    refine Follows.ite Iff.rfl (fun hopens => ?_) fun _ => Follows.fail
    have hbrace := hfront.trans hopens
    refine Follows.onAhead ?_
    refine Follows.choose (startsMapped_beside h hbrace) (fun _ => ?_)
      fun _ => ?_
    · exact (group h (.of_text hbrace (by decide))).bind fun _ _ _ _ _ hrest =>
        pure rfl hrest
    · refine (members hinner hn h).bind fun list list' _ _ hlist hrest => ?_
      refine spanned hrest fun _ _ => ?_
      simp [TypeNode.unplaced, membersUnplaced_eq, hlist]
  by_cases hminus : token.text = "-"
  · have hdigits := h.later (.of_text (hfront.trans hminus) (by decide))
    cases rest with
    | nil =>
        obtain rfl : later = [] := hdigits.of_nil.1
        exact hplain rfl rfl
    | cons digits rest =>
        obtain ⟨place, later, rfl⟩ := hdigits.of_cons
        by_cases hnumeral : digits.kind = .numeral
        · have hsome (digits : Token) (tokens : List Token)
              (hnumeral : digits.kind = .numeral) :
              negated? token.text (digits :: tokens) = some digits := by
                simp [negated?, hminus, hnumeral]
          unfold Reader.symbolic
          rw [hsome digits rest hnumeral,
            hsome { digits with span := place } later hnumeral]
          refine Follows.step (Follows.step ?_)
          exact (numeral (hdigits.later (.of_kind (by simp [hnumeral])))
            _ _ _ _).mono (Nat.sub_le _ _)
        · exact hplain (by simp [negated?, hnumeral])
            (by simp [negated?, hnumeral])
  · have hnone (tokens : List Token) : negated? token.text tokens = none := by
      cases tokens <;> simp [negated?, hminus]
    exact hplain (hnone rest) (hnone later)

private theorem primary (hn : n ≤ limit + 1) (h : Beside more n tokens others) :
    Tracks more (n - 1) TypeNode.unplaced (primary inner) (primary inner')
      tokens others := by
  refine Follows.onAhead ?_
  cases tokens with
  | nil => exact Follows.fail
  | cons token rest =>
      obtain ⟨span, later, rfl⟩ := h.of_cons
      simp only
      split
      · next hkind =>
            exact Follows.step (pure rfl (h.later (.of_kind (by simp [hkind]))))
      · next hkind =>
            exact Follows.step
              (numeral (h.later (.of_kind (by simp [hkind]))) _ _ _ _)
      · next hkind =>
            exact Follows.step (pure rfl (h.later (.of_kind (by simp [hkind]))))
      · next hkind => exact worded hinner hn (by simp [frontIsWord, hkind]) h
      · exact Follows.fail
      · next hkind => exact symbolic hinner hn hkind span h

omit hinner in
private theorem run_brackets_nil (first : Span) (bound : Nat) (type : TypeNode)
    {cursor : Cursor} (h : cursor.ahead = []) :
    (brackets inner first bound type).run cursor = .ok (type, cursor) := by
  obtain ⟨actual, lastStop, stop⟩ := cursor
  obtain rfl : actual = [] := h
  cases bound <;> rfl

private theorem brackets (hn : n ≤ limit) (first first' : Span)
    {type type' : TypeNode} (htype : type'.unplaced = type.unplaced)
    (h : Beside more n tokens others) (hbound : n ≤ bound)
    (hbound' : n + more.length ≤ bound') :
    Tracks more n TypeNode.unplaced (brackets inner first bound type)
      (brackets inner' first' bound' type') tokens others := by
  induction n generalizing bound bound' tokens others type type' with
  | zero =>
      obtain ⟨rfl, rfl⟩ := h.of_zero
      exact Follows.idle (fun _ => run_brackets_nil first bound type)
        (fun _ => run_brackets_nil first' bound' type') htype h
  | succ n ih =>
      obtain ⟨bound, bound', rfl, rfl, hbound, hbound'⟩ :=
        exists_bounds hbound hbound'
      refine Follows.onAhead ?_
      cases tokens with
      | nil =>
          obtain ⟨rfl, -⟩ := h.of_nil
          exact pure htype h
      | cons token rest =>
          obtain ⟨span, later, rfl⟩ := h.of_cons
          refine Follows.choose rfl (fun hopens => ?_) fun _ => pure htype h
          simp only [Bool.and_eq_true, decide_eq_true_eq] at hopens
          have hinside := h.later (.of_text hopens.1 (by decide))
          refine Follows.step
            (Follows.atFront hinside "]" (fun hclose => ?_) fun _ => ?_)
          · have hrest := hinside.later (.of_text hclose (by decide))
            refine Follows.step ?_
            refine Follows.spanFrom fun _ _ => ?_
            refine (ih (by omega) ?_ (hrest.mono (by omega)) hbound
              hbound').mono (Nat.le_succ n)
            rw [TypeNode.unplaced, TypeNode.unplaced, htype]
          · refine (hinner (by omega) hinside).bind
              fun index index' _ _ hindex hrest => ?_
            refine (expect hrest _ _ (by decide)).discard.bind
              fun _ _ _ _ _ hrest => ?_
            refine Follows.spanFrom fun _ _ => ?_
            refine (ih (by omega) ?_ (hrest.mono (by omega)) hbound
              hbound').mono (Nat.le_succ n)
            rw [TypeNode.unplaced, TypeNode.unplaced, htype, hindex]

theorem postfixed (hn : n ≤ limit + 1) (h : Beside more n tokens others) :
    Tracks more (n - 1) TypeNode.unplaced (postfixed inner) (postfixed inner')
      tokens others := by
  refine Follows.here fun first first' => ?_
  refine (primary hinner hn h).bind fun type type' _ _ htype hrest => ?_
  have hle := hrest.length_le
  refine Follows.remaining
    ((brackets hinner (by omega) first first' htype hrest.exact (Nat.le_refl _)
      ?_).mono hle)
  exact hrest.length.ge

end

end Tracks

end ShapeMend.Script
