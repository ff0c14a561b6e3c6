import ShapeMend.Proofs.Script.BalancedScripts
import ShapeMend.Proofs.Script.NestedTracks
import ShapeMend.Proofs.Script.Prefixes

/-!
# Items with more tokens behind

An item is the same with more tokens behind, and what comes after it is read
on.  The semicolon at the end of the tokens may belong to the last item, so that
item can leave nothing but the tokens behind.
-/

namespace ShapeMend.Script

open ShapeMend.Text Reader

/-! ## Declarations -/

namespace Tracks

variable {more tokens others : List Token} {n bound bound' : Nat}

private theorem typeAfter (word : String) (hword : word ≠ ";")
    (h : Beside more n tokens others) :
    Tracks more n (Option.map TypeNode.unplaced) (typeAfter word)
      (typeAfter word) tokens others := by
  refine Follows.atFront h word (fun hfront => ?_) fun _ => pure rfl h
  refine Follows.step ?_
  refine (type (h.later (.of_text hfront (by simpa using hword)))).bind
    fun found found' _ _ hfound hrest => ?_
  exact pure (congrArg some hfound) (hrest.mono (by omega))

private theorem typeParameterTail (h : Beside more n tokens others)
    (hbound : n + 1 ≤ bound) (hbound' : n + 1 + more.length ≤ bound') :
    Tracks more n (List.map TypeParameter.unplaced) (typeParameterTail bound)
      (typeParameterTail bound') tokens others := by
  induction bound generalizing n bound' tokens others with
  | zero => omega
  | succ bound ih =>
      obtain ⟨bound', rfl⟩ :=
        Nat.exists_eq_add_of_le'
          (Nat.le_of_add_left_le (Nat.le_of_add_right_le hbound'))
      refine Follows.atFront h ">" (fun hfront => ?_) fun _ => ?_
      · exact Follows.step
          (pure rfl ((h.later (.of_text hfront (by decide))).mono (by omega)))
      refine (skipWhile h (fun h => ?_) (.inl fun tokens htokens => ?_)).bind
        fun _ _ _ _ _ hrest => ?_
      · rw [h.frontText]
        exact h.and_later _ frontIsWord (fun hword => .of_mem hword (by decide))
          (·.frontIsWord)
      · rw [Bool.and_eq_true] at htokens
        exact .of_mem htokens.1 (by decide)
      refine (name hrest _).bind
        fun parameter parameter' _ _ hparameter hrest => ?_
      refine (typeAfter "extends" (by decide) hrest).bind
        fun constraint constraint' _ _ hconstraint hrest => ?_
      refine (typeAfter "=" (by decide) hrest).bind
        fun fallback fallback' rest later hfallback hrest => ?_
      have hlength := hrest.length_le
      have hmore {k : Nat} {rest later : List Token}
          (hrest : Beside more k rest later) (hk : k < n)
          (hpos : 0 < n - 1) : Tracks more n (List.map TypeParameter.unplaced)
            (Reader.typeParameterTail bound >>= fun more =>
              Pure.pure (⟨parameter, constraint, fallback⟩ :: more))
            (Reader.typeParameterTail bound' >>= fun more =>
              Pure.pure (⟨parameter', constraint', fallback'⟩ :: more)) rest
                later :=
        (ih hrest (by omega) (by omega)).bind fun _ _ _ _ hparameters hrest =>
          pure (by simp [TypeParameter.unplaced, *]) (hrest.mono (by omega))
      refine Follows.atFront hrest "," (fun hcomma => ?_) fun _ =>
        Follows.atFront hrest ">" (fun hclose => ?_) fun _ => Follows.failed
      · have hshorter := length_drop_lt hcomma (by decide)
        exact Follows.step
          (hmore (hrest.later (.of_text hcomma (by decide))) (by omega)
            (by omega))
      · have hshorter := length_drop_lt hclose (by decide)
        exact hmore hrest (by omega) (by omega)

theorem typeParameters (h : Beside more n tokens others) :
    Tracks more n (List.map TypeParameter.unplaced) typeParameters
      typeParameters tokens others := by
  refine Follows.atFront h "<" (fun hfront => ?_) fun _ => pure rfl h
  have hinside := h.later (.of_text hfront (by decide))
  have hle := hinside.length_le
  refine Follows.step
    (Follows.remaining
      ((typeParameterTail hinside.exact (Nat.le_refl _) ?_).mono (by omega)))
  have := hinside.length
  omega

private theorem parents (h : Beside more n tokens others) :
    Follows Stuck (Beside more n) (List.map TypeNode.unplaced) parents parents
      tokens others := by
  refine Follows.atFront h "extends" (fun hfront => ?_) fun _ =>
    Follows.pure rfl h
  have hlater := h.later (.of_text hfront (by decide))
  have hle := hlater.length_le
  have hinner : NestedTracks Stuck more (tokens.drop 1).length
      (nested (tokens.drop 1).length)
      (nested (others.drop 1).length) :=
        nestedTracks (Nat.le_refl _) hlater.length.ge
  refine Follows.step (Follows.remaining ?_)
  refine (Follows.separated (by decide) (fun rest hstuck => ?_)
    ?_ (fun hk h => ?_) hlater.exact (Nat.le_refl _)
    hlater.length.ge).imp (fun _ => id) fun _ _ hrest => hrest.mono (by omega)
  · rw [hstuck.1]
    decide
  · exact Leaves.remaining.look fun _ _ => NestedTracks.operand_nil _ _
  · have hle := h.length_le
    refine Follows.remaining ?_
    refine (hinner.operand (by omega) h.exact (Nat.le_refl _) h.length.ge).imp
      (fun _ => id) fun _ _ hrest => ?_
    exact hrest.mono (by omega)

private theorem interface (first first' : Span) (exported : Bool)
    (hfront : frontText tokens = "interface")
    (h : Beside more n tokens others) :
    Tracks more n InterfaceItem.unplaced (interface first exported)
      (interface first' exported) tokens others := by
  refine Follows.step ?_
  refine (name (h.later (.of_text hfront (by decide))) _).bind
    fun name name' _ _ hname hrest => ?_
  refine (typeParameters hrest).bind
    fun parameters parameters' _ _ hparameters hrest => ?_
  refine (parents hrest).seq (fun _ rest hstuck => ?_)
    fun ancestors ancestors' rest later hparents hrest => ?_
  · refine Leaves.remaining.look fun depth _ => ?_
    have hmembers : Leaves (Reader.members (nested (depth + 1))) rest fun _ _ =>
        False :=
      (Leaves.expect _ _).bind fun _ _ hopens =>
        absurd (hstuck.1.symm.trans hopens.1) (by decide)
    exact hmembers.bind fun _ _ => False.elim
  have hle := hrest.length_le
  have hlength := hrest.length
  have hinner : NestedTracks Stuck more rest.length (nested (rest.length + 1))
      (nested (later.length + 1)) :=
    nestedTracks (Nat.le_succ _) (by omega)
  refine Follows.remaining ?_
  refine (members hinner.tracks_type (Nat.le_succ _) hrest.exact).bind
    fun list list' _ _ hlist hrest => ?_
  refine Follows.spanFrom fun _ _ => pure ?_ (hrest.mono (by omega))
  simp only [InterfaceItem.unplaced, hname, hparameters, hparents, hlist]

end Tracks

/-! ## Ends of items -/

def Along (more tokens others : List Token) : Prop :=
  others.map Token.unplaced = tokens.map Token.unplaced ++ more ∧
    (tokens = [] ∨ more = [] ∨ Ended tokens)

section

variable {more tokens others : List Token} {n : Nat}

theorem Beside.along (h : Beside more n tokens others) :
    Along more tokens others := ⟨h.unplaced, .inr h.ended⟩

theorem Beside.along_drop (h : Beside more n tokens others) (count : Nat)
    (hcount : count ≤ tokens.length) :
    Along more (tokens.drop count) (others.drop count) := by
  refine ⟨?_, ?_⟩
  · rw [List.map_drop, h.unplaced,
      List.drop_append_of_le_length (by simpa using hcount), List.map_drop]
  · by_cases hnil : tokens.drop count = []
    · exact .inl hnil
    · exact .inr (h.drop hcount fun hdrop => absurd hdrop hnil).ended

private theorem aliasEnd_along (h : Beside more n tokens others) :
    Follows (fun _ => False) (Along more) unseen aliasEnd aliasEnd tokens
      others := by
  refine Follows.onAhead ?_
  cases tokens with
  | nil =>
      obtain ⟨rfl, -⟩ := h.of_nil
      exact Follows.pure rfl h.along
  | cons token rest =>
      obtain ⟨span, later, rfl⟩ := h.of_cons
      refine Follows.ite Iff.rfl (fun _ => Follows.advance.imp (fun _ => id) ?_)
        fun _ => ?_
      · rintro _ _ ⟨rfl, rfl⟩
        exact h.along_drop 1 (by simp)
      · exact Follows.choose rfl (fun _ => Follows.pure rfl h.along) fun _ =>
          Follows.fail

private theorem aliasItem_along (first first' : Span) (exported : Bool)
    (hfront : frontText tokens = "type") (h : Beside more n tokens others) :
    Follows (fun _ => False) (Along more) AliasItem.unplaced
      (aliasItem first exported)
      (aliasItem first' exported) tokens others := by
  refine Follows.step ?_
  refine (Tracks.name (h.later (.of_text hfront (by decide))) _).bind
    fun name name' _ _ hname hrest => ?_
  refine (Tracks.typeParameters hrest).bind
    fun parameters parameters' _ _ hparameters hrest => ?_
  refine (Tracks.expect hrest _ _ (by decide)).discard.bind
    fun _ _ _ _ _ hrest => ?_
  refine (Tracks.type hrest).bind fun type type' _ _ htype hrest => ?_
  refine (aliasEnd_along hrest).bind fun _ _ _ _ _ hrest => ?_
  refine Follows.spanFrom fun _ _ => Follows.pure ?_ hrest
  simp only [AliasItem.unplaced, hname, hparameters, htype]

private theorem startsStatement_beside (h : Beside more n tokens others) :
    startsStatement others = startsStatement tokens := by
  unfold startsStatement
  simp only [h.frontText]
  refine h.and_later _ (fun later =>
    !(frontText tokens = "type" || frontText tokens = "interface") ||
    frontIsWord later) (fun hword => .of_mem hword (by decide)) fun hlater => ?_
  simp only [hlater.frontIsWord]

theorem statementLength_beside {stack stack' : List Token} {begun : Bool}
    {length : Nat} (hstack : stack'.map Token.text = stack.map Token.text)
    (h : Beside more n tokens others)
    (hlength : statementLength stack begun tokens = .ok length) :
    statementLength stack' begun others = .ok length ∧
      length ≤ tokens.length := by
  induction tokens generalizing stack stack' others begun length n with
  | nil =>
      obtain ⟨rfl, -⟩ := h.of_nil
      cases stack with
      | nil =>
          obtain rfl : stack' = [] := List.map_eq_nil_iff.mp hstack
          obtain rfl : length = 0 := (Except.ok.inj hlength).symm
          exact ⟨rfl, Nat.le_refl 0⟩
      | cons opener below => cases hlength
  | cons token rest ih =>
      have hstarts := startsStatement_beside h
      obtain ⟨span, later, rfl⟩ := h.of_cons
      have hempty : stack'.isEmpty = stack.isEmpty := by
        rw [← List.isEmpty_map (f := Token.text), hstack, List.isEmpty_map]
      have htext : ({ token with span := span } : Token).syntacticText =
          token.syntacticText := rfl
      rw [statementLength] at hlength ⊢
      simp only [hempty, hstarts, htext]
      by_cases hnext : begun && stack.isEmpty && token.breakBefore &&
        startsStatement (token :: rest)
      · rw [if_pos hnext] at hlength ⊢
        obtain rfl : length = 0 := (Except.ok.inj hlength).symm
        exact ⟨rfl, Nat.zero_le _⟩
      rw [if_neg hnext] at hlength ⊢
      obtain ⟨within, hwithin, hlength⟩ := SyntaxError.bind_eq_ok.mp hlength
      obtain ⟨within', hwithin', hsame⟩ :=
        Bracket.track_texts { token with span := span } hstack hwithin rfl rfl
      rw [hwithin']
      by_cases hends : token.syntacticText = ";" && stack.isEmpty
      · rw [if_pos hends] at hlength
        obtain rfl : length = 1 := (Except.ok.inj hlength).symm
        exact ⟨SyntaxError.bind_eq_ok.mpr ⟨_, rfl, if_pos hends⟩, by simp⟩
      rw [if_neg hends] at hlength
      obtain ⟨m, hm, rfl⟩ := Bracket.bind_succ_eq_ok.mp hlength
      have hrest : rest ≠ [] ∨ Ongoing (token :: rest) := by
        by_cases hsemicolon : token.kind = .symbol ∧ token.text = ";"
        · refine .inl ?_
          rintro rfl
          obtain rfl : stack = within :=
            Except.ok.inj
              ((Bracket.track_semicolon stack hsemicolon.1
                hsemicolon.2).symm.trans hwithin)
          have hinside : stack ≠ [] := by
            rintro rfl
            exact hends (by simp [Token.syntacticText, hsemicolon])
          cases stack with
          | nil => exact hinside rfl
          | cons opener below => cases hm
        · refine .inr ?_
          refine .cons fun hkind => ?_
          exact decide_eq_true fun htext => hsemicolon ⟨hkind, htext⟩
      obtain ⟨hm', hle⟩ := ih hsame (h.tail hrest) hm
      refine ⟨SyntaxError.bind_eq_ok.mpr ⟨_, rfl, (if_neg hends).trans ?_⟩,
        Nat.succ_le_succ hle⟩
      exact Bracket.bind_succ_eq_ok.mpr ⟨m, hm', rfl⟩

private theorem opaqueItem_along (first first' : Span)
    (h : Beside more n tokens others) :
    Follows (fun _ => False) (Along more) Item.unplaced (opaqueItem first)
      (opaqueItem first') tokens others := by
  refine Follows.onAhead ?_
  refine Follows.lift fun length hlength => ?_
  obtain ⟨hsame, hle⟩ := statementLength_beside rfl h hlength
  refine ⟨hsame, (Follows.advanceBy length).bind ?_⟩
  rintro _ _ _ _ - ⟨rfl, rfl⟩
  exact Follows.spanFrom fun _ _ => Follows.pure rfl (h.along_drop length hle)

private theorem itemModifiers_beside (afterExport : Bool)
    (h : Beside more n tokens others) :
    itemModifiers afterExport others = itemModifiers afterExport tokens ∧
      Beside more n (tokens.drop (itemModifiers afterExport tokens).2)
        (others.drop (itemModifiers afterExport tokens).2) := by
  induction tokens generalizing others afterExport with
  | nil =>
      obtain ⟨rfl, -⟩ := h.of_nil
      exact ⟨rfl, h⟩
  | cons token rest ih =>
      obtain ⟨span, later, rfl⟩ := h.of_cons
      have hdeclare :
          (token.syntacticText = "declare" && frontIsWordOnLine later) =
          (token.syntacticText = "declare" && frontIsWordOnLine rest) :=
        h.and_later _ frontIsWordOnLine
          (fun hword => .of_text (of_decide_eq_true hword) (by decide))
          (·.frontIsWordOnLine)
      have hmore (afterExport : Bool) (hon : Ongoing (token :: rest)) :=
        @ih later afterExport ((h.later hon).mono (Nat.sub_le n 1))
      have htext : ({ token with span := span } : Token).syntacticText =
          token.syntacticText := rfl
      rw [itemModifiers, itemModifiers]
      simp only [htext, hdeclare]
      by_cases hexport : token.syntacticText = "export"
      · obtain ⟨hsame, hrest⟩ := hmore true (.of_text hexport (by decide))
        rw [if_pos hexport, if_pos hexport, hsame]
        exact ⟨rfl, hrest⟩
      rw [if_neg hexport, if_neg hexport]
      by_cases hmodifier : afterExport && token.syntacticText = "default" ||
          token.syntacticText = "declare" && frontIsWordOnLine rest
      · have hon : Ongoing (token :: rest) := by
          simp only [Bool.or_eq_true, Bool.and_eq_true, decide_eq_true_eq]
            at hmodifier
          exact hmodifier.elim (fun h => .of_text h.2 (by decide)) fun h =>
            .of_text h.1 (by decide)
        obtain ⟨hsame, hrest⟩ := hmore false hon
        rw [if_pos hmodifier, if_pos hmodifier, hsame]
        exact ⟨rfl, hrest⟩
      · rw [if_neg hmodifier, if_neg hmodifier]
        exact ⟨rfl, h⟩

private theorem item_along (h : Beside more n tokens others) :
    Follows (fun _ => False) (Along more) Item.unplaced item item tokens
      others := by
  refine Follows.here fun first first' => Follows.onAhead ?_
  obtain ⟨hmodifiers, hbehind⟩ := itemModifiers_beside false h
  rw [hmodifiers]
  generalize itemModifiers false tokens = modifiers at hbehind ⊢
  obtain ⟨exported, count⟩ := modifiers
  have hskipped {reader reader' : Reader Item}
      (hreader : Follows (fun _ => False) (Along more) Item.unplaced
      reader reader' (tokens.drop count) (others.drop count)) :
        Follows (fun _ => False) (Along more) Item.unplaced
        (Reader.advanceBy count >>= fun _ => reader)
          (Reader.advanceBy count >>= fun _ => reader') tokens others := by
    refine (Follows.advanceBy count).bind ?_
    rintro _ _ _ _ - ⟨rfl, rfl⟩
    exact hreader
  refine Follows.choose ?_ (fun hinterface => ?_) fun _ =>
    Follows.choose ?_ (fun htype => ?_) fun _ => ?_
  · simp only [hbehind.frontText]
    exact hbehind.and_later _ frontIsWord
      (fun hword => .of_text (of_decide_eq_true hword) (by decide))
      (·.frontIsWord)
  · simp only [Bool.and_eq_true, decide_eq_true_eq] at hinterface
    refine hskipped ?_
    refine (Tracks.interface first first' exported hinterface.1 hbehind).bind
      fun item item' _ _ hitem hrest => ?_
    exact Follows.pure (congrArg Item.interface hitem) hrest.along
  · simp only [hbehind.frontText, Bool.and_assoc]
    refine hbehind.and_later _ (fun later => frontIsWord later &&
      (frontText (later.drop 1) = "=" ||
      frontText (later.drop 1) = "<")) (fun hword => ?_) fun hlater => ?_
    · exact .of_text (of_decide_eq_true hword) (by decide)
    · rw [hlater.frontIsWord]
      exact hlater.and_later _ (fun later => frontText later = "=" ||
        frontText later = "<") .of_word
        fun hlast => by simp only [hlast.frontText]
  · simp only [Bool.and_eq_true, decide_eq_true_eq] at htype
    refine hskipped ?_
    refine (aliasItem_along first first' exported htype.1.1 hbehind).bind
      fun item item' _ _ hitem hrest => ?_
    exact Follows.pure (congrArg Item.typeAlias hitem) hrest
  · exact opaqueItem_along first first' h

end

/-! ## Items in a row -/

section

variable {cursor : Cursor} {bound : Nat}

theorem run_items_nil (hnil : cursor.ahead = []) :
    (items (bound + 1)).run cursor = .ok ([], cursor) := by
  obtain ⟨actual, lastStop, stop⟩ := cursor
  obtain rfl : actual = [] := hnil
  rfl

theorem run_items_cons (hne : cursor.ahead ≠ []) :
    (items (bound + 1)).run cursor =
    (if frontText cursor.ahead = ";" then Reader.advance >>=
      fun _ => items bound
      else
        item >>= fun first => items bound >>= fun more =>
          pure (first :: more)).run cursor := by
  obtain ⟨actual, lastStop, stop⟩ := cursor
  cases actual with
  | nil => exact absurd rfl hne
  | cons token rest =>
      change StateT.run
        (if decide (frontText (token :: rest) = ";") = true then _ else _) _ = _
      simp only [decide_eq_true_eq]

theorem run_items_cases {next : Cursor} {found : List Item}
    (hne : cursor.ahead ≠ [])
    (hrun : (items (bound + 1)).run cursor = .ok (found, next)) :
    (frontText cursor.ahead = ";" ∧ ∃ middle,
      Reader.advance.run cursor = .ok ((), middle) ∧
      (items bound).run middle = .ok (found, next)) ∨
    (frontText cursor.ahead ≠ ";" ∧ ∃ first middle rest,
      item.run cursor = .ok (first, middle) ∧
      (items bound).run middle = .ok (rest, next) ∧ found = first :: rest) := by
  rw [run_items_cons hne] at hrun
  split at hrun
  · next hfront =>
      rw [StateT.run_bind] at hrun
      obtain ⟨⟨_, middle⟩, hadvance, hrest⟩ := SyntaxError.bind_eq_ok.mp hrun
      exact .inl ⟨hfront, middle, hadvance, hrest⟩
  · next hfront =>
      rw [StateT.run_bind] at hrun
      obtain ⟨⟨first, middle⟩, hitem, hmore⟩ := SyntaxError.bind_eq_ok.mp hrun
      rw [StateT.run_bind] at hmore
      obtain ⟨⟨rest, last⟩, hrest, hdone⟩ := SyntaxError.bind_eq_ok.mp hmore
      obtain ⟨rfl, rfl⟩ := Prod.mk.inj (Except.ok.inj hdone)
      exact .inr ⟨hfront, first, middle, rest, hitem, hrest, rfl⟩

end

def ItemsOf (tokens : List Token) (items : List Item) : Prop :=
  ∀ bound, tokens.length < bound →
    Reads (Reader.items bound) tokens [] (·.map Item.unplaced = items)

private theorem itemsOf_nil : ItemsOf [] [] := by
  intro bound hbound cursor hahead
  obtain ⟨bound, rfl⟩ := Nat.exists_eq_add_of_le' hbound
  exact ⟨[], cursor, run_items_nil (List.map_eq_nil_iff.mp hahead), hahead, rfl⟩

/-- The items of tokens that end with a semicolon are followed by the items
behind it. -/
theorem itemsOf_append {more : List Token} {later : List Item}
    (hmore : ItemsOf more later) {bound : Nat} {start next : Cursor}
    {found : List Item}
    (hended : start.ahead = [] ∨ more = [] ∨ Ended start.ahead)
    (hbound : start.ahead.length < bound)
    (hrun : (items bound).run start = .ok (found, next)) :
    ItemsOf (start.ahead.map Token.unplaced ++ more)
      (found.map Item.unplaced ++ later) := by
  induction bound generalizing start found with
  | zero => omega
  | succ bound ih =>
      by_cases hnil : start.ahead = []
      · rw [run_items_nil hnil] at hrun
        obtain ⟨rfl, -⟩ := Prod.mk.inj (Except.ok.inj hrun)
        rwa [hnil]
      have hcases := run_items_cases hnil hrun
      intro bound' hbound' cursor hcursor
      have hbeside : Beside more start.ahead.length start.ahead cursor.ahead :=
        ⟨hcursor, hended.resolve_left hnil, Nat.le_refl _⟩
      have hsome : cursor.ahead ≠ [] := by
        have := hbeside.length
        have := List.length_pos_iff.mpr hnil
        exact List.length_pos_iff.mp (by omega)
      obtain ⟨bound', rfl⟩ :=
        Nat.exists_eq_add_of_le' (Nat.lt_of_le_of_lt (Nat.zero_le _) hbound')
      rw [List.length_append, List.length_map] at hbound'
      have hbehind {middle middle' : Cursor}
          (halong : Along more middle.ahead middle'.ahead)
          (hshorter : middle.ahead.length < start.ahead.length)
            {rest : List Item}
          (hrest : (items bound).run middle = .ok (rest, next)) : ∃ rest' last,
            (items bound').run middle' = .ok (rest', last) ∧
              last.ahead.map Token.unplaced = [] ∧
              rest'.map Item.unplaced = rest.map Item.unplaced ++ later := by
        refine ih halong.2 (by omega) hrest bound' ?_ middle' halong.1
        rw [List.length_append, List.length_map]
        omega
      rw [run_items_cons hsome, hbeside.frontText]
      rcases hcases with ⟨hfront, middle, hadvance, hrest⟩ |
        ⟨hfront, first, middle, rest, hitem, hrest, rfl⟩
      · rw [if_pos hfront, StateT.run_bind]
        have hboth : Follows (fun _ => False) _ id advance advance start.ahead
            cursor.ahead := Follows.advance
        obtain ⟨_, middle', hadvance', -, hmiddle, hmiddle'⟩ :=
          (hboth start cursor _ _ rfl rfl hadvance).resolve_left id
        have halong := hbeside.along_drop 1 (List.length_pos_iff.mpr hnil)
        rw [← hmiddle, ← hmiddle'] at halong
        have hshorter : middle.ahead.length < start.ahead.length := by
          rw [hmiddle]
          exact length_drop_lt hfront (by decide)
        obtain ⟨rest', last, hrest', hlast, hitems⟩ :=
          hbehind halong hshorter hrest
        exact ⟨rest', last, SyntaxError.bind_eq_ok.mpr ⟨_, hadvance', hrest'⟩,
          hlast, hitems⟩
      · rw [if_neg hfront, StateT.run_bind]
        obtain ⟨first', middle', hitem', hfirst, halong⟩ :=
          (item_along hbeside start cursor _ _ rfl rfl hitem).resolve_left id
        have hshorter := (Consumes.item hnil start first middle rfl hitem).2
        obtain ⟨rest', last', hrest', hlast, hitems⟩ :=
          hbehind halong hshorter hrest
        refine ⟨first' :: rest', last',
          SyntaxError.bind_eq_ok.mpr ⟨_, hitem', ?_⟩, hlast, ?_⟩
        · exact SyntaxError.bind_eq_ok.mpr ⟨_, hrest', rfl⟩
        · simp [hfirst, hitems]

/-! ## Line feeds before the first item -/

section

variable {token : Token} {rest : List Token} {lastStop bound : Nat}
  {stop : Position} {next : Cursor}

private theorem statementLength_break {length : Nat} (broken : Bool)
    (h : statementLength [] false (token :: rest) = .ok length) :
    statementLength [] false ({ token with breakBefore := broken } :: rest) =
      .ok length := by
  rw [statementLength] at h ⊢
  simp only [Bool.false_and, Bool.false_eq_true, if_false] at h ⊢
  obtain ⟨within, hwithin, h⟩ := SyntaxError.bind_eq_ok.mp h
  obtain ⟨within', hwithin', hsame⟩ :=
    Bracket.track_texts { token with breakBefore := broken }
      (List.map_nil (f := Token.text)) hwithin rfl rfl
  refine SyntaxError.bind_eq_ok.mpr ⟨within', hwithin', ?_⟩
  by_cases hends : token.syntacticText = ";" && ([] : List Token).isEmpty
  · exact (if_pos hends).trans ((if_pos hends).symm.trans h)
  · rw [if_neg hends] at h
    obtain ⟨m, hm, rfl⟩ := Bracket.bind_succ_eq_ok.mp h
    have hm' := (statementLength_beside hsame (.refl rest) hm).1
    exact (if_neg hends).trans (Bracket.bind_succ_eq_ok.mpr ⟨m, hm', rfl⟩)

private theorem run_onFront {α β : Type} {reader : Reader α}
    {next : α → Reader β} {cursor : Cursor} {value : α}
    (h : reader.run cursor = .ok (value, cursor)) :
    (reader >>= next).run cursor = (next value).run cursor := by
  rw [StateT.run_bind, h]
  rfl

private theorem run_item_break {value : Item} (broken : Bool)
    (h : item.run ⟨token :: rest, lastStop, stop⟩ = .ok (value, next)) :
    item.run ⟨{ token with breakBefore := broken } :: rest, lastStop, stop⟩ =
      .ok (value, next) := by
  have hmods :
      itemModifiers false ({ token with breakBefore := broken } :: rest) =
    itemModifiers false (token :: rest) := by
    rw [itemModifiers, itemModifiers]
    rfl
  have hhere (token : Token) : here.run ⟨token :: rest, lastStop, stop⟩ =
      .ok (token.span, ⟨token :: rest, lastStop, stop⟩) := rfl
  have hahead (token : Token) :
      Reader.ahead.run ⟨token :: rest, lastStop, stop⟩ =
      .ok (token :: rest, ⟨token :: rest, lastStop, stop⟩) := rfl
  unfold item at h ⊢
  rw [run_onFront (hhere _), run_onFront (hahead _)] at h ⊢
  rw [hmods]
  generalize itemModifiers false (token :: rest) = modifiers at h ⊢
  obtain ⟨exported, count⟩ := modifiers
  have hfront :
      frontText (({ token with breakBefore := broken } :: rest).drop count) =
      frontText ((token :: rest).drop count) := by cases count <;> rfl
  have hlater :
      (({ token with breakBefore := broken } :: rest).drop count).drop 1 =
      ((token :: rest).drop count).drop 1 := by cases count <;> rfl
  simp only [hfront, hlater] at h ⊢
  split at h
  · next hinterface =>
      rw [if_pos hinterface]
      cases count <;> exact h
  next hother =>
  rw [if_neg hother]
  split at h
  · next htype =>
      rw [if_pos htype]
      cases count <;> exact h
  · next hplain =>
      rw [if_neg hplain]
      rw [opaqueItem, run_onFront (hahead _)] at h ⊢
      cases hlength : statementLength [] false (token :: rest) with
      | error error =>
          rw [hlength] at h
          cases h
      | ok length =>
          rw [hlength] at h
          rw [statementLength_break broken hlength]
          obtain ⟨m, rfl⟩ :=
            Nat.exists_eq_add_of_le'
              (statementLength_pos (List.cons_ne_nil _ _) hlength)
          exact h

private theorem run_items_afterBreak {tokens : List Token} {found : List Item}
    (broken : Bool)
    (h : (items (bound + 1)).run ⟨tokens, lastStop, stop⟩ = .ok (found, next)) :
    (items (bound + 1)).run ⟨Token.afterBreak broken tokens, lastStop, stop⟩ =
      .ok (found, next) := by
  cases tokens with
  | nil => exact h
  | cons token rest =>
      rw [run_items_cons (List.cons_ne_nil _ _)] at h
      rw [Token.afterBreak, run_items_cons (List.cons_ne_nil _ _)]
      change StateT.run (if frontText (token :: rest) = ";" then _ else _) _ = _
      by_cases hfront : frontText (token :: rest) = ";"
      · rw [if_pos hfront] at h
        rwa [if_pos hfront]
      · rw [if_neg hfront, StateT.run_bind] at h
        obtain ⟨⟨first, middle⟩, hfirst, hmiddle⟩ := SyntaxError.bind_eq_ok.mp h
        rw [if_neg hfront, StateT.run_bind]
        exact SyntaxError.bind_eq_ok.mpr ⟨_, run_item_break _ hfirst, hmiddle⟩

end

theorem TokenStream.exists_run_of_items {stream : TokenStream}
    {found : List Item} (h : stream.items = .ok found) :
    ∃ next, (Reader.items (stream.tokens.length + 1)).run
      ⟨stream.tokens, 0, stream.stop⟩ = .ok (found, next) := by
  rw [TokenStream.items, StateT.run'_eq] at h
  cases hrun : (Reader.items (stream.tokens.length + 1)).run
    ⟨stream.tokens, 0, stream.stop⟩ with
  | error error =>
      rw [hrun] at h
      cases h
  | ok result =>
      rw [hrun] at h
      obtain rfl : result.1 = found := Except.ok.inj h
      exact ⟨result.2, rfl⟩

private theorem TokenStream.itemsOf {stream : TokenStream} {found : List Item}
    (broken : Bool) (h : stream.items = .ok found) :
    ItemsOf (Token.afterBreak broken (stream.tokens.map Token.unplaced))
      (found.map Item.unplaced) := by
  obtain ⟨next, hrun⟩ := exists_run_of_items h
  have hitems :=
    itemsOf_append itemsOf_nil (.inr (.inl rfl))
      ?_ (run_items_afterBreak broken hrun)
  · have htokens : (Token.afterBreak broken stream.tokens).map Token.unplaced =
        Token.afterBreak broken (stream.tokens.map Token.unplaced) := by
          cases stream.tokens <;> rfl
    rwa [List.append_nil, List.append_nil, htokens] at hitems
  · cases stream.tokens <;> exact Nat.lt_succ_self _

/-- The items of a text that ends with a semicolon, and then those of another
text that begins on a new line. -/
theorem itemsOfText_append {text behind : List Char} {stream : TokenStream}
    {first second : List Item} (hstream : TokenStream.ofText text = .ok stream)
    (hended : Ended stream.tokens) (hplain : ¬ ['#', '!'] <+: behind)
    (hfirst : itemsOfText text = .ok first)
    (hsecond : itemsOfText behind = .ok second) :
    ∃ joined, itemsOfText (text ++ '\n' :: behind) = .ok joined ∧
      joined.map Item.unplaced = first.map Item.unplaced ++
        second.map Item.unplaced := by
  rw [itemsOfText, hstream] at hfirst
  obtain ⟨next, hrun⟩ := TokenStream.exists_run_of_items hfirst
  unfold itemsOfText at hsecond
  split at hsecond
  · cases hsecond
  next later hlater =>
  obtain ⟨last, hlast, hkind, htext⟩ := hended
  have hslash : slashOpensPattern (some last) := by
    simp [slashOpensPattern, hkind, htext]
  obtain ⟨joined, hjoined, htokens⟩ :=
    TokenStream.ofText_append hstream hlast hslash hplain hlater
  have hitems :=
    itemsOf_append (TokenStream.itemsOf true hsecond)
      (.inr (.inr ⟨last, hlast, hkind, htext⟩))
    (Nat.lt_succ_self _) hrun
  have hlength : (stream.tokens.map Token.unplaced ++
      Token.afterBreak true (later.tokens.map Token.unplaced)).length <
        joined.tokens.length + 1 := by
    rw [← htokens, List.length_map]
    exact Nat.lt_succ_self _
  obtain ⟨found, rest, hfound, -, hsame⟩ :=
    hitems _ hlength ⟨joined.tokens, 0, joined.stop⟩ htokens
  refine ⟨found, ?_, hsame⟩
  rw [itemsOfText, hjoined]
  change StateT.run' _ _ = _
  rw [StateT.run'_eq, hfound]
  rfl

end ShapeMend.Script
