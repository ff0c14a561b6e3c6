import ShapeMend.Proofs.Script.Tracks

/-!
# Runs in step

Two runs of a reader start in front of the same tokens, perhaps at other
places.  No reader decides anything by a place, so the runs stay in step: both
fail with the same flaw, or both succeed and have consumed equally much.
-/

namespace ShapeMend.Script

open ShapeMend.Text Reader

variable {α β γ : Type}

/-! ## The same tokens -/

theorem Token.text_of_unplaced {token other : Token}
    (h : other.unplaced = token.unplaced) : other.text = token.text :=
  (Token.mk.inj h).2.1

theorem Token.syntacticText_moved (token : Token) (span : Span) :
    ({ token with span := span } : Token).syntacticText =
      token.syntacticText := by
  rfl

def SameTokens (tokens others : List Token) : Prop :=
  others.map Token.unplaced = tokens.map Token.unplaced

namespace SameTokens

variable {tokens others : List Token}

theorem look {look : List Token → β} (h : SameTokens tokens others)
    (hlook : ∀ tokens, look (tokens.map Token.unplaced) = look tokens) :
    look others = look tokens := by
  rw [← hlook others, h, hlook]

theorem nil : SameTokens [] [] := rfl

theorem of_nil (h : SameTokens [] others) : others = [] :=
  List.map_eq_nil_iff.mp h

theorem of_cons {token : Token} {rest : List Token}
    (h : SameTokens (token :: rest) others) :
    ∃ span later, others = { token with span := span } :: later ∧
      SameTokens rest later := by
  obtain ⟨span, later, rfl, hlater⟩ := eq_of_map_unplaced h
  exact ⟨span, later, rfl, hlater⟩

theorem drop (h : SameTokens tokens others) (n : Nat) :
    SameTokens (tokens.drop n) (others.drop n) := by
  rw [SameTokens, List.map_drop, h, List.map_drop]

theorem length (h : SameTokens tokens others) : others.length = tokens.length :=
  h.look fun _ => List.length_map _

theorem isEmpty (h : SameTokens tokens others) :
    others.isEmpty = tokens.isEmpty :=
  h.look fun _ => List.isEmpty_map

theorem getLast? (h : SameTokens tokens others) :
    others.getLast?.map Token.unplaced =
      tokens.getLast?.map Token.unplaced := by
  rw [← List.getLast?_map, h, List.getLast?_map]

theorem frontText (h : SameTokens tokens others) :
    Script.frontText others = Script.frontText tokens :=
  h.look frontText_unplaced

theorem frontIsWord (h : SameTokens tokens others) :
    Script.frontIsWord others = Script.frontIsWord tokens :=
  h.look frontIsWord_unplaced

theorem frontIsWordOnLine (h : SameTokens tokens others) :
    Script.frontIsWordOnLine others = Script.frontIsWordOnLine tokens :=
  h.look frontIsWordOnLine_unplaced

theorem startsKey (h : SameTokens tokens others) :
    Reader.startsKey others = Reader.startsKey tokens :=
  h.look startsKey_unplaced

theorem startsMapped (h : SameTokens tokens others) :
    Reader.startsMapped others = Reader.startsMapped tokens :=
  h.look startsMapped_unplaced

private theorem startsStatement (h : SameTokens tokens others) :
    Reader.startsStatement others = Reader.startsStatement tokens := by
  unfold Reader.startsStatement
  simp only [h.frontText, (h.drop 1).frontIsWord]

private theorem runLength (h : SameTokens tokens others)
    {test : List Token → Bool}
    (htest : ∀ {tokens others},
      SameTokens tokens others → test others = test tokens) :
    Reader.runLength test others = Reader.runLength test tokens := by
  induction tokens generalizing others with
  | nil => rw [h.of_nil]
  | cons token rest ih =>
      have hsame := htest h
      obtain ⟨span, later, rfl, hlater⟩ := h.of_cons
      rw [Reader.runLength, Reader.runLength, hsame, ih hlater]

theorem itemModifiers (h : SameTokens tokens others) (afterExport : Bool) :
    Reader.itemModifiers afterExport others =
      Reader.itemModifiers afterExport tokens :=
  h.look (itemModifiers_unplaced afterExport)

end SameTokens

/-! ## Results that agree -/

def Agree (same : α → α → Prop) :
    Except SyntaxError α → Except SyntaxError α → Prop
  | .ok value, .ok other => same value other
  | .error error, .error other => other.flaw = error.flaw
  | _, _ => False

namespace Agree

variable {first second : Except SyntaxError α}

theorem bind {mid : α → α → Prop} {same : β → β → Prop}
    {next next' : α → Except SyntaxError β} (hfirst : Agree mid first second)
    (hnext : ∀ value other,
      mid value other → Agree same (next value) (next' other)) :
    Agree same (first >>= next) (second >>= next') := by
  cases first <;> cases second
  · exact hfirst
  · exact hfirst.elim
  · exact hfirst.elim
  · exact hnext _ _ hfirst

theorem eq_ok {same : α → α → Prop} {value : α} (h : Agree same first second)
    (hfirst : first = .ok value) :
    ∃ other, second = .ok other ∧ same value other := by
  subst hfirst
  cases second with
  | error => exact h.elim
  | ok other => exact ⟨other, rfl, h⟩

end Agree

/-! ## Groups -/

namespace Bracket

variable {stack stack' tokens others : List Token} {token : Token}

theorem agree_track (hstack : SameTokens stack stack') (token : Token)
    (span : Span) :
    Agree SameTokens (track stack token)
      (track stack' { token with span := span }) := by
  unfold track
  simp only
  split
  · exact hstack
  split
  · exact congrArg (token.unplaced :: ·) hstack
  split
  · cases stack with
    | nil =>
        obtain rfl := hstack.of_nil
        exact rfl
    | cons opener below =>
        obtain ⟨place, below', rfl, hbelow⟩ := hstack.of_cons
        simp only
        split
        · exact hbelow
        · exact rfl
  · exact hstack

theorem agree_succ {first second : Except SyntaxError Nat}
    (h : Agree Eq first second) :
    Agree Eq (first >>= fun n => pure (n + 1))
      (second >>= fun n => pure (n + 1)) :=
  h.bind fun _ _ hn => congrArg (· + 1) hn

theorem agree_groupLength (hstack : SameTokens stack stack')
    (h : SameTokens tokens others) :
    Agree Eq (groupLength stack tokens) (groupLength stack' others) := by
  induction tokens generalizing stack stack' others with
  | nil =>
      rw [h.of_nil, groupLength, groupLength]
      have hlast := hstack.getLast?
      cases hopener : stack.getLast? with
      | none =>
          rw [hopener, Option.map_none, Option.map_eq_none_iff] at hlast
          rw [hlast]
          rfl
      | some opener =>
          rw [hopener, Option.map_some] at hlast
          obtain ⟨opener', hopener', hsame⟩ := Option.map_eq_some_iff.mp hlast
          rw [hopener']
          exact congrArg SyntaxFlaw.unclosed (Token.text_of_unplaced hsame)
  | cons token rest ih =>
      obtain ⟨span, later, rfl, hlater⟩ := h.of_cons
      rw [groupLength, groupLength]
      refine (agree_track hstack token span).bind
        fun within within' hwithin => ?_
      rw [hwithin.isEmpty]
      split
      · exact rfl
      · exact agree_succ (ih hwithin hlater)

private theorem agree_anglesLength (opener : Token) (span : Span) (depth : Nat)
    (hstack : SameTokens stack stack') (h : SameTokens tokens others) :
    Agree Eq (anglesLength opener depth stack tokens)
      (anglesLength { opener with span := span } depth stack' others) := by
  induction tokens generalizing depth stack stack' others with
  | nil =>
      rw [h.of_nil, anglesLength, anglesLength]
      have hlast :
          (stack'.getLast?.getD { opener with span := span }).unplaced =
          (stack.getLast?.getD opener).unplaced := by
        rw [← Option.getD_map Token.unplaced, hstack.getLast?,
          ← Option.getD_map Token.unplaced]
        rfl
      exact congrArg SyntaxFlaw.unclosed (Token.text_of_unplaced hlast)
  | cons token rest ih =>
      obtain ⟨place, later, rfl, hlater⟩ := h.of_cons
      simp only [anglesLength, Token.syntacticText_moved, hstack.isEmpty]
      split
      · exact (agree_track hstack token place).bind fun _ _ hwithin =>
          agree_succ (ih depth hwithin hlater)
      split
      · exact agree_succ (ih _ .nil hlater)
      split
      · split
        · exact rfl
        · exact agree_succ (ih _ .nil hlater)
      · exact agree_succ (ih _ .nil hlater)

end Bracket

theorem Reader.agree_statementLength {stack stack' tokens others : List Token}
    (hstack : SameTokens stack stack') (begun : Bool)
    (h : SameTokens tokens others) :
    Agree Eq (statementLength stack begun tokens)
      (statementLength stack' begun others) := by
  induction tokens generalizing begun stack stack' others with
  | nil =>
      rw [h.of_nil]
      cases stack with
      | nil =>
          rw [hstack.of_nil]
          exact rfl
      | cons opener below =>
          obtain ⟨span, below', rfl, -⟩ := hstack.of_cons
          exact rfl
  | cons token rest ih =>
      have hstarts := h.startsStatement
      obtain ⟨span, later, rfl, hlater⟩ := h.of_cons
      simp only [statementLength, hstarts, Token.syntacticText_moved,
        hstack.isEmpty]
      split
      · exact rfl
      refine (Bracket.agree_track hstack token span).bind
        fun within within' hwithin => ?_
      split
      · exact rfl
      · exact Bracket.agree_succ (ih hwithin true hlater)

/-! ## Readers in step -/

def Cursor.advanced (cursor : Cursor) : Cursor :=
  match cursor.ahead with
  | [] => cursor
  | token :: rest => { cursor with ahead := rest, lastStop := token.span.stop }

theorem Cursor.ahead_advanced (cursor : Cursor) :
    cursor.advanced.ahead = cursor.ahead.drop 1 := by
  unfold advanced
  split
  · next hnil => rw [hnil, List.drop_nil]
  · next hcons => rw [hcons, List.drop_one, List.tail_cons]

structure Coupling where
  related : Cursor → Cursor → Prop
  ahead {start other : Cursor} :
    related start other → SameTokens start.ahead other.ahead
  advanced {start other : Cursor} :
    related start other → related start.advanced other.advanced

variable {c : Coupling}

def Alike (c : Coupling) (same : α → α → Prop)
    (first second : Reader α) : Prop :=
  ∀ start other, c.related start other →
    Agree (fun result result' => same result.1 result'.1 ∧
      c.related result.2 result'.2)
      (first.run start) (second.run other)

abbrev InStep (c : Coupling) (first second : Reader α) : Prop :=
  Alike c (fun _ _ => True) first second

abbrev Same (view : α → γ) (value other : α) : Prop := view other = view value

namespace Alike

variable {first second : Reader α} {next next' : α → Reader β}
  {same : β → β → Prop}

theorem pure {value other : β} (h : same value other) :
    Alike c same (Pure.pure value) (Pure.pure other) :=
  fun _ _ hrelated => ⟨h, hrelated⟩

theorem done (value other : β) : InStep c (Pure.pure value) (Pure.pure other) :=
  pure trivial

theorem bind {mid : α → α → Prop} (hfirst : Alike c mid first second)
    (hnext : ∀ value other,
      mid value other → Alike c same (next value) (next' other)) :
    Alike c same (first >>= next) (second >>= next') := by
  intro start other hrelated
  rw [StateT.run_bind, StateT.run_bind]
  refine (hfirst start other hrelated).bind ?_
  rintro ⟨value, after⟩ ⟨value', after'⟩ ⟨hvalue, hafter⟩
  exact hnext value value' hvalue after after' hafter

theorem step {mid : α → α → Prop} (hfirst : Alike c mid first second)
    (hnext : ∀ value other, Alike c same (next value) (next' other)) :
    Alike c same (first >>= next) (second >>= next') :=
  hfirst.bind fun value other _ => hnext value other

theorem both (hfirst : Alike c Eq first second)
    (hnext : ∀ value, Alike c same (next value) (next' value)) :
    Alike c same (first >>= next) (second >>= next') := by
  refine hfirst.bind ?_
  rintro value _ rfl
  exact hnext value

theorem lift {first second : Except SyntaxError β}
    (h : Agree same first second) :
    Alike c same (liftM first : Reader β) (liftM second : Reader β) := by
  intro start other hrelated
  cases first <;> cases second
  · exact h
  · exact h.elim
  · exact h.elim
  · exact ⟨h, hrelated⟩

theorem throw {error other : SyntaxError} (h : other.flaw = error.flaw) :
    Alike c same (throw error : Reader β) (throw other : Reader β) :=
  fun _ _ _ => h

theorem run' {reader reader' : Reader β} (h : Alike c same reader reader')
    {start other : Cursor} (hrelated : c.related start other) :
    Agree same (reader.run' start) (reader'.run' other) := by
  have hresult := h start other hrelated
  rw [StateT.run'_eq, StateT.run'_eq]
  cases hfirst : reader.run start <;> cases hsecond : reader'.run other
  all_goals rw [hfirst, hsecond] at hresult
  · exact hresult
  · exact hresult.elim
  · exact hresult.elim
  · exact hresult.1

/-! ### Looking ahead -/

theorem here : InStep c here here := by
  rintro ⟨ahead, lastStop, stop⟩ ⟨ahead', lastStop', stop'⟩ hrelated
  have hahead : SameTokens ahead ahead' := c.ahead hrelated
  cases ahead with
  | nil =>
      obtain rfl := hahead.of_nil
      exact ⟨trivial, hrelated⟩
  | cons token rest =>
      obtain ⟨span, later, rfl, -⟩ := hahead.of_cons
      exact ⟨trivial, hrelated⟩

theorem fail {flaw : SyntaxFlaw} : Alike c same (fail flaw) (fail flaw) :=
  here.step fun _ _ => throw rfl

theorem ahead : Alike c SameTokens ahead ahead :=
  fun _ _ hrelated => ⟨c.ahead hrelated, hrelated⟩

theorem remaining : Alike c Eq remaining remaining :=
  fun _ _ hrelated => ⟨(c.ahead hrelated).length.symm, hrelated⟩

theorem textAt (n : Nat) : Alike c Eq (textAt n) (textAt n) :=
  fun _ _ hrelated => ⟨((c.ahead hrelated).drop n).frontText.symm, hrelated⟩

theorem at? (text : String) : Alike c Eq (at? text) (at? text) :=
  (textAt 0).both fun _ => pure rfl

theorem spanFrom (span span' : Span) :
    InStep c (spanFrom span) (spanFrom span') :=
  fun _ _ hrelated => ⟨trivial, hrelated⟩

theorem spanned {span span' : Span} {value value' : Span → β}
    (h : ∀ span span', same (value span) (value' span')) :
    Alike c same (Reader.spanFrom span >>= fun span => Pure.pure (value span))
      (Reader.spanFrom span' >>= fun span => Pure.pure (value' span)) :=
  (spanFrom span span').step fun _ _ => pure (h _ _)

/-! ### Consuming -/

theorem advance : InStep c advance advance := by
  intro start other hrelated
  have hafter := c.advanced hrelated
  exact ⟨trivial, hafter⟩

theorem advanceBy (n : Nat) : InStep c (advanceBy n) (advanceBy n) := by
  induction n with
  | zero => exact done () ()
  | succ n ih => exact advance.step fun _ _ => ih

theorem discard {mid : α → α → Prop} (h : Alike c mid first second) :
    InStep c (Functor.discard first) (Functor.discard second) :=
  h.step fun _ _ => done () ()

theorem skip (text : String) : InStep c (skip text) (skip text) := by
  refine (at? text).both fun there => ?_
  split
  · exact advance
  · exact done () ()

theorem expect (text : String) (missing : Place) :
    InStep c (expect text missing) (expect text missing) := by
  refine here.step fun span span' => ?_
  refine (at? text).both fun there => ?_
  split
  · exact advance.step fun _ _ => done _ _
  · exact fail

theorem name (missing : Place) :
    Alike c (Same Name.unplaced) (name missing) (name missing) := by
  refine ahead.bind fun tokens others h => ?_
  cases tokens with
  | nil =>
      rw [h.of_nil]
      exact fail
  | cons token rest =>
      obtain ⟨span, later, rfl, -⟩ := h.of_cons
      simp only
      split
      · exact advance.step fun _ _ => pure rfl
      · exact fail

theorem group : InStep c group group := by
  refine here.step fun span span' => ?_
  refine ahead.bind fun _ _ h => ?_
  refine (lift (Bracket.agree_groupLength .nil h)).both fun n => ?_
  exact (advanceBy n).step fun _ _ => spanFrom span span'

theorem angles : InStep c angles angles := by
  refine ahead.bind fun tokens others h => ?_
  cases tokens with
  | nil =>
      rw [h.of_nil]
      exact done () ()
  | cons opener rest =>
      obtain ⟨span, later, rfl, -⟩ := h.of_cons
      exact ahead.bind fun _ _ hagain =>
        (lift (Bracket.agree_anglesLength opener span 0 .nil hagain)).both
          advanceBy

theorem skipWhile {test : List Token → Bool}
    (htest : ∀ {tokens others},
      SameTokens tokens others → test others = test tokens) :
    InStep c (skipWhile test) (skipWhile test) := by
  refine ahead.bind fun tokens others h => ?_
  rw [h.runLength htest]
  exact advanceBy _

theorem separated {view : α → γ} (separator : String) {item : Reader α}
    (hitem : Alike c (Same view) item item) (bound : Nat) :
    Alike c (Same (List.map view)) (separated separator item bound)
      (separated separator item bound) := by
  induction bound with
  | zero =>
      exact hitem.bind fun _ _ hvalue =>
        pure (congrArg (fun value => [value]) hvalue)
  | succ bound ih =>
      refine hitem.bind fun _ _ hvalue => ?_
      refine (at? separator).both fun more => ?_
      split
      · refine advance.step fun _ _ => ?_
        exact ih.bind fun _ _ hlater => pure (congrArg₂ List.cons hvalue hlater)
      · exact pure (congrArg (fun value => [value]) hvalue)

theorem separator {more : Bool} {mayFollow : Reader Bool} {flaw : SyntaxFlaw}
    {next next' : Unit → Reader β} (hfollow : Alike c Eq mayFollow mayFollow)
    (hnext : Alike c same (next ()) (next' ())) :
    Alike c same
      (if more then Reader.advance >>= next
        else
          mayFollow >>= fun follows => if follows then next ()
            else Reader.fail flaw >>= next)
      (if more then Reader.advance >>= next'
        else
          mayFollow >>= fun follows => if follows then next' ()
            else Reader.fail flaw >>= next') := by
  split
  · exact advance.step fun _ _ => hnext
  refine hfollow.both fun follows => ?_
  split
  · exact hnext
  · have hfail :
        InStep c (Reader.fail flaw : Reader Unit) (Reader.fail flaw) := fail
    exact hfail.step fun _ _ => hnext

end Alike

end ShapeMend.Script
