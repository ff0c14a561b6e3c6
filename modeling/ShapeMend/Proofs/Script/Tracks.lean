import ShapeMend.Proofs.Script.Groups
import ShapeMend.Proofs.Script.Reading
import ShapeMend.Proofs.Script.Unplaced

/-!
# Readers with more tokens behind

Two runs of a reader are compared: one in front of some tokens, and one in front
of the same tokens at other places with more of them behind.  The second run
follows the first as long as the first is stopped by the semicolon at the end of
its tokens and not by the end itself.
-/

namespace ShapeMend.Script

open ShapeMend.Text Reader

/-! ## Tokens with more behind them -/

abbrev Ongoing (tokens : List Token) : Prop :=
  SymbolPasses (fun text => text ≠ ";") tokens

def Ended (tokens : List Token) : Prop :=
  ∃ last ∈ tokens.getLast?, last.kind = .symbol ∧ last.text = ";"

instance (tokens : List Token) : Decidable (Ended tokens) :=
  inferInstanceAs (Decidable (∃ last ∈ tokens.getLast?,
    last.kind = .symbol ∧ last.text = ";"))

/-- At most `bound` tokens, and the same tokens at other places with more
behind, if anything, after a semicolon. -/
structure Beside (more : List Token) (bound : Nat)
    (tokens others : List Token) : Prop where
  unplaced : others.map Token.unplaced = tokens.map Token.unplaced ++ more
  ended : more = [] ∨ Ended tokens
  length_le : tokens.length ≤ bound

namespace Beside

variable {more : List Token} {bound n : Nat} {token : Token}
  {tokens rest others : List Token}

theorem mono {wider : Nat} (h : Beside more bound tokens others)
    (hle : bound ≤ wider) : Beside more wider tokens others :=
  ⟨h.unplaced, h.ended, h.length_le.trans hle⟩

theorem refl (tokens : List Token) : Beside [] tokens.length tokens tokens :=
  ⟨(List.append_nil _).symm, .inl rfl, Nat.le_refl _⟩

theorem exact (h : Beside more bound tokens others) :
    Beside more tokens.length tokens others :=
  ⟨h.unplaced, h.ended, Nat.le_refl _⟩

theorem length (h : Beside more bound tokens others) :
    others.length = tokens.length + more.length := by
  simpa using congrArg List.length h.unplaced

theorem symm (h : Beside [] bound tokens others) :
    Beside [] bound others tokens := by
  refine ⟨by simpa using h.unplaced.symm, .inl rfl, ?_⟩
  simpa [h.length] using h.length_le

theorem of_nil (h : Beside more bound [] others) : others = [] ∧ more = [] := by
  have hmore : more = [] := h.ended.resolve_right (by simp [Ended])
  exact ⟨by simpa [hmore] using h.unplaced, hmore⟩

theorem of_zero (h : Beside more 0 tokens others) :
    tokens = [] ∧ others = [] := by
  obtain rfl : tokens = [] :=
    List.length_eq_zero_iff.mp (Nat.le_zero.mp h.length_le)
  exact ⟨rfl, h.of_nil.1⟩

theorem of_cons (h : Beside more bound (token :: rest) others) :
    ∃ span later, others = { token with span := span } :: later := by
  obtain ⟨span, later, rfl, -⟩ := eq_of_map_unplaced h.unplaced
  exact ⟨span, later, rfl⟩

/-! ### Looking ahead -/

theorem front {β : Type} {look : List Token → β}
    (h : Beside more bound tokens others)
    (hlook : ∀ token span rest later,
      look ({ token with span := span } :: later) = look (token :: rest)) :
    look others = look tokens := by
  cases tokens with
  | nil => rw [h.of_nil.1]
  | cons token rest =>
      obtain ⟨span, later, rfl⟩ := h.of_cons
      exact hlook token span rest later

theorem frontText (h : Beside more bound tokens others) :
    Script.frontText others = Script.frontText tokens :=
  h.front fun _ _ _ _ => rfl

theorem frontIsWord (h : Beside more bound tokens others) :
    Script.frontIsWord others = Script.frontIsWord tokens :=
  h.front fun _ _ _ _ => rfl

theorem frontIsWordOnLine (h : Beside more bound tokens others) :
    Script.frontIsWordOnLine others = Script.frontIsWordOnLine tokens :=
  h.front fun _ _ _ _ => rfl

theorem startsKey (h : Beside more bound tokens others) :
    Reader.startsKey others = Reader.startsKey tokens :=
  h.front fun _ _ _ _ => rfl

theorem isEmpty (h : Beside more bound tokens others) :
    others.isEmpty = tokens.isEmpty :=
  h.front fun _ _ _ _ => rfl

/-! ### Behind the front -/

theorem drop (h : Beside more bound tokens others) (hn : n ≤ tokens.length)
    (hrest : tokens.drop n = [] → more = []) :
    Beside more (bound - n) (tokens.drop n) (others.drop n) where
  unplaced := by
    rw [List.map_drop, h.unplaced,
      List.drop_append_of_le_length (by simpa using hn), List.map_drop]
  ended := by
    rcases h.ended with hmore | hended
    · exact .inl hmore
    by_cases hnil : tokens.drop n = []
    · exact .inl (hrest hnil)
    · rw [List.drop_eq_nil_iff] at hnil
      rw [Ended, List.getLast?_drop, if_neg hnil]
      exact .inr hended
  length_le := by
    have hle := h.length_le
    rw [List.length_drop]
    omega

/-- A token of which there are more behind, or after which the end is not
reached. -/
theorem tail (h : Beside more bound tokens others)
    (hrest : tokens.drop 1 ≠ [] ∨ Ongoing tokens) :
    Beside more (bound - 1) (tokens.drop 1) (others.drop 1) := by
  cases tokens with
  | nil =>
      obtain ⟨rfl, rfl⟩ := h.of_nil
      exact ⟨rfl, .inl rfl, Nat.zero_le _⟩
  | cons token rest =>
      refine h.drop (by simp) fun hnil => ?_
      have hon := hrest.resolve_left (not_not_intro hnil)
      refine h.ended.resolve_right ?_
      rintro ⟨last, hlast, hsymbol, htext⟩
      obtain rfl : rest = [] := hnil
      obtain rfl : token = last := by simpa using hlast
      simpa [htext] using hon token rfl hsymbol

theorem later (h : Beside more bound tokens others) (hon : Ongoing tokens) :
    Beside more (bound - 1) (tokens.drop 1) (others.drop 1) :=
  h.tail (.inr hon)

theorem and_later (h : Beside more bound tokens others) (first : Bool)
    (look : List Token → Bool) (hon : first → Ongoing tokens)
    (hlook : ∀ {k tokens others},
      Beside more k tokens others → look others = look tokens) :
    (first && look (others.drop 1)) = (first && look (tokens.drop 1)) := by
  cases first with
  | false => rfl
  | true => exact hlook (h.later (hon rfl))

end Beside

/-! ## Runs that follow others -/

/-- Where the first reader succeeds in front of `tokens`, so does the second in
front of `others`, with a value that looks the same and with related tokens
left.  Runs of the first that leave lost tokens are excepted. -/
def Follows {α γ : Type} (lost : List Token → Prop)
    (beside : List Token → List Token → Prop) (view : α → γ)
    (first second : Reader α) (tokens others : List Token) : Prop :=
  ∀ (start other : Cursor) (value : α) (next : Cursor),
    start.ahead = tokens → other.ahead = others →
    first.run start = .ok (value, next) →
      lost next.ahead ∨ ∃ value' next', second.run other = .ok (value', next') ∧
        view value' = view value ∧ beside next.ahead next'.ahead

abbrev Tracks {α γ : Type} (more : List Token) (bound : Nat) (view : α → γ)
    (first second : Reader α) (tokens others : List Token) : Prop :=
  Follows (fun _ => False) (Beside more bound) view first second tokens others

def unseen {α : Type} (_ : α) : Unit := ()

namespace Follows

variable {α β γ δ : Type} {lost : List Token → Prop}
  {beside : List Token → List Token → Prop}
  {view : α → γ} {sight : β → δ} {first second : Reader α}
  {next next' : α → Reader β}
  {more tokens others : List Token} {bound : Nat}

theorem of_lost (h : Leaves first tokens fun _ rest => lost rest) :
    Follows lost beside view first second tokens others :=
  fun start _ value next hstart _ hrun => .inl (h start value next hstart hrun)

theorem fail {flaw : SyntaxFlaw} :
    Follows lost beside view (fail flaw) second tokens others :=
  of_lost Leaves.fail

theorem failed {flaw : SyntaxFlaw} {second : Reader β} :
    Follows lost beside sight (Reader.fail flaw >>= next) second tokens
      others :=
  of_lost Leaves.failed

theorem throw {error : SyntaxError} :
    Follows lost beside view (throw error) second tokens others :=
  of_lost Leaves.throw

theorem pure {value value' : α} (hview : view value' = view value)
    (h : beside tokens others) :
    Follows lost beside view (Pure.pure value) (Pure.pure value') tokens
      others := by
  rintro start other _ _ rfl rfl hrun
  obtain ⟨rfl, rfl⟩ := Prod.mk.inj (Except.ok.inj hrun)
  exact .inr ⟨value', other, rfl, hview, h⟩

theorem idle {value value' : α}
    (hfirst : ∀ cursor,
      cursor.ahead = tokens → first.run cursor = .ok (value, cursor))
    (hsecond : ∀ cursor,
      cursor.ahead = others → second.run cursor = .ok (value', cursor))
    (hview : view value' = view value) (h : beside tokens others) :
    Follows lost beside view first second tokens others := by
  intro start other found next hstart hother hrun
  obtain ⟨rfl, rfl⟩ :=
    Prod.mk.inj (Except.ok.inj ((hfirst start hstart).symm.trans hrun))
  exact .inr
    ⟨value', other, hsecond other hother, hview, by rwa [hstart, hother]⟩

theorem imp {wider : List Token → Prop}
    {around : List Token → List Token → Prop}
    (h : Follows lost beside view first second tokens others)
    (hlost : ∀ rest, lost rest → wider rest)
    (hbeside : ∀ rest later, beside rest later → around rest later) :
    Follows wider around view first second tokens others := by
  intro start other value last hstart hother hrun
  rcases h start other value last hstart hother hrun
    with hgone | ⟨value', last', hrun', hview, hlast⟩
  · exact .inl (hlost _ hgone)
  · exact .inr ⟨value', last', hrun', hview, hbeside _ _ hlast⟩

theorem and_leaves {kept : List Token → Prop}
    (h : Follows lost beside view first second tokens others)
    (hleaves : Leaves first tokens fun _ rest => kept rest) :
    Follows (fun rest => lost rest ∧ kept rest) beside view first second tokens
      others :=
  fun start other value next hstart hother hrun =>
    (h start other value next hstart hother hrun).imp_left fun hlost =>
      ⟨hlost, hleaves start value next hstart hrun⟩

/-- Two runs in a row; whatever is left by the first of them that is lost stays
so. -/
theorem seq {gone : List Token → Prop} {middle : List Token → List Token → Prop}
    (hfirst : Follows gone middle view first second tokens others)
    (hgone : ∀ value rest,
      gone rest → Leaves (next value) rest fun _ after => lost after)
    (hnext : ∀ value value' rest later,
      view value' = view value → middle rest later →
      Follows lost beside sight (next value) (next' value') rest later) :
    Follows lost beside sight (first >>= next) (second >>= next') tokens
      others := by
  intro start other result last hstart hother hrun
  rw [StateT.run_bind] at hrun
  obtain ⟨⟨value, between⟩, hvalue, hresult⟩ := SyntaxError.bind_eq_ok.mp hrun
  rcases hfirst start other value between hstart hother hvalue with
    hlost | ⟨value', between', hvalue', hview, hbetween⟩
  · exact .inl (hgone value _ hlost between result last rfl hresult)
  rcases hnext value value' _ _ hview hbetween between between' result last rfl
    rfl hresult with
    hlost | ⟨result', last', hresult', hsame, hlast⟩
  · exact .inl hlost
  refine .inr ⟨result', last', ?_, hsame, hlast⟩
  rw [StateT.run_bind, hvalue']
  exact hresult'

theorem bind {middle : List Token → List Token → Prop}
    (hfirst : Follows (fun _ => False) middle view first second tokens others)
    (hnext : ∀ value value' rest later,
      view value' = view value → middle rest later →
      Follows lost beside sight (next value) (next' value') rest later) :
    Follows lost beside sight (first >>= next) (second >>= next') tokens
      others :=
  hfirst.seq (fun _ _ => False.elim) hnext

theorem discard (h : Follows lost beside view first second tokens others) :
    Follows lost beside unseen (discard first) (discard second) tokens others :=
  h.seq (fun _ _ hgone => Leaves.pure hgone) fun _ _ _ _ _ hrest =>
    pure rfl hrest

/-! ### Looking ahead -/

theorem look {reader : Reader α} (seen : Cursor → α)
    (hseen : ∀ cursor, reader.run cursor = .ok (seen cursor, cursor))
    (h : ∀ start other : Cursor,
      start.ahead = tokens → other.ahead = others →
      Follows lost beside sight (next (seen start)) (next' (seen other)) tokens
      others) :
    Follows lost beside sight (reader >>= next) (reader >>= next') tokens
      others := by
  intro start other value last hstart hother hrun
  rw [StateT.run_bind, hseen] at hrun
  rcases h start other hstart hother start other value last hstart hother
    hrun with
    hlost | ⟨value', last', hrun', hresult⟩
  · exact .inl hlost
  refine .inr ⟨value', last', ?_, hresult⟩
  rw [StateT.run_bind, hseen]
  exact hrun'

theorem onAhead {next next' : List Token → Reader β}
    (h : Follows lost beside sight (next tokens) (next' others) tokens others) :
    Follows lost beside sight (Reader.ahead >>= next) (Reader.ahead >>= next')
      tokens others := by
  refine look Cursor.ahead (fun _ => rfl) ?_
  rintro start other rfl rfl
  exact h

theorem remaining {next next' : Nat → Reader β}
    (h : Follows lost beside sight (next tokens.length) (next' others.length)
      tokens others) :
    Follows lost beside sight (Reader.remaining >>= next)
      (Reader.remaining >>= next') tokens others := by
  refine look (fun cursor => cursor.ahead.length) (fun _ => rfl) ?_
  rintro start other rfl rfl
  exact h

theorem textAt (n : Nat) {next next' : String → Reader β}
    (h : Follows lost beside sight (next (frontText (tokens.drop n)))
      (next' (frontText (others.drop n))) tokens others) :
    Follows lost beside sight (Reader.textAt n >>= next)
      (Reader.textAt n >>= next') tokens others := by
  refine look (fun cursor => frontText (cursor.ahead.drop n)) (fun _ => rfl) ?_
  rintro start other rfl rfl
  exact h

theorem at? (hfront : frontText others = frontText tokens) (text : String)
    {next next' : Bool → Reader β}
    (h : Follows lost beside sight (next (decide (frontText tokens = text)))
      (next' (decide (frontText tokens = text))) tokens others) :
    Follows lost beside sight (Reader.at? text >>= next)
      (Reader.at? text >>= next') tokens others := by
  refine look (fun cursor => decide (frontText cursor.ahead = text))
    (fun _ => rfl) ?_
  rintro start other rfl rfl
  rwa [hfront]

theorem here {next next' : Span → Reader β}
    (h : ∀ span span',
      Follows lost beside sight (next span) (next' span') tokens others) :
    Follows lost beside sight (Reader.here >>= next) (Reader.here >>= next')
      tokens others := by
  let span (cursor : Cursor) : Span :=
    (cursor.ahead.head?.map (·.span)).getD (.point cursor.stop)
  refine look span ?_ fun _ _ _ _ => h _ _
  rintro ⟨_ | _, lastStop, stop⟩ <;> rfl

theorem spanFrom {span span' : Span} {next next' : Span → Reader β}
    (h : ∀ span span',
      Follows lost beside sight (next span) (next' span') tokens others) :
    Follows lost beside sight (Reader.spanFrom span >>= next)
      (Reader.spanFrom span' >>= next')
      tokens others := by
  intro start other value last hstart hother hrun
  exact h _ _ start other value last hstart hother hrun

theorem get {next next' : Cursor → Reader β}
    (h : ∀ start other : Cursor, start.ahead = tokens → other.ahead = others →
      Follows lost beside sight (next start) (next' other) tokens others) :
    Follows lost beside sight (MonadState.get >>= next)
      (MonadState.get >>= next') tokens others :=
  look id (fun _ => rfl) h

theorem set {kept kept' : Cursor}
    (h : lost kept.ahead ∨ beside kept.ahead kept'.ahead) :
    Follows lost beside unseen (MonadStateOf.set kept : Reader Unit)
      (MonadStateOf.set kept') tokens others := by
  rintro start other value next - - hrun
  obtain ⟨rfl, rfl⟩ := Prod.mk.inj (Except.ok.inj hrun)
  exact h.imp id fun h => ⟨(), kept', rfl, rfl, h⟩

theorem ite {test test' : Prop} [Decidable test] [Decidable test']
    {yes no yes' no' : Reader α} (htest : test' ↔ test)
    (hyes : test → Follows lost beside view yes yes' tokens others)
    (hno : ¬test → Follows lost beside view no no' tokens others) :
    Follows lost beside view (if test then yes else no)
      (if test' then yes' else no') tokens others := by
  by_cases h : test
  · simpa only [if_pos h, if_pos (htest.mpr h)] using hyes h
  · simpa only [if_neg h, if_neg (mt htest.mp h)] using hno h

theorem choose {test test' : Bool} {yes no yes' no' : Reader α}
    (htest : test' = test)
    (hyes : test → Follows lost beside view yes yes' tokens others)
    (hno : test = false → Follows lost beside view no no' tokens others) :
    Follows lost beside view (if test then yes else no)
      (if test' then yes' else no') tokens others :=
  ite (by rw [htest]) hyes fun h => hno (by simpa using h)

theorem atFront (h : Beside more bound tokens others) (text : String)
    {next next' : Bool → Reader β}
    (hyes : frontText tokens = text →
      Follows lost beside sight (next true) (next' true) tokens others)
    (hno : frontText tokens ≠ text →
      Follows lost beside sight (next false) (next' false) tokens others) :
    Follows lost beside sight (Reader.at? text >>= next)
      (Reader.at? text >>= next') tokens others := by
  refine at? h.frontText text ?_
  by_cases hfront : frontText tokens = text
  · simpa [hfront] using hyes hfront
  · simpa [hfront] using hno hfront

/-! ### Tokens in front -/

theorem advance :
    Follows lost
      (fun rest later => rest = tokens.drop 1 ∧ later = others.drop 1) id
    Reader.advance Reader.advance tokens others := by
  have hrun : ∀ cursor : Cursor, ∃ next,
      Reader.advance.run cursor = .ok ((), next) ∧
      next.ahead = cursor.ahead.drop 1 := by
    rintro ⟨_ | ⟨token, rest⟩, lastStop, stop⟩
    · exact ⟨_, rfl, rfl⟩
    · exact ⟨_, rfl, rfl⟩
  rintro start other value next rfl rfl hstart
  have hnext := Leaves.advance start value next rfl hstart
  obtain ⟨next', hother, hnext'⟩ := hrun other
  exact .inr ⟨(), next', hother, rfl, hnext, hnext'⟩

theorem step {next next' : Unit → Reader β}
    (h : Follows lost beside sight (next ()) (next' ()) (tokens.drop 1)
      (others.drop 1)) :
    Follows lost beside sight (Reader.advance >>= next)
      (Reader.advance >>= next') tokens others := by
  refine advance.bind ?_
  rintro _ _ _ _ - ⟨rfl, rfl⟩
  exact h

theorem skipThen (h : Beside more bound tokens others) (text : String)
    {next next' : Unit → Reader β}
    (hyes : frontText tokens = text →
      Follows lost beside sight (next ()) (next' ()) (tokens.drop 1)
      (others.drop 1))
    (hno : frontText tokens ≠ text →
      Follows lost beside sight (next ()) (next' ()) tokens others) :
    Follows lost beside sight (Reader.skip text >>= next)
      (Reader.skip text >>= next') tokens others := by
  have hskip :
      Follows (fun _ => False)
      (fun rest later => frontText tokens = text ∧ rest = tokens.drop 1 ∧
      later = others.drop 1 ∨ frontText tokens ≠ text ∧ rest = tokens ∧
        later = others) id
      (Reader.skip text) (Reader.skip text) tokens others :=
    atFront h text (fun hfront => advance.imp (fun _ => id)
      fun _ _ hrest => .inl ⟨hfront, hrest⟩)
      fun hfront => pure rfl (.inr ⟨hfront, rfl, rfl⟩)
  refine hskip.bind ?_
  rintro _ _ rest later - (⟨hfront, rfl, rfl⟩ | ⟨hfront, rfl, rfl⟩)
  · exact hyes hfront
  · exact hno hfront

theorem advanceBy (n : Nat) :
    Follows lost
      (fun rest later => rest = tokens.drop n ∧ later = others.drop n) id
      (Reader.advanceBy n) (Reader.advanceBy n) tokens others := by
  induction n generalizing tokens others with
  | zero => exact pure rfl ⟨rfl, rfl⟩
  | succ n ih =>
      refine step (ih.imp (fun _ => id) ?_)
      rintro rest later ⟨rfl, rfl⟩
      simp

theorem lift {measure measure' : Except SyntaxError α}
    (h : ∀ value, measure = .ok value → measure' = .ok value ∧
      Follows lost beside sight (next value) (next' value) tokens others) :
    Follows lost beside sight (liftM measure >>= next)
      (liftM measure' >>= next') tokens others := by
  cases measure with
  | error error => exact of_lost (Leaves.throw.bind fun _ _ => False.elim)
  | ok value =>
      obtain ⟨rfl, hnext⟩ := h value rfl
      exact hnext

end Follows

namespace Tracks

variable {α β γ δ : Type} {view : α → γ} {sight : β → δ}
  {more tokens others : List Token} {bound : Nat}

theorem pure {value value' : α} (hview : view value' = view value)
    (h : Beside more bound tokens others) :
    Tracks more bound view (Pure.pure value) (Pure.pure value') tokens others :=
  Follows.pure hview h

theorem mono {narrow : Nat} {first second : Reader α}
    (h : Tracks more narrow view first second tokens others)
    (hle : narrow ≤ bound) :
    Tracks more bound view first second tokens others :=
  h.imp (fun _ => id) fun _ _ hbeside => hbeside.mono hle

theorem spanned {span span' : Span} {value value' : Span → β}
    (h : Beside more bound tokens others)
    (hvalue : ∀ span span', sight (value' span') = sight (value span)) :
    Tracks more bound sight
      (Reader.spanFrom span >>= fun span => Pure.pure (value span))
      (Reader.spanFrom span' >>= fun span => Pure.pure (value' span)) tokens
        others :=
  Follows.spanFrom fun _ _ => pure (hvalue _ _) h

theorem advance (h : Beside more bound tokens others) (hon : Ongoing tokens) :
    Tracks more (bound - 1) unseen advance advance tokens others := by
  refine Follows.advance.imp (fun _ => id) ?_
  rintro rest later ⟨rfl, rfl⟩
  exact h.later hon

theorem skip (h : Beside more bound tokens others) (text : String)
    (htext : text ≠ ";") :
    Tracks more bound unseen (skip text) (skip text) tokens others := by
  refine Follows.atFront h text (fun hfront => ?_) fun _ => pure rfl h
  exact (advance h (.of_text hfront (by simpa using htext))).mono
    (Nat.sub_le _ _)

theorem expect (h : Beside more bound tokens others) (text : String)
    (place : Place) (htext : text ≠ ";") :
    Tracks more (bound - 1) unseen (expect text place) (expect text place)
      tokens others := by
  refine Follows.here fun _ _ => ?_
  refine Follows.atFront h text (fun hfront => ?_) fun _ => Follows.fail
  exact Follows.step
    (pure rfl (h.later (.of_text hfront (by simpa using htext))))

theorem name (h : Beside more bound tokens others) (place : Place) :
    Tracks more (bound - 1) Name.unplaced (name place) (name place) tokens
      others := by
  refine Follows.onAhead ?_
  cases tokens with
  | nil => exact Follows.fail
  | cons token rest =>
      obtain ⟨span, later, rfl⟩ := h.of_cons
      refine Follows.ite Iff.rfl (fun hword => ?_) fun _ => Follows.fail
      exact Follows.step (pure rfl (h.later (.of_kind (by simp [hword]))))

end Tracks

/-! ## Runs of measured length -/

namespace Bracket

variable {stack stack' within more tokens others : List Token} {token : Token}
  {bound n : Nat}

theorem track_texts (other : Token)
    (hstack : stack'.map Token.text = stack.map Token.text)
    (h : track stack token = .ok within) (hkind : other.kind = token.kind)
    (htext : other.text = token.text) :
    ∃ within', track stack' other = .ok within' ∧ within'.map Token.text =
      within.map Token.text := by
  revert h
  fun_cases track stack token with
  | case1 =>
      intro h
      obtain rfl := Except.ok.inj h
      exact ⟨stack', by simp_all [track], hstack⟩
  | case2 =>
      intro h
      obtain rfl := Except.ok.inj h
      exact ⟨other :: stack', by simp_all [track], by simp [hstack, htext]⟩
  | case3 => simp
  | case4 hsymbol hopens hcloses opener below hcloser =>
      intro h
      obtain rfl := Except.ok.inj h
      obtain ⟨opener', below', rfl, hopener, hbelow⟩ :=
        List.map_eq_cons_iff.mp hstack
      exact ⟨below', by simp_all [track], hbelow⟩
  | case5 => simp
  | case6 =>
      intro h
      obtain rfl := Except.ok.inj h
      exact ⟨stack', by simp_all [track], hstack⟩

theorem track_semicolon (stack : List Token) (hkind : token.kind = .symbol)
    (htext : token.text = ";") : track stack token = .ok stack := by
  simp [track, hkind, htext, isOpener, isCloser]

private theorem groupLength_nil (hne : stack ≠ []) :
    groupLength stack [] ≠ .ok n := by
  simp [groupLength, List.getLast?_eq_some_getLast hne]

theorem groupLength_beside (hon : stack = [] → Ongoing tokens)
    (hstack : stack'.map Token.text = stack.map Token.text)
    (h : Beside more bound tokens others)
    (hlength : groupLength stack tokens = .ok n) :
    groupLength stack' others = .ok n ∧
      Beside more (bound - 1) (tokens.drop n) (others.drop n) := by
  induction tokens generalizing stack stack' others bound n with
  | nil =>
      obtain ⟨rfl, rfl⟩ := h.of_nil
      cases stack with
      | nil =>
          obtain rfl : stack' = [] := List.map_eq_nil_iff.mp hstack
          exact ⟨hlength, by simpa using h.later .nil⟩
      | cons opener below =>
          exact absurd hlength (groupLength_nil (List.cons_ne_nil _ _))
  | cons token rest ih =>
      obtain ⟨span, later, rfl⟩ := h.of_cons
      rw [groupLength] at hlength
      obtain ⟨within, hwithin, hlength⟩ := SyntaxError.bind_eq_ok.mp hlength
      obtain ⟨within', hwithin', hsame⟩ :=
        track_texts { token with span := span } hstack hwithin rfl rfl
      rw [groupLength, hwithin']
      cases within with
      | nil =>
          obtain rfl : within' = [] := List.map_eq_nil_iff.mp hsame
          obtain rfl : n = 1 := (Except.ok.inj hlength).symm
          refine ⟨rfl,
            h.later (.cons fun hkind => decide_eq_true fun htext => ?_)⟩
          obtain rfl : stack = [] :=
            Except.ok.inj
              ((track_semicolon stack hkind htext).symm.trans hwithin)
          simpa [htext] using hon rfl token rfl hkind
      | cons opener below =>
          obtain ⟨opener', below', rfl, -⟩ := List.map_eq_cons_iff.mp hsame
          obtain ⟨m, hm, rfl⟩ := bind_succ_eq_ok.mp hlength
          have hrest : rest ≠ [] := by
            rintro rfl
            exact groupLength_nil (List.cons_ne_nil _ _) hm
          obtain ⟨hm', hbeside⟩ :=
            ih (fun hnil => absurd hnil (List.cons_ne_nil _ _)) hsame
            (h.tail (.inl hrest)) hm
          refine ⟨?_, hbeside.mono (Nat.sub_le _ _)⟩
          exact SyntaxError.bind_eq_ok.mpr
            ⟨_, rfl, bind_succ_eq_ok.mpr ⟨m, hm', rfl⟩⟩

private theorem anglesLength_beside {opener opener' : Token} {depth : Nat}
    (hstack : stack'.map Token.text = stack.map Token.text)
    (h : Beside more bound tokens others)
    (hlength : anglesLength opener depth stack tokens = .ok n) :
    anglesLength opener' depth stack' others = .ok n ∧
      Beside more (bound - n) (tokens.drop n) (others.drop n) := by
  induction tokens generalizing depth stack stack' others bound n with
  | nil => cases hlength
  | cons token rest ih =>
      obtain ⟨span, later, rfl⟩ := h.of_cons
      have hmore {depth : Nat} {stack stack' : List Token}
          (hstack : stack'.map Token.text = stack.map Token.text)
          (hlength : (anglesLength opener depth stack rest >>=
            fun m => pure (m + 1)) = .ok n) :
          (anglesLength opener' depth stack' later >>= fun m => pure (m + 1)) =
            .ok n ∧
            Beside more (bound - n) ((token :: rest).drop n)
              ((({ token with span := span } : Token) :: later).drop n) := by
        obtain ⟨m, hm, rfl⟩ := bind_succ_eq_ok.mp hlength
        have hrest : rest ≠ [] := by
          rintro rfl
          cases hm
        obtain ⟨hm', hbeside⟩ := ih hstack (h.tail (.inl hrest)) hm
        exact ⟨bind_succ_eq_ok.mpr ⟨m, hm', rfl⟩, hbeside.mono (by omega)⟩
      have hempty : stack'.isEmpty = stack.isEmpty := by
        rw [← List.isEmpty_map (f := Token.text), hstack, List.isEmpty_map]
      have htext : ({ token with span := span } : Token).syntacticText =
          token.syntacticText := rfl
      rw [anglesLength] at hlength ⊢
      simp only [hempty, htext]
      by_cases hgroup : !stack.isEmpty || isOpener token.syntacticText
      · rw [if_pos hgroup] at hlength ⊢
        obtain ⟨within, hwithin, hlength⟩ := SyntaxError.bind_eq_ok.mp hlength
        obtain ⟨within', hwithin', hsame⟩ :=
          track_texts { token with span := span } hstack hwithin rfl rfl
        rw [hwithin']
        exact hmore hsame hlength
      rw [if_neg hgroup] at hlength ⊢
      by_cases hopens : token.syntacticText = "<"
      · rw [if_pos hopens] at hlength ⊢
        exact hmore rfl hlength
      rw [if_neg hopens] at hlength ⊢
      by_cases hcloses : token.syntacticText = ">"
      · rw [if_pos hcloses] at hlength ⊢
        by_cases hlast : depth ≤ 1
        · rw [if_pos hlast] at hlength ⊢
          obtain rfl : n = 1 := (Except.ok.inj hlength).symm
          exact ⟨rfl, h.later (.of_text hcloses (by decide))⟩
        · rw [if_neg hlast] at hlength ⊢
          exact hmore rfl hlength
      · rw [if_neg hcloses] at hlength ⊢
        exact hmore rfl hlength

end Bracket

/-- A run that no semicolon passes, or after which the end is not reached, is as
long with more behind it. -/
private theorem runLength_beside {test : List Token → Bool}
    {more tokens others : List Token} {bound : Nat}
    (htest : ∀ {tokens others},
      Beside more bound tokens others → test others = test tokens)
    (hon : (∀ tokens,
      test tokens → Ongoing tokens) ∨ tokens.drop (runLength test tokens) ≠ [])
    (h : Beside more bound tokens others) :
    runLength test others = runLength test tokens ∧
      Beside more bound (tokens.drop (runLength test tokens))
        (others.drop (runLength test tokens)) := by
  induction tokens generalizing others with
  | nil =>
      obtain ⟨rfl, rfl⟩ := h.of_nil
      exact ⟨rfl, h⟩
  | cons token rest ih =>
      have hsame := htest h
      obtain ⟨span, later, rfl⟩ := h.of_cons
      rw [runLength] at hon ⊢
      rw [runLength, hsame]
      by_cases hpasses : test (token :: rest)
      · rw [if_pos hpasses] at hon
        have hrest : rest ≠ [] ∨ Ongoing (token :: rest) :=
          hon.symm.imp (fun hbehind hnil => hbehind (by simp [hnil])) fun hon =>
            hon _ hpasses
        obtain ⟨hlength, hbehind⟩ :=
          ih hon ((h.tail hrest).mono (Nat.sub_le _ _))
        rw [if_pos hpasses, if_pos hpasses]
        exact ⟨congrArg (· + 1) hlength, hbehind⟩
      · rw [if_neg hpasses, if_neg hpasses]
        exact ⟨rfl, h⟩

namespace Tracks

variable {α γ δ : Type} {view : α → γ} {more tokens others : List Token}
  {bound : Nat}

theorem advanceBy {n : Nat}
    (h : Beside more bound (tokens.drop n) (others.drop n)) :
    Tracks more bound unseen (Reader.advanceBy n) (Reader.advanceBy n) tokens
      others := by
  refine (Follows.advanceBy n).imp (fun _ => id) ?_
  rintro rest later ⟨rfl, rfl⟩
  exact h

theorem group (h : Beside more bound tokens others) (hon : Ongoing tokens) :
    Tracks more (bound - 1) unseen group group tokens others := by
  refine Follows.here fun _ _ => ?_
  refine Follows.onAhead ?_
  refine Follows.lift fun n hn => ?_
  obtain ⟨hlength, hrest⟩ := Bracket.groupLength_beside (fun _ => hon) rfl h hn
  exact ⟨hlength, (advanceBy hrest).bind fun _ _ _ _ _ hrest => Follows.spanFrom
    fun _ _ => pure rfl hrest⟩

theorem angles (h : Beside more bound tokens others) :
    Tracks more bound unseen angles angles tokens others := by
  refine Follows.onAhead ?_
  cases tokens with
  | nil =>
      obtain ⟨rfl, rfl⟩ := h.of_nil
      exact pure rfl h
  | cons opener rest =>
      obtain ⟨span, later, rfl⟩ := h.of_cons
      refine Follows.onAhead ?_
      refine Follows.lift fun n hn => ?_
      obtain ⟨hlength, hrest⟩ := Bracket.anglesLength_beside rfl h hn
      exact ⟨hlength, advanceBy (hrest.mono (Nat.sub_le _ _))⟩

theorem skipWhile {test : List Token → Bool}
    (h : Beside more bound tokens others)
    (htest : ∀ {tokens others},
      Beside more bound tokens others → test others = test tokens)
    (hon : (∀ tokens, test tokens → Ongoing tokens) ∨
      tokens.drop (runLength test tokens) ≠ []) :
    Tracks more bound unseen (skipWhile test) (skipWhile test) tokens
      others := by
  obtain ⟨hlength, hrest⟩ := runLength_beside htest hon h
  refine Follows.onAhead ?_
  rw [hlength]
  exact advanceBy hrest

end Tracks

/-- One or more items with separators between them.  What is lost behind an item
is no separator. -/
theorem Follows.separated {α γ : Type} {view : α → γ} {lost : List Token → Prop}
    {more tokens others : List Token} {separator : String}
    {first second : Reader α} {n bound bound' : Nat}
    (hseparator : separator ≠ ";")
    (hlost : ∀ rest, lost rest → frontText rest ≠ separator)
    (hnil : Leaves first [] fun _ _ => False)
    (hitem : ∀ {k tokens others},
      k ≤ n → Beside more k tokens others →
      Follows lost (Beside more (k - 1)) view first second tokens others)
    (h : Beside more n tokens others) (hbound : n ≤ bound)
    (hbound' : n + more.length ≤ bound') :
    Follows lost (Beside more (n - 1)) (List.map view)
      (separated separator first bound)
      (separated separator second bound') tokens others := by
  induction n generalizing bound bound' tokens others with
  | zero =>
      obtain ⟨rfl, -⟩ := h.of_zero
      refine of_lost ?_
      cases bound with
      | zero => exact hnil.bind fun _ _ => False.elim
      | succ bound => exact hnil.bind fun _ _ => False.elim
  | succ n ih =>
      obtain ⟨bound, rfl⟩ :=
        Nat.exists_eq_add_of_le' (Nat.le_of_add_left_le hbound)
      obtain ⟨bound', rfl⟩ :=
        Nat.exists_eq_add_of_le'
          (Nat.le_of_add_left_le (Nat.le_of_add_right_le hbound'))
      refine (hitem (Nat.le_refl _) h).seq (fun value rest hrest => ?_)
        fun value value' rest later hvalue hrest => ?_
      · exact Leaves.atFront separator
          (fun hfront => absurd hfront (hlost rest hrest))
          fun _ => Leaves.pure hrest
      refine atFront hrest separator (fun hfront => ?_) fun _ =>
        pure (by simp [hvalue]) hrest
      have hlater :=
        (hrest.later (.of_text hfront (by simpa using hseparator))).mono
          (Nat.sub_le n 1)
      refine step ?_
      refine (ih (fun hk => hitem (by omega)) hlater (by omega) (by omega)).seq
        (fun _ _ hgone => Leaves.pure hgone)
        fun values values' rest later hvalues hrest => ?_
      exact pure (by simp [hvalue, hvalues]) (hrest.mono (by omega))

end ShapeMend.Script
