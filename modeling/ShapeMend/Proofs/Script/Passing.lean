import ShapeMend.Proofs.Script.Outlines

/-!
# Runs that are passed

Where a reader succeeds, it has passed a run of the tokens that were in front of
it.  What can be said about its value and that run is put together the way that
readers are.
-/

namespace ShapeMend.Script

open ShapeMend.Text Reader

variable {α β : Type}

theorem Span.Spans.ne_nil {run : List Token} {span : Span}
    (h : Span.Spans run span) : run ≠ [] := by
  obtain ⟨first, last, hfirst, -⟩ := h
  rintro rfl
  cases hfirst

theorem Bracket.groupLength_pos {stack rest : List Token} {token : Token}
    {n : Nat} (h : groupLength stack (token :: rest) = .ok n) : 0 < n := by
  rw [groupLength, SyntaxError.bind_eq_ok] at h
  obtain ⟨below, -, h⟩ := h
  split at h
  · obtain rfl := Except.ok.inj h
    exact Nat.one_pos
  · obtain ⟨m, -, rfl⟩ := Bracket.bind_succ_eq_ok.mp h
    exact Nat.succ_pos m

/-! ## Readers that walk over tokens -/

structure Cursor.Passed (origin : Cursor) (run : List Token) (cursor : Cursor) :
    Prop where
  ahead : origin.ahead = run ++ cursor.ahead
  lastStop : ∀ last ∈ run.getLast?, cursor.lastStop = last.span.stop

theorem Cursor.Passed.refl (cursor : Cursor) : cursor.Passed [] cursor :=
  ⟨rfl, by simp⟩

def Cursor.Opens (cursor : Cursor) (first : Span) : Prop :=
  ∀ token ∈ cursor.ahead.head?, first = token.span

/-- Behind a run of tokens, where the reader succeeds it has passed a longer
run, and its value is as stated. -/
def Walks (origin : Cursor) (run : List Token) (reader : Reader α)
    (post : α → List Token → Prop) : Prop :=
  ∀ cursor value next,
    origin.Passed run cursor → reader.run cursor = .ok (value, next) →
    ∃ longer, origin.Passed longer next ∧ post value longer

def Walking (reader : Reader α) : Prop :=
  ∀ origin run, Walks origin run reader fun _ longer => ∃ part,
    longer = run ++ part

structure Passes (reader : Reader α) (post : α → List Token → Prop) : Prop where
  walking : Walking reader
  walks : ∀ origin, Ordered origin.ahead → Walks origin [] reader post

def Keeps (reader : Reader α) : Prop :=
  ∀ cursor value next, reader.run cursor = .ok (value, next) → next = cursor

theorem Walking.of_alike {same : α → α → Prop} {reader : Reader α}
    (h : ∀ c, Alike c same reader reader) : Walking reader := by
  intro origin run cursor value next hpassed hrun
  have hresult :=
    h (.walk origin.ahead) cursor cursor
      ⟨rfl, run, hpassed.ahead, hpassed.lastStop⟩
  rw [hrun] at hresult
  obtain ⟨longer, hahead, hstop⟩ := hresult.2.2
  obtain ⟨part, hpart, -⟩ := (h (.walk cursor.ahead)).within hrun
  refine ⟨longer, ⟨hahead, hstop⟩, part, ?_⟩
  rw [hpassed.ahead, hpart, ← List.append_assoc] at hahead
  exact (List.append_cancel_right hahead).symm

namespace Keeps

private theorem pure (value : α) : Keeps (Pure.pure value) := by
  intro cursor found next hrun
  exact (Prod.mk.inj (Except.ok.inj hrun)).2.symm

private theorem bind {reader : Reader α} {next : α → Reader β}
    (hfirst : Keeps reader) (hnext : ∀ value, Keeps (next value)) :
    Keeps (reader >>= next) := by
  intro cursor value after hrun
  rw [StateT.run_bind] at hrun
  obtain ⟨⟨first, middle⟩, hfirstRun, hnextRun⟩ :=
    SyntaxError.bind_eq_ok.mp hrun
  obtain rfl := hfirst cursor first middle hfirstRun
  exact hnext first middle value after hnextRun

private theorem lift (first : Except SyntaxError α) :
    Keeps (liftM first : Reader α) := by
  intro cursor value next hrun
  cases first with
  | error error => cases hrun
  | ok found => exact (Prod.mk.inj (Except.ok.inj hrun)).2.symm

theorem ahead : Keeps ahead := by
  intro cursor value next hrun
  exact (Prod.mk.inj (Except.ok.inj hrun)).2.symm

theorem remaining : Keeps remaining := by
  intro cursor value next hrun
  exact (Prod.mk.inj (Except.ok.inj hrun)).2.symm

theorem textAt (n : Nat) : Keeps (textAt n) := by
  intro cursor value next hrun
  exact (Prod.mk.inj (Except.ok.inj hrun)).2.symm

theorem at? (text : String) : Keeps (at? text) := by
  intro cursor value next hrun
  exact (Prod.mk.inj (Except.ok.inj hrun)).2.symm

theorem here : Keeps here := by
  rintro ⟨ahead, lastStop, stop⟩ value next hrun
  cases ahead <;> exact (Prod.mk.inj (Except.ok.inj hrun)).2.symm

theorem spanFrom (first : Span) : Keeps (spanFrom first) := by
  intro cursor value next hrun
  exact (Prod.mk.inj (Except.ok.inj hrun)).2.symm

theorem operandFollows : Keeps operandFollows := by
  intro cursor value next hrun
  exact (Prod.mk.inj (Except.ok.inj hrun)).2.symm

theorem opensFunction : Keeps opensFunction := by
  refine (at? "<").bind fun angled => ?_
  split
  · exact pure true
  refine (at? "(").bind fun opened => ?_
  split
  · refine ahead.bind fun tokens => ?_
    exact (lift _).bind fun n => pure _
  · exact pure false

theorem memberMayFollow : Keeps memberMayFollow := by
  rintro ⟨ahead, lastStop, stop⟩ value next hrun
  cases ahead <;> exact (Prod.mk.inj (Except.ok.inj hrun)).2.symm

end Keeps

namespace Walks

variable {origin : Cursor} {run : List Token} {reader : Reader α}
  {next : α → Reader β}
  {post : β → List Token → Prop}

theorem pure {value : β} (h : post value run) :
    Walks origin run (Pure.pure value) post := by
  rintro cursor _ _ hpassed hrun
  obtain ⟨rfl, rfl⟩ := Prod.mk.inj (Except.ok.inj hrun)
  exact ⟨run, hpassed, h⟩

theorem bind {mid : α → List Token → Prop}
    (hfirst : Walks origin run reader mid)
    (hnext : ∀ value longer,
      mid value longer → Walks origin longer (next value) post) :
    Walks origin run (reader >>= next) post := by
  intro cursor value after hpassed hrun
  rw [StateT.run_bind] at hrun
  obtain ⟨⟨first, middle⟩, hfirstRun, hnextRun⟩ :=
    SyntaxError.bind_eq_ok.mp hrun
  obtain ⟨longer, hlonger, hmid⟩ := hfirst cursor first middle hpassed hfirstRun
  exact hnext first longer hmid middle value after hlonger hnextRun

theorem discarded {mid : α → List Token → Prop}
    (h : Walks origin run reader mid) :
    Walks origin run (discard reader) fun _ longer => ∃ value,
      mid value longer :=
  h.bind fun value _ hmid => pure ⟨value, hmid⟩

theorem imp {mid : β → List Token → Prop} {reader : Reader β}
    (h : Walks origin run reader mid)
    (himp : ∀ value longer, mid value longer → post value longer) :
    Walks origin run reader post := by
  intro cursor value after hpassed hrun
  obtain ⟨longer, hlonger, hmid⟩ := h cursor value after hpassed hrun
  exact ⟨longer, hlonger, himp value longer hmid⟩

theorem fail {flaw : SyntaxFlaw} {post : β → List Token → Prop} :
    Walks origin run (fail flaw) post := by
  rintro ⟨ahead, lastStop, stop⟩ value after hpassed hrun
  cases ahead <;> cases hrun

theorem throw {error : SyntaxError} :
    Walks origin run (throw error : Reader β) post :=
  fun _ _ _ _ hrun => nomatch hrun

theorem pass (hfirst : Walking reader)
    (hnext : ∀ value part, Walks origin (run ++ part) (next value) post) :
    Walks origin run (reader >>= next) post :=
  (hfirst origin run).bind fun value _ ⟨part, hpart⟩ => hpart ▸ hnext value part

theorem behind {mid : α → List Token → Prop} (hwalking : Walking reader)
    (hfirst : ∀ start : Cursor,
      origin.ahead = run ++ start.ahead → Walks start [] reader mid) :
    Walks origin run reader fun value longer => ∃ part,
      longer = run ++ part ∧ mid value part := by
  intro cursor value after hpassed hrun
  obtain ⟨part, hpart, hmid⟩ :=
    hfirst cursor hpassed.ahead cursor value after (.refl cursor) hrun
  obtain ⟨longer, hlonger, other, rfl⟩ :=
    hwalking origin run cursor value after hpassed hrun
  obtain rfl : part = other := by
    have hahead := hlonger.ahead
    rw [hpassed.ahead, hpart.ahead, ← List.append_assoc] at hahead
    exact List.append_cancel_left (List.append_cancel_right hahead)
  exact ⟨run ++ part, hlonger, part, rfl, hmid⟩

theorem after {mid : α → List Token → Prop} (hordered : Ordered origin.ahead)
    (h : Passes reader mid) :
    Walks origin run reader fun value longer => ∃ part,
      longer = run ++ part ∧ mid value part := by
  refine behind h.walking fun start hahead => h.walks start ?_
  rw [hahead] at hordered
  exact hordered.right

theorem read {mid : α → List Token → Prop} (hordered : Ordered origin.ahead)
    (hfirst : Passes reader mid)
    (hnext : ∀ value part,
      mid value part → Walks origin (run ++ part) (next value) post) :
    Walks origin run (reader >>= next) post :=
  (after hordered hfirst).bind fun value _ ⟨part, hpart, hmid⟩ =>
    hpart ▸ hnext value part hmid

theorem look (hfirst : Keeps reader)
    (hnext : ∀ value, Walks origin run (next value) post) :
    Walks origin run (reader >>= next) post := by
  intro cursor value after hpassed hrun
  rw [StateT.run_bind] at hrun
  obtain ⟨⟨first, middle⟩, hfirstRun, hnextRun⟩ :=
    SyntaxError.bind_eq_ok.mp hrun
  obtain rfl := hfirst cursor first middle hfirstRun
  exact hnext first middle value after hpassed hnextRun

theorem onAhead {next : List Token → Reader β}
    (h : ∀ tokens,
      origin.ahead = run ++ tokens → Walks origin run (next tokens) post) :
    Walks origin run (Reader.ahead >>= next) post :=
  fun cursor value after hpassed hrun =>
    h cursor.ahead hpassed.ahead cursor value after hpassed hrun

theorem atFront (text : String) {next : Bool → Reader β}
    (hyes : ∀ tokens,
      origin.ahead = run ++ tokens → frontText tokens = text →
      Walks origin run (next true) post)
    (hno : Walks origin run (next false) post) :
    Walks origin run (at? text >>= next) post := by
  intro cursor value after hpassed hrun
  rw [StateT.run_bind] at hrun
  change (next (decide (frontText cursor.ahead = text))).run cursor =
    .ok (value, after) at hrun
  by_cases hfront : frontText cursor.ahead = text
  · rw [decide_eq_true hfront] at hrun
    exact hyes cursor.ahead hpassed.ahead hfront cursor value after hpassed hrun
  · rw [decide_eq_false hfront] at hrun
    exact hno cursor value after hpassed hrun

theorem advance {next : Unit → Reader β} {token : Token} {rest : List Token}
    (hahead : origin.ahead = run ++ token :: rest)
    (hnext : Walks origin (run ++ [token]) (next ()) post) :
    Walks origin run (advance >>= next) post := by
  rintro ⟨ahead, lastStop, stop⟩ value after hpassed hrun
  obtain rfl : token :: rest = ahead :=
    List.append_cancel_left (hahead.symm.trans hpassed.ahead)
  refine hnext _ value after ⟨?_, fun last hlast => ?_⟩ hrun
  · rw [hahead, List.append_assoc]
    rfl
  · rw [List.getLast?_concat, Option.mem_some_iff] at hlast
    rw [← hlast]

theorem exists_cons_of_front {tokens : List Token} {text : String}
    (hfront : frontText tokens = text) (hne : text ≠ "") :
    ∃ token rest, tokens = token :: rest := by
  cases tokens with
  | nil => exact absurd hfront.symm hne
  | cons token rest => exact ⟨token, rest, rfl⟩

theorem here {next : Span → Reader β}
    (h : ∀ first, origin.Opens first → Walks origin [] (next first) post) :
    Walks origin [] (here >>= next) post := by
  rintro ⟨ahead, lastStop, stop⟩ value after hpassed hrun
  have hahead : origin.ahead = ahead := hpassed.ahead
  cases ahead with
  | nil => exact h _ (by simp [Cursor.Opens, hahead]) _ value after hpassed hrun
  | cons token rest =>
      exact h token.span (by simp [Cursor.Opens, hahead]) _ value after
        hpassed hrun

theorem expect (text : String) (place : Place) (hne : text ≠ "") :
    Walks origin run (expect text place) fun _ longer => ∃ token,
      longer = run ++ [token] := by
  refine look .here fun span =>
    atFront text (fun tokens htokens hfront => ?_) fail
  obtain ⟨token, rest, rfl⟩ := exists_cons_of_front hfront hne
  exact advance htokens (pure ⟨token, rfl⟩)

/-- The span from the first token of the origin through the last one that was
passed. -/
theorem spanFrom (hordered : Ordered origin.ahead) {first : Span}
    (hfirst : origin.Opens first) (hne : run ≠ []) :
    Walks origin run (spanFrom first) fun span longer =>
      longer = run ∧ Span.Spans run span := by
  rintro cursor _ _ hpassed hrun
  obtain ⟨rfl, rfl⟩ := Prod.mk.inj (Except.ok.inj hrun)
  refine ⟨run, hpassed, rfl, ?_⟩
  obtain ⟨token, rest, rfl⟩ := List.exists_cons_of_ne_nil hne
  have hlast := List.getLast?_eq_getLast_of_ne_nil hne
  rw [hpassed.ahead] at hordered
  obtain rfl := hfirst token (by rw [hpassed.ahead]; rfl)
  have hle := hordered.left.stop_le_stop rfl hlast
  exact ⟨token, _, rfl, hlast, by
    rw [hpassed.lastStop _ hlast, Nat.max_eq_left hle]⟩

theorem spanned (hordered : Ordered origin.ahead) {first : Span}
    (hfirst : origin.Opens first) (hne : run ≠ []) {next : Span → Reader β}
    (h : ∀ span, Span.Spans run span → Walks origin run (next span) post) :
    Walks origin run (Reader.spanFrom first >>= next) post := by
  refine (spanFrom hordered hfirst hne).bind ?_
  rintro span _ ⟨rfl, hspan⟩
  exact h span hspan

theorem lift {first : Except SyntaxError α} {next : α → Reader β}
    (h : ∀ value, first = .ok value → Walks origin run (next value) post) :
    Walks origin run (liftM first >>= next) post := by
  intro cursor value after hpassed hrun
  cases first with
  | error error => cases hrun
  | ok found => exact h found rfl cursor value after hpassed hrun

private theorem advanceBy {n : Nat} (hpos : 0 < n) {next : Unit → Reader β}
    {token : Token} {rest : List Token}
    (hahead : origin.ahead = run ++ token :: rest)
    (h : ∀ part, part ≠ [] → Walks origin (run ++ part) (next ()) post) :
    Walks origin run (advanceBy n >>= next) post := by
  obtain ⟨n, rfl⟩ := Nat.exists_eq_succ_of_ne_zero hpos.ne'
  refine (advance hahead (.pass (.of_alike fun _ => .advanceBy n)
    fun _ part => ?_) : Walks origin run
    (Reader.advance >>= fun _ => Reader.advanceBy n >>= next) post)
  rw [List.append_assoc]
  exact h _ (List.cons_ne_nil token part)

theorem group (hordered : Ordered origin.ahead) {token : Token}
    {rest : List Token} (hahead : origin.ahead = run ++ token :: rest) :
    Walks origin run group fun span longer => ∃ part,
      longer = run ++ part ∧ Span.Spans part span := by
  refine behind (.of_alike fun _ => .group) fun start hstart => ?_
  obtain hcons : start.ahead = token :: rest :=
    List.append_cancel_left (hstart.symm.trans hahead)
  have hbehind : Ordered start.ahead := by
    rw [hstart] at hordered
    exact hordered.right
  refine here fun first hfirst => ?_
  refine onAhead fun tokens htokens => ?_
  refine lift fun n hn => ?_
  obtain rfl : token :: rest = tokens := hcons.symm.trans htokens
  refine advanceBy (Bracket.groupLength_pos hn) hcons fun part hne => ?_
  refine (spanFrom hbehind hfirst hne).imp ?_
  rintro span _ ⟨rfl, hspan⟩
  exact hspan

theorem anglesFirst {next : Unit → Reader β}
    (h : ∀ longer, Walks origin longer (next ()) post) :
    Walks origin run (at? "<" >>= fun opens => if opens then angles >>=
      next else next ()) post := by
  refine .look (.at? "<") fun opens => ?_
  split
  · exact .pass (.of_alike fun _ => .angles) fun _ part => h _
  · exact h run

theorem groupFirst (hordered : Ordered origin.ahead) {next : Unit → Reader β}
    {no : Reader β}
    (h : ∀ longer, longer ≠ [] → Walks origin longer (next ()) post)
    (hno : Walks origin run no post) :
    Walks origin run (at? "(" >>= fun opens => if opens then
      discard Reader.group >>= next else no) post := by
  have hyes (tokens : List Token) (htokens : origin.ahead = run ++ tokens)
      (hfront : frontText tokens = "(") :
      Walks origin run (discard Reader.group >>= next) post := by
    obtain ⟨token, rest, rfl⟩ := exists_cons_of_front hfront (by decide)
    refine (group hordered htokens).discarded.bind ?_
    rintro _ _ ⟨_, part, rfl, hspan⟩
    exact h _ (List.append_ne_nil_of_right_ne_nil _ hspan.ne_nil)
  exact atFront "(" hyes hno

theorem separator {more : Bool} {mayFollow : Reader Bool} {flaw : SyntaxFlaw}
    {next : Unit → Reader β} (hfollow : Keeps mayFollow)
    (h : ∀ part, Walks origin (run ++ part) (next ()) post) :
    Walks origin run
      (if more then Reader.advance >>= next
        else
          mayFollow >>= fun follows => if follows then next ()
            else Reader.fail flaw >>= next) post := by
  split
  · exact pass (.of_alike fun _ => .advance) fun _ => h
  refine look hfollow fun follows => ?_
  split
  · simpa using h []
  · have hfail : Walks origin run (Reader.fail flaw : Reader Unit) fun _ _ =>
        False := fail
    exact hfail.bind fun _ _ => False.elim

theorem ne_nil {reader : Reader β} (h : Walking reader) (hne : run ≠ []) :
    Walks origin run reader fun _ longer => longer ≠ [] :=
  (h origin run).imp fun _ _ ⟨_, hlonger⟩ =>
    hlonger ▸ List.append_ne_nil_of_left_ne_nil hne _

end Walks

end ShapeMend.Script
