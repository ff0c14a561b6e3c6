import ShapeMend.Proofs.Script.Checked.Machine
import ShapeMend.Proofs.Script.Couplings

/-!
# Machines beside readers

A machine on the tape of a stream does what a reader does on its tokens: it ends
with the same value or the same error, at the index where the rest of the tape
are the tokens that the reader has left.  No check fails on the way.
-/

namespace ShapeMend.Script.Checked

open ShapeMend.Text

variable {α β γ : Type}

def ownSymbols : List String := ["(", "[", "\x7b", ";", "=>"]

structure Recording where
  text : List Char
  table : List (Nat × Nat)
  stream : TokenStream
  ends : stream.stop.offset = byteSize text
  bounds : ∀ token ∈ stream.tokens,
    token.span.start.offset < token.span.stop ∧
      token.span.stop ≤ stream.stop.offset
  pieces : ∀ token ∈ stream.tokens, ∃ before lexeme after,
    text = before ++ lexeme ++ after ∧ token.text = String.ofList lexeme ∧
      token.span =
        ⟨.behind before, (Position.behind (before ++ lexeme)).offset⟩
  ordered : stream.tokens.Pairwise fun first later =>
    first.span.stop ≤ later.span.start.offset
  lined : ∀ number, (tabledLine? text table number).isSome
  symbols : ∀ token ∈ stream.tokens,
    token.text ∈ ownSymbols → token.kind = .symbol
  numerals : ∀ token ∈ stream.tokens,
    token.kind = .numeral → Numeral.isWellFormed token.text.toList

namespace Recording

variable (r : Recording)

def tokens : List Token := r.stream.tokens

def tape : Tape := ⟨r.text, r.table, entries r.stream⟩

abbrev Index : Type := Fin (r.tokens.length + 1)

def ahead (i : r.Index) : List Token := r.tokens.drop i

def lastStop (i : r.Index) : Nat :=
  ((r.tokens.take i).getLast?.map (·.span.stop)).getD 0

def cursorAt (i : r.Index) : Cursor := ⟨r.ahead i, r.lastStop i, r.stream.stop⟩

def front (tokens : List Token) : Entry :=
  match tokens with
  | [] => ⟨none, .point r.stream.stop, r.stream.breakBeforeStop⟩
  | token :: _ => .ofToken token

variable {r}

/-! ## Entries -/

theorem length_entries : r.tape.entries.length = r.tokens.length + 1 := by
  simp [tape, entries, tokens]

theorem entries_getElem? (i : r.Index) :
    r.tape.entries[i.val]? = some (r.front (r.ahead i)) := by
  obtain ⟨i, hi⟩ := i
  simp only [tape, entries, ahead, tokens] at hi ⊢
  rcases Nat.lt_or_ge i r.stream.tokens.length with hlt | hge
  · rw [List.getElem?_append_left (by simpa using hlt),
      List.drop_eq_getElem_cons hlt, List.getElem?_map,
      List.getElem?_eq_getElem hlt]
    rfl
  · obtain rfl : i = r.stream.tokens.length := by omega
    simp [front]

/-! ## Ends that agree -/

/-- The machine at an index and the reader at the cursor there end with the same
value and again at one index, or with the same error, which is not that of a
numeral without a value. -/
inductive MirrorsAt (r : Recording) (i : r.Index) (machine : Machine α)
    (reader : Reader α) : Prop
  | ok (value : α) (next : r.Index)
      (hmachine : machine r.tape i = pure (value, next.val))
      (hreader : reader.run (r.cursorAt i) = .ok (value, r.cursorAt next))
  | error (error : SyntaxError) (hmachine : machine r.tape i = throw error)
      (hreader : reader.run (r.cursorAt i) = .error error)
      (hflaw : error.flaw ≠ .numeral)

def Mirrors (r : Recording) (machine : Machine α) (reader : Reader α) : Prop :=
  ∀ i, r.MirrorsAt i machine reader

def Shows (r : Recording) (i : r.Index) (machine : Machine α)
    (value : α) : Prop :=
  machine r.tape i = pure (value, i.val)

def Sees (r : Recording) (i : r.Index) (reader : Reader α) (value : α) : Prop :=
  reader.run (r.cursorAt i) = .ok (value, r.cursorAt i)

variable {i : r.Index}

theorem bind_apply (machine : Machine α) (next : α → Machine β) (tape : Tape)
    (index : Nat) :
    (machine >>= next) tape index = machine tape index >>= fun result =>
      next result.1 tape result.2 :=
  rfl

theorem Shows.then_apply {machine : Machine α} {value : α}
    (h : r.Shows i machine value) (next : α → Machine β) :
    (machine >>= next) r.tape i = next value r.tape i := by
  rw [bind_apply, h, pure_bind]

namespace Shows

variable {machine : Machine α} {value : α}

theorem pure (value : α) : r.Shows i (Pure.pure value) value := rfl

theorem pure_of_eq {other : α} (h : other = value) :
    r.Shows i (Pure.pure other) value := h ▸ pure other

theorem bind {next : α → Machine β} {other : β} (h : r.Shows i machine value)
    (hnext : r.Shows i (next value) other) :
    r.Shows i (machine >>= next) other := (h.then_apply next).trans hnext

theorem read : r.Shows i MonadReader.read r.tape := rfl

theorem get : r.Shows i MonadState.get i.val := rfl

theorem need {result : Option α} (h : result = some value) :
    r.Shows i (Machine.need result) value := by
  rw [h]
  rfl

theorem entryAt (j : r.Index) :
    r.Shows i (Machine.entryAt j.val) (r.front (r.ahead j)) :=
  read.bind (need (entries_getElem? j))

theorem last : r.Shows i Machine.last r.tokens.length :=
  read.bind
    (need (by rw [length_entries, minus?_of_le (by omega), Nat.add_sub_cancel]))

theorem remaining : r.Shows i Machine.remaining (r.ahead i).length :=
  last.bind
    (get.bind (need (by rw [minus?_of_le (by omega), ahead, List.length_drop])))

theorem entry (n : Nat) :
    r.Shows i (Machine.entry n) (r.front ((r.ahead i).drop n)) := by
  have hdrop : r.tokens.drop (min (i.val + n) r.tokens.length) =
      (r.tokens.drop i).drop n := by
    rw [List.drop_drop]
    rcases Nat.le_total (i.val + n) r.tokens.length with hle | hge
    · rw [Nat.min_eq_left hle]
    · rw [Nat.min_eq_right hge, List.drop_length, List.drop_eq_nil_of_le hge]
  have hentry := entryAt (i := i) ⟨min (i.val + n) r.tokens.length, by omega⟩
  rw [ahead, hdrop] at hentry
  exact get.bind (last.bind hentry)

theorem lexeme {token : Token} (h : token ∈ r.tokens) :
    r.Shows i (Machine.lexeme (.ofToken token)) token.text := by
  obtain ⟨before, lexeme, after, htext, hlexeme, hspan⟩ := r.pieces token h
  refine read.bind (need ?_)
  have hslice := slice?_behind htext
  simp only [tape, Entry.text?, Entry.ofToken, hspan, hslice, hlexeme,
    Option.map_some]

theorem textAt (n : Nat) :
    r.Shows i (Machine.textAt n) (frontText ((r.ahead i).drop n)) := by
  refine (entry n).bind ?_
  cases hahead : (r.ahead i).drop n with
  | nil => exact pure _
  | cons token rest =>
      have htoken : token ∈ r.tokens :=
        List.mem_of_mem_drop
          (List.mem_of_mem_drop (hahead ▸ List.mem_cons_self))
      have hlexeme := lexeme (i := i) htoken
      obtain ⟨kind, text, span, breakBefore⟩ := token
      cases kind with
      | word => exact hlexeme
      | symbol => exact hlexeme
      | _ => exact pure _

theorem at? (text : String) :
    r.Shows i (Machine.at? text) (frontText (r.ahead i) = text) :=
  (textAt 0).bind (pure _)

theorem atEnd : r.Shows i Machine.atEnd (r.ahead i).isEmpty := by
  refine (entry 0).bind (pure_of_eq ?_)
  rw [List.drop_zero]
  cases r.ahead i <;> rfl

theorem isWord (n : Nat) :
    r.Shows i (Machine.isWord n) (frontIsWord ((r.ahead i).drop n)) := by
  refine (entry n).bind (pure_of_eq ?_)
  cases (r.ahead i).drop n <;> simp [front, Entry.ofToken, frontIsWord]

theorem isWordOnLine (n : Nat) :
    r.Shows i (Machine.isWordOnLine n)
      (frontIsWordOnLine ((r.ahead i).drop n)) := by
  refine (entry n).bind (pure_of_eq ?_)
  cases (r.ahead i).drop n <;> simp [front, Entry.ofToken, frontIsWordOnLine]

theorem here : r.Shows i Machine.here (r.front (r.ahead i)).span :=
  (entry 0).bind (pure _)

end Shows

namespace Sees

variable {reader : Reader α} {value : α}

theorem pure (value : α) : r.Sees i (Pure.pure value) value := rfl

theorem get : r.Sees i MonadState.get (r.cursorAt i) := rfl

private theorem ahead : r.Sees i Reader.ahead (r.ahead i) := rfl

private theorem remaining : r.Sees i Reader.remaining (r.ahead i).length := rfl

theorem lift (value : α) :
    r.Sees i (liftM (.ok value : Except SyntaxError α)) value := rfl

private theorem textAt (n : Nat) :
    r.Sees i (Reader.textAt n) (frontText ((r.ahead i).drop n)) := rfl

theorem at? (text : String) :
    r.Sees i (Reader.at? text) (frontText (r.ahead i) = text) := rfl

theorem here : r.Sees i Reader.here (r.front (r.ahead i)).span := by
  unfold Sees cursorAt
  cases r.ahead i <;> rfl

end Sees

theorem raise_apply (position : Position) (flaw : SyntaxFlaw) :
    (Machine.raise position flaw : Machine α) r.tape i =
      throw ⟨position, flaw⟩ :=
  (Shows.read.then_apply _).trans
    (congrArg (fun raised : Attempt SyntaxError α => raised >>= fun value =>
    pure (value, i.val)) (raise_eq r.lined position flaw))

namespace MirrorsAt

variable {machine : Machine α} {reader : Reader α} {m : α → Machine β}
  {g : α → Reader β} {value : α}

theorem pure (value : α) : r.MirrorsAt i (Pure.pure value) (Pure.pure value) :=
  .ok value i rfl rfl

theorem found (hmachine : r.Shows i machine value)
    (hreader : r.Sees i reader value) : r.MirrorsAt i machine reader :=
  .ok value i hmachine hreader

theorem shown {reader : Reader β} (h : r.Shows i machine value)
    (hnext : r.MirrorsAt i (m value) reader) :
    r.MirrorsAt i (machine >>= m) reader := by
  have hrun := h.then_apply m
  cases hnext with
  | error error hmachine hreader hflaw =>
      exact .error error (hrun.trans hmachine) hreader hflaw
  | ok value next hmachine hreader =>
      exact .ok value next (hrun.trans hmachine) hreader

theorem seen {machine : Machine β} (h : r.Sees i reader value)
    (hnext : r.MirrorsAt i machine (g value)) :
    r.MirrorsAt i machine (reader >>= g) := by
  have hrun : (reader >>= g).run (r.cursorAt i) =
      (g value).run (r.cursorAt i) := by rw [StateT.run_bind, h]; rfl
  cases hnext with
  | error error hmachine hreader hflaw =>
      exact .error error hmachine (hrun.trans hreader) hflaw
  | ok value next hmachine hreader =>
      exact .ok value next hmachine (hrun.trans hreader)

theorem look (hmachine : r.Shows i machine value)
    (hreader : r.Sees i reader value)
    (hnext : r.MirrorsAt i (m value) (g value)) :
    r.MirrorsAt i (machine >>= m) (reader >>= g) :=
  shown hmachine (seen hreader hnext)

theorem goTo {reader : Reader γ} {g : γ → Reader β} {other : γ} {j : r.Index}
    (hmachine : machine r.tape i = Pure.pure (value, j.val))
    (hreader : reader.run (r.cursorAt i) = .ok (other, r.cursorAt j))
    (hnext : r.MirrorsAt j (m value) (g other)) :
    r.MirrorsAt i (machine >>= m) (reader >>= g) := by
  have hrun : (machine >>= m) r.tape i = m value r.tape j := by
    rw [bind_apply, hmachine, pure_bind]
  have hrun' :
      (reader >>= g).run (r.cursorAt i) = (g other).run (r.cursorAt j) := by
    rw [StateT.run_bind, hreader]
    rfl
  cases hnext with
  | error error hmachine hreader hflaw =>
      exact .error error (hrun.trans hmachine) (hrun'.trans hreader) hflaw
  | ok value next hmachine hreader =>
      exact .ok value next (hrun.trans hmachine) (hrun'.trans hreader)

theorem branch {condition : Prop} [Decidable condition]
    {machine other : Machine α} {reader reader' : Reader α}
    (hthen : condition → r.MirrorsAt i machine reader)
    (helse : ¬condition → r.MirrorsAt i other reader') :
    r.MirrorsAt i (if condition then machine else other)
      (if condition then reader else reader') := by
  by_cases h : condition
  · simpa only [if_pos h] using hthen h
  · simpa only [if_neg h] using helse h

theorem stop {error : SyntaxError}
    (hmachine : machine r.tape i = MonadExcept.throw error)
    (hreader : reader.run (r.cursorAt i) = .error error)
    (hflaw : error.flaw ≠ .numeral) :
    r.MirrorsAt i (machine >>= m) (reader >>= g) := by
  refine .error error ?_ ?_ hflaw
  · rw [bind_apply, hmachine]
    rfl
  · rw [StateT.run_bind, hreader]
    rfl

theorem bind (h : r.MirrorsAt i machine reader)
    (hnext : ∀ value j,
      reader.run (r.cursorAt i) = .ok (value, r.cursorAt j) →
      r.MirrorsAt j (m value) (g value)) :
    r.MirrorsAt i (machine >>= m) (reader >>= g) := by
  cases h with
  | error error hmachine hreader hflaw => exact stop hmachine hreader hflaw
  | ok value next hmachine hreader =>
      exact goTo hmachine hreader (hnext value next hreader)

theorem step (h : r.MirrorsAt i machine reader)
    (hnext : ∀ value, r.Mirrors (m value) (g value)) :
    r.MirrorsAt i (machine >>= m) (reader >>= g) :=
  h.bind fun value j _ => hnext value j

theorem discard (h : r.MirrorsAt i machine reader) :
    r.MirrorsAt i (discard machine) (discard reader) :=
  h.bind fun _ _ _ => pure ()

theorem onAhead {machine : Machine β} {g : List Token → Reader β}
    (h : r.MirrorsAt i machine (g (r.ahead i))) :
    r.MirrorsAt i machine (Reader.ahead >>= g) := seen .ahead h

theorem remaining {m : Nat → Machine β} {g : Nat → Reader β}
    (h : r.MirrorsAt i (m (r.ahead i).length) (g (r.ahead i).length)) :
    r.MirrorsAt i (Machine.remaining >>= m) (Reader.remaining >>= g) :=
  look .remaining .remaining h

theorem textAt (n : Nat) {m : String → Machine β} {g : String → Reader β}
    (h : r.MirrorsAt i (m (frontText ((r.ahead i).drop n)))
      (g (frontText ((r.ahead i).drop n)))) :
    r.MirrorsAt i (Machine.textAt n >>= m) (Reader.textAt n >>= g) :=
  look (.textAt n) (.textAt n) h

theorem at? (text : String) {m : Bool → Machine β} {g : Bool → Reader β}
    (h : ∀ found : Bool,
      (found → frontText (r.ahead i) = text) →
      r.MirrorsAt i (m found) (g found)) :
    r.MirrorsAt i (Machine.at? text >>= m) (Reader.at? text >>= g) :=
  look (.at? text) (.at? text) (h _ of_decide_eq_true)

theorem throw (position : Position) (flaw : SyntaxFlaw)
    (hflaw : flaw ≠ .numeral) :
    r.MirrorsAt i (Machine.raise position flaw : Machine α)
      (throw ⟨position, flaw⟩) :=
  .error ⟨position, flaw⟩ (raise_apply position flaw) rfl hflaw

theorem fail (flaw : SyntaxFlaw) (hflaw : flaw ≠ .numeral) :
    r.MirrorsAt i (Machine.fail flaw : Machine α) (Reader.fail flaw) :=
  look .here .here (throw _ flaw hflaw)

end MirrorsAt

/-! ## Moves -/

theorem lt_of_ahead {token : Token} {rest : List Token}
    (h : r.ahead i = token :: rest) : i.val < r.tokens.length := by
  have hlength := congrArg List.length h
  rw [ahead, List.length_drop, List.length_cons] at hlength
  omega

theorem lastStop_next {token : Token} {rest : List Token}
    (h : r.ahead i = token :: rest) {j : r.Index} (hj : j.val = i.val + 1) :
    r.lastStop j = token.span.stop := by
  have hget : r.tokens[i.val]? = some token := by
    rw [← List.head?_drop]
    exact congrArg List.head? h
  rw [lastStop, hj, List.take_add_one, hget, Option.toList_some,
    List.getLast?_concat, Option.map_some, Option.getD_some]

theorem ahead_next {j : r.Index} (hj : j.val = i.val + 1) :
    r.ahead j = (r.ahead i).drop 1 := by
  rw [ahead, hj, ahead, List.drop_drop]

theorem cursorAt_next {token : Token} {rest : List Token}
    (h : r.ahead i = token :: rest) {j : r.Index} (hj : j.val = i.val + 1) :
    r.cursorAt j = (r.cursorAt i).advanced := by
  simp only [cursorAt, Cursor.advanced, h, lastStop_next h hj, ahead_next hj,
    List.drop_succ_cons, List.drop_zero]

theorem advance_then_apply {token : Token} {rest : List Token}
    (h : r.ahead i = token :: rest) (next : Unit → Machine β) :
    ∃ j : r.Index, j.val = i.val + 1 ∧ r.ahead j = rest ∧
      (Machine.advance >>= next) r.tape i = next () r.tape j := by
  have hi := lt_of_ahead h
  refine ⟨⟨i.val + 1, by omega⟩, rfl,
    (ahead_next rfl).trans (congrArg (List.drop 1) h), ?_⟩
  have hadvance : Machine.advance r.tape i = pure ((), i.val + 1) := by
    rw [Machine.advance, Shows.get.then_apply, Shows.last.then_apply, if_pos hi]
    rfl
  rw [bind_apply, hadvance, pure_bind]

namespace MirrorsAt

theorem advance : r.MirrorsAt i Machine.advance Reader.advance := by
  refine shown .get (shown .last ?_)
  cases hahead : r.ahead i with
  | nil =>
      have hend : r.tokens.length ≤ i.val := List.drop_eq_nil_iff.mp hahead
      have hcursor : (r.cursorAt i).advanced = r.cursorAt i := by
        simp only [Cursor.advanced, cursorAt, hahead]
      rw [if_neg (Nat.not_lt.mpr hend)]
      exact .ok () i rfl
        (congrArg (fun cursor => Except.ok ((), cursor)) hcursor)
  | cons token rest =>
      have hi := lt_of_ahead hahead
      rw [if_pos hi]
      exact .ok () ⟨i.val + 1, by omega⟩ rfl
        (congrArg (fun cursor => Except.ok ((), cursor))
          (cursorAt_next hahead rfl).symm)

theorem advanceThen {m : Unit → Machine β} {g : Unit → Reader β}
    (hnext : ∀ j : r.Index,
      r.ahead j = (r.ahead i).drop 1 → r.MirrorsAt j (m ()) (g ())) :
    r.MirrorsAt i (Machine.advance >>= m) (Reader.advance >>= g) := by
  refine advance.bind fun _ j hrun => hnext j ?_
  have hcursor : (r.cursorAt i).advanced = r.cursorAt j :=
    (Prod.mk.inj (Except.ok.inj hrun)).2
  have hahead := (r.cursorAt i).ahead_advanced
  rwa [hcursor] at hahead

theorem pass {token : Token} {rest : List Token} (h : r.ahead i = token :: rest)
    {m : Unit → Machine β} {g : Unit → Reader β}
    (hnext : ∀ j : r.Index, r.ahead j = rest → r.MirrorsAt j (m ()) (g ())) :
    r.MirrorsAt i (Machine.advance >>= m) (Reader.advance >>= g) :=
  advanceThen fun j hj => hnext j (hj.trans (congrArg (List.drop 1) h))

theorem skip (text : String) :
    r.MirrorsAt i (Machine.skip text) (Reader.skip text) := by
  refine at? text fun found _ => ?_
  refine branch (fun _ => ?_) fun _ => ?_
  · exact advance
  · exact pure ()

theorem expect (text : String) (place : Place) :
    r.MirrorsAt i (Machine.expect text place) (Reader.expect text place) := by
  refine look .here .here ?_
  refine at? text fun found _ => ?_
  refine branch (fun _ => ?_) fun _ => ?_
  · exact advance.step fun _ _ => pure _
  · exact fail _ (by rintro ⟨⟩)

theorem name (place : Place) :
    r.MirrorsAt i (Machine.name place) (Reader.name place) := by
  refine shown (.entry 0) (onAhead ?_)
  rw [List.drop_zero]
  cases hahead : r.ahead i with
  | nil => exact fail _ (by rintro ⟨⟩)
  | cons token rest =>
      have htoken : token ∈ r.tokens :=
        List.mem_of_mem_drop (hahead ▸ List.mem_cons_self)
      simp only [front, Entry.ofToken, Option.some.injEq]
      split
      · exact advance.step fun _ j => shown (.lexeme htoken) (pure _)
      · exact fail _ (by rintro ⟨⟩)

private theorem loop {test : Machine Bool} {condition : List Token → Bool}
    (htest : ∀ j : r.Index, r.Shows j test (condition (r.ahead j))) :
    r.MirrorsAt i (Machine.remaining >>= Machine.skipWhile test)
      (Reader.skipWhile condition) := by
  refine shown .remaining (onAhead ?_)
  generalize hahead : r.ahead i = tokens
  induction tokens generalizing i with
  | nil => exact pure ()
  | cons token rest ih =>
      have hfront := htest i
      rw [hahead] at hfront
      refine shown hfront ?_
      rw [Reader.runLength]
      split
      · exact pass hahead fun j hj => ih hj
      · exact pure ()

theorem skipWhile {test : Machine Bool} {condition : List Token → Bool}
    {m : Unit → Machine β} {g : Unit → Reader β}
    (htest : ∀ j : r.Index, r.Shows j test (condition (r.ahead j)))
    (hnext : r.Mirrors (m ()) (g ())) :
    r.MirrorsAt i
      (Machine.remaining >>= fun bound => Machine.skipWhile test bound >>= m)
      (Reader.skipWhile condition >>= g) := by
  rw [← bind_assoc]
  exact (loop htest).step fun _ => hnext

theorem separated (separator : String) {item : Machine α} {reader : Reader α}
    (hitem : r.Mirrors item reader) (bound : Nat) :
    r.MirrorsAt i (Machine.separated separator item bound)
      (Reader.separated separator reader bound) := by
  induction bound generalizing i with
  | zero => exact (hitem i).step fun _ _ => pure _
  | succ bound ih =>
      refine (hitem i).step fun first j => ?_
      refine at? separator fun more _ => ?_
      refine branch (fun _ => ?_) fun _ => ?_
      · refine advance.step fun _ _ => ?_
        exact ih.step fun _ _ => pure _
      · exact pure _

end MirrorsAt

/-! ## Spans -/

def Reaches (r : Recording) (span : Span) : Prop :=
  (r.front r.tokens).span.stop ≤ span.stop

theorem reaches_front (i : r.Index) : r.Reaches (r.front (r.ahead i)).span := by
  have hmem : ∀ token ∈ r.ahead i, token ∈ r.tokens :=
    fun _ => List.mem_of_mem_drop
  unfold Reaches
  generalize r.ahead i = ahead at hmem
  cases htokens : r.tokens with
  | nil =>
      cases ahead with
      | nil => exact Nat.le_refl _
      | cons token _ =>
          exact absurd (htokens ▸ hmem token List.mem_cons_self)
            List.not_mem_nil
  | cons first rest =>
      have hfirst : first ∈ r.tokens := htokens ▸ List.mem_cons_self
      have hordered := r.ordered
      rw [← tokens, htokens, List.pairwise_cons] at hordered
      cases ahead with
      | nil => exact (r.bounds first hfirst).2
      | cons token _ =>
          have htoken := hmem token List.mem_cons_self
          have hstart := (r.bounds token htoken).1
          rw [htokens] at htoken
          rcases List.mem_cons.mp htoken with rfl | hlater
          · exact Nat.le_refl _
          · exact Nat.le_trans (hordered.1 token hlater) (Nat.le_of_lt hstart)

private theorem Sees.spanFrom (first : Span) :
    r.Sees i (Reader.spanFrom first)
      { first with stop := max (r.lastStop i) first.stop } :=
  rfl

private theorem Shows.spanFrom {first : Span} (hfirst : r.Reaches first) :
    r.Shows i (Machine.spanFrom first)
      { first with stop := max (r.lastStop i) first.stop } := by
  let before : r.Index := ⟨i.val - 1, by omega⟩
  refine get.bind
    ((entryAt before).bind (pure_of_eq (congrArg (Span.mk first.start) ?_)))
  rcases Nat.eq_zero_or_pos i.val with hzero | hpos
  · have hahead : r.ahead before = r.tokens := by simp [ahead, before, hzero]
    have hlast : r.lastStop i = 0 := by simp [lastStop, hzero]
    rw [hahead, hlast, Nat.zero_max, Nat.max_eq_right hfirst]
  · have hi : i.val = before.val + 1 := by simp only [before]; omega
    cases hahead : r.ahead before with
    | nil =>
        rw [ahead, List.drop_eq_nil_iff] at hahead
        omega
    | cons token rest => rw [lastStop_next hahead hi, front, Entry.ofToken]

theorem MirrorsAt.spanFrom {first : Span} (hfirst : r.Reaches first) :
    r.MirrorsAt i (Machine.spanFrom first) (Reader.spanFrom first) :=
  .ok _ i (Shows.spanFrom hfirst) (Sees.spanFrom first)

end Recording

end ShapeMend.Script.Checked
