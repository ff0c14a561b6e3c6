import ShapeMend.Proofs.Script.Checked.Recordings
import ShapeMend.Proofs.Script.Passing

/-!
# Brackets on a tape

A group that begins with its bracket ends on the tape, before the last entry, or
is an error.  Angle brackets that begin with one of their own are never closed
more often than opened.
-/

namespace ShapeMend.Script.Checked.Recording

open ShapeMend.Text

variable {α β : Type} {r : Recording} {i : r.Index}

def Indexes (r : Recording) (stack : List Nat) (opened : List Token) : Prop :=
  stack.map (r.tokens[·]?) = opened.map some

private theorem Indexes.exists_last {stack : List Nat} {opened : List Token}
    (h : r.Indexes stack opened) (hne : opened ≠ []) :
    ∃ index token, stack.getLast? = some index ∧ opened.getLast? = some token ∧
      r.tokens[index]? = some token := by
  have htoken : opened.getLast? = some (opened.getLast hne) :=
    List.getLast?_eq_getLast_of_ne_nil hne
  have hlast := congrArg List.getLast? h
  rw [List.getLast?_map, List.getLast?_map, htoken] at hlast
  obtain ⟨index, hindex, hread⟩ := Option.map_eq_some_iff.mp hlast
  exact ⟨index, _, hindex, htoken, hread⟩

private theorem Indexes.exists_cons {stack : List Nat} {token : Token}
    {opened : List Token} (h : r.Indexes stack (token :: opened)) :
    ∃ index below, stack = index :: below ∧
      r.tokens[index]? = some token ∧ r.Indexes below opened := by
  cases stack with
  | nil => cases h
  | cons index below =>
      obtain ⟨htoken, hbelow⟩ := List.cons_eq_cons.mp h
      exact ⟨index, below, rfl, htoken, hbelow⟩

theorem getElem?_of_ahead {token : Token} {rest : List Token}
    (h : r.ahead i = token :: rest) : r.tokens[i.val]? = some token := by
  rw [← List.head?_drop]
  exact congrArg List.head? h

private theorem Shows.entryOf {index : Nat} {token : Token}
    (h : r.tokens[index]? = some token) :
    r.Shows i (Machine.entryAt index) (.ofToken token) := by
  obtain ⟨hlt, htoken⟩ := List.getElem?_eq_some_iff.mp h
  have hentry := entryAt (i := i) ⟨index, by omega⟩
  rwa [ahead, List.drop_eq_getElem_cons hlt, htoken] at hentry

def Answers (r : Recording) (i : r.Index) (machine : Machine α)
    (outcome : Except SyntaxError α) : Prop :=
  machine r.tape i = Attempt.sound (outcome.map (·, i.val))

namespace Answers

variable {machine : Machine α} {next : α → Machine β} {value : α}
  {outcome : Except SyntaxError β}

theorem pure (value : α) : r.Answers i (Pure.pure value) (.ok value) := rfl

theorem pure_of_eq {value other : α} (h : value = other) :
    r.Answers i (Pure.pure value) (.ok other) := h ▸ pure value

theorem shown (h : r.Shows i machine value)
    (hnext : r.Answers i (next value) outcome) :
    r.Answers i (machine >>= next) outcome := by
  rw [Answers, bind_apply, h, pure_bind]
  exact hnext

theorem raise (position : Position) (flaw : SyntaxFlaw) :
    r.Answers i (Machine.raise position flaw : Machine α)
      (.error ⟨position, flaw⟩) :=
  raise_apply position flaw

theorem shift {machine : Machine Nat} {j : Nat}
    {length : Except SyntaxError Nat}
    (h : r.Answers i machine (length.map (j + 1 + · - 1))) :
    r.Answers i machine
      ((length >>= fun n => .ok (n + 1)).map (j + · - 1)) := by
  cases length with
  | error error => exact h
  | ok n =>
      have hindex : j + (n + 1) - 1 = j + 1 + n - 1 := by omega
      exact (congrArg (fun index => r.Answers i machine (.ok index)) hindex).mpr
        h

end Answers

private theorem closeFrom_answers (opener : Nat) {stack : List Nat}
    {opened : List Token} (hstack : r.Indexes stack opened) (hne : opened ≠ [])
    (j : r.Index) :
    r.Answers i (Machine.closeFrom opener stack j ((r.ahead j).length + 1))
      ((Bracket.groupLength opened (r.ahead j)).map (j.val + · - 1)) := by
  -- Over the tokens that are left. The machine keeps indices on its stack where
  -- the count keeps the brackets.
  generalize hahead : r.ahead j = tokens
  induction tokens generalizing j stack opened with
  | nil =>
      refine .shown (.entryAt j) ?_
      rw [hahead]
      obtain ⟨index, bottom, hindex, hbottom, htoken⟩ := hstack.exists_last hne
      rw [Bracket.groupLength, hbottom, Machine.closeFrom, hindex]
      exact .shown (.entryOf htoken)
        (.shown (.lexeme (List.mem_of_getElem? htoken)) (.raise _ _))
  | cons token rest ih =>
      have htoken : token ∈ r.tokens :=
        List.mem_of_mem_drop (hahead ▸ List.mem_cons_self)
      have hrest {stack opened} (hstack : r.Indexes stack opened)
          (hne : opened ≠ []) :
          r.Answers i
            (Machine.closeFrom opener stack (j.val + 1) (rest.length + 1)) ((do
            let opened ← Except.ok opened
            if opened.isEmpty then return 1
            else
              return (← Bracket.groupLength opened rest) + 1).map
                (j.val + · - 1)) := by
        have hj := lt_of_ahead hahead
        have hmore :=
          ih hstack hne ⟨j.val + 1, by omega⟩
            (by rw [ahead_next rfl, hahead]; rfl)
        change r.Answers i _ (Except.map _ (if opened.isEmpty then .ok 1
          else Bracket.groupLength opened rest >>= fun n => .ok (n + 1)))
        rw [if_neg (by simpa using hne)]
        exact .shift hmore
      refine .shown (.entryAt j) ?_
      rw [hahead, Bracket.groupLength]
      fun_cases Bracket.track opened token with
      | case1 _ hkind =>
          rw [if_pos (by simpa [front, Entry.ofToken] using hkind)]
          exact hrest hstack hne
      | case2 _ hkind hopener =>
          rw [if_neg (by simpa [front, Entry.ofToken] using hkind)]
          refine .shown (.lexeme htoken) ?_
          rw [if_pos hopener]
          exact hrest (congrArg₂ List.cons (getElem?_of_ahead hahead) hstack)
            (List.cons_ne_nil _ _)
      | case3 => exact absurd rfl hne
      | case4 hkind hopener hcloser innermost below hmatch =>
          rw [if_neg (by simpa [front, Entry.ofToken] using hkind)]
          refine .shown (.lexeme htoken) ?_
          rw [if_neg hopener, if_pos hcloser]
          obtain ⟨index, stack, rfl, hindex, hbelow⟩ := hstack.exists_cons
          refine .shown (.entryOf hindex)
            (.shown (.lexeme (List.mem_of_getElem? hindex)) ?_)
          rw [if_pos hmatch]
          cases below with
          | nil =>
              obtain rfl := List.map_eq_nil_iff.mp hbelow
              exact .pure j.val
          | cons outer below =>
              obtain ⟨_, _, rfl, -⟩ := hbelow.exists_cons
              exact hrest hbelow (List.cons_ne_nil _ _)
      | case5 hkind hopener hcloser innermost below hmatch =>
          rw [if_neg (by simpa [front, Entry.ofToken] using hkind)]
          refine .shown (.lexeme htoken) ?_
          rw [if_neg hopener, if_pos hcloser]
          obtain ⟨index, stack, rfl, hindex, -⟩ := hstack.exists_cons
          refine .shown (.entryOf hindex)
            (.shown (.lexeme (List.mem_of_getElem? hindex)) ?_)
          rw [if_neg hmatch]
          exact .raise _ _
      | case6 _ hkind hopener hcloser =>
          rw [if_neg (by simpa [front, Entry.ofToken] using hkind)]
          refine .shown (.lexeme htoken) ?_
          rw [if_neg hopener, if_neg hcloser]
          exact hrest hstack hne

theorem syntacticText_eq {token : Token} (h : token.syntacticText ≠ "") :
    token.syntacticText = token.text := by
  unfold Token.syntacticText at h ⊢
  split at h
  · rfl
  · rfl
  · exact absurd rfl h

theorem exists_opener (h : Bracket.isOpener (frontText (r.ahead i))) :
    ∃ token rest, r.ahead i = token :: rest ∧ token ∈ r.tokens ∧
      token.kind = .symbol ∧
      Bracket.isOpener token.text := by
  cases hahead : r.ahead i with
  | nil =>
      rw [hahead] at h
      exact absurd h (by decide)
  | cons token rest =>
      have htoken : token ∈ r.tokens :=
        List.mem_of_mem_drop (hahead ▸ List.mem_cons_self)
      rw [hahead, frontText, syntacticText_eq] at h
      · have hown : token.text ∈ ownSymbols := by
          simp only [Bracket.isOpener, Bool.or_eq_true, decide_eq_true_eq] at h
          rcases h with (h | h) | h <;> simp [ownSymbols, h]
        exact ⟨token, rest, rfl, htoken, r.symbols token htoken hown, h⟩
      · intro hempty
        rw [hempty] at h
        exact absurd h (by decide)

private theorem matchingClose_answers
    (h : Bracket.isOpener (frontText (r.ahead i))) :
    r.Answers i (Machine.matchingClose i.val)
      ((Bracket.groupLength [] (r.ahead i)).map (i.val + · - 1)) := by
  obtain ⟨token, rest, hahead, htoken, hkind, hopener⟩ := exists_opener h
  have hi := lt_of_ahead hahead
  have hlength :
      minus? r.tape.entries.length i.val = some ((r.ahead i).length + 1) := by
    rw [length_entries, minus?_of_le (by omega), ahead, List.length_drop]
    exact congrArg some (by omega)
  have hindexes : r.Indexes [i.val] [token] :=
    congrArg (fun token => [token]) (getElem?_of_ahead hahead)
  have hrest := closeFrom_answers (i := i) i.val hindexes (List.cons_ne_nil _ _)
      ⟨i.val + 1, by omega⟩
  rw [ahead_next rfl, hahead, List.drop_succ_cons, List.drop_zero] at hrest
  have htrack : Bracket.track [] token = .ok [token] := by
    simp [Bracket.track, hkind, hopener]
  refine .shown .read (.shown (.need hlength) (.shown (.entryAt i) ?_))
  rw [hahead, Bracket.groupLength, htrack,
    if_neg (by simp [front, Entry.ofToken, hkind])]
  refine .shown (.lexeme htoken) ?_
  rw [if_pos hopener]
  exact .shift hrest

/-! ## Groups -/

theorem flaw_of_track {stack : List Token} {token : Token} {error : SyntaxError}
    (h : Bracket.track stack token = .error error) : error.flaw ≠ .numeral := by
  revert h
  fun_cases Bracket.track stack token <;> rintro ⟨⟩ ⟨⟩

private theorem flaw_of_groupLength {stack tokens : List Token}
    {error : SyntaxError}
    (h : Bracket.groupLength stack tokens = .error error) :
    error.flaw ≠ .numeral := by
  induction tokens generalizing stack with
  | nil =>
      rw [Bracket.groupLength] at h
      split at h <;> cases h
      rintro ⟨⟩
  | cons token rest ih =>
      rw [Bracket.groupLength] at h
      cases htrack : Bracket.track stack token with
      | error fault =>
          rw [htrack] at h
          obtain rfl := Except.error.inj h
          exact flaw_of_track htrack
      | ok within =>
          rw [htrack] at h
          change (if within.isEmpty then .ok 1
            else Bracket.groupLength within rest >>= fun n => .ok (n + 1)) =
            Except.error error at h
          split at h
          · cases h
          cases hrest : Bracket.groupLength within rest with
          | ok n =>
              rw [hrest] at h
              cases h
          | error fault =>
              rw [hrest] at h
              obtain rfl := Except.error.inj h
              exact ih hrest

private theorem groupLength_le {stack tokens : List Token} {n : Nat}
    (h : Bracket.groupLength stack tokens = .ok n) : n ≤ tokens.length := by
  induction tokens generalizing stack n with
  | nil =>
      rw [Bracket.groupLength] at h
      split at h
      · cases h
      · exact Nat.le_of_eq (Except.ok.inj h).symm
  | cons token rest ih =>
      rw [Bracket.groupLength, SyntaxError.bind_eq_ok] at h
      obtain ⟨within, -, h⟩ := h
      split at h
      · obtain rfl := Except.ok.inj h
        exact Nat.le_add_left ..
      · obtain ⟨m, hm, rfl⟩ := Bracket.bind_succ_eq_ok.mp h
        exact Nat.succ_le_succ (ih hm)

theorem run_advanceBy {n : Nat} {j : r.Index} (h : j.val = i.val + n) :
    (Reader.advanceBy n).run (r.cursorAt i) = .ok ((), r.cursorAt j) := by
  induction n generalizing i with
  | zero =>
      obtain rfl : j = i := Fin.ext h
      rfl
  | succ n ih =>
      have hahead : r.ahead i = _ := List.drop_eq_getElem_cons (by omega)
      have hcursor := cursorAt_next hahead (j := ⟨i.val + 1, by omega⟩) rfl
      have hrest := ih (i := ⟨i.val + 1, by omega⟩) (by simp only; omega)
      rw [hcursor] at hrest
      exact hrest

theorem moveTo_apply (j : r.Index) :
    Machine.moveTo j.val r.tape i = pure ((), j.val) := by
  rw [Machine.moveTo, bind_apply, Shows.entryAt j, pure_bind]
  rfl

/-! ## Angle brackets -/

private theorem track_opener {token : Token} (stack : List Token)
    (hkind : token.kind = .symbol) (hopener : Bracket.isOpener token.text) :
    Bracket.track stack token = .ok (token :: stack) := by
  simp [Bracket.track, hkind, hopener]

theorem lengths_succ (length : Except SyntaxError Nat)
    (later : Nat → Except SyntaxError Nat) :
    ((length >>= fun n => (later (n + 1)).map (n + ·)) >>=
      fun m => .ok (m + 1)) =
      (length >>= fun n => .ok (n + 1)) >>= fun n => (later n).map (n + ·) := by
  cases length with
  | error error => rfl
  | ok n =>
      change ((later (n + 1)).map (n + ·) >>= fun m => .ok (m + 1)) =
        (later (n + 1)).map (n + 1 + ·)
      cases later (n + 1) with
      | error error => rfl
      | ok m => exact congrArg Except.ok (Nat.add_right_comm n m 1)

private theorem anglesLength_within (opener : Token) (depth : Nat)
    {stack tokens : List Token} (hne : stack ≠ []) :
    Bracket.anglesLength opener depth stack tokens =
      Bracket.groupLength stack tokens >>= fun n =>
      (Bracket.anglesLength opener depth [] (tokens.drop n)).map (n + ·) := by
  induction tokens generalizing stack with
  | nil =>
      obtain ⟨bottom, hbottom⟩ : ∃ bottom, stack.getLast? = some bottom :=
        ⟨_, List.getLast?_eq_getLast_of_ne_nil hne⟩
      rw [Bracket.anglesLength, Bracket.groupLength, hbottom]
      rfl
  | cons token rest ih =>
      have hinside : (!stack.isEmpty || Bracket.isOpener token.syntacticText) =
          true := by simp [hne]
      rw [Bracket.anglesLength, if_pos hinside, Bracket.groupLength]
      cases Bracket.track stack token with
      | error error => rfl
      | ok within =>
          cases within with
          | nil =>
              change (Bracket.anglesLength opener depth [] rest >>=
                fun m => .ok (m + 1)) =
                (Bracket.anglesLength opener depth [] rest).map (1 + ·)
              cases Bracket.anglesLength opener depth [] rest with
              | error error => rfl
              | ok m => exact congrArg Except.ok (Nat.add_comm m 1)
          | cons innermost below =>
              change (Bracket.anglesLength opener depth (innermost :: below)
                rest >>= fun m => .ok (m + 1)) = _
              rw [ih (List.cons_ne_nil _ _)]
              exact lengths_succ _ fun n =>
                Bracket.anglesLength opener depth [] ((token :: rest).drop n)

private theorem anglesLength_group (opener : Token) (depth : Nat)
    {token : Token} {rest : List Token} (hkind : token.kind = .symbol)
    (hopener : Bracket.isOpener token.text) :
    Bracket.anglesLength opener depth [] (token :: rest) =
      Bracket.groupLength [] (token :: rest) >>= fun n =>
      (Bracket.anglesLength opener depth [] ((token :: rest).drop n)).map
        (n + ·) := by
  have htext : token.syntacticText = token.text := by
    simp [Token.syntacticText, hkind]
  have hopens :
      (!([] : List Token).isEmpty || Bracket.isOpener token.syntacticText) =
      true := by
    rw [htext, hopener]
    rfl
  rw [Bracket.anglesLength, if_pos hopens, Bracket.groupLength,
    track_opener [] hkind hopener]
  change (Bracket.anglesLength opener depth [token] rest >>=
    fun m => .ok (m + 1)) = _
  rw [anglesLength_within opener depth (List.cons_ne_nil _ _)]
  exact lengths_succ _ fun n =>
    Bracket.anglesLength opener depth [] ((token :: rest).drop n)

def along (length : List Token → Except SyntaxError Nat) : Reader Unit := do
  Reader.advanceBy (← length (← Reader.ahead))

private theorem advanceBy_add (n m : Nat) (cursor : Cursor) :
    (Reader.advanceBy (n + m)).run cursor =
    (Reader.advanceBy n >>= fun _ => Reader.advanceBy m).run cursor := by
  induction n generalizing cursor with
  | zero => rw [Nat.zero_add]; rfl
  | succ n ih =>
      rw [Nat.succ_add]
      exact ih cursor.advanced

theorem run_along (length : List Token → Except SyntaxError Nat) :
    (along length).run (r.cursorAt i) =
    length (r.ahead i) >>= fun n =>
      (Reader.advanceBy n).run (r.cursorAt i) := by
  change ((liftM (length (r.ahead i)) : Reader Nat) >>= Reader.advanceBy).run
    (r.cursorAt i) = _
  cases length (r.ahead i) <;> rfl

namespace MirrorsAt

variable {machine : Machine α} {reader other : Reader α}

theorem insteadOf (h : r.MirrorsAt i machine reader)
    (hrun : other.run (r.cursorAt i) = reader.run (r.cursorAt i)) :
    r.MirrorsAt i machine other := by
  cases h with
  | error error hmachine hreader hflaw =>
      exact .error error hmachine (hrun.trans hreader) hflaw
  | ok value next hmachine hreader =>
      exact .ok value next hmachine (hrun.trans hreader)

theorem passAlong {token : Token} {rest : List Token}
    (hahead : r.ahead i = token :: rest) {m : Unit → Machine Unit}
    {length : List Token → Except SyntaxError Nat}
    (later : List Token → Except SyntaxError Nat)
    (hlength : length (token :: rest) = later rest >>= fun n => .ok (n + 1))
    (h : ∀ j : r.Index, r.ahead j = rest → r.MirrorsAt j (m ()) (along later)) :
    r.MirrorsAt i (Machine.advance >>= m) (along length) := by
  have hpass := pass (g := fun _ => along later) hahead h
  refine hpass.insteadOf ?_
  have hi := lt_of_ahead hahead
  have hcursor := cursorAt_next hahead (j := ⟨i.val + 1, by omega⟩) rfl
  have hnext := ahead_next (i := i) (j := ⟨i.val + 1, by omega⟩) rfl
  have hadvance : (Reader.advance >>= fun _ => along later).run (r.cursorAt i) =
      (along later).run (r.cursorAt ⟨i.val + 1, by omega⟩) := by
    rw [hcursor]
    rfl
  rw [hadvance, run_along, run_along, hnext, hahead, List.drop_succ_cons,
    List.drop_zero, hlength]
  cases later rest with
  | error error => rfl
  | ok n =>
      rw [hcursor]
      rfl

end MirrorsAt

theorem exists_behindGroup (h : Bracket.isOpener (frontText (r.ahead i)))
    {n : Nat} (hlength : Bracket.groupLength [] (r.ahead i) = .ok n) :
    ∃ j : r.Index, j.val = i.val + n ∧ i.val < j.val := by
  obtain ⟨token, rest, hahead, -⟩ := exists_opener h
  have hle := groupLength_le hlength
  rw [ahead, List.length_drop] at hle
  have hpos : 0 < n := by
    rw [hahead] at hlength
    exact Bracket.groupLength_pos hlength
  have hi := lt_of_ahead hahead
  exact ⟨⟨i.val + n, by omega⟩, rfl, by simp only; omega⟩

/-- The machine looks for the bracket that closes a group where the reader
counts its tokens. -/
theorem MirrorsAt.close (h : Bracket.isOpener (frontText (r.ahead i)))
    {m : Nat → Machine α} {g : Nat → Reader α}
    (hnext : ∀ (n : Nat) (j : r.Index),
      j.val = i.val + n → i.val + n - 1 + 1 = j.val →
      r.MirrorsAt i (m (i.val + n - 1)) (g n)) :
    r.MirrorsAt i (Machine.matchingClose i.val >>= m)
      (liftM (Bracket.groupLength [] (r.ahead i)) >>= g) := by
  have hclose := matchingClose_answers h
  cases hlength : Bracket.groupLength [] (r.ahead i) with
  | error error =>
      rw [hlength] at hclose
      exact stop hclose rfl (flaw_of_groupLength hlength)
  | ok n =>
      rw [hlength] at hclose
      obtain ⟨j, hj, hlt⟩ := exists_behindGroup h hlength
      exact shown hclose (seen (.lift n) (hnext n j hj (by omega)))

theorem MirrorsAt.group (h : Bracket.isOpener (frontText (r.ahead i))) :
    r.MirrorsAt i Machine.group Reader.group := by
  refine look .here .here
    (shown .get (onAhead (close h fun n j hj hclosed => ?_)))
  have hmove : Machine.moveTo (i.val + n - 1 + 1) r.tape i =
      Pure.pure ((), j.val) := by
    rw [hclosed]
    exact moveTo_apply j
  exact goTo hmove (run_advanceBy hj) (.spanFrom (reaches_front i))

private theorem run_discard_group :
    (Functor.discard Reader.group).run (r.cursorAt i) =
    Bracket.groupLength [] (r.ahead i) >>= fun n =>
      (Reader.advanceBy n).run (r.cursorAt i) := by
  have hdiscard : (Functor.discard Reader.group : Reader Unit) =
      Reader.group >>= fun _ => pure () := rfl
  have hhere : Reader.here.run (r.cursorAt i) =
      .ok ((r.front (r.ahead i)).span, r.cursorAt i) := Sees.here
  rw [hdiscard, Reader.group]
  simp only [bind_assoc, StateT.run_bind]
  rw [hhere]
  change (do
    let result ← (liftM (Bracket.groupLength [] (r.ahead i)) : Reader Nat).run
        (r.cursorAt i)
    let behind ← (Reader.advanceBy result.1).run result.2
    Except.ok ((), behind.2)) = _
  cases Bracket.groupLength [] (r.ahead i) with
  | error error => rfl
  | ok n =>
      change ((Reader.advanceBy n).run (r.cursorAt i) >>=
        fun result => .ok ((), result.2)) =
        (Reader.advanceBy n).run (r.cursorAt i)
      cases (Reader.advanceBy n).run (r.cursorAt i) <;> rfl

private theorem MirrorsAt.groupAlong
    (h : Bracket.isOpener (frontText (r.ahead i))) {m : Unit → Machine Unit}
    {length later : List Token → Except SyntaxError Nat}
    (hlength : length (r.ahead i) = Bracket.groupLength [] (r.ahead i) >>=
      fun n => (later ((r.ahead i).drop n)).map (n + ·))
    (hnext : ∀ j : r.Index,
      (r.ahead j).length < (r.ahead i).length →
      r.MirrorsAt j (m ()) (along later)) :
    r.MirrorsAt i (Functor.discard Machine.group >>= m) (along length) := by
  have hbehind {n : Nat} (hgroup : Bracket.groupLength [] (r.ahead i) = .ok n) :
      ∃ j : r.Index,
      (Reader.advanceBy n).run (r.cursorAt i) = .ok ((), r.cursorAt j) ∧
        (r.ahead i).drop n = r.ahead j ∧
        (r.ahead j).length < (r.ahead i).length := by
    obtain ⟨j, hj, hlt⟩ := exists_behindGroup h hgroup
    refine ⟨j, run_advanceBy hj, by rw [ahead, List.drop_drop, ahead, hj], ?_⟩
    rw [ahead, ahead, List.length_drop, List.length_drop]
    omega
  have hrun : (along length).run (r.cursorAt i) =
      ((Functor.discard Reader.group : Reader Unit) >>=
        fun _ => along later).run (r.cursorAt i) := by
    rw [run_along, hlength, StateT.run_bind, run_discard_group]
    cases hgroup : Bracket.groupLength [] (r.ahead i) with
    | error error => rfl
    | ok n =>
        obtain ⟨j, hadvance, hdrop, -⟩ := hbehind hgroup
        change ((later ((r.ahead i).drop n)).map (n + ·) >>=
          fun n => (Reader.advanceBy n).run (r.cursorAt i)) =
          (Reader.advanceBy n).run (r.cursorAt i) >>= fun result =>
            (along later).run result.2
        rw [hadvance, hdrop]
        change _ = (along later).run (r.cursorAt j)
        rw [run_along]
        cases later (r.ahead j) with
        | error error => rfl
        | ok m =>
            change (Reader.advanceBy (n + m)).run (r.cursorAt i) =
              (Reader.advanceBy m).run (r.cursorAt j)
            rw [advanceBy_add, StateT.run_bind, hadvance]
            rfl
  refine ((group h).discard.bind fun _ j hgroup => hnext j ?_).insteadOf hrun
  rw [run_discard_group] at hgroup
  obtain ⟨n, hlength, hadvance⟩ := SyntaxError.bind_eq_ok.mp hgroup
  obtain ⟨k, hk, -, hlt⟩ := hbehind hlength
  have hcursor : r.cursorAt k = r.cursorAt j :=
    (Prod.mk.inj (Except.ok.inj (hk.symm.trans hadvance))).2
  rwa [show r.ahead j = r.ahead k from congrArg Cursor.ahead hcursor.symm]

private theorem MirrorsAt.anglesFrom {opener : Token}
    (htext : opener.text = "<") {bound depth : Nat}
    (hbound : (r.ahead i).length < bound)
    (hdepth : 0 < depth ∨ frontText (r.ahead i) = "<") :
    r.MirrorsAt i (Machine.anglesFrom opener.span depth bound)
      (along (Bracket.anglesLength opener depth [])) := by
  induction bound generalizing i depth with
  | zero => exact absurd hbound (Nat.not_lt_zero _)
  | succ bound ih =>
      refine shown .atEnd ?_
      cases hahead : r.ahead i with
      | nil =>
          refine (throw opener.span.start (.unclosed "<")
            (by rintro ⟨⟩)).insteadOf ?_
          rw [run_along, hahead, ← htext]
          rfl
      | cons token rest =>
          have hlater (j : r.Index) (hj : r.ahead j = rest) :
              (r.ahead j).length < bound := by
            rw [hahead, List.length_cons] at hbound
            rw [hj]
            omega
          have hfront : frontText (r.ahead i) = token.syntacticText := by
            rw [hahead]; rfl
          rw [hfront] at hdepth
          refine shown (.textAt 0) ?_
          rw [List.drop_zero, hfront]
          split
          · next hopener =>
              have hangle : token.syntacticText ≠ "<" := fun hangle => by
                rw [hangle] at hopener
                exact absurd hopener (by decide)
              rw [← hfront] at hopener
              obtain ⟨first, later, hcons, -, hkind, htoken⟩ :=
                exists_opener hopener
              refine groupAlong hopener ?_ fun j hj =>
                ih (by omega) (.inl (hdepth.resolve_right hangle))
              rw [hcons]
              exact anglesLength_group opener depth hkind htoken
          next hopener =>
          have hinside :
              ¬(!([] : List Token).isEmpty ||
                Bracket.isOpener token.syntacticText) = true := by
            simpa using hopener
          split
          · next hangle =>
              refine passAlong hahead _ ?_ fun j hj =>
                ih (hlater j hj) (.inl (Nat.succ_pos depth))
              rw [Bracket.anglesLength, if_neg hinside, if_pos hangle]
              rfl
          next hangle =>
          have hpos : 0 < depth := hdepth.resolve_right hangle
          split
          · next hclose =>
              have hminus : minus? depth 1 = some (depth - 1) :=
                minus?_of_le hpos
              by_cases hlast : depth ≤ 1
              · refine passAlong hahead (fun _ => .ok 0) ?_ fun j hj =>
                  shown (.need hminus) ?_
                · rw [Bracket.anglesLength, if_neg hinside, if_neg hangle,
                    if_pos hclose, if_pos hlast]
                  rfl
                · rw [if_pos (by omega)]
                  exact (pure ()).insteadOf rfl
              · refine passAlong hahead
                  (Bracket.anglesLength opener (depth - 1) []) ?_ fun j hj =>
                  shown (.need hminus) ?_
                · rw [Bracket.anglesLength, if_neg hinside, if_neg hangle,
                    if_pos hclose, if_neg hlast]
                  rfl
                · rw [if_neg (by omega)]
                  exact ih (hlater j hj) (.inl (by omega))
          · next hclose =>
              refine passAlong hahead _ ?_ fun j hj =>
                ih (hlater j hj) (.inl hpos)
              rw [Bracket.anglesLength, if_neg hinside, if_neg hangle,
                if_neg hclose]
              rfl

theorem MirrorsAt.angles (hfront : frontText (r.ahead i) = "<") :
    r.MirrorsAt i Machine.angles Reader.angles := by
  refine shown .here (shown .remaining (onAhead ?_))
  cases hahead : r.ahead i with
  | nil =>
      rw [hahead] at hfront
      exact absurd hfront (by decide)
  | cons token rest =>
      have htext : token.text = "<" := by
        rw [hahead, frontText] at hfront
        rw [← syntacticText_eq (by rw [hfront]; decide), hfront]
      have hangles :
          r.MirrorsAt i
          (Machine.anglesFrom token.span 0 ((r.ahead i).length + 1))
          (along (Bracket.anglesLength token 0 [])) :=
            anglesFrom htext (Nat.lt_succ_self _) (.inr hfront)
      rwa [hahead] at hangles

/-! ## Functions in parentheses -/

def frontCharacters : List Token → String
  | [] => ""
  | token :: _ => token.text

private theorem Shows.lexemeAt (j : r.Index) :
    r.Shows i (Machine.lexeme (r.front (r.ahead j)))
      (frontCharacters (r.ahead j)) := by
  cases hahead : r.ahead j with
  | nil =>
      have hwhole : r.text = r.text ++ [] ++ [] := by
        rw [List.append_nil, List.append_nil]
      have hstop : r.stream.stop.offset = byteSize (r.text ++ []) := by
        rw [List.append_nil, r.ends]
      have hslice := slice?_eq_some hwhole r.ends hstop
      exact read.bind (need (congrArg (Option.map String.ofList) hslice))
  | cons token rest =>
      exact lexeme (List.mem_of_mem_drop (hahead ▸ List.mem_cons_self))

private theorem frontCharacters_eq_arrow (j : r.Index) :
    (frontCharacters (r.ahead j) = "=>") = (frontText (r.ahead j) = "=>") := by
  cases hahead : r.ahead j with
  | nil => rfl
  | cons token rest =>
      refine propext ⟨fun htext => ?_, fun htext => ?_⟩
      · change token.text = "=>" at htext
        have hkind :=
          r.symbols token (List.mem_of_mem_drop (hahead ▸ List.mem_cons_self))
            (htext ▸ by decide)
        simp [frontText, Token.syntacticText, hkind, htext]
      · change token.syntacticText = "=>" at htext
        exact (syntacticText_eq (htext ▸ by decide)).symm.trans htext

theorem MirrorsAt.parenthesisOpensFunction
    (h : Bracket.isOpener (frontText (r.ahead i))) :
    r.MirrorsAt i Machine.parenthesisOpensFunction
      Reader.parenthesisOpensFunction := by
  refine shown .get (onAhead (close h fun n j hj hclosed => shown .read ?_))
  have hentry := entries_getElem? j
  rw [← hclosed] at hentry
  simp only [hentry]
  have hdrop : (r.ahead i).drop n = r.ahead j := by
    rw [ahead, List.drop_drop, ahead, hj]
  refine shown (.lexemeAt j) ?_
  simp only [frontCharacters_eq_arrow, hdrop]
  exact pure _

/-! ## The characters of a group -/

def Boundary (r : Recording) (offset : Nat) : Prop :=
  ∃ front back, r.text = front ++ back ∧ offset = byteSize front

private theorem Boundary.slice {start stop : Nat} (hstart : r.Boundary start)
    (hstop : r.Boundary stop) (hle : start ≤ stop) :
    ∃ middle, slice? r.text start stop = some middle := by
  obtain ⟨front, back, htext, rfl⟩ := hstart
  obtain ⟨front', back', htext', rfl⟩ := hstop
  rcases List.prefix_or_prefix_of_prefix ⟨back, htext.symm⟩
    ⟨back', htext'.symm⟩ with
    ⟨middle, hmiddle⟩ | ⟨middle, hmiddle⟩
  · exact ⟨middle,
      slice?_eq_some (hmiddle ▸ htext') rfl (congrArg byteSize hmiddle.symm)⟩
  · have hwhole : r.text = front' ++ [] ++ back' := by
      rw [List.append_nil, htext']
    refine ⟨[], slice?_eq_some hwhole ?_ (by rw [List.append_nil])⟩
    rw [← hmiddle, byteSize_append] at hle ⊢
    omega

theorem boundary_token {token : Token} (h : token ∈ r.tokens) :
    r.Boundary token.span.start.offset ∧ r.Boundary token.span.stop := by
  obtain ⟨before, lexeme, after, htext, -, hspan⟩ := r.pieces token h
  rw [hspan]
  exact ⟨⟨before, lexeme ++ after, by rw [htext, List.append_assoc], rfl⟩,
    ⟨before ++ lexeme, after, htext, rfl⟩⟩

private theorem boundary_lastStop (i : r.Index) :
    r.Boundary (r.lastStop i) := by
  unfold lastStop
  cases hlast : (r.tokens.take i).getLast? with
  | none => exact ⟨[], r.text, rfl, rfl⟩
  | some token =>
      exact (boundary_token
        (List.mem_of_mem_take (List.mem_of_getLast? hlast))).2

private theorem boundary_front (i : r.Index) :
    r.Boundary (r.front (r.ahead i)).span.start.offset ∧
    r.Boundary (r.front (r.ahead i)).span.stop ∧
      (r.front (r.ahead i)).span.start.offset ≤
        (r.front (r.ahead i)).span.stop := by
  cases hahead : r.ahead i with
  | nil =>
      have hend : r.Boundary r.stream.stop.offset := by
        rw [r.ends]
        exact ⟨r.text, [], (List.append_nil _).symm, rfl⟩
      exact ⟨hend, hend, Nat.le_refl _⟩
  | cons token rest =>
      have htoken : token ∈ r.tokens :=
        List.mem_of_mem_drop (hahead ▸ List.mem_cons_self)
      obtain ⟨hstart, hstop⟩ := boundary_token htoken
      exact ⟨hstart, hstop, Nat.le_of_lt (r.bounds token htoken).1⟩

theorem slice_group {j : r.Index} {span : Span}
    (h : Reader.group.run (r.cursorAt i) = .ok (span, r.cursorAt j)) :
    ∃ key, slice? r.text span.start.offset span.stop = some key := by
  have hhere : Reader.here.run (r.cursorAt i) =
      .ok ((r.front (r.ahead i)).span, r.cursorAt i) := Sees.here
  rw [Reader.group] at h
  simp only [StateT.run_bind, hhere] at h
  obtain ⟨⟨first, start⟩, hfirst, h⟩ := SyntaxError.bind_eq_ok.mp h
  obtain ⟨⟨tokens, counted⟩, -, h⟩ := SyntaxError.bind_eq_ok.mp h
  obtain ⟨⟨n, moved⟩, -, h⟩ := SyntaxError.bind_eq_ok.mp h
  obtain ⟨⟨_, behind⟩, -, h⟩ := SyntaxError.bind_eq_ok.mp h
  obtain ⟨rfl, rfl⟩ := Prod.mk.inj (Except.ok.inj hfirst)
  obtain ⟨rfl, hbehind⟩ := Prod.mk.inj (Except.ok.inj h)
  obtain ⟨hstart, hstop, hle⟩ := boundary_front i
  refine hstart.slice ?_ (Nat.le_trans hle (Nat.le_max_right _ _))
  rw [show behind = r.cursorAt j from hbehind]
  rcases Nat.le_total (r.lastStop j) (r.front (r.ahead i)).span.stop
    with hle | hle
  · exact (Nat.max_eq_right hle).symm ▸ hstop
  · exact (Nat.max_eq_left hle).symm ▸ boundary_lastStop j

end ShapeMend.Script.Checked.Recording
