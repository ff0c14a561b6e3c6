import ShapeMend.Proofs.Script.Checked.TypeReaders

/-!
# Items on a tape

The machines for items mirror their readers.
-/

namespace ShapeMend.Script.Checked.Recording

open ShapeMend.Text Reader

variable {α β : Type} {r : Recording} {i : r.Index}

private theorem Shows.startsStatement :
    r.Shows i Machine.startsStatement (Reader.startsStatement (r.ahead i)) :=
  (textAt 0).bind ((isWord 1).bind (pure _))

/-! ## Opaque statements -/

private theorem statementLength_cons (stack : List Token) (begun : Bool)
    {token : Token} {rest : List Token}
    (hends : ¬(begun && stack.isEmpty && token.breakBefore &&
      Reader.startsStatement (token :: rest)) = true) :
    statementLength stack begun (token :: rest) = Bracket.track stack token >>=
      fun within =>
      if token.syntacticText = ";" && stack.isEmpty then .ok 1
      else statementLength within true rest >>= fun n => .ok (n + 1) := by
  rw [statementLength, if_neg hends]
  rfl

private theorem isSemicolon_iff {token : Token} (h : token ∈ r.tokens) :
    token.syntacticText = ";" ↔ token.kind = .symbol ∧ token.text = ";" := by
  refine ⟨fun hfront => ?_, fun ⟨hkind, htext⟩ => by
    simp [Token.syntacticText, hkind, htext]⟩
  have htext : token.text = ";" :=
    (syntacticText_eq (hfront ▸ by decide)).symm.trans hfront
  exact ⟨r.symbols token h (htext ▸ by decide), htext⟩

private theorem mem_of_track {stack within : List Token} {token : Token}
    (h : Bracket.track stack token = .ok within) (htoken : token ∈ r.tokens)
    (hstack : ∀ opener ∈ stack, opener ∈ r.tokens) :
    ∀ opener ∈ within, opener ∈ r.tokens := by
  revert h
  fun_cases Bracket.track stack token <;> rintro ⟨⟩
  case case2 => exact List.forall_mem_cons.mpr ⟨htoken, hstack⟩
  case case4 =>
      exact fun opener hopener => hstack opener (List.mem_cons_of_mem _ hopener)
  all_goals exact hstack

/-- The machine keeps the brackets that are open as the reader does, and sees
which semicolon is the last token. -/
private theorem Answers.track {stack : List Token} {token : Token}
    (htoken : token ∈ r.tokens) (hstack : ∀ opener ∈ stack, opener ∈ r.tokens) :
    r.Answers i (Machine.track (stack.map .ofToken) (.ofToken token))
      ((Bracket.track stack token).map fun within =>
        if token.syntacticText = ";" && stack.isEmpty then none
        else some (within.map .ofToken)) := by
  have hgoesOn (within : List Token) (hne : token.syntacticText ≠ ";") :
      some (within.map Entry.ofToken) =
      if token.syntacticText = ";" && stack.isEmpty then none
      else some (within.map Entry.ofToken) :=
    (if_neg (by simp [hne])).symm
  by_cases hkind : token.kind = .symbol
  case neg =>
    have htrack : Bracket.track stack token = .ok stack := if_pos hkind
    rw [Machine.track, if_pos (by simpa [Entry.ofToken] using hkind), htrack]
    refine .pure_of_eq ?_
    exact hgoesOn stack fun hfront =>
      hkind ((isSemicolon_iff htoken).mp hfront).1
  have htext : token.syntacticText = token.text := by
    simp [Token.syntacticText, hkind]
  rw [Machine.track, if_neg (by simp [Entry.ofToken, hkind])]
  refine .shown (.lexeme htoken) ?_
  rw [htext] at hgoesOn ⊢
  fun_cases Bracket.track stack token with
  | case1 _ hother => exact absurd hkind hother
  | case2 _ _ hopener =>
      rw [if_pos hopener]
      refine .pure_of_eq ?_
      refine hgoesOn (token :: stack) fun hsemicolon => ?_
      rw [hsemicolon] at hopener
      exact absurd hopener (by decide)
  | case3 _ hopener hcloser =>
      rw [if_neg hopener, if_pos hcloser]
      exact .raise _ _
  | case4 _ hopener hcloser innermost below hmatch =>
      rw [if_neg hopener, if_pos hcloser]
      refine .shown (.lexeme (hstack innermost List.mem_cons_self)) ?_
      rw [if_pos hmatch]
      refine .pure_of_eq ?_
      refine hgoesOn below fun hsemicolon => ?_
      rw [hsemicolon] at hcloser
      exact absurd hcloser (by decide)
  | case5 _ hopener hcloser innermost below hmatch =>
      rw [if_neg hopener, if_pos hcloser]
      refine .shown (.lexeme (hstack innermost List.mem_cons_self)) ?_
      rw [if_neg hmatch]
      exact .raise _ _
  | case6 _ _ hopener hcloser =>
      rw [if_neg hopener, if_neg hcloser, List.isEmpty_map, Except.map]
      split <;> exact .pure _

namespace MirrorsAt

private theorem statementFrom {stack : List Token}
    (hstack : ∀ opener ∈ stack, opener ∈ r.tokens) {bound : Nat}
    (hbound : (r.ahead i).length < bound) (begun : Bool) :
    r.MirrorsAt i (Machine.statementFrom (stack.map .ofToken) begun bound)
      (along (statementLength stack begun)) := by
  induction bound generalizing i stack begun with
  | zero => exact absurd hbound (Nat.not_lt_zero _)
  | succ bound ih =>
      refine shown (.entry 0) ?_
      rw [List.drop_zero]
      cases hahead : r.ahead i with
      | nil =>
          cases stack with
          | nil =>
              refine (pure ()).insteadOf ?_
              rw [run_along, hahead]
              rfl
          | cons opener below =>
              refine shown (.lexeme (hstack opener List.mem_cons_self))
                ((throw _ _ (by rintro ⟨⟩)).insteadOf ?_)
              rw [run_along, hahead]
              rfl
      | cons token rest =>
          have htoken : token ∈ r.tokens :=
            List.mem_of_mem_drop (hahead ▸ List.mem_cons_self)
          rw [if_neg (by simp [front, Entry.ofToken])]
          refine shown .startsStatement ?_
          rw [hahead, List.isEmpty_map]
          split
          · next hends =>
              replace hends :
                  (begun && stack.isEmpty && token.breakBefore &&
                    startsStatement (token :: rest)) = true :=
                hends
              refine (pure ()).insteadOf ?_
              rw [run_along, hahead, statementLength, if_pos hends]
              rfl
          next hgoes =>
          have hlength := statementLength_cons stack begun hgoes
          -- The machine passes the token before it tracks the brackets, the
          -- reader counts it after it has.
          have htracked (j : r.Index) := Answers.track (i := j) htoken hstack
          cases htrack : Bracket.track stack token with
          | error error =>
              rw [htrack] at hlength htracked
              refine passAlong hahead (fun _ => .error error) hlength
                fun j _ => ?_
              exact .error error (congrArg (· >>= _) (htracked j)) rfl
                (flaw_of_track htrack)
          | ok within =>
              rw [htrack] at hlength htracked
              by_cases hlast :
                (token.syntacticText = ";" && stack.isEmpty) = true
              · refine passAlong hahead (fun _ => .ok 0)
                  (hlength.trans (if_pos hlast)) fun j _ => ?_
                refine shown (htracked j) ?_
                simp only [if_pos hlast]
                exact (pure ()).insteadOf rfl
              · refine passAlong hahead _ (hlength.trans (if_neg hlast))
                  fun j hj => ?_
                refine shown (htracked j) ?_
                simp only [if_neg hlast]
                refine ih (mem_of_track htrack htoken hstack) ?_ true
                rw [hahead, List.length_cons] at hbound
                rw [hj]
                omega

private theorem opaqueItem {first : Span} (hfirst : r.Reaches first) :
    r.MirrorsAt i (Machine.opaqueItem first) (Reader.opaqueItem first) := by
  have hnone : ∀ opener ∈ ([] : List Token), opener ∈ r.tokens := by simp
  have hstatement :=
    statementFrom hnone (Nat.lt_succ_self (r.ahead i).length) false
  have hreader : Reader.opaqueItem first = along (statementLength [] false) >>=
      fun _ =>
      Reader.spanFrom first >>= fun span => return .other span := by
    simp only [along, bind_assoc]
    rfl
  rw [hreader]
  refine shown .remaining ?_
  exact hstatement.step fun _ _ => spanned hfirst

/-! ## Words before an item -/

private theorem itemModifiers_default (tokens : List Token) :
    (Reader.itemModifiers true tokens).2 = if frontText tokens = "default"
      then (Reader.itemModifiers false (tokens.drop 1)).2 + 1
        else (Reader.itemModifiers false tokens).2 := by
  cases tokens with
  | nil => rfl
  | cons token rest =>
      by_cases hexport : token.syntacticText = "export"
      · simp [Reader.itemModifiers, frontText, hexport]
      by_cases hdefault : token.syntacticText = "default"
      · simp [Reader.itemModifiers, frontText, hdefault]
      · simp [Reader.itemModifiers, frontText, hdefault, hexport]

private theorem itemModifiers_eq (tokens : List Token) :
    Reader.itemModifiers false tokens =
    if frontText tokens = "export" then
      (true, (Reader.itemModifiers true (tokens.drop 1)).2 + 1)
    else if frontText tokens =
      "declare" && frontIsWordOnLine (tokens.drop 1) then
      ((Reader.itemModifiers false (tokens.drop 1)).1,
        (Reader.itemModifiers false (tokens.drop 1)).2 + 1)
    else (false, 0) := by
  cases tokens with
  | nil => rfl
  | cons token rest =>
      rw [Reader.itemModifiers, Bool.false_and, Bool.false_or]
      rfl

private theorem itemModifiers {bound : Nat}
    (hbound : (r.ahead i).length ≤ bound) (exported : Bool) :
    ∃ j : r.Index, j.val = i.val + (Reader.itemModifiers false (r.ahead i)).2 ∧
      Machine.itemModifiers exported bound r.tape i =
        Pure.pure
          (exported || (Reader.itemModifiers false (r.ahead i)).1, j.val) := by
  have hstays (i : r.Index) (exported : Bool) :
      (Pure.pure exported : Machine Bool) r.tape i =
      Pure.pure (exported || false, i.val) := by
    rw [Bool.or_false]
    rfl
  induction bound generalizing i exported with
  | zero =>
      rw [List.length_eq_zero_iff.mp (Nat.le_zero.mp hbound)]
      exact ⟨i, rfl, hstays i exported⟩
  | succ bound ih =>
      by_cases hexport : frontText (r.ahead i) = "export"
      · obtain ⟨token, rest, hahead⟩ :=
          Walks.exists_cons_of_front hexport (by decide)
        obtain ⟨j, hj, hrest, hadvance⟩ := advance_then_apply hahead fun _ =>
          Machine.skip "default" >>= fun _ => Machine.itemModifiers true bound
        have hcount : Reader.itemModifiers false (r.ahead i) =
            (true, (Reader.itemModifiers true (r.ahead j)).2 + 1) := by
          rw [itemModifiers_eq, if_pos hexport, hahead, hrest]
          rfl
        rw [Machine.itemModifiers, (Shows.at? "export").then_apply,
          if_pos (decide_eq_true hexport), hadvance, Machine.skip, bind_assoc,
          (Shows.at? "default").then_apply, hcount, itemModifiers_default,
          Bool.or_true]
        have hfewer : (r.ahead j).length ≤ bound := by
          rw [hahead, List.length_cons] at hbound
          rw [hrest]
          omega
        by_cases hdefault : frontText (r.ahead j) = "default"
        · obtain ⟨word, later, hword⟩ :=
            Walks.exists_cons_of_front hdefault (by decide)
          obtain ⟨k, hk, hlater, hagain⟩ := advance_then_apply hword fun _ =>
              Machine.itemModifiers true bound
          rw [hword, List.length_cons] at hfewer
          obtain ⟨l, hl, hrun⟩ := ih (i := k) (by rw [hlater]; omega) true
          rw [if_pos (decide_eq_true hdefault), if_pos hdefault, hword,
            List.drop_succ_cons, List.drop_zero, ← hlater]
          exact ⟨l, by rw [hl, hk, hj]; omega, hagain.trans hrun⟩
        · obtain ⟨k, hk, hrun⟩ := ih hfewer true
          rw [if_neg hdefault, if_neg (by simpa using hdefault)]
          exact ⟨k, by rw [hk, hj]; omega, hrun⟩
      by_cases hdeclare :
        (frontText (r.ahead i) = "declare" &&
          frontIsWordOnLine ((r.ahead i).drop 1)) = true
      · obtain ⟨token, rest, hahead⟩ := Walks.exists_cons_of_front
          (of_decide_eq_true (Bool.and_eq_true_iff.mp hdeclare).1) (by decide)
        obtain ⟨j, hj, hrest, hadvance⟩ := advance_then_apply hahead fun _ =>
            Machine.itemModifiers exported bound
        have hfewer : (r.ahead j).length ≤ bound := by
          rw [hahead, List.length_cons] at hbound
          rw [hrest]
          omega
        obtain ⟨k, hk, hlater⟩ := ih hfewer exported
        rw [itemModifiers_eq, if_neg hexport, if_pos hdeclare, hahead,
          List.drop_succ_cons, List.drop_zero, ← hrest]
        refine ⟨k, by rw [hk, hj, Nat.add_assoc, Nat.add_comm 1], ?_⟩
        rw [Machine.itemModifiers, (Shows.at? "export").then_apply,
          if_neg (by simpa using hexport), (Shows.at? "declare").then_apply,
          (Shows.isWordOnLine 1).then_apply, if_pos hdeclare, hadvance, hlater]
      · rw [itemModifiers_eq, if_neg hexport, if_neg hdeclare]
        refine ⟨i, rfl, ?_⟩
        rw [Machine.itemModifiers, (Shows.at? "export").then_apply,
          if_neg (by simpa using hexport), (Shows.at? "declare").then_apply,
          (Shows.isWordOnLine 1).then_apply, if_neg hdeclare]
        exact hstays i exported

/-! ## Declarations -/

private theorem typeAfter (word : String) :
    r.MirrorsAt i (Machine.typeAfter word) (Reader.typeAfter word) := by
  refine at? word fun found _ => ?_
  split
  · refine advance.step fun _ _ => ?_
    exact type.step fun _ _ => pure _
  · exact pure none

private theorem typeParameterTail (bound : Nat) :
    r.MirrorsAt i (Machine.typeParameterTail bound)
      (Reader.typeParameterTail bound) := by
  induction bound generalizing i with
  | zero => exact pure []
  | succ bound ih =>
      refine at? ">" fun closes _ => ?_
      split
      · exact advance.step fun _ _ => pure []
      · refine skipWhile
          (fun _ => (Shows.textAt 0).bind ((Shows.isWord 1).bind (.pure _)))
          fun _ => ?_
        refine (name _).step fun _ _ => ?_
        refine (typeAfter _).step fun _ _ => ?_
        refine (typeAfter _).step fun _ _ => ?_
        refine at? "," fun _ _ => ?_
        refine separator (fun _ => found (.at? ">") (.at? ">")) (by rintro ⟨⟩)
          fun _ => ?_
        exact ih.step fun _ _ => pure _

theorem typeParameters :
    r.MirrorsAt i Machine.typeParameters Reader.typeParameters := by
  refine at? "<" fun opens _ => ?_
  split
  · exact advance.step fun _ _ => remaining (typeParameterTail _)
  · exact pure []

private theorem parents : r.MirrorsAt i Machine.parents Reader.parents := by
  refine at? "extends" fun extends_ _ => ?_
  split
  · exact advance.step fun _ _ => remaining (separated "," (fun _ => remaining
      (operand (fun kind _ => nested _ kind) _)) _)
  · exact pure []

private theorem aliasEnd : r.MirrorsAt i Machine.aliasEnd Reader.aliasEnd := by
  have hsemicolon := Shows.at? (i := i) ";"
  have hbrace := Shows.at? (i := i) "\x7d"
  refine shown (.entry 0) (shown hsemicolon (onAhead ?_))
  rw [List.drop_zero]
  cases hahead : r.ahead i with
  | nil =>
      rw [hahead] at hbrace
      exact shown hbrace (pure ())
  | cons token rest =>
      rw [hahead] at hbrace
      change r.MirrorsAt i
        (if decide (token.syntacticText = ";") = true then _ else _) _
      simp only [decide_eq_true_eq]
      split
      · exact advance
      · refine shown hbrace ?_
        change r.MirrorsAt i
          (if (decide (token.syntacticText = "\x7d") || token.breakBefore) =
            true then _ else _) _
        split
        · exact pure ()
        · exact fail _ (by rintro ⟨⟩)

section

variable {first : Span} (hfirst : r.Reaches first)

include hfirst

private theorem interface (exported : Bool) :
    r.MirrorsAt i (Machine.interface first exported)
      (Reader.interface first exported) := by
  refine advance.step fun _ _ => ?_
  refine (name _).step fun _ _ => ?_
  refine typeParameters.step fun _ _ => ?_
  refine parents.step fun _ _ => ?_
  refine remaining ?_
  exact (members (fun kind _ => nested _ kind)).step fun _ _ => spanned hfirst

private theorem aliasItem (exported : Bool) :
    r.MirrorsAt i (Machine.aliasItem first exported)
      (Reader.aliasItem first exported) := by
  refine advance.step fun _ _ => ?_
  refine (name _).step fun _ _ => ?_
  refine typeParameters.step fun _ _ => ?_
  refine (expect "=" _).discard.step fun _ _ => ?_
  refine type.step fun _ _ => ?_
  exact aliasEnd.step fun _ _ => spanned hfirst

end

/-! ## Items -/

private theorem insteadOfMachine {machine other : Machine α} {reader : Reader α}
    (h : r.MirrorsAt i machine reader)
    (hrun : other r.tape i = machine r.tape i) :
    r.MirrorsAt i other reader := by
  cases h with
  | error error hmachine hreader hflaw =>
      exact .error error (hrun.trans hmachine) hreader hflaw
  | ok value next hmachine hreader =>
      exact .ok value next (hrun.trans hmachine) hreader

theorem item : r.MirrorsAt i Machine.item Reader.item := by
  refine shown .get (look .here .here (shown .remaining (onAhead ?_)))
  have hfirst := reaches_front i
  generalize (r.front (r.ahead i)).span = first at hfirst
  obtain ⟨j, hj, hwords⟩ := itemModifiers (Nat.le_refl (r.ahead i).length) false
  generalize Reader.itemModifiers false (r.ahead i) = words at hj hwords
  obtain ⟨exported, n⟩ := words
  have hdrop : (r.ahead i).drop n = r.ahead j := by
    rw [ahead, List.drop_drop, ahead, hj]
  simp only [hdrop, List.drop_drop]
  split
  · next hinterface =>
      refine goTo hwords (run_advanceBy hj)
        (shown (.at? "interface") (shown (.isWord 1) ?_))
      rw [if_pos hinterface]
      exact (interface hfirst exported).step fun _ _ => pure _
  next hinterface =>
  split
  · next halias =>
      refine goTo hwords (run_advanceBy hj)
        (shown (.at? "interface") (shown (.isWord 1) ?_))
      rw [if_neg hinterface]
      refine shown (.at? "type")
        (shown (.isWord 1) (shown (.textAt 2) (shown (.textAt 2) ?_)))
      rw [if_pos halias]
      exact (aliasItem hfirst exported).step fun _ _ => pure _
  next halias =>
  refine (opaqueItem hfirst).insteadOfMachine ?_
  rw [bind_apply, hwords, pure_bind, (Shows.at? "interface").then_apply,
    (Shows.isWord 1).then_apply, if_neg hinterface,
    (Shows.at? "type").then_apply, (Shows.isWord 1).then_apply,
    (Shows.textAt 2).then_apply, (Shows.textAt 2).then_apply, if_neg halias]
  rw [bind_apply, moveTo_apply, pure_bind]

theorem items (bound : Nat) :
    r.MirrorsAt i (Machine.items bound) (Reader.items bound) := by
  induction bound generalizing i with
  | zero => exact pure []
  | succ bound ih =>
      refine shown .atEnd (onAhead ?_)
      split
      · exact pure []
      refine at? ";" fun more _ => ?_
      split
      · exact advance.step fun _ _ => ih
      · refine item.step fun _ _ => ?_
        exact ih.step fun _ _ => pure _

end MirrorsAt

end ShapeMend.Script.Checked.Recording
