import ShapeMend.Proofs.Script.Couplings

/-!
# Trees read in step

Every reader of a type or of an item stays in step with itself, and what it
reads is the same tree but for places.
-/

namespace ShapeMend.Script

open ShapeMend.Text Reader

variable {β : Type} {c : Coupling}

private theorem SameTokens.negated? {tokens others : List Token}
    (h : SameTokens tokens others) (symbol : String) :
    (Reader.negated? symbol others).map Token.unplaced =
      (Reader.negated? symbol tokens).map Token.unplaced := by
  cases tokens with
  | nil => rw [h.of_nil]
  | cons digits rest =>
      obtain ⟨span, later, rfl, -⟩ := h.of_cons
      unfold Reader.negated?
      simp only
      split <;> rfl

namespace Alike

/-! ## Names and literals -/

theorem operandFollows : Alike c Eq operandFollows operandFollows :=
  ahead.bind fun _ _ h =>
    pure (by simp only [(h.drop 1).isEmpty, (h.drop 1).frontText])

theorem dottedTail (bound : Nat) :
    Alike c Eq (dottedTail bound) (dottedTail bound) := by
  induction bound with
  | zero => exact pure rfl
  | succ bound ih =>
      refine (at? ".").both fun more => ?_
      split
      · refine advance.step fun _ _ => ?_
        refine (name _).bind fun next next' hnext => ?_
        refine ih.both fun names => pure ?_
        rw [Name.text_of_unplaced hnext]
      · exact pure rfl

theorem dottedName : Alike c Eq dottedName dottedName := by
  refine (name _).bind fun first first' hfirst => ?_
  refine remaining.both fun bound => ?_
  refine (dottedTail bound).both fun more => ?_
  exact pure (by rw [Name.text_of_unplaced hfirst])

theorem moduleTail : InStep c moduleTail moduleTail := by
  refine advance.step fun _ _ => ?_
  refine group.discard.step fun _ _ => ?_
  exact remaining.both fun _ => (dottedTail _).discard

theorem skippedArguments : InStep c skippedArguments skippedArguments := by
  refine ahead.bind fun tokens others h => ?_
  cases tokens with
  | nil =>
      rw [h.of_nil]
      exact done () ()
  | cons token rest =>
      obtain ⟨span, later, rfl, -⟩ := h.of_cons
      simp only [Token.syntacticText_moved]
      split
      · exact angles
      · exact done () ()

theorem numeral (span span' : Span) (negative : Bool) (text : String) :
    Alike c (Same TypeNode.unplaced) (numeral span negative text)
      (numeral span' negative text) := by
  unfold Reader.numeral
  split
  · exact pure rfl
  · exact throw rfl

private theorem parenthesisOpensFunction :
    Alike c Eq parenthesisOpensFunction parenthesisOpensFunction := by
  refine ahead.bind fun _ _ h => ?_
  exact (lift (Bracket.agree_groupLength .nil h)).both fun n =>
    pure (by rw [(h.drop n).frontText])

theorem skipLabel : InStep c skipLabel skipLabel := by
  refine ahead.bind fun tokens others h => ?_
  simp only [h.frontIsWord, (h.drop 1).frontText, ((h.drop 1).drop 1).frontText]
  split
  · refine advance.step fun _ _ => ?_
    exact (skip "?").step fun _ _ => advance
  · exact done () ()

theorem plainKey : Alike c Eq plainKey plainKey := by
  refine ahead.bind fun tokens others h => ?_
  cases tokens with
  | nil =>
      rw [h.of_nil]
      exact fail
  | cons token rest =>
      obtain ⟨span, later, rfl, hlater⟩ := h.of_cons
      simp only [Token.syntacticText_moved, hlater.frontIsWord]
      split
      · exact advance.step fun _ _ => pure rfl
      · exact advance.step fun _ _ => pure rfl
      · exact advance.step fun _ _ => pure rfl
      · split
        · refine advance.step fun _ _ => ?_
          refine (name _).bind fun name name' hname => pure ?_
          rw [Name.text_of_unplaced hname]
        · exact fail

theorem accessorKey :
    Alike c (Same AccessorKey.unplaced) accessorKey accessorKey := by
  refine (at? "[").both fun computed => ?_
  split
  · exact group.step fun _ _ => pure rfl
  · exact plainKey.both fun _ => pure rfl

private theorem memberMayFollow :
    Alike c Eq memberMayFollow memberMayFollow := by
  refine ahead.bind fun tokens others h => ?_
  cases tokens with
  | nil =>
      rw [h.of_nil]
      exact pure rfl
  | cons token rest =>
      obtain ⟨span, later, rfl, -⟩ := h.of_cons
      exact pure rfl

theorem anglesFirst {same : β → β → Prop} {next next' : Unit → Reader β}
    (hnext : Alike c same (next ()) (next' ())) :
    Alike c same (Reader.at? "<" >>=
      fun opens => if opens then Reader.angles >>= next else next ())
      (Reader.at? "<" >>= fun opens => if opens then Reader.angles >>= next'
        else next' ()) := by
  refine (at? "<").both fun opens => ?_
  split
  · exact angles.step fun _ _ => hnext
  · exact hnext

section

variable {inner : Nested → Reader TypeNode}
  (hinner : ∀ kind, Alike c (Same TypeNode.unplaced) (inner kind) (inner kind))

include hinner

/-! ## Functions and signatures -/

theorem returnType : InStep c (returnType inner) (returnType inner) := by
  refine ahead.bind fun tokens others h => ?_
  refine (at? "asserts").both fun asserts => ?_
  simp only [(h.drop 1).frontIsWordOnLine, (h.drop 1).frontText]
  split
  · refine advance.step fun _ _ => ?_
    refine advance.step fun _ _ => ?_
    refine (at? "is").both fun narrows => ?_
    split
    · exact advance.step fun _ _ => (hinner .type).discard
    · exact done () ()
  · refine ahead.bind fun again again' hagain => ?_
    rw [hagain.frontIsWord]
    split
    · refine advance.step fun _ _ => ?_
      exact advance.step fun _ _ => (hinner .type).discard
    · exact (hinner .type).discard

private theorem functionType (span span' : Span) :
    Alike c (Same TypeNode.unplaced) (functionType inner span)
      (functionType inner span') := by
  refine anglesFirst ((at? "(").both fun opens => ?_)
  split
  · refine group.discard.step fun _ _ => ?_
    refine (expect "=>" _).discard.step fun _ _ => ?_
    refine (returnType hinner).step fun _ _ => ?_
    exact spanned fun _ _ => rfl
  · exact fail

theorem signature : InStep c (signature inner) (signature inner) := by
  refine anglesFirst ((at? "(").both fun opens => ?_)
  split
  · refine group.discard.step fun _ _ => ?_
    refine (at? ":").both fun returns => ?_
    split
    · exact advance.step fun _ _ => returnType hinner
    · exact done () ()
  · exact fail

/-! ## Lists in brackets -/

theorem arguments (bound : Nat) :
    Alike c (Same (List.map TypeNode.unplaced)) (arguments inner bound)
      (arguments inner bound) := by
  induction bound with
  | zero => exact pure rfl
  | succ bound ih =>
      refine (at? ">").both fun closes => ?_
      split
      · exact advance.step fun _ _ => pure rfl
      · refine (hinner _).bind fun _ _ hfirst => ?_
        refine (at? ",").both fun _ => ?_
        refine separator (at? ">") ?_
        exact ih.bind fun _ _ hlater => pure (congrArg₂ List.cons hfirst hlater)

theorem elements (bound : Nat) :
    Alike c (Same (List.map TypeNode.unplaced)) (elements inner bound)
      (elements inner bound) := by
  induction bound with
  | zero => exact pure rfl
  | succ bound ih =>
      refine (at? "]").both fun closes => ?_
      split
      · exact advance.step fun _ _ => pure rfl
      · refine (skip "...").step fun _ _ => ?_
        refine skipLabel.step fun _ _ => ?_
        refine (hinner .type).bind fun _ _ hfirst => ?_
        refine (skip "?").step fun _ _ => ?_
        refine (at? ",").both fun _ => ?_
        refine separator (at? "]") ?_
        exact ih.bind fun _ _ hlater => pure (congrArg₂ List.cons hfirst hlater)

/-! ## Members -/

private theorem bracketedMember (span span' : Span) :
    Alike c (Same Member.unplaced) (bracketedMember inner span)
      (bracketedMember inner span') := by
  refine ahead.bind fun tokens others h => ?_
  simp only [(h.drop 1).frontIsWord, ((h.drop 1).drop 1).frontText]
  refine group.discard.step fun _ _ => ?_
  refine (skip "?").step fun _ _ => ?_
  split
  · refine (expect ":" _).discard.step fun _ _ => ?_
    refine (hinner .type).discard.step fun _ _ => ?_
    exact spanned fun _ _ => rfl
  refine (at? "(").both fun _ => ?_
  refine (at? "<").both fun _ => ?_
  split
  · refine (signature hinner).step fun _ _ => ?_
    exact spanned fun _ _ => rfl
  refine (at? ":").both fun typed => ?_
  split
  · refine advance.step fun _ _ => ?_
    refine (hinner .type).discard.step fun _ _ => ?_
    exact spanned fun _ _ => rfl
  · exact spanned fun _ _ => rfl

private theorem namedMember (span span' : Span) :
    Alike c (Same Member.unplaced) (namedMember inner span)
      (namedMember inner span') := by
  refine plainKey.both fun key => ?_
  refine (at? "?").both fun optional => ?_
  refine (skip "?").step fun _ _ => ?_
  refine (at? "(").both fun _ => ?_
  refine (at? "<").both fun _ => ?_
  split
  · refine (signature hinner).step fun _ _ => ?_
    exact spanned fun _ _ => rfl
  refine (at? ":").both fun typed => ?_
  split
  · refine advance.step fun _ _ => ?_
    refine (hinner .type).bind fun _ _ hdeclared => ?_
    exact spanned fun _ _ =>
      congrArg
      (fun declared => Member.property nowhere key optional (some declared))
      hdeclared
  · exact spanned fun _ _ => rfl

theorem member :
    Alike c (Same Member.unplaced) (member inner) (member inner) := by
  refine here.step fun span span' => ?_
  refine (skipWhile fun h => ?_).step fun _ _ =>
    ahead.bind fun tokens others h => ?_
  · rw [h.frontText, (h.drop 1).startsKey]
  simp only [(h.drop 1).frontText, (h.drop 1).startsKey]
  refine (at? "(").both fun _ => ?_
  refine (at? "<").both fun _ => ?_
  split
  · refine (signature hinner).step fun _ _ => ?_
    exact spanned fun _ _ => rfl
  refine (at? "new").both fun constructs => ?_
  split
  · refine advance.step fun _ _ => ?_
    refine (signature hinner).step fun _ _ => ?_
    exact spanned fun _ _ => rfl
  refine (at? "get").both fun _ => ?_
  refine (at? "set").both fun _ => ?_
  split
  · refine advance.step fun _ _ => ?_
    refine accessorKey.bind fun _ _ hkey => ?_
    refine (signature hinner).step fun _ _ => ?_
    exact spanned fun _ _ =>
      congrArg (fun key => Member.other nowhere (.accessor key)) hkey
  refine (at? "[").both fun computed => ?_
  split
  · exact bracketedMember hinner span span'
  · exact namedMember hinner span span'

theorem memberTail (opener opener' : Span) (bound : Nat) :
    Alike c (Same (List.map Member.unplaced)) (memberTail inner opener bound)
      (memberTail inner opener' bound) := by
  induction bound with
  | zero => exact throw rfl
  | succ bound ih =>
      refine (skipWhile fun h => ?_).step fun _ _ =>
        (at? "\x7d").both fun closes => ?_
      · rw [h.frontText]
      split
      · exact advance.step fun _ _ => pure rfl
      refine ahead.bind fun tokens others h => ?_
      rw [h.isEmpty]
      split
      · exact throw rfl
      · refine (member hinner).bind fun _ _ hfirst => ?_
        refine (at? ";").both fun _ => ?_
        refine (at? ",").both fun _ => ?_
        refine separator memberMayFollow ?_
        exact ih.bind fun _ _ hlater => pure (congrArg₂ List.cons hfirst hlater)

theorem members :
    Alike c (Same (List.map Member.unplaced)) (members inner)
      (members inner) := by
  refine (expect "\x7b" _).step fun opener opener' => ?_
  exact remaining.both fun _ => memberTail hinner opener opener' _

/-! ## Operands -/

private theorem worded :
    Alike c (Same TypeNode.unplaced) (worded inner) (worded inner) := by
  refine here.step fun span span' => ?_
  refine (textAt 0).both fun word => ?_
  refine (textAt 1).both fun next => ?_
  split
  · exact advance.step fun _ _ => pure rfl
  refine operandFollows.both fun follows => ?_
  split
  · refine advance.step fun _ _ => ?_
    refine (at? "import").both fun imports => ?_
    refine (textAt 1).both fun opener => ?_
    split
    · refine moduleTail.step fun _ _ => ?_
      refine skippedArguments.step fun _ _ => ?_
      exact spanned fun _ _ => rfl
    · refine dottedName.discard.step fun _ _ => ?_
      refine skippedArguments.step fun _ _ => ?_
      exact spanned fun _ _ => rfl
  split
  · refine moduleTail.step fun _ _ => ?_
    refine skippedArguments.step fun _ _ => ?_
    exact spanned fun _ _ => rfl
  split
  · exact advance.step fun _ _ => pure rfl
  refine dottedName.both fun name => ?_
  refine ahead.bind fun tokens others h => ?_
  obtain ⟨name, qualified⟩ := name
  cases tokens with
  | nil =>
      rw [h.of_nil]
      exact spanned fun _ _ => rfl
  | cons token rest =>
      obtain ⟨place, later, rfl, -⟩ := h.of_cons
      simp only [Token.syntacticText_moved]
      split
      · refine advance.step fun _ _ => ?_
        refine remaining.both fun _ => ?_
        refine (arguments hinner _).bind fun given given' hgiven => ?_
        refine spanned fun _ _ => ?_
        rw [Same, TypeNode.unplaced, TypeNode.unplaced, nodesUnplaced_eq,
          nodesUnplaced_eq, hgiven]
      · exact spanned fun _ _ => rfl

private theorem symbolic (span span' : Span) (symbol : String)
    {later later' : List Token} (h : SameTokens later later') :
    Alike c (Same TypeNode.unplaced) (symbolic inner span symbol later)
      (symbolic inner span' symbol later') := by
  have hnegated := h.negated? symbol
  unfold Reader.symbolic
  cases hdigits : negated? symbol later with
  | some digits =>
      rw [hdigits, Option.map_some] at hnegated
      obtain ⟨digits', hdigits', hsame⟩ := Option.map_eq_some_iff.mp hnegated
      rw [hdigits']
      simp only [Token.text_of_unplaced hsame]
      refine advance.step fun _ _ => ?_
      exact advance.step fun _ _ => numeral _ _ _ _
  | none =>
      rw [hdigits, Option.map_none, Option.map_eq_none_iff] at hnegated
      rw [hnegated]
      simp only
      split
      · refine advance.step fun _ _ => ?_
        refine (hinner .type).bind fun _ _ htype => ?_
        refine (expect ")" _).discard.step fun _ _ => ?_
        exact spanned fun _ _ => congrArg (TypeNode.parenthesized nowhere) htype
      split
      · refine advance.step fun _ _ => ?_
        refine remaining.both fun _ => ?_
        refine (elements hinner _).bind fun types types' htypes => ?_
        refine spanned fun _ _ => ?_
        rw [Same, TypeNode.unplaced, TypeNode.unplaced, nodesUnplaced_eq,
          nodesUnplaced_eq, htypes]
      split
      · refine ahead.bind fun tokens others hopen => ?_
        rw [hopen.startsMapped]
        split
        · exact group.step fun _ _ => pure rfl
        · refine (members hinner).bind fun list list' hlist => ?_
          refine spanned fun _ _ => ?_
          rw [Same, TypeNode.unplaced, TypeNode.unplaced, membersUnplaced_eq,
            membersUnplaced_eq, hlist]
      · exact fail

theorem primary :
    Alike c (Same TypeNode.unplaced) (primary inner) (primary inner) := by
  refine ahead.bind fun tokens others h => ?_
  cases tokens with
  | nil =>
      rw [h.of_nil]
      exact fail
  | cons token rest =>
      obtain ⟨span, later, rfl, hlater⟩ := h.of_cons
      simp only
      split
      · exact advance.step fun _ _ => pure rfl
      · exact advance.step fun _ _ => numeral _ _ _ _
      · exact advance.step fun _ _ => pure rfl
      · exact worded hinner
      · exact fail
      · exact symbolic hinner _ _ _ hlater

private theorem brackets (span span' : Span) (bound : Nat)
    {type type' : TypeNode} (htype : Same TypeNode.unplaced type type') :
    Alike c (Same TypeNode.unplaced) (brackets inner span bound type)
      (brackets inner span' bound type') := by
  induction bound generalizing type type' with
  | zero => exact pure htype
  | succ bound ih =>
      refine ahead.bind fun tokens others h => ?_
      cases tokens with
      | nil =>
          rw [h.of_nil]
          exact pure htype
      | cons token rest =>
          obtain ⟨place, later, rfl, -⟩ := h.of_cons
          simp only [Token.syntacticText_moved]
          split
          · refine advance.step fun _ _ => ?_
            refine (at? "]").both fun closes => ?_
            split
            · refine advance.step fun _ _ => ?_
              exact (spanFrom span span').step fun _ _ =>
                ih (congrArg (TypeNode.array nowhere) htype)
            · refine (hinner .type).bind fun _ _ hindex => ?_
              refine (expect "]" _).discard.step fun _ _ => ?_
              exact (spanFrom span span').step fun _ _ =>
                ih (congrArg₂ (TypeNode.indexedAccess nowhere) htype hindex)
          · exact pure htype

theorem postfixed :
    Alike c (Same TypeNode.unplaced) (postfixed inner) (postfixed inner) := by
  refine here.step fun span span' => ?_
  refine (primary hinner).bind fun _ _ htype => ?_
  exact remaining.both fun _ => brackets hinner span span' _ htype

/-- The constraint is tried on both sides, and both go back to where it began or
neither does. -/
theorem inferredConstraint :
    InStep c (inferredConstraint inner) (inferredConstraint inner) := by
  have hget :
      Alike c c.related (MonadState.get : Reader Cursor) MonadState.get :=
    fun _ _ hrelated => ⟨hrelated, hrelated⟩
  have hset {start other : Cursor} (hrelated : c.related start other) :
      InStep c (MonadStateOf.set start : Reader Unit)
        (MonadStateOf.set other) := fun _ _ _ => ⟨trivial, hrelated⟩
  refine (at? "extends").both fun constrained => ?_
  split
  · refine hget.bind fun start other hstart => ?_
    refine advance.step fun _ _ => ?_
    refine hget.bind fun cursor cursor' hcursor => ?_
    have hresult := hinner .union cursor cursor' hcursor
    cases hrun : (inner .union).run cursor with
    | error error =>
        cases hrun' : (inner .union).run cursor' with
        | error error' => exact hset hstart
        | ok result' =>
            rw [hrun, hrun'] at hresult
            exact hresult.elim
    | ok result =>
        obtain ⟨result', hrun', -, hafter⟩ := hresult.eq_ok hrun
        rw [hrun']
        simp only [(c.ahead hafter).frontText]
        split
        · exact hset hstart
        · exact hset hafter
  · exact done () ()

theorem operand (bound : Nat) :
    Alike c (Same TypeNode.unplaced) (operand inner bound)
      (operand inner bound) := by
  induction bound with
  | zero => exact postfixed hinner
  | succ bound ih =>
      refine here.step fun span span' => ?_
      refine (textAt 0).both fun word => ?_
      refine operandFollows.both fun follows => ?_
      split
      · next operator hoperator =>
          refine advance.step fun _ _ => ?_
          refine ih.bind fun _ _ hinside => ?_
          exact spanned fun _ _ =>
            congrArg (TypeNode.operator nowhere operator) hinside
      · refine (at? "infer").both fun infers => ?_
        refine ahead.bind fun tokens others h => ?_
        rw [(h.drop 1).frontIsWord]
        split
        · refine advance.step fun _ _ => ?_
          refine advance.step fun _ _ => ?_
          refine (inferredConstraint hinner).step fun _ _ => ?_
          exact spanned fun _ _ => rfl
        · exact postfixed hinner

/-! ## Combinations -/

theorem anyOperand :
    Alike c (Same TypeNode.unplaced)
      (Reader.remaining >>= fun bound => Reader.operand inner bound)
      (Reader.remaining >>= fun bound => Reader.operand inner bound) :=
  remaining.both fun bound => operand hinner bound

omit hinner in
theorem joined {join : Span → List TypeNode → TypeNode} (span span' : Span)
    {parts parts' : List TypeNode}
    (hjoin : ∀ span span' parts parts',
      Same (List.map TypeNode.unplaced) parts parts' →
      Same TypeNode.unplaced (join span parts) (join span' parts')) :
    Same (List.map TypeNode.unplaced) parts parts' →
      Alike c (Same TypeNode.unplaced)
      (match parts with
        | [part] => return part
        | parts => return join (← Reader.spanFrom span) parts)
      (match parts' with
        | [part] => return part
        | parts => return join (← Reader.spanFrom span') parts) := by
  intro hparts
  have hlength : parts'.length = parts.length := by
    simpa using congrArg List.length hparts
  rcases parts with _ | ⟨part, _ | ⟨next, more⟩⟩
  · obtain rfl := List.length_eq_zero_iff.mp hlength
    exact spanned fun _ _ => hjoin _ _ _ _ hparts
  · obtain ⟨part', rfl⟩ := List.length_eq_one_iff.mp hlength
    exact pure (List.head_eq_of_cons_eq hparts)
  · obtain ⟨part', next', more', rfl⟩ : ∃ part' next' more',
        parts' = part' :: next' :: more' := by
      rcases parts' with _ | ⟨part', _ | ⟨next', more'⟩⟩
      · simp at hlength
      · simp at hlength
      · exact ⟨part', next', more', rfl⟩
    exact spanned fun _ _ => hjoin _ _ _ _ hparts

theorem intersection :
    Alike c (Same TypeNode.unplaced) (intersection inner)
      (intersection inner) := by
  refine here.step fun span span' => ?_
  refine (skip "&").step fun _ _ => ?_
  refine remaining.both fun bound => ?_
  refine (separated "&" (anyOperand hinner) bound).bind
    fun parts parts' hparts => ?_
  refine joined span span' (fun span span' parts parts' hparts => ?_) hparts
  rw [Same, TypeNode.unplaced, TypeNode.unplaced, nodesUnplaced_eq,
    nodesUnplaced_eq, hparts]

theorem union :
    Alike c (Same TypeNode.unplaced) (union inner) (union inner) := by
  refine here.step fun span span' => ?_
  refine (skip "|").step fun _ _ => ?_
  refine remaining.both fun bound => ?_
  refine (separated "|" (intersection hinner) bound).bind
    fun branches branches' hbranches => ?_
  refine joined span span' (fun span span' branches branches' hbranches => ?_)
    hbranches
  rw [Same, TypeNode.unplaced, TypeNode.unplaced, nodesUnplaced_eq,
    nodesUnplaced_eq, hbranches]

private theorem condition (span span' : Span) :
    Alike c (Same TypeNode.unplaced) (condition inner span)
      (condition inner span') := by
  refine advance.step fun _ _ => ?_
  refine (union hinner).discard.step fun _ _ => ?_
  refine (expect "?" _).discard.step fun _ _ => ?_
  refine (hinner .type).discard.step fun _ _ => ?_
  refine (expect ":" _).discard.step fun _ _ => ?_
  refine (hinner .type).discard.step fun _ _ => ?_
  exact spanned fun _ _ => rfl

omit hinner in
private theorem opensFunction : Alike c Eq opensFunction opensFunction := by
  refine (at? "<").both fun angled => ?_
  split
  · exact pure rfl
  refine (at? "(").both fun opened => ?_
  split
  · exact parenthesisOpensFunction
  · exact pure rfl

theorem anyType :
    Alike c (Same TypeNode.unplaced) (anyType inner) (anyType inner) := by
  refine here.step fun span span' => ?_
  refine opensFunction.both fun opens => ?_
  split
  · exact functionType hinner span span'
  refine (at? "new").both fun new => ?_
  refine (at? "abstract").both fun abstract => ?_
  refine (textAt 1).both fun _ => ?_
  split
  · refine (skip "abstract").step fun _ _ => ?_
    refine advance.step fun _ _ => ?_
    refine (functionType hinner span span').discard.step fun _ _ => ?_
    exact spanned fun _ _ => rfl
  · refine (union hinner).bind fun checked checked' hchecked => ?_
    refine (at? "extends").both fun conditional => ?_
    split
    · exact condition hinner span span'
    · exact pure hchecked

end

theorem nested (depth : Nat) (kind : Nested) :
    Alike c (Same TypeNode.unplaced) (nested depth kind)
      (nested depth kind) := by
  induction depth generalizing kind with
  | zero => exact fail
  | succ depth ih =>
      cases kind with
      | type => exact anyType ih
      | union => exact union ih

theorem type : Alike c (Same TypeNode.unplaced) type type :=
  remaining.both fun _ => nested _ _

/-! ## Items -/

theorem typeAfter (word : String) :
    Alike c (Same (Option.map TypeNode.unplaced)) (typeAfter word)
      (typeAfter word) := by
  refine (at? word).both fun there => ?_
  split
  · refine advance.step fun _ _ => ?_
    exact type.bind fun _ _ htype => pure (congrArg some htype)
  · exact pure rfl

theorem typeParameterTail (bound : Nat) :
    Alike c (Same (List.map TypeParameter.unplaced)) (typeParameterTail bound)
      (typeParameterTail bound) := by
  induction bound with
  | zero => exact pure rfl
  | succ bound ih =>
      refine (at? ">").both fun closes => ?_
      split
      · exact advance.step fun _ _ => pure rfl
      refine (skipWhile fun h => ?_).step fun _ _ =>
        (name _).bind fun name name' hname => ?_
      · rw [h.frontText, (h.drop 1).frontIsWord]
      refine (typeAfter _).bind fun constraint constraint' hconstraint => ?_
      refine (typeAfter _).bind fun fallback fallback' hfallback => ?_
      refine (at? ",").both fun _ => ?_
      have hparameter : Same TypeParameter.unplaced ⟨name, constraint, fallback⟩
          ⟨name', constraint', fallback'⟩ := by
        rw [Same, TypeParameter.unplaced, TypeParameter.unplaced, hname,
          hconstraint, hfallback]
      refine separator (at? ">") ?_
      exact ih.bind fun _ _ hlater =>
        pure (congrArg₂ List.cons hparameter hlater)

theorem typeParameters :
    Alike c (Same (List.map TypeParameter.unplaced)) typeParameters
      typeParameters := by
  refine (at? "<").both fun opens => ?_
  split
  · refine advance.step fun _ _ => ?_
    exact remaining.both fun _ => typeParameterTail _
  · exact pure rfl

theorem parents :
    Alike c (Same (List.map TypeNode.unplaced)) parents parents := by
  refine (at? "extends").both fun extending => ?_
  split
  · refine advance.step fun _ _ => ?_
    exact remaining.both fun depth =>
      separated "," (anyOperand (nested depth)) depth
  · exact pure rfl

private theorem interface (span span' : Span) (exported : Bool) :
    Alike c (Same InterfaceItem.unplaced) (interface span exported)
      (interface span' exported) := by
  refine advance.step fun _ _ => ?_
  refine (name _).bind fun name name' hname => ?_
  refine typeParameters.bind fun parameters parameters' hparameters => ?_
  refine parents.bind fun parents parents' hparents => ?_
  refine remaining.both fun depth => ?_
  refine (members (nested _)).bind fun list list' hlist => ?_
  refine spanned fun _ _ => ?_
  rw [Same, InterfaceItem.unplaced, InterfaceItem.unplaced, hname, hparameters,
    hparents, hlist]

theorem aliasEnd : InStep c aliasEnd aliasEnd := by
  refine ahead.bind fun tokens others h => ?_
  cases tokens with
  | nil =>
      rw [h.of_nil]
      exact done () ()
  | cons token rest =>
      obtain ⟨span, later, rfl, -⟩ := h.of_cons
      simp only [Token.syntacticText_moved]
      split
      · exact advance
      split
      · exact done () ()
      · exact fail

private theorem aliasItem (span span' : Span) (exported : Bool) :
    Alike c (Same AliasItem.unplaced) (aliasItem span exported)
      (aliasItem span' exported) := by
  refine advance.step fun _ _ => ?_
  refine (name _).bind fun name name' hname => ?_
  refine typeParameters.bind fun parameters parameters' hparameters => ?_
  refine (expect "=" _).discard.step fun _ _ => ?_
  refine type.bind fun type type' htype => ?_
  refine aliasEnd.step fun _ _ => ?_
  refine spanned fun _ _ => ?_
  rw [Same, AliasItem.unplaced, AliasItem.unplaced, hname, hparameters, htype]

private theorem opaqueItem (span span' : Span) :
    Alike c (Same Item.unplaced) (opaqueItem span) (opaqueItem span') := by
  refine ahead.bind fun _ _ h => ?_
  refine (lift (agree_statementLength .nil false h)).both fun n => ?_
  refine (advanceBy n).step fun _ _ => ?_
  exact spanned fun _ _ => rfl

theorem item : Alike c (Same Item.unplaced) item item := by
  refine here.step fun span span' => ?_
  refine ahead.bind fun tokens others h => ?_
  rw [h.itemModifiers]
  obtain ⟨exported, n⟩ := itemModifiers false tokens
  have hdeclared := h.drop n
  simp only [hdeclared.frontText, (hdeclared.drop 1).frontIsWord,
    ((hdeclared.drop 1).drop 1).frontText]
  split
  · refine (advanceBy n).step fun _ _ => ?_
    exact (interface span span' exported).bind fun _ _ hitem =>
      pure (congrArg Item.interface hitem)
  split
  · refine (advanceBy n).step fun _ _ => ?_
    exact (aliasItem span span' exported).bind fun _ _ hitem =>
      pure (congrArg Item.typeAlias hitem)
  · exact opaqueItem span span'

theorem items (bound : Nat) :
    Alike c (Same (List.map Item.unplaced)) (items bound) (items bound) := by
  induction bound with
  | zero => exact pure rfl
  | succ bound ih =>
      refine ahead.bind fun tokens others h => ?_
      rw [h.isEmpty]
      split
      · exact pure rfl
      refine (at? ";").both fun separated => ?_
      split
      · exact advance.step fun _ _ => ih
      · refine item.bind fun _ _ hitem => ?_
        exact ih.bind fun _ _ hlater => pure (congrArg₂ List.cons hitem hlater)

end Alike

end ShapeMend.Script
