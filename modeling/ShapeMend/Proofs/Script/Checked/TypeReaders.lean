import ShapeMend.Proofs.Script.Checked.Brackets
import ShapeMend.Proofs.Script.Checked.Magnitudes

/-!
# Types on a tape

Every reader of a type has a machine that mirrors it.
-/

namespace ShapeMend.Script.Checked.Recording

open ShapeMend.Text Reader

variable {α β : Type} {r : Recording} {i : r.Index}

/-! ## What is in front -/

namespace Shows

theorem operandFollows : r.Shows i Machine.operandFollows
    (!((r.ahead i).drop 1).isEmpty &&
      !typeTerminators.contains (frontText ((r.ahead i).drop 1))) := by
  refine (entry 1).bind ((textAt 1).bind (pure_of_eq ?_))
  cases (r.ahead i).drop 1 <;> rfl

private theorem startsKey (n : Nat) :
    r.Shows i (Machine.startsKey n)
      (Reader.startsKey ((r.ahead i).drop n)) := by
  refine (entry n).bind ?_
  have htext := textAt (i := i) n
  cases hahead : (r.ahead i).drop n with
  | nil =>
      rw [hahead] at htext
      exact htext.bind (htext.bind (pure _))
  | cons token rest =>
      rw [hahead] at htext
      have hsymbol :
          r.Shows i
          (do return (← Machine.textAt n) = "[" || (← Machine.textAt n) = "#")
          (token.syntacticText = "[" || token.syntacticText = "#") :=
            htext.bind (htext.bind (pure _))
      obtain ⟨kind, text, span, breakBefore⟩ := token
      cases kind with
      | word => exact pure _
      | quoted => exact pure _
      | numeral => exact pure _
      | _ => exact hsymbol

private theorem startsMapped :
    r.Shows i Machine.startsMapped (Reader.startsMapped (r.ahead i)) := by
  refine (textAt 1).bind
    ((textAt _).bind
      ((textAt _).bind ((isWord _).bind ((textAt _).bind (pure_of_eq ?_)))))
  unfold Reader.startsMapped
  simp only
  split <;> split <;> simp_all [List.drop_drop]

theorem opensOnLine {text : String} (hne : "" ≠ text) :
    r.Shows i (Machine.opensOnLine text)
    (match r.ahead i with
      | token :: _ => token.syntacticText = text && !token.breakBefore
      | [] => false) := by
  refine (entry 0).bind ((at? text).bind (pure_of_eq ?_))
  rw [List.drop_zero]
  cases r.ahead i with
  | nil => simp [frontText, hne]
  | cons token rest => rfl

end Shows

namespace MirrorsAt

/-! ## Names and literals -/

theorem dottedTail (bound : Nat) :
    r.MirrorsAt i (Machine.dottedTail bound) (Reader.dottedTail bound) := by
  induction bound generalizing i with
  | zero => exact pure _
  | succ bound ih =>
      refine at? "." fun more _ => ?_
      refine branch (fun _ => ?_) fun _ => ?_
      · refine advance.step fun _ _ => ?_
        refine (name _).step fun _ _ => ?_
        exact ih.step fun _ _ => pure _
      · exact pure _

private theorem dottedName :
    r.MirrorsAt i Machine.dottedName Reader.dottedName := by
  refine (name _).step fun _ _ => ?_
  refine remaining ?_
  exact (dottedTail _).step fun _ _ => pure _

theorem opener {text : String} (htext : Bracket.isOpener text)
    (hfront : frontText (r.ahead i) = text) :
    r.MirrorsAt i Machine.group Reader.group := group (hfront ▸ htext)

private theorem moduleTail (hfront : frontText ((r.ahead i).drop 1) = "(") :
    r.MirrorsAt i Machine.moduleTail Reader.moduleTail := by
  refine advanceThen fun j hj => ?_
  rw [← hj] at hfront
  exact (opener (by decide) hfront).discard.step fun _ _ =>
    remaining (dottedTail _).discard

private theorem skippedArguments :
    r.MirrorsAt i Machine.skippedArguments Reader.skippedArguments := by
  refine shown (.opensOnLine (by decide)) (onAhead ?_)
  cases hahead : r.ahead i with
  | nil => exact pure ()
  | cons token rest =>
      simp only
      refine branch (fun hopens => ?_) fun _ => ?_
      · simp only [Bool.and_eq_true, decide_eq_true_eq] at hopens
        exact angles (hahead ▸ hopens.1)
      · exact pure ()

theorem numeral (span : Span) (negative : Bool) {token : Token}
    (htoken : token ∈ r.tokens) (hkind : token.kind = .numeral) :
    r.MirrorsAt i (Machine.numeral span negative (.ofToken token))
      (Reader.numeral span negative token.text) := by
  refine shown (.lexeme htoken) ?_
  have hmagnitude := Numeral.exists_magnitude (r.numerals token htoken hkind)
  unfold Numeral.significant at hmagnitude
  unfold Reader.numeral LiteralValue.ofNumeral?
  simp only
  split
  · exact pure _
  · next hplain =>
      obtain ⟨magnitude, hchecked, hread⟩ := hmagnitude.resolve_left hplain
      rw [hread]
      exact shown (.need hchecked) (pure _)

private theorem skipLabel :
    r.MirrorsAt i Machine.skipLabel Reader.skipLabel := by
  refine shown (.textAt 1)
    (shown (.textAt 2) (shown (.isWord 0) (shown (.textAt 1) (onAhead ?_))))
  simp only [List.drop_zero, List.drop_drop]
  refine branch (fun _ => ?_) fun _ => ?_
  · refine advance.step fun _ _ => ?_
    exact (skip "?").step fun _ _ => advance
  · exact pure ()

theorem plainKey : r.MirrorsAt i Machine.plainKey Reader.plainKey := by
  refine shown (.entry 0) (onAhead ?_)
  have hhash := Shows.at? (i := i) "#"
  have hword := Shows.isWord (i := i) 1
  rw [List.drop_zero]
  cases hahead : r.ahead i with
  | nil =>
      rw [hahead] at hhash
      exact shown hhash (shown (.isWord 1) (fail _ (by rintro ⟨⟩)))
  | cons token later =>
      rw [hahead] at hhash hword
      have htoken : token ∈ r.tokens :=
        List.mem_of_mem_drop (hahead ▸ List.mem_cons_self)
      have hname : r.MirrorsAt i (do
          if (← Machine.at? "#") && (← Machine.isWord 1) then
            Machine.advance
            return "#" ++ (← Machine.name .afterHash).text
          else Machine.fail .missingPropertyName) (do
          if token.syntacticText = "#" && frontIsWord later then
            Reader.advance
            return "#" ++ (← Reader.name .afterHash).text
          else Reader.fail .missingPropertyName) := by
        refine shown hhash (shown hword ?_)
        change r.MirrorsAt i
          (if token.syntacticText = "#" && frontIsWord later then _ else _) _
        refine branch (fun _ => ?_) fun _ => ?_
        · refine advance.step fun _ _ => ?_
          exact (name _).step fun _ _ => pure _
        · exact fail _ (by rintro ⟨⟩)
      obtain ⟨kind, text, span, breakBefore⟩ := token
      cases kind with
      | word => exact advance.step fun _ j => found (.lexeme htoken) (.pure _)
      | numeral =>
          exact advance.step fun _ j => found (.lexeme htoken) (.pure _)
      | quoted value => exact advance.step fun _ _ => pure _
      | _ => exact hname

private theorem accessorKey :
    r.MirrorsAt i Machine.accessorKey Reader.accessorKey := by
  refine at? "[" fun computed hfront => ?_
  refine branch (fun hcomputed => ?_) fun _ => ?_
  · refine (opener (by decide) (hfront hcomputed)).bind fun span j hrun => ?_
    obtain ⟨key, hkey⟩ := slice_group hrun
    exact shown .read (shown (.need hkey) (pure _))
  · exact plainKey.step fun _ _ => pure _

private theorem memberMayFollow :
    r.MirrorsAt i Machine.memberMayFollow Reader.memberMayFollow := by
  have hbrace := Shows.at? (i := i) "\x7d"
  refine shown (.entry 0) (shown hbrace (onAhead ?_))
  cases hahead : r.ahead i with
  | nil => exact pure _
  | cons token rest => exact pure _

theorem spanned {first : Span} (hfirst : r.Reaches first) {value : Span → β} :
    r.MirrorsAt i (Machine.spanFrom first >>= fun span => return value span)
      (Reader.spanFrom first >>= fun span => return value span) :=
  (spanFrom hfirst).step fun _ _ => pure _

theorem anglesFirst {m : Unit → Machine β} {g : Unit → Reader β}
    (hnext : r.Mirrors (m ()) (g ())) :
    r.MirrorsAt i (Machine.at? "<" >>=
      fun opens => if opens then Machine.angles >>= m else m ())
      (Reader.at? "<" >>= fun opens => if opens then Reader.angles >>= g
        else g ()) := by
  refine at? "<" fun opens hfront => ?_
  refine branch (fun hopens => ?_) fun _ => ?_
  · exact (angles (hfront hopens)).step fun _ => hnext
  · exact hnext _

theorem separator {more : Bool} {mayFollow : Machine Bool}
    {mayFollow' : Reader Bool} {flaw : SyntaxFlaw} {m : Unit → Machine β}
    {g : Unit → Reader β} (hfollow : r.Mirrors mayFollow mayFollow')
    (hflaw : flaw ≠ .numeral) (hnext : r.Mirrors (m ()) (g ())) :
    r.MirrorsAt i
      (if more then Machine.advance >>= m
        else
          mayFollow >>= fun follows => if follows then m ()
            else Machine.fail flaw >>= m)
      (if more then Reader.advance >>= g
        else
          mayFollow' >>= fun follows => if follows then g ()
            else Reader.fail flaw >>= g) := by
  refine branch (fun _ => ?_) fun _ => ?_
  · exact advance.step fun _ => hnext
  refine (hfollow i).step fun follows j => ?_
  refine branch (fun _ => ?_) fun _ => ?_
  · exact hnext j
  · exact (fail flaw hflaw).step fun _ => hnext

section

variable {inner : Nested → Machine TypeNode} {inner' : Nested → Reader TypeNode}
  (hinner : ∀ kind, r.Mirrors (inner kind) (inner' kind)) {first : Span}
  (hfirst : r.Reaches first)

include hinner

/-! ## Functions and signatures -/

theorem returnType :
    r.MirrorsAt i (Machine.returnType inner) (Reader.returnType inner') := by
  refine onAhead ?_
  refine at? "asserts" fun asserts _ => shown (.isWordOnLine 1) ?_
  refine branch (fun _ => ?_) fun _ => ?_
  · refine advance.step fun _ _ => ?_
    refine advance.step fun _ _ => ?_
    refine at? "is" fun narrows _ => ?_
    refine branch (fun _ => ?_) fun _ => ?_
    · exact advance.step fun _ _ => (hinner .type _).discard
    · exact pure ()
  · refine onAhead
      (shown (.isWord 0) (shown (.textAt 1) (shown (.isWordOnLine 1) ?_)))
    simp only [List.drop_zero]
    refine branch (fun _ => ?_) fun _ => ?_
    · refine advance.step fun _ _ => ?_
      exact advance.step fun _ _ => (hinner .type _).discard
    · exact (hinner .type _).discard

include hfirst in
private theorem functionType :
    r.MirrorsAt i (Machine.functionType inner first)
      (Reader.functionType inner' first) := by
  refine anglesFirst fun _ => ?_
  refine at? "(" fun opens hfront => ?_
  refine branch (fun hopens => ?_) fun _ => ?_
  · refine (opener (by decide) (hfront hopens)).discard.step fun _ _ => ?_
    refine (expect "=>" _).discard.step fun _ _ => ?_
    exact (returnType hinner).step fun _ _ => spanned hfirst
  · exact fail _ (by rintro ⟨⟩)

theorem signature :
    r.MirrorsAt i (Machine.signature inner) (Reader.signature inner') := by
  refine anglesFirst fun _ => ?_
  refine at? "(" fun opens hfront => ?_
  refine branch (fun hopens => ?_) fun _ => ?_
  · refine (opener (by decide) (hfront hopens)).discard.step fun _ _ => ?_
    refine at? ":" fun returns _ => ?_
    split
    · exact advance.step fun _ _ => returnType hinner
    · exact pure ()
  · exact fail _ (by rintro ⟨⟩)

/-! ## Lists in brackets -/

private theorem arguments (bound : Nat) :
    r.MirrorsAt i (Machine.arguments inner bound)
      (Reader.arguments inner' bound) := by
  induction bound generalizing i with
  | zero => exact pure []
  | succ bound ih =>
      refine at? ">" fun closes _ => ?_
      refine branch (fun _ => ?_) fun _ => ?_
      · exact advance.step fun _ _ => pure []
      · refine (hinner .type i).step fun _ _ => ?_
        refine at? "," fun _ _ => ?_
        refine separator (fun _ => found (.at? ">") (.at? ">")) (by rintro ⟨⟩)
          fun _ => ?_
        exact ih.step fun _ _ => pure _

private theorem elements (bound : Nat) :
    r.MirrorsAt i (Machine.elements inner bound)
      (Reader.elements inner' bound) := by
  induction bound generalizing i with
  | zero => exact pure []
  | succ bound ih =>
      refine at? "]" fun closes _ => ?_
      refine branch (fun _ => ?_) fun _ => ?_
      · exact advance.step fun _ _ => pure []
      · refine (skip "...").step fun _ _ => ?_
        refine skipLabel.step fun _ _ => ?_
        refine (hinner .type _).step fun _ _ => ?_
        refine (skip "?").step fun _ _ => ?_
        refine at? "," fun _ _ => ?_
        refine separator (fun _ => found (.at? "]") (.at? "]")) (by rintro ⟨⟩)
          fun _ => ?_
        exact ih.step fun _ _ => pure _

/-! ## Members -/

include hfirst in
private theorem bracketedMember (hfront : frontText (r.ahead i) = "[") :
    r.MirrorsAt i (Machine.bracketedMember inner first)
      (Reader.bracketedMember inner' first) := by
  refine shown (.isWord 1) (shown (.textAt 2) (onAhead ?_))
  simp only [List.drop_drop]
  refine (opener (by decide) hfront).discard.step fun _ _ => ?_
  refine (skip "?").step fun _ _ => ?_
  refine branch (fun _ => ?_) fun _ => ?_
  · refine (expect ":" _).discard.step fun _ _ => ?_
    exact (hinner .type _).discard.step fun _ _ => spanned hfirst
  refine at? "(" fun _ _ => ?_
  refine at? "<" fun _ _ => ?_
  refine branch (fun _ => ?_) fun _ => ?_
  · exact (signature hinner).step fun _ _ => spanned hfirst
  refine at? ":" fun typed _ => ?_
  refine branch (fun _ => ?_) fun _ => ?_
  · refine advance.step fun _ _ => ?_
    exact (hinner .type _).discard.step fun _ _ => spanned hfirst
  · exact spanned hfirst

include hfirst in
private theorem namedMember :
    r.MirrorsAt i (Machine.namedMember inner first)
      (Reader.namedMember inner' first) := by
  refine plainKey.step fun key _ => ?_
  refine at? "?" fun optional _ => ?_
  refine (skip "?").step fun _ _ => ?_
  refine at? "(" fun _ _ => ?_
  refine at? "<" fun _ _ => ?_
  refine branch (fun _ => ?_) fun _ => ?_
  · exact (signature hinner).step fun _ _ => spanned hfirst
  refine at? ":" fun typed _ => ?_
  refine branch (fun _ => ?_) fun _ => ?_
  · refine advance.step fun _ _ => ?_
    exact (hinner .type _).step fun _ _ => spanned hfirst
  · exact spanned hfirst

private theorem member :
    r.MirrorsAt i (Machine.member inner) (Reader.member inner') := by
  refine look .here .here ?_
  have hfirst := reaches_front i
  generalize (r.front (r.ahead i)).span = first at hfirst
  refine skipWhile
    (fun _ => (Shows.textAt 0).bind ((Shows.startsKey 1).bind (.pure _)))
    fun j => ?_
  have hlater := Shows.textAt (i := j) 1
  refine onAhead (at? "(" fun _ _ => at? "<" fun _ _ => ?_)
  refine branch (fun _ => ?_) fun _ => ?_
  · exact (signature hinner).step fun _ _ => spanned hfirst
  refine at? "new" fun constructs _ => shown hlater (shown hlater ?_)
  refine branch (fun _ => ?_) fun _ => ?_
  · refine advance.step fun _ _ => ?_
    exact (signature hinner).step fun _ _ => spanned hfirst
  refine at? "get" fun _ _ => ?_
  refine at? "set" fun _ _ => shown (.startsKey 1) ?_
  refine branch (fun _ => ?_) fun _ => ?_
  · refine advance.step fun _ _ => ?_
    refine accessorKey.step fun _ _ => ?_
    exact (signature hinner).step fun _ _ => spanned hfirst
  refine at? "[" fun computed hfront => ?_
  refine branch (fun hcomputed => ?_) fun _ => ?_
  · exact bracketedMember hinner hfirst (hfront hcomputed)
  · exact namedMember hinner hfirst

private theorem memberTail (opener : Span) (bound : Nat) :
    r.MirrorsAt i (Machine.memberTail inner opener bound)
      (Reader.memberTail inner' opener bound) := by
  induction bound generalizing i with
  | zero => exact throw _ _ (by rintro ⟨⟩)
  | succ bound ih =>
      refine skipWhile
        (fun _ => (Shows.textAt 0).bind ((Shows.textAt 0).bind (.pure _)))
        fun j => ?_
      refine at? "\x7d" fun closes _ => ?_
      refine branch (fun _ => ?_) fun _ => ?_
      · exact advance.step fun _ _ => pure []
      refine shown .atEnd (onAhead ?_)
      refine branch (fun _ => ?_) fun _ => ?_
      · exact throw _ _ (by rintro ⟨⟩)
      · refine (member hinner).step fun _ _ => ?_
        refine at? ";" fun _ _ => ?_
        refine at? "," fun _ _ => ?_
        refine separator (fun _ => memberMayFollow) (by rintro ⟨⟩) fun _ => ?_
        exact ih.step fun _ _ => pure _

theorem members :
    r.MirrorsAt i (Machine.members inner) (Reader.members inner') :=
  (expect "\x7b" _).step fun opener _ => remaining (memberTail hinner opener _)

/-! ## Operands -/

private theorem worded :
    r.MirrorsAt i (Machine.worded inner) (Reader.worded inner') := by
  refine look .here .here ?_
  have hfirst := reaches_front i
  generalize (r.front (r.ahead i)).span = first at hfirst
  refine textAt 0 (textAt 1 ?_)
  refine branch (fun _ => ?_) fun _ => ?_
  · exact advance.step fun _ _ => pure _
  refine look .operandFollows rfl ?_
  refine branch (fun _ => ?_) fun _ => ?_
  · refine advance.step fun _ j => ?_
    refine at? "import" fun imports _ => textAt 1 ?_
    refine branch (fun hmodule => ?_) fun _ => ?_
    · simp only [Bool.and_eq_true, decide_eq_true_eq] at hmodule
      refine (moduleTail hmodule.2).step fun _ _ => ?_
      exact skippedArguments.step fun _ _ => spanned hfirst
    · refine dottedName.discard.step fun _ _ => ?_
      exact skippedArguments.step fun _ _ => spanned hfirst
  refine branch (fun hmodule => ?_) fun _ => ?_
  · simp only [Bool.and_eq_true, decide_eq_true_eq] at hmodule
    refine (moduleTail hmodule.2).step fun _ _ => ?_
    exact skippedArguments.step fun _ _ => spanned hfirst
  refine branch (fun _ => ?_) fun _ => ?_
  · exact advance.step fun _ _ => pure _
  refine dottedName.step fun name j =>
    shown (.opensOnLine (by decide)) (onAhead ?_)
  obtain ⟨name, qualified⟩ := name
  cases hahead : r.ahead j with
  | nil => exact spanned hfirst
  | cons token rest =>
      simp only
      refine branch (fun _ => ?_) fun _ => ?_
      · refine advance.step fun _ _ => ?_
        refine remaining ?_
        exact (arguments hinner _).step fun _ _ => spanned hfirst
      · exact spanned hfirst

omit hinner in
private theorem negated?_cases (symbol : String) (later : List Token) :
    (∃ digits rest,
      later = digits :: rest ∧ digits.kind = .numeral ∧ symbol = "-" ∧
      negated? symbol later = some digits) ∨
    (symbol = "-" && (r.front later).kind = some .numeral) = false ∧
      negated? symbol later = none := by
  cases later with
  | nil => exact .inr ⟨by simp [front], rfl⟩
  | cons digits rest =>
      simp only [negated?, front, Entry.ofToken, Option.some.injEq]
      cases hnegated : (symbol = "-" && digits.kind = .numeral : Bool) with
      | true =>
          simp only [Bool.and_eq_true, decide_eq_true_eq] at hnegated
          exact .inl ⟨digits, rest, rfl, hnegated.2, hnegated.1, rfl⟩
      | false => exact .inr ⟨rfl, rfl⟩

private theorem symbolic {token : Token} {later : List Token}
    (hahead : r.ahead i = token :: later) (hkind : token.kind = .symbol) :
    r.MirrorsAt i (Machine.symbolic inner (.ofToken token))
      (Reader.symbolic inner' token.span token.text later) := by
  have htoken : token ∈ r.tokens :=
    List.mem_of_mem_drop (hahead ▸ List.mem_cons_self)
  have hfirst : r.Reaches token.span := by
    have hreaches := reaches_front i
    rwa [hahead] at hreaches
  have hfront : frontText (r.ahead i) = token.text := by
    simp [hahead, frontText, Token.syntacticText, hkind]
  refine shown (.lexeme htoken) (shown (.entry 1) ?_)
  rw [hahead, List.drop_succ_cons, List.drop_zero]
  rcases negated?_cases (r := r) token.text later
    with ⟨digits, rest, rfl, hdigits, hsign, hnegated⟩ | ⟨hsign, hnegated⟩
  · have hmem : digits ∈ r.tokens :=
      List.mem_of_mem_drop (hahead ▸ List.mem_cons_of_mem _ List.mem_cons_self)
    rw [Reader.symbolic, hnegated]
    simp only [hsign, front, Entry.ofToken, hdigits, decide_true, Bool.and_true,
      if_true]
    refine advance.step fun _ _ => ?_
    exact advance.step fun _ _ => numeral _ _ hmem hdigits
  rw [Reader.symbolic, hnegated]
  simp only [hsign, Bool.false_eq_true, if_false]
  refine branch (fun _ => ?_) fun _ => ?_
  · refine advance.step fun _ _ => ?_
    refine (hinner .type _).step fun _ _ => ?_
    exact (expect ")" _).discard.step fun _ _ => spanned hfirst
  refine branch (fun _ => ?_) fun _ => ?_
  · refine advance.step fun _ _ => ?_
    refine remaining ?_
    exact (elements hinner _).step fun _ _ => spanned hfirst
  refine branch (fun hbrace => ?_) fun _ => ?_
  · refine shown .startsMapped (onAhead ?_)
    split
    · exact (opener (by decide) (hfront.trans hbrace)).step fun _ _ => pure _
    · exact (members hinner).step fun _ _ => spanned hfirst
  · exact fail _ (by rintro ⟨⟩)

private theorem primary :
    r.MirrorsAt i (Machine.primary inner) (Reader.primary inner') := by
  refine shown (.entry 0) (onAhead ?_)
  rw [List.drop_zero]
  cases hahead : r.ahead i with
  | nil => exact fail _ (by rintro ⟨⟩)
  | cons token later =>
      have htoken : token ∈ r.tokens :=
        List.mem_of_mem_drop (hahead ▸ List.mem_cons_self)
      have hsymbolic := symbolic hinner hahead
      obtain ⟨kind, text, span, breakBefore⟩ := token
      cases kind with
      | word => exact worded hinner
      | quoted value => exact advance.step fun _ _ => pure _
      | template => exact advance.step fun _ _ => pure _
      | numeral => exact advance.step fun _ _ => numeral _ _ htoken rfl
      | pattern => exact fail _ (by rintro ⟨⟩)
      | symbol => exact hsymbolic rfl

include hfirst in
private theorem brackets (bound : Nat) (type : TypeNode) :
    r.MirrorsAt i (Machine.brackets inner first bound type)
      (Reader.brackets inner' first bound type) := by
  induction bound generalizing i type with
  | zero => exact pure _
  | succ bound ih =>
      refine shown (.opensOnLine (by decide)) (onAhead ?_)
      cases hahead : r.ahead i with
      | nil => exact pure _
      | cons token rest =>
          simp only
          refine branch (fun _ => ?_) fun _ => ?_
          · refine advance.step fun _ _ => ?_
            refine at? "]" fun closes _ => ?_
            refine branch (fun _ => ?_) fun _ => ?_
            · refine advance.step fun _ _ => ?_
              exact (spanFrom hfirst).step fun _ _ => ih _
            · refine (hinner .type _).step fun _ _ => ?_
              refine (expect "]" _).discard.step fun _ _ => ?_
              exact (spanFrom hfirst).step fun _ _ => ih _
          · exact pure _

private theorem postfixed :
    r.MirrorsAt i (Machine.postfixed inner) (Reader.postfixed inner') := by
  refine look .here .here ?_
  have hfirst := reaches_front i
  generalize (r.front (r.ahead i)).span = first at hfirst
  exact (primary hinner).step fun _ _ => remaining (brackets hinner hfirst _ _)

omit hinner in
private theorem tried_apply (machine : Machine α) (tape : Tape) (index : Nat) :
    (tryCatch (do Functor.discard machine; return true)
      fun _ => return false : Machine Bool) tape index =
      tryCatch
        ((machine tape index >>= fun result => Pure.pure ((), result.2)) >>=
          fun result =>
        Pure.pure (true, result.2)) fun _ => Pure.pure (false, index) := rfl

/-- The constraint is tried by both, and both go back to where it began or
neither does. -/
private theorem inferredConstraint :
    r.MirrorsAt i (Machine.inferredConstraint inner)
      (Reader.inferredConstraint inner') := by
  refine at? "extends" fun constrained _ => ?_
  refine branch (fun _ => ?_) fun _ => ?_
  · refine shown .get (seen .get (advance.step fun _ j => seen .get ?_))
    have htried := tried_apply (inner .union) r.tape j
    cases hinner .union j with
    | error error hmachine hreader hflaw =>
        rw [hmachine] at htried
        rw [hreader]
        exact shown htried (shown (.at? "?") (.ok () i (moveTo_apply i) rfl))
    | ok value next hmachine hreader =>
        rw [hmachine] at htried
        replace htried : _ =
            (Pure.pure (true, next.val) : Attempt SyntaxError (Bool × Nat)) :=
          htried
        rw [hreader]
        have hread :
            (set (if frontText (r.ahead next) = "?" then r.cursorAt i
              else r.cursorAt next) : Reader Unit).run
            (r.cursorAt j) =
              .ok ((), if frontText (r.ahead next) = "?" then r.cursorAt i
                else r.cursorAt next) := rfl
        have hmark : Machine.at? "?" r.tape next =
            Pure.pure (decide (frontText (r.ahead next) = "?"), next.val) :=
          Shows.at? "?"
        by_cases hfront : frontText (r.ahead next) = "?"
        · replace hread :=
            hread.trans
              (congrArg (fun cursor => Except.ok ((), cursor)) (if_pos hfront))
          refine .ok () i ?_ hread
          rw [bind_apply, htried, pure_bind, bind_apply, hmark, pure_bind,
            decide_eq_true hfront]
          exact moveTo_apply i
        · replace hread :=
            hread.trans
              (congrArg (fun cursor => Except.ok ((), cursor)) (if_neg hfront))
          refine .ok () next ?_ hread
          rw [bind_apply, htried, pure_bind, bind_apply, hmark, pure_bind,
            decide_eq_false hfront]
          rfl
  · exact pure ()

theorem operand (bound : Nat) :
    r.MirrorsAt i (Machine.operand inner bound)
      (Reader.operand inner' bound) := by
  induction bound generalizing i with
  | zero => exact postfixed hinner
  | succ bound ih =>
      refine look .here .here ?_
      have hfirst := reaches_front i
      generalize (r.front (r.ahead i)).span = first at hfirst
      refine textAt 0 (look .operandFollows rfl ?_)
      generalize typeOperator? (frontText ((r.ahead i).drop 0)) = operator?
      generalize (!((r.ahead i).drop 1).isEmpty &&
        !typeTerminators.contains _) = follows
      match operator?, follows with
      | some operator, true =>
          refine advance.step fun _ _ => ?_
          exact ih.step fun _ _ => spanned hfirst
      | none, _ | some _, false =>
          refine at? "infer" fun infers _ => shown (.isWord 1) (onAhead ?_)
          refine branch (fun _ => ?_) fun _ => ?_
          · refine advance.step fun _ _ => ?_
            refine advance.step fun _ _ => ?_
            exact (inferredConstraint hinner).step fun _ _ => spanned hfirst
          · exact postfixed hinner

/-! ## Combinations -/

omit hinner in
include hfirst in
theorem joined (join : Span → List TypeNode → TypeNode)
    (parts : List TypeNode) : r.MirrorsAt i
      (match parts with
        | [part] => return part
        | parts => return join (← Machine.spanFrom first) parts)
      (match parts with
        | [part] => return part
        | parts => return join (← Reader.spanFrom first) parts) := by
  split
  · exact pure _
  · exact spanned hfirst

private theorem intersection :
    r.MirrorsAt i (Machine.intersection inner)
      (Reader.intersection inner') := by
  refine look .here .here ?_
  have hfirst := reaches_front i
  generalize (r.front (r.ahead i)).span = first at hfirst
  refine (skip "&").step fun _ _ => ?_
  refine remaining ?_
  exact (separated "&" (fun _ => remaining (operand hinner _)) _).step
    fun parts _ => joined hfirst _ parts

theorem union : r.MirrorsAt i (Machine.union inner) (Reader.union inner') := by
  refine look .here .here ?_
  have hfirst := reaches_front i
  generalize (r.front (r.ahead i)).span = first at hfirst
  refine (skip "|").step fun _ _ => ?_
  refine remaining ?_
  exact (separated "|" (fun _ => intersection hinner) _).step fun parts _ =>
    joined hfirst _ parts

include hfirst in
private theorem condition :
    r.MirrorsAt i (Machine.condition inner first)
      (Reader.condition inner' first) := by
  refine advance.step fun _ _ => ?_
  refine (union hinner).discard.step fun _ _ => ?_
  refine (expect "?" _).discard.step fun _ _ => ?_
  refine (hinner .type _).discard.step fun _ _ => ?_
  refine (expect ":" _).discard.step fun _ _ => ?_
  exact (hinner .type _).discard.step fun _ _ => spanned hfirst

omit hinner in
private theorem opensFunction :
    r.MirrorsAt i Machine.opensFunction Reader.opensFunction := by
  refine at? "<" fun angled _ => ?_
  refine branch (fun _ => ?_) fun _ => ?_
  · exact pure true
  refine at? "(" fun opened hfront => ?_
  refine branch (fun hopened => ?_) fun _ => ?_
  · exact parenthesisOpensFunction (by rw [hfront hopened]; decide)
  · exact pure false

private theorem anyType :
    r.MirrorsAt i (Machine.anyType inner) (Reader.anyType inner') := by
  refine look .here .here ?_
  have hfirst := reaches_front i
  generalize (r.front (r.ahead i)).span = first at hfirst
  refine opensFunction.step fun opens _ => ?_
  refine branch (fun _ => ?_) fun _ => ?_
  · exact functionType hinner hfirst
  refine at? "new" fun _ _ => ?_
  refine at? "abstract" fun _ _ => textAt 1 ?_
  refine branch (fun _ => ?_) fun _ => ?_
  · refine (skip "abstract").step fun _ _ => ?_
    refine advance.step fun _ _ => ?_
    exact (functionType hinner hfirst).discard.step fun _ _ => spanned hfirst
  · refine (union hinner).step fun checked _ => ?_
    refine at? "extends" fun conditional _ => ?_
    refine branch (fun _ => ?_) fun _ => ?_
    · exact condition hinner hfirst
    · exact pure checked

end

theorem nested (depth : Nat) (kind : Nested) :
    r.MirrorsAt i (Machine.nested depth kind) (Reader.nested depth kind) := by
  induction depth generalizing i kind with
  | zero => exact fail _ (by rintro ⟨⟩)
  | succ depth ih =>
      cases kind with
      | type => exact anyType fun kind _ => ih kind
      | union => exact union fun kind _ => ih kind

theorem type : r.MirrorsAt i Machine.type Reader.type := remaining (nested _ _)

end MirrorsAt

end ShapeMend.Script.Checked.Recording
