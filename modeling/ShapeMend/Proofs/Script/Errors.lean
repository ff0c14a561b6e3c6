import ShapeMend.Proofs.Script.Faults
import ShapeMend.Script.Declared

/-!
# Where a script is at fault

Every error of a reader is at a token ahead of it, at a token it has seen
before, or at the end of the text. What a reader must know for that are the
places of the tokens only, so the statements below hold of any condition on
places.
-/

namespace ShapeMend

namespace Script

open ShapeMend.Text

variable {α β : Type} {place : Position → Prop}

def Outcome (place : Position → Prop) (post : α → Prop) :
    Except SyntaxError α → Prop
  | .ok value => post value
  | .error error => place error.position

namespace Outcome

theorem bind {mid : α → Prop} {post : β → Prop} {first : Except SyntaxError α}
    {next : α → Except SyntaxError β} (hfirst : Outcome place mid first)
    (hnext : ∀ value, mid value → Outcome place post (next value)) :
    Outcome place post (first >>= next) := by
  cases first with
  | error error => exact hfirst
  | ok value => exact hnext value hfirst

end Outcome

abbrev Token.At (place : Position → Prop) (token : Token) : Prop :=
  place token.span.start

/-! ## Groups -/

section

variable {stack tokens : List Token}

theorem Bracket.outcome_track {token : Token} (htoken : token.At place)
    (hstack : ∀ opener ∈ stack, opener.At place) :
    Outcome place (fun within => ∀ opener ∈ within,
      opener.At place) (track stack token) := by
  fun_cases track stack token with
  | case1 => exact hstack
  | case2 => exact List.forall_mem_cons.mpr ⟨htoken, hstack⟩
  | case3 => exact htoken
  | case4 => exact (List.forall_mem_cons.mp hstack).2
  | case5 => exact htoken
  | case6 => exact hstack

theorem Bracket.outcome_groupLength (htokens : ∀ token ∈ tokens, token.At place)
    (hstack : ∀ opener ∈ stack, opener.At place) :
    Outcome place (fun _ => True) (groupLength stack tokens) := by
  induction tokens generalizing stack with
  | nil =>
      rw [groupLength]
      cases hlast : stack.getLast? with
      | none => trivial
      | some opener => exact hstack opener (List.mem_of_getLast? hlast)
  | cons token rest ih =>
      rw [List.forall_mem_cons] at htokens
      rw [groupLength]
      refine (outcome_track htokens.1 hstack).bind fun within hwithin => ?_
      split
      · trivial
      · exact (ih htokens.2 hwithin).bind fun _ _ => trivial

private theorem Bracket.outcome_anglesLength {opener : Token}
    (hopener : opener.At place) (depth : Nat)
    (htokens : ∀ token ∈ tokens, token.At place)
    (hstack : ∀ opener ∈ stack, opener.At place) :
    Outcome place (fun _ => True) (anglesLength opener depth stack tokens) := by
  induction tokens generalizing depth stack with
  | nil =>
      rw [anglesLength]
      cases hlast : stack.getLast? with
      | none => exact hopener
      | some opener => exact hstack opener (List.mem_of_getLast? hlast)
  | cons token rest ih =>
      rw [List.forall_mem_cons] at htokens
      rw [anglesLength]
      split
      · refine (outcome_track htokens.1 hstack).bind fun within hwithin => ?_
        exact (ih depth htokens.2 hwithin).bind fun _ _ => trivial
      split
      · exact (ih _ htokens.2 (by simp)).bind fun _ _ => trivial
      split
      · split
        · trivial
        · exact (ih _ htokens.2 (by simp)).bind fun _ _ => trivial
      · exact (ih _ htokens.2 (by simp)).bind fun _ _ => trivial

private theorem Reader.outcome_statementLength (begun : Bool)
    (htokens : ∀ token ∈ tokens, token.At place)
    (hstack : ∀ opener ∈ stack, opener.At place) :
    Outcome place (fun _ => True) (statementLength stack begun tokens) := by
  induction tokens generalizing begun stack with
  | nil =>
      cases stack with
      | nil => trivial
      | cons opener below => exact hstack opener List.mem_cons_self
  | cons token rest ih =>
      rw [List.forall_mem_cons] at htokens
      rw [statementLength]
      split
      · trivial
      refine (Bracket.outcome_track htokens.1 hstack).bind
        fun within hwithin => ?_
      split
      · trivial
      · exact (ih true htokens.2 hwithin).bind fun _ _ => trivial

end

/-! ## Readers -/

structure Cursor.Placed (place : Position → Prop) (cursor : Cursor) : Prop where
  ahead : ∀ token ∈ cursor.ahead, token.At place
  stop : place cursor.stop

/-- Where its cursor is at such places, the reader fails at such places only,
and otherwise its value is as stated. -/
def Blames (place : Position → Prop) (reader : Reader α)
    (post : α → Prop) : Prop :=
  ∀ cursor : Cursor, cursor.Placed place →
    Outcome place (fun result => post result.1 ∧ result.2.Placed place)
      (reader.run cursor)

abbrev Fair (place : Position → Prop) (reader : Reader α) : Prop :=
  Blames place reader fun _ => True

namespace Blames

open Reader

variable {reader : Reader α} {next : α → Reader β} {post : β → Prop}

theorem pure {value : β} (h : post value) :
    Blames place (Pure.pure value) post :=
  fun _ hcursor => ⟨h, hcursor⟩

theorem done (value : β) : Fair place (Pure.pure value) := pure trivial

theorem bind {mid : α → Prop} (hfirst : Blames place reader mid)
    (hnext : ∀ value, mid value → Blames place (next value) post) :
    Blames place (reader >>= next) post := by
  intro cursor hcursor
  rw [StateT.run_bind]
  refine (hfirst cursor hcursor).bind ?_
  rintro ⟨value, after⟩ ⟨hvalue, hafter⟩
  exact hnext value hvalue after hafter

theorem step {mid : α → Prop} (hfirst : Blames place reader mid)
    (hnext : ∀ value, Blames place (next value) post) :
    Blames place (reader >>= next) post :=
  hfirst.bind fun value _ => hnext value

theorem lift {first : Except SyntaxError β} (h : Outcome place post first) :
    Blames place (liftM first : Reader β) post := by
  intro cursor hcursor
  cases first with
  | error error => exact h
  | ok value => exact ⟨h, hcursor⟩

theorem throw {error : SyntaxError} (h : place error.position) :
    Blames place (throw error : Reader β) post :=
  fun _ _ => h

theorem here : Blames place here fun span => place span.start := by
  rintro ⟨ahead, lastStop, stop⟩ hcursor
  cases ahead with
  | nil => exact ⟨hcursor.stop, hcursor⟩
  | cons token later => exact ⟨hcursor.ahead token List.mem_cons_self, hcursor⟩

theorem fail {flaw : SyntaxFlaw} : Blames place (fail flaw) post :=
  here.bind fun _ hspan => throw hspan

theorem ahead :
    Blames place ahead fun tokens => ∀ token ∈ tokens, token.At place :=
  fun _ hcursor => ⟨hcursor.ahead, hcursor⟩

theorem remaining : Fair place remaining := fun _ hcursor => ⟨trivial, hcursor⟩

theorem textAt (n : Nat) : Fair place (textAt n) :=
  fun _ hcursor => ⟨trivial, hcursor⟩

theorem at? (text : String) : Fair place (at? text) :=
  (textAt 0).step fun _ => done _

theorem spanFrom (first : Span) : Fair place (spanFrom first) :=
  fun _ hcursor => ⟨trivial, hcursor⟩

theorem spanned {first : Span} {value : Span → β} :
    Fair place (Reader.spanFrom first >>= fun span => Pure.pure (value span)) :=
  (spanFrom first).step fun _ => done _

theorem advance : Fair place advance := by
  rintro ⟨ahead, lastStop, stop⟩ hcursor
  cases ahead with
  | nil => exact ⟨trivial, hcursor⟩
  | cons token later =>
      exact ⟨trivial,
        fun other hother => hcursor.ahead other (List.mem_cons_of_mem _ hother),
        hcursor.stop⟩

theorem advanceBy (n : Nat) : Fair place (advanceBy n) := by
  induction n with
  | zero => exact done ()
  | succ n ih => exact advance.step fun _ => ih

theorem discard {mid : α → Prop} (h : Blames place reader mid) :
    Fair place (discard reader) :=
  h.step fun _ => done ()

theorem skip (text : String) : Fair place (skip text) := by
  refine (at? text).step fun there => ?_
  split
  · exact advance
  · exact done ()

theorem expect (text : String) (missing : Place) :
    Blames place (expect text missing) fun span => place span.start := by
  refine here.bind fun span hspan => ?_
  refine (at? text).step fun there => ?_
  split
  · exact advance.step fun _ => pure hspan
  · exact fail

theorem name (missing : Place) : Fair place (name missing) := by
  refine ahead.step fun tokens => ?_
  split
  · split
    · exact advance.step fun _ => done _
    · exact fail
  · exact fail

theorem group : Fair place group := by
  refine here.step fun first => ?_
  refine ahead.bind fun _ htokens => ?_
  refine (lift (Bracket.outcome_groupLength htokens (by simp))).step fun n => ?_
  exact (advanceBy n).step fun _ => spanFrom first

theorem angles : Fair place angles := by
  refine ahead.bind fun tokens htokens => ?_
  split
  · exact done ()
  · next opener later =>
      have hopener := htokens opener List.mem_cons_self
      exact ahead.bind fun _ hagain =>
        (lift (Bracket.outcome_anglesLength hopener 0 hagain (by simp))).step
          advanceBy

theorem skipWhile (test : List Token → Bool) : Fair place (skipWhile test) :=
  ahead.step fun _ => advanceBy _

theorem separated (separator : String) {item : Reader α}
    (hitem : Fair place item) (bound : Nat) :
    Fair place (separated separator item bound) := by
  induction bound with
  | zero => exact hitem.step fun _ => done _
  | succ bound ih =>
      refine hitem.step fun first => ?_
      refine (at? separator).step fun more => ?_
      split
      · refine advance.step fun _ => ?_
        exact ih.step fun _ => done _
      · exact done _

/-! ## Names and literals -/

theorem operandFollows : Fair place operandFollows := ahead.step fun _ => done _

theorem dottedTail (bound : Nat) : Fair place (dottedTail bound) := by
  induction bound with
  | zero => exact done _
  | succ bound ih =>
      refine (at? ".").step fun more => ?_
      split
      · refine advance.step fun _ => ?_
        refine (name _).step fun _ => ?_
        exact ih.step fun _ => done _
      · exact done _

private theorem dottedName : Fair place dottedName := by
  refine (name _).step fun _ => ?_
  refine remaining.step fun _ => ?_
  exact (dottedTail _).step fun _ => done _

private theorem moduleTail : Fair place moduleTail := by
  refine advance.step fun _ => ?_
  refine group.discard.step fun _ => ?_
  exact remaining.step fun _ => (dottedTail _).discard

private theorem skippedArguments : Fair place skippedArguments := by
  refine ahead.step fun tokens => ?_
  split
  · split
    · exact angles
    · exact done ()
  · exact done ()

theorem numeral {span : Span} (hspan : place span.start) (negative : Bool)
    (text : String) : Fair place (numeral span negative text) := by
  unfold Reader.numeral
  split
  · exact done _
  · exact throw hspan

private theorem parenthesisOpensFunction :
    Fair place parenthesisOpensFunction := by
  refine ahead.bind fun _ htokens => ?_
  exact (lift (Bracket.outcome_groupLength htokens (by simp))).step
    fun _ => done _

private theorem skipLabel : Fair place skipLabel := by
  refine ahead.step fun tokens => ?_
  simp only
  split
  · refine advance.step fun _ => ?_
    exact (skip "?").step fun _ => advance
  · exact done ()

theorem plainKey : Fair place plainKey := by
  refine ahead.step fun tokens => ?_
  split
  · exact fail
  split
  · exact advance.step fun _ => done _
  · exact advance.step fun _ => done _
  · exact advance.step fun _ => done _
  · split
    · refine advance.step fun _ => ?_
      exact (name _).step fun _ => done _
    · exact fail

private theorem accessorKey : Fair place accessorKey := by
  refine (at? "[").step fun computed => ?_
  split
  · exact group.step fun _ => done _
  · exact plainKey.step fun _ => done _

private theorem memberMayFollow : Fair place memberMayFollow := by
  refine ahead.step fun tokens => ?_
  split <;> exact done _

theorem separator {more : Bool} {mayFollow : Reader Bool} {flaw : SyntaxFlaw}
    {next : Unit → Reader β} (hfollow : Fair place mayFollow)
    (hnext : Blames place (next ()) post) :
    Blames place (if more then Reader.advance >>= next
      else
        mayFollow >>= fun follows => if follows then next ()
          else Reader.fail flaw >>= next) post := by
  split
  · exact advance.step fun _ => hnext
  refine hfollow.step fun follows => ?_
  split
  · exact hnext
  · have hfail : Fair place (Reader.fail flaw : Reader Unit) := fail
    exact hfail.step fun _ => hnext

section

variable {inner : Nested → Reader TypeNode}
  (hinner : ∀ kind, Fair place (inner kind))

include hinner

/-! ## Functions and signatures -/

theorem returnType : Fair place (returnType inner) := by
  refine ahead.step fun tokens => ?_
  refine (at? "asserts").step fun asserts => ?_
  simp only
  split
  · refine advance.step fun _ => ?_
    refine advance.step fun _ => ?_
    refine (at? "is").step fun narrows => ?_
    split
    · exact advance.step fun _ => (hinner .type).discard
    · exact done ()
  · refine ahead.step fun _ => ?_
    split
    · refine advance.step fun _ => ?_
      exact advance.step fun _ => (hinner .type).discard
    · exact (hinner .type).discard

private theorem functionType (first : Span) :
    Fair place (functionType inner first) := by
  have hrest : Fair place (do
      if ← Reader.at? "(" then
        Functor.discard Reader.group
        Functor.discard (Reader.expect "=>" .functionType)
        Reader.returnType inner
        return TypeNode.sealed (← Reader.spanFrom first) .function
      else Reader.fail (.missing "(" .functionType)) := by
    refine (at? "(").step fun opens => ?_
    split
    · refine group.discard.step fun _ => ?_
      refine (expect "=>" _).discard.step fun _ => ?_
      exact (returnType hinner).step fun _ => spanned
    · exact fail
  refine (at? "<").step fun opens => ?_
  split
  · exact angles.step fun _ => hrest
  · exact hrest

theorem signature : Fair place (signature inner) := by
  have hrest : Fair place (do
      if ← Reader.at? "(" then
        Functor.discard Reader.group
        if ← Reader.at? ":" then
          Reader.advance
          Reader.returnType inner
      else Reader.fail (.missing "(" .signature)) := by
    refine (at? "(").step fun opens => ?_
    split
    · refine group.discard.step fun _ => ?_
      refine (at? ":").step fun returns => ?_
      split
      · exact advance.step fun _ => returnType hinner
      · exact done ()
    · exact fail
  refine (at? "<").step fun opens => ?_
  split
  · exact angles.step fun _ => hrest
  · exact hrest

/-! ## Lists in brackets -/

private theorem arguments (bound : Nat) :
    Fair place (arguments inner bound) := by
  induction bound with
  | zero => exact done _
  | succ bound ih =>
      refine (at? ">").step fun closes => ?_
      split
      · exact advance.step fun _ => done _
      · refine (hinner _).step fun _ => ?_
        refine (at? ",").step fun _ => ?_
        refine separator (at? ">") ?_
        exact ih.step fun _ => done _

private theorem elements (bound : Nat) : Fair place (elements inner bound) := by
  induction bound with
  | zero => exact done _
  | succ bound ih =>
      refine (at? "]").step fun closes => ?_
      split
      · exact advance.step fun _ => done _
      · refine (skip "...").step fun _ => ?_
        refine skipLabel.step fun _ => ?_
        refine (hinner .type).step fun _ => ?_
        refine (skip "?").step fun _ => ?_
        refine (at? ",").step fun _ => ?_
        refine separator (at? "]") ?_
        exact ih.step fun _ => done _

/-! ## Members -/

private theorem bracketedMember (first : Span) :
    Fair place (bracketedMember inner first) := by
  refine ahead.step fun tokens => ?_
  refine group.discard.step fun _ => ?_
  refine (skip "?").step fun _ => ?_
  split
  · refine (expect ":" _).discard.step fun _ => ?_
    exact (hinner .type).discard.step fun _ => spanned
  · refine (at? "(").step fun _ => ?_
    refine (at? "<").step fun _ => ?_
    split
    · exact (signature hinner).step fun _ => spanned
    · refine (at? ":").step fun typed => ?_
      split
      · refine advance.step fun _ => ?_
        exact (hinner .type).discard.step fun _ => spanned
      · exact spanned

private theorem namedMember (first : Span) :
    Fair place (namedMember inner first) := by
  refine plainKey.step fun key => ?_
  refine (at? "?").step fun optional => ?_
  refine (skip "?").step fun _ => ?_
  refine (at? "(").step fun _ => ?_
  refine (at? "<").step fun _ => ?_
  split
  · exact (signature hinner).step fun _ => spanned
  · refine (at? ":").step fun typed => ?_
    split
    · refine advance.step fun _ => ?_
      exact (hinner .type).step fun _ => spanned
    · exact spanned

private theorem member : Fair place (member inner) := by
  refine here.step fun first => ?_
  refine (skipWhile _).step fun _ => ?_
  refine ahead.step fun tokens => ?_
  refine (at? "(").step fun _ => ?_
  refine (at? "<").step fun _ => ?_
  split
  · exact (signature hinner).step fun _ => spanned
  refine (at? "new").step fun constructs => ?_
  split
  · refine advance.step fun _ => ?_
    exact (signature hinner).step fun _ => spanned
  refine (at? "get").step fun _ => ?_
  refine (at? "set").step fun _ => ?_
  split
  · refine advance.step fun _ => ?_
    refine accessorKey.step fun _ => ?_
    exact (signature hinner).step fun _ => spanned
  refine (at? "[").step fun computed => ?_
  split
  · exact bracketedMember hinner first
  · exact namedMember hinner first

private theorem memberTail {opener : Span} (hopener : place opener.start)
    (bound : Nat) : Fair place (memberTail inner opener bound) := by
  induction bound with
  | zero => exact throw hopener
  | succ bound ih =>
      refine (skipWhile _).step fun _ => ?_
      refine (at? "\x7d").step fun closes => ?_
      split
      · exact advance.step fun _ => done _
      refine ahead.step fun tokens => ?_
      split
      · exact throw hopener
      · refine (member hinner).step fun _ => ?_
        refine (at? ";").step fun _ => ?_
        refine (at? ",").step fun _ => ?_
        refine separator memberMayFollow ?_
        exact ih.step fun _ => done _

theorem members : Fair place (members inner) := by
  refine (expect "\x7b" _).bind fun _ hopener => ?_
  exact remaining.step fun _ => memberTail hinner hopener _

/-! ## Operands -/

private theorem worded : Fair place (worded inner) := by
  refine here.step fun first => ?_
  refine (textAt 0).step fun word => ?_
  refine (textAt 1).step fun next => ?_
  split
  · exact advance.step fun _ => done _
  refine operandFollows.step fun follows => ?_
  split
  · refine advance.step fun _ => ?_
    refine (at? "import").step fun imports => ?_
    refine (textAt 1).step fun opener => ?_
    split
    · refine moduleTail.step fun _ => ?_
      exact skippedArguments.step fun _ => spanned
    · refine dottedName.discard.step fun _ => ?_
      exact skippedArguments.step fun _ => spanned
  split
  · refine moduleTail.step fun _ => ?_
    exact skippedArguments.step fun _ => spanned
  split
  · exact advance.step fun _ => done _
  refine dottedName.step fun name => ?_
  refine ahead.step fun tokens => ?_
  obtain ⟨name, qualified⟩ := name
  cases tokens with
  | nil => exact spanned
  | cons token later =>
      simp only
      split
      · refine advance.step fun _ => ?_
        refine remaining.step fun _ => ?_
        exact (arguments hinner _).step fun _ => spanned
      · exact spanned

private theorem symbolic {first : Span} (hfirst : place first.start)
    (symbol : String) (later : List Token) :
    Fair place (symbolic inner first symbol later) := by
  have hthrough (last : Span) : place (first.through last).start := hfirst
  unfold Reader.symbolic
  split
  · refine advance.step fun _ => ?_
    exact advance.step fun _ => numeral (hthrough _) _ _
  split
  · refine advance.step fun _ => ?_
    refine (hinner .type).step fun _ => ?_
    exact (expect ")" _).discard.step fun _ => spanned
  split
  · refine advance.step fun _ => ?_
    refine remaining.step fun _ => ?_
    exact (elements hinner _).step fun _ => spanned
  split
  · refine ahead.step fun tokens => ?_
    split
    · exact group.step fun _ => done _
    · exact (members hinner).step fun _ => spanned
  · exact fail

private theorem primary : Fair place (primary inner) := by
  refine ahead.bind fun tokens htokens => ?_
  split
  · exact fail
  next token later =>
    have htoken := htokens token List.mem_cons_self
    split
    · exact advance.step fun _ => done _
    · exact advance.step fun _ => numeral htoken _ _
    · exact advance.step fun _ => done _
    · exact worded hinner
    · exact fail
    · exact symbolic hinner htoken _ _

private theorem brackets (first : Span) (bound : Nat) (type : TypeNode) :
    Fair place (brackets inner first bound type) := by
  induction bound generalizing type with
  | zero => exact done _
  | succ bound ih =>
      refine ahead.step fun tokens => ?_
      cases tokens with
      | nil => exact done _
      | cons token later =>
          simp only
          split
          · refine advance.step fun _ => ?_
            refine (at? "]").step fun closes => ?_
            split
            · refine advance.step fun _ => ?_
              exact (spanFrom first).step fun _ => ih _
            · refine (hinner .type).step fun _ => ?_
              refine (expect "]" _).discard.step fun _ => ?_
              exact (spanFrom first).step fun _ => ih _
          · exact done _

private theorem postfixed : Fair place (postfixed inner) := by
  refine here.step fun first => ?_
  refine (primary hinner).step fun _ => ?_
  exact remaining.step fun _ => brackets hinner first _ _

/-- What fails under the constraint is not reported: the reader goes back to
where the constraint began. -/
private theorem inferredConstraint : Fair place (inferredConstraint inner) := by
  have hget : Blames place (MonadState.get : Reader Cursor) (·.Placed place) :=
    fun _ hcursor => ⟨hcursor, hcursor⟩
  have hset (cursor : Cursor) (hcursor : cursor.Placed place) :
      Fair place (MonadStateOf.set cursor : Reader Unit) :=
        fun _ _ => ⟨trivial, hcursor⟩
  refine (at? "extends").step fun constrained => ?_
  split
  · refine hget.bind fun start hstart => ?_
    refine advance.step fun _ => ?_
    refine hget.bind fun cursor hcursor => ?_
    have hresult := hinner .union cursor hcursor
    split
    · next result after hrun =>
        rw [hrun] at hresult
        split
        · exact hset start hstart
        · exact hset after hresult.2
    · exact hset start hstart
  · exact done ()

theorem operand (bound : Nat) : Fair place (operand inner bound) := by
  induction bound with
  | zero => exact postfixed hinner
  | succ bound ih =>
      refine here.step fun first => ?_
      refine (textAt 0).step fun word => ?_
      refine operandFollows.step fun follows => ?_
      split
      · refine advance.step fun _ => ?_
        exact ih.step fun _ => spanned
      · refine (at? "infer").step fun infers => ?_
        refine ahead.step fun tokens => ?_
        split
        · refine advance.step fun _ => ?_
          refine advance.step fun _ => ?_
          exact (inferredConstraint hinner).step fun _ => spanned
        · exact postfixed hinner

/-! ## Combinations -/

private theorem intersection : Fair place (intersection inner) := by
  refine here.step fun first => ?_
  refine (skip "&").step fun _ => ?_
  refine remaining.step fun bound => ?_
  refine (separated "&" (remaining.step fun depth => operand hinner depth)
    bound).step fun parts => ?_
  split
  · exact done _
  · exact spanned

theorem union : Fair place (union inner) := by
  refine here.step fun first => ?_
  refine (skip "|").step fun _ => ?_
  refine remaining.step fun bound => ?_
  refine (separated "|" (intersection hinner) bound).step fun branches => ?_
  split
  · exact done _
  · exact spanned

private theorem condition (first : Span) :
    Fair place (condition inner first) := by
  refine advance.step fun _ => ?_
  refine (union hinner).discard.step fun _ => ?_
  refine (expect "?" _).discard.step fun _ => ?_
  refine (hinner .type).discard.step fun _ => ?_
  refine (expect ":" _).discard.step fun _ => ?_
  exact (hinner .type).discard.step fun _ => spanned

private theorem anyType : Fair place (anyType inner) := by
  have hopens : Fair place opensFunction := by
    refine (at? "<").step fun angled => ?_
    split
    · exact done _
    refine (at? "(").step fun opened => ?_
    split
    · exact parenthesisOpensFunction
    · exact done _
  refine here.step fun first => ?_
  refine hopens.step fun opens => ?_
  split
  · exact functionType hinner first
  refine (at? "new").step fun new => ?_
  refine (at? "abstract").step fun abstract => ?_
  refine (textAt 1).step fun _ => ?_
  split
  · refine (skip "abstract").step fun _ => ?_
    refine advance.step fun _ => ?_
    exact (functionType hinner first).discard.step fun _ => spanned
  · refine (union hinner).step fun checked => ?_
    refine (at? "extends").step fun conditional => ?_
    split
    · exact condition hinner first
    · exact done _

end

theorem nested (depth : Nat) (kind : Nested) :
    Fair place (nested depth kind) := by
  induction depth generalizing kind with
  | zero => exact fail
  | succ depth ih =>
      cases kind with
      | type => exact anyType ih
      | union => exact union ih

theorem type : Fair place type := remaining.step fun _ => nested _ _

/-! ## Items -/

private theorem typeAfter (word : String) : Fair place (typeAfter word) := by
  refine (at? word).step fun there => ?_
  split
  · refine advance.step fun _ => ?_
    exact type.step fun _ => done _
  · exact done _

private theorem typeParameterTail (bound : Nat) :
    Fair place (typeParameterTail bound) := by
  induction bound with
  | zero => exact done _
  | succ bound ih =>
      refine (at? ">").step fun closes => ?_
      split
      · exact advance.step fun _ => done _
      · refine (skipWhile _).step fun _ => ?_
        refine (name _).step fun _ => ?_
        refine (typeAfter _).step fun _ => ?_
        refine (typeAfter _).step fun _ => ?_
        refine (at? ",").step fun _ => ?_
        refine separator (at? ">") ?_
        exact ih.step fun _ => done _

theorem typeParameters : Fair place typeParameters := by
  refine (at? "<").step fun opens => ?_
  split
  · refine advance.step fun _ => ?_
    exact remaining.step fun _ => typeParameterTail _
  · exact done _

private theorem parents : Fair place parents := by
  refine (at? "extends").step fun extending => ?_
  split
  · refine advance.step fun _ => ?_
    exact remaining.step fun depth =>
      separated ","
      (remaining.step fun bound => operand (nested depth) bound) depth
  · exact done _

private theorem interface (first : Span) (exported : Bool) :
    Fair place (interface first exported) := by
  refine advance.step fun _ => ?_
  refine (name _).step fun _ => ?_
  refine typeParameters.step fun _ => ?_
  refine parents.step fun _ => ?_
  refine remaining.step fun _ => ?_
  exact (members (nested _)).step fun _ => spanned

private theorem aliasEnd : Fair place aliasEnd := by
  refine ahead.step fun tokens => ?_
  split
  · exact done ()
  split
  · exact advance
  split
  · exact done ()
  · exact fail

private theorem aliasItem (first : Span) (exported : Bool) :
    Fair place (aliasItem first exported) := by
  refine advance.step fun _ => ?_
  refine (name _).step fun _ => ?_
  refine typeParameters.step fun _ => ?_
  refine (expect "=" _).discard.step fun _ => ?_
  refine type.step fun _ => ?_
  exact aliasEnd.step fun _ => spanned

private theorem opaqueItem (first : Span) : Fair place (opaqueItem first) := by
  refine ahead.bind fun _ htokens => ?_
  refine (lift (outcome_statementLength false htokens (by simp))).step
    fun n => ?_
  exact (advanceBy n).step fun _ => spanned

private theorem item : Fair place item := by
  refine here.step fun first => ?_
  refine ahead.step fun tokens => ?_
  obtain ⟨exported, n⟩ := itemModifiers false tokens
  simp only
  split
  · refine (advanceBy n).step fun _ => ?_
    exact (interface first exported).step fun _ => done _
  split
  · refine (advanceBy n).step fun _ => ?_
    exact (aliasItem first exported).step fun _ => done _
  · exact opaqueItem first

private theorem items (bound : Nat) : Fair place (items bound) := by
  induction bound with
  | zero => exact done _
  | succ bound ih =>
      refine ahead.step fun tokens => ?_
      split
      · exact done _
      refine (at? ";").step fun separated => ?_
      split
      · exact advance.step fun _ => ih
      · refine item.step fun _ => ?_
        exact ih.step fun _ => done _

end Blames

private theorem liesIn_of_itemsOfText {text : List Char} {error : SyntaxError}
    (h : itemsOfText text = .error error) : error.position.LiesIn text := by
  have hplaced := TokenStream.placed_ofText text
  rw [itemsOfText] at h
  cases hstream : TokenStream.ofText text with
  | error lexical =>
      rw [hstream] at h hplaced
      obtain rfl : SyntaxError.ofLexical lexical = error := Except.error.inj h
      exact hplaced
  | ok stream =>
      rw [hstream] at h hplaced
      have hitems :=
        Blames.items (stream.tokens.length + 1) ⟨stream.tokens, 0, stream.stop⟩
        ⟨hplaced.2, hplaced.1⟩
      simp only [TokenStream.items, StateT.run'_eq] at h
      cases hrun : (Reader.items (stream.tokens.length + 1)).run
        ⟨stream.tokens, 0, stream.stop⟩ with
      | error found =>
          rw [hrun] at h hitems
          obtain rfl : found = error := Except.error.inj h
          exact hitems
      | ok result =>
          rw [hrun] at h
          cases h

end Script

/-! ## Reports -/

open Text

/-- The error is on one of so many lines, at one of its characters or right
behind them, and the report shows that line over a caret under the place. -/
structure SourceError.PointsInto (e : SourceError) (count : Nat) : Prop where
  line : 1 ≤ e.error.position.line ∧ e.error.position.line ≤ count
  column : 1 ≤ e.error.position.column ∧
    e.error.position.column ≤ (e.source.line e.error.position.line).length + 1
  shown : ∃ pad, Source.PadsTo (e.source.line e.error.position.line)
    e.error.position.column pad ∧
    let number := toString e.error.position.line
    let margin := "".pushn ' ' (number.length + 1)
    e.report = "\n--> " ++ e.source.id ++ ":" ++ number ++ ":" ++
      toString e.error.position.column
      ++ "\n" ++ margin ++ "|"
      ++ "\n" ++ number ++ " | " ++
        String.ofList (e.source.line e.error.position.line)
      ++ "\n" ++ margin ++ "| " ++ String.ofList pad ++ "^"
      ++ "\n" ++ "error" ++ ": " ++ e.message

theorem pointsInto_of_source (source : Source) :
    ∃ ended last, source.Cut ended last ∧
    ∀ exportAll error, schemaOfSource source exportAll = .error error →
      error.source = source ∧ error.PointsInto (ended.length + 1) := by
  obtain ⟨ended, last, hcut⟩ := source.exists_cut
  refine ⟨ended, last, hcut, fun exportAll error hfails => ?_⟩
  rw [schemaOfSource] at hfails
  split at hfails
  · next found hfound =>
      obtain rfl := Except.error.inj hfails
      obtain ⟨hline, hcolumn⟩ :=
        (Script.liesIn_of_itemsOfText hfound).bounds hcut
      refine ⟨rfl, hline, hcolumn, _, Source.padsTo_caretPad hcolumn.2, rfl⟩
  · cases hfails

end ShapeMend
