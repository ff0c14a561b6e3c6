import ShapeMend.Proofs.Script.Passing

/-!
# Spans of trees

A reader that builds a tree from parts has read each of them from a run of
tokens, one run behind the other.  So the spans in a script are well nested.
-/

namespace ShapeMend.Script

open ShapeMend.Text Reader

/-! ## Readers of trees -/

def EndsWith (run : List Token) (outline : Outline) : Prop :=
  ∃ lead part, run = lead ++ part ∧ Covers part outline

theorem Covers.ne_nil {run : List Token} {outline : Outline}
    (h : Covers run outline) : run ≠ [] := by
  cases h with
  | node hspan hrow => exact hspan.ne_nil

theorem Covers.endsWith {run : List Token} {outline : Outline}
    (h : Covers run outline) : EndsWith run outline :=
  ⟨[], run, rfl, h⟩

namespace EndsWith

variable {run : List Token} {outline : Outline}

private theorem behind (h : EndsWith run outline) (skipped : List Token) :
    EndsWith (skipped ++ run) outline := by
  obtain ⟨lead, part, rfl, hcovers⟩ := h
  exact ⟨skipped ++ lead, part, (List.append_assoc ..).symm, hcovers⟩

theorem ne_nil (h : EndsWith run outline) : run ≠ [] := by
  obtain ⟨lead, part, rfl, hcovers⟩ := h
  exact List.append_ne_nil_of_right_ne_nil _ hcovers.ne_nil

theorem row (h : EndsWith run outline) : Row run [outline] := by
  obtain ⟨lead, part, rfl, hcovers⟩ := h
  exact .skip lead (.one hcovers)

end EndsWith

structure Listed (run : List Token) (nodes : List TypeNode) : Prop where
  ne_nil : nodes ≠ []
  row : Row run (nodeOutlines nodes)
  alone : ∀ node, nodes = [node] → EndsWith run node.outline
  passed : run ≠ []

namespace Listed

variable {run part : List Token} {node : TypeNode} {nodes : List TypeNode}

private theorem one (h : EndsWith run node.outline) : Listed run [node] where
  ne_nil := List.cons_ne_nil node []
  row := h.row
  alone other hother := by rwa [← List.singleton_inj.mp hother]
  passed := h.ne_nil

private theorem cons (h : Row run [node.outline]) (hnodes : Listed part nodes) :
    Listed (run ++ part) (node :: nodes) where
  ne_nil := List.cons_ne_nil node nodes
  row := h.append hnodes.row
  alone _ hother := absurd (List.cons.inj hother).2 hnodes.ne_nil
  passed := List.append_ne_nil_of_right_ne_nil _ hnodes.passed

end Listed

structure NestedNodes (inner : Nested → Reader TypeNode) : Prop where
  alike : ∀ c kind, Alike c (Same TypeNode.unplaced) (inner kind) (inner kind)
  passes : ∀ kind, Passes (inner kind) fun node run => EndsWith run node.outline

namespace Passes

/-! ### Names, groups and signatures -/

theorem name (place : Place) :
    Passes (name place) fun name run => Covers run name.outline := by
  refine ⟨.of_alike fun _ => .name place, fun origin _ => ?_⟩
  refine .onAhead fun tokens htokens => ?_
  cases tokens with
  | nil => exact .fail
  | cons token rest =>
      dsimp only
      split
      · exact .advance htokens
          (.pure (.node ⟨token, token, rfl, rfl, rfl⟩ .nil))
      · exact .fail

theorem plainKey : Passes plainKey fun _ run => run ≠ [] := by
  refine ⟨.of_alike fun _ => .plainKey, fun origin _ => ?_⟩
  refine .onAhead fun tokens htokens => ?_
  cases tokens with
  | nil => exact .fail
  | cons token rest =>
      dsimp only
      split
      · exact .advance htokens (.pure (by simp))
      · exact .advance htokens (.pure (by simp))
      · exact .advance htokens (.pure (by simp))
      · split
        · refine .advance htokens ?_
          exact .pass (.of_alike fun _ => .name _) fun _ _ => .pure (by simp)
        · exact .fail

private theorem accessorKey :
    Passes accessorKey fun key run => Row run key.outlines := by
  refine ⟨.of_alike fun _ => .accessorKey, fun origin hordered => ?_⟩
  refine .atFront "[" (fun tokens htokens hfront => ?_) ?_
  · obtain ⟨token, rest, rfl⟩ := Walks.exists_cons_of_front hfront (by decide)
    refine (Walks.group hordered htokens).bind ?_
    rintro span _ ⟨part, rfl, hspan⟩
    exact .pure (.one (.node hspan .nil))
  · exact .pass plainKey.walking fun _ _ => .pure .nil

private theorem dottedName : Passes dottedName fun _ run => run ≠ [] := by
  refine ⟨.of_alike fun _ => .dottedName, fun origin hordered => ?_⟩
  refine .read hordered (name .typeName) fun first part hfirst => ?_
  refine .look .remaining fun bound => ?_
  have hne := hfirst.ne_nil
  exact .pass (.of_alike fun _ => .dottedTail bound) fun _ _ =>
    .pure (by simp [hne])

private theorem moduleTail {origin : Cursor} {token : Token} {rest : List Token}
    (hahead : origin.ahead = token :: rest) :
    Walks origin [] moduleTail fun _ run => run ≠ [] := by
  refine .advance hahead ?_
  refine .pass (.of_alike fun _ => Alike.group.discard) fun _ part => ?_
  refine .look .remaining fun bound => ?_
  exact .ne_nil (.of_alike fun _ => (Alike.dottedTail bound).discard) (by simp)

section

variable {inner : Nested → Reader TypeNode} (hinner : NestedNodes inner)
include hinner

theorem signature : Passes (signature inner) fun _ run => run ≠ [] := by
  refine ⟨.of_alike fun c => .signature (hinner.alike c),
    fun origin hordered => ?_⟩
  refine .anglesFirst fun run => ?_
  refine .groupFirst hordered
    (fun part hne => .look (.at? ":") fun returns => ?_) .fail
  split
  · exact .pass (.of_alike fun _ => .advance) fun _ _ =>
      .ne_nil (.of_alike fun c => .returnType (hinner.alike c))
        (List.append_ne_nil_of_left_ne_nil hne _)
  · exact .pure hne

omit hinner in
private theorem functionType (hinner : NestedNodes inner) {origin : Cursor}
    (hordered : Ordered origin.ahead) {first : Span}
    (hfirst : origin.Opens first) (run : List Token) :
    Walks origin run (functionType inner first) fun node longer =>
      Covers longer node.outline := by
  refine .anglesFirst fun run => .groupFirst hordered (fun part hne => ?_) .fail
  refine .pass (.of_alike fun _ => (Alike.expect "=>" _).discard) fun _ _ => ?_
  refine .pass (.of_alike fun c => .returnType (hinner.alike c)) fun _ _ => ?_
  exact .spanned hordered hfirst (by simp [hne]) fun span hspan =>
    .pure (.node hspan .nil)

/-! ### Lists in brackets -/

private theorem arguments (bound : Nat) :
    Passes (arguments inner bound) fun nodes run =>
      Row run (nodeOutlines nodes) := by
  refine ⟨.of_alike fun c => .arguments (hinner.alike c) bound, ?_⟩
  induction bound with
  | zero => exact fun origin _ => .pure .nil
  | succ bound ih =>
      intro origin hordered
      refine .look (.at? ">") fun closes => ?_
      split
      · exact .pass (.of_alike fun _ => .advance) fun _ _ => .pure .nil
      refine .read hordered (hinner.passes .type) fun node part hnode => ?_
      refine .look (.at? ",") fun more => ?_
      refine .separator (.at? ">") fun skipped => ?_
      refine .read hordered
        ⟨.of_alike fun c => .arguments (hinner.alike c) bound, ih⟩
        fun nodes rest hnodes => ?_
      exact .pure ((hnode.row.more skipped).append hnodes)

private theorem elements (bound : Nat) :
    Passes (elements inner bound) fun nodes run =>
      Row run (nodeOutlines nodes) := by
  refine ⟨.of_alike fun c => .elements (hinner.alike c) bound, ?_⟩
  induction bound with
  | zero => exact fun origin _ => .pure .nil
  | succ bound ih =>
      intro origin hordered
      refine .look (.at? "]") fun closes => ?_
      split
      · exact .pass (.of_alike fun _ => .advance) fun _ _ => .pure .nil
      refine .pass (.of_alike fun _ => .skip "...") fun _ dots => ?_
      refine .pass (.of_alike fun _ => .skipLabel) fun _ label => ?_
      refine .read hordered (hinner.passes .type) fun node part hnode => ?_
      refine .pass (.of_alike fun _ => .skip "?") fun _ mark => ?_
      refine .look (.at? ",") fun more => ?_
      refine .separator (.at? "]") fun skipped => ?_
      refine .read hordered
        ⟨.of_alike fun c => .elements (hinner.alike c) bound, ih⟩
        fun nodes rest hnodes => ?_
      exact .pure
        ((((Row.nil.append hnode.row).more mark).more skipped).append hnodes)

/-! ### Members -/

section

variable {origin : Cursor} (hordered : Ordered origin.ahead) {first : Span}
  (hfirst : origin.Opens first)
  {run : List Token}
include hordered hfirst

omit hinner in
theorem other (hne : run ≠ []) {form : MemberForm}
    (hrow : Row run form.outlines) :
    Walks origin run (Reader.spanFrom first >>=
      fun span => Pure.pure (Member.other span form)) fun member longer =>
      Covers longer member.outline :=
  .spanned hordered hfirst hne fun _ hspan => .pure (.node hspan hrow)

private theorem bracketedMember {token : Token} {rest : List Token}
    (hahead : origin.ahead = run ++ token :: rest) :
    Walks origin run (bracketedMember inner first) fun member longer =>
      Covers longer member.outline := by
  refine .look .ahead fun tokens => ?_
  refine (Walks.group hordered hahead).discarded.bind ?_
  rintro _ _ ⟨_, part, rfl, hspan⟩
  have hne := hspan.ne_nil
  refine .pass (.of_alike fun _ => .skip "?") fun _ _ => ?_
  split
  · refine .pass (.of_alike fun _ => (Alike.expect ":" _).discard) fun _ _ => ?_
    refine .pass (.of_alike fun c => (hinner.alike c .type).discard)
      fun _ _ => ?_
    exact other hordered hfirst (by simp [hne]) .nil
  refine .look (.at? "(") fun _ => ?_
  refine .look (.at? "<") fun _ => ?_
  split
  · exact .pass (signature hinner).walking fun _ _ =>
      other hordered hfirst (by simp [hne]) .nil
  refine .look (.at? ":") fun _ => ?_
  split
  · refine .pass (.of_alike fun _ => .advance) fun _ _ => ?_
    refine .pass (.of_alike fun c => (hinner.alike c .type).discard)
      fun _ _ => ?_
    exact other hordered hfirst (by simp [hne]) .nil
  · exact other hordered hfirst (by simp [hne]) .nil

private theorem namedMember :
    Walks origin run (namedMember inner first) fun member longer =>
      Covers longer member.outline := by
  refine .read hordered plainKey fun key part hne => ?_
  refine .look (.at? "?") fun optional => ?_
  refine .pass (.of_alike fun _ => .skip "?") fun _ _ => ?_
  refine .look (.at? "(") fun _ => ?_
  refine .look (.at? "<") fun _ => ?_
  split
  · exact .pass (signature hinner).walking fun _ _ =>
      other hordered hfirst (by simp [hne]) .nil
  refine .look (.at? ":") fun _ => ?_
  split
  · refine .pass (.of_alike fun _ => .advance) fun _ _ => ?_
    refine .read hordered (hinner.passes .type)
      fun declared part hdeclared => ?_
    exact .spanned hordered hfirst (by simp [hne]) fun _ hspan =>
      .pure (.node hspan (Row.nil.append hdeclared.row))
  · exact .spanned hordered hfirst (by simp [hne]) fun _ hspan =>
      .pure (.node hspan .nil)

end

private theorem member :
    Passes (member inner) fun member run => Covers run member.outline := by
  refine ⟨.of_alike fun c => .member (hinner.alike c),
    fun origin hordered => ?_⟩
  refine .here fun first hfirst => ?_
  refine .pass (.of_alike fun _ => .skipWhile fun h => ?_) fun _ modifiers => ?_
  · rw [h.frontText, (h.drop 1).startsKey]
  refine .look .ahead fun tokens => ?_
  refine .look (.at? "(") fun _ => ?_
  refine .look (.at? "<") fun _ => ?_
  split
  · exact .read hordered (signature hinner) fun _ _ hne =>
      other hordered hfirst (by simp [hne]) .nil
  refine .look (.at? "new") fun _ => ?_
  split
  · refine .pass (.of_alike fun _ => .advance) fun _ _ => ?_
    exact .read hordered (signature hinner) fun _ _ hne =>
      other hordered hfirst (by simp [hne]) .nil
  refine .look (.at? "get") fun _ => ?_
  refine .look (.at? "set") fun _ => ?_
  split
  · refine .pass (.of_alike fun _ => .advance) fun _ _ => ?_
    refine .read hordered accessorKey fun key part hkey => ?_
    refine .read hordered (signature hinner) fun _ _ hne =>
      other hordered hfirst (by simp [hne]) ?_
    exact (Row.nil.append hkey).more _
  refine .atFront "[" (fun tokens htokens hfront => ?_)
    (namedMember hinner hordered hfirst)
  obtain ⟨token, rest, rfl⟩ := Walks.exists_cons_of_front hfront (by decide)
  exact bracketedMember hinner hordered hfirst htokens

private theorem memberTail (opener : Span) (bound : Nat) :
    Passes (memberTail inner opener bound) fun members run =>
      Row run (memberOutlines members) := by
  refine ⟨.of_alike
    fun c => .memberTail (hinner.alike c) opener opener bound, ?_⟩
  induction bound with
  | zero => exact fun origin _ => .throw
  | succ bound ih =>
      intro origin hordered
      refine .pass (.of_alike fun _ => .skipWhile fun h => ?_)
        fun _ separators => ?_
      · rw [h.frontText]
      refine .look (.at? "\x7d") fun closes => ?_
      split
      · exact .pass (.of_alike fun _ => .advance) fun _ _ => .pure .nil
      refine .look .ahead fun tokens => ?_
      split
      · exact .throw
      refine .read hordered (member hinner) fun first part hmember => ?_
      refine .look (.at? ";") fun _ => ?_
      refine .look (.at? ",") fun _ => ?_
      refine .separator .memberMayFollow fun skipped => ?_
      refine .read hordered
        ⟨.of_alike
          fun c => .memberTail (hinner.alike c) opener opener bound, ih⟩
        fun later rest hlater => ?_
      exact .pure (((Row.nil.append (.one hmember)).more skipped).append hlater)

theorem members :
    Passes (members inner) fun members run =>
      run ≠ [] ∧ Row run (memberOutlines members) := by
  refine ⟨.of_alike fun c => .members (hinner.alike c),
    fun origin hordered => ?_⟩
  refine (Walks.expect "\x7b" .memberList (by decide)).bind ?_
  rintro opener _ ⟨token, rfl⟩
  refine .look .remaining fun bound => ?_
  refine (Walks.after hordered (memberTail hinner opener (bound + 1))).imp ?_
  rintro list _ ⟨part, rfl, hrow⟩
  exact ⟨by simp, .skip _ hrow⟩

/-! ### Operands -/

private theorem worded {origin : Cursor} (hordered : Ordered origin.ahead)
    {token : Token} {rest : List Token}
    (hahead : origin.ahead = token :: rest) :
    Walks origin [] (worded inner) fun node run => Covers run node.outline := by
  refine .here fun first hfirst => ?_
  refine .look (.textAt 0) fun word => ?_
  refine .look (.textAt 1) fun next => ?_
  obtain rfl : first = token.span := hfirst token (by rw [hahead]; rfl)
  split
  · exact .advance hahead (.pure (.node ⟨token, token, rfl, rfl, rfl⟩ .nil))
  refine .look .operandFollows fun follows => ?_
  split
  · refine .advance hahead ?_
    refine .look (.at? "import") fun _ => ?_
    refine .look (.textAt 1) fun _ => ?_
    split
    · refine .pass (.of_alike fun _ => .moduleTail) fun _ _ => ?_
      refine .pass (.of_alike fun _ => .skippedArguments) fun _ _ => ?_
      exact .spanned hordered hfirst (by simp) fun _ hspan =>
        .pure (.node hspan .nil)
    · refine .pass (.of_alike fun _ => Alike.dottedName.discard) fun _ _ => ?_
      refine .pass (.of_alike fun _ => .skippedArguments) fun _ _ => ?_
      exact .spanned hordered hfirst (by simp) fun _ hspan =>
        .pure (.node hspan .nil)
  split
  · refine (moduleTail hahead).bind fun _ longer hne => ?_
    refine .pass (.of_alike fun _ => .skippedArguments) fun _ _ => ?_
    exact .spanned hordered hfirst (by simp [hne]) fun _ hspan =>
      .pure (.node hspan .nil)
  split
  · exact .advance hahead (.pure (.node ⟨token, token, rfl, rfl, rfl⟩ .nil))
  refine .read hordered dottedName fun name part hne => ?_
  refine .look .ahead fun tokens => ?_
  obtain ⟨name, qualified⟩ := name
  cases tokens with
  | nil =>
      exact .spanned hordered hfirst (by simp [hne]) fun _ hspan =>
        .pure (.node hspan .nil)
  | cons opener behind =>
      dsimp only
      split
      · refine .pass (.of_alike fun _ => .advance) fun _ opener => ?_
        refine .look .remaining fun bound => ?_
        refine .read hordered (arguments hinner (bound + 1))
          fun given part hgiven => ?_
        exact .spanned hordered hfirst (by simp [hne]) fun _ hspan =>
          .pure (.node hspan (Row.nil.append hgiven))
      · exact .spanned hordered hfirst (by simp [hne]) fun _ hspan =>
          .pure (.node hspan .nil)

omit hinner in
theorem numeral {origin : Cursor} {run : List Token} {span : Span}
    (hspan : Span.Spans run span) (negative : Bool) (text : String) :
    Walks origin run (numeral span negative text) fun node longer =>
      Covers longer node.outline := by
  unfold Reader.numeral
  split
  · exact .pure (.node hspan .nil)
  · exact .throw

private theorem symbolic {origin : Cursor} (hordered : Ordered origin.ahead)
    {token : Token} {rest : List Token} (hahead : origin.ahead = token :: rest)
    (symbol : String) :
    Walks origin [] (symbolic inner token.span symbol rest) fun node run =>
      Covers run node.outline := by
  have hfirst : origin.Opens token.span := by
    rintro _ hfirst
    rw [hahead] at hfirst
    rw [Option.mem_some_iff.mp hfirst]
  unfold Reader.symbolic
  split
  · next digits hdigits =>
      cases rest with
      | nil => cases hdigits
      | cons next later =>
          obtain rfl : next = digits := by
            unfold Reader.negated? at hdigits
            simp only at hdigits
            split at hdigits
            · exact Option.some.inj hdigits
            · cases hdigits
          refine .advance hahead
            (.advance hahead
              (numeral ⟨token, next, rfl, rfl, ?_⟩ true next.text))
          have hpair : Ordered ([token, next] ++ later) := by
            rw [hahead] at hordered
            exact hordered
          have hle : token.span.stop ≤ next.span.stop :=
            hpair.left.stop_le_stop rfl rfl
          rw [Span.through, Nat.max_eq_left hle]
  split
  · refine .advance hahead ?_
    refine .read hordered (hinner.passes .type) fun type part htype => ?_
    refine .pass (.of_alike fun _ => (Alike.expect ")" _).discard)
      fun _ closer => ?_
    exact .spanned hordered hfirst (by simp) fun _ hspan =>
      .pure (.node hspan ((Row.nil.append htype.row).more closer))
  split
  · refine .advance hahead ?_
    refine .look .remaining fun bound => ?_
    refine .read hordered (elements hinner (bound + 1))
      fun types part htypes => ?_
    exact .spanned hordered hfirst (by simp) fun _ hspan =>
      .pure (.node hspan (Row.nil.append htypes))
  split
  · refine .look .ahead fun tokens => ?_
    split
    · refine (Walks.group hordered hahead).bind ?_
      rintro span _ ⟨part, rfl, hspan⟩
      exact .pure (.node hspan .nil)
    · refine .read hordered (members hinner) fun list part ⟨hne, hlist⟩ => ?_
      exact .spanned hordered hfirst (by simp [hne]) fun _ hspan =>
        .pure (.node hspan hlist)
  · exact .fail

private theorem primary :
    Passes (primary inner) fun node run => Covers run node.outline := by
  refine ⟨.of_alike fun c => .primary (hinner.alike c),
    fun origin hordered => ?_⟩
  refine .onAhead fun tokens htokens => ?_
  cases tokens with
  | nil => exact .fail
  | cons token rest =>
      have hspan : Span.Spans [token] token.span :=
        ⟨token, token, rfl, rfl, rfl⟩
      dsimp only
      split
      · exact .advance htokens (.pure (.node hspan .nil))
      · exact .advance htokens (numeral hspan false token.text)
      · exact .advance htokens (.pure (.node hspan .nil))
      · exact worded hinner hordered htokens
      · exact .fail
      · exact symbolic hinner hordered htokens token.text

private theorem brackets {origin : Cursor} (hordered : Ordered origin.ahead)
    {first : Span} (hfirst : origin.Opens first) (bound : Nat)
    {run : List Token} {type : TypeNode} (htype : Covers run type.outline) :
    Walks origin run (brackets inner first bound type) fun node longer =>
      Covers longer node.outline := by
  induction bound generalizing run type with
  | zero => exact .pure htype
  | succ bound ih =>
      have hne := htype.ne_nil
      refine .look .ahead fun tokens => ?_
      cases tokens with
      | nil => exact .pure htype
      | cons token rest =>
          dsimp only
          split
          · refine .pass (.of_alike fun _ => .advance) fun _ opener => ?_
            refine .look (.at? "]") fun closes => ?_
            split
            · refine .pass (.of_alike fun _ => .advance) fun _ closer => ?_
              refine .spanned hordered hfirst (by simp [hne]) fun _ hspan =>
                ih (.node hspan ?_)
              exact ((Row.one htype).more opener).more closer
            · refine .read hordered (hinner.passes .type)
                fun index part hindex => ?_
              refine .pass (.of_alike fun _ => (Alike.expect "]" _).discard)
                fun _ closer => ?_
              refine .spanned hordered hfirst (by simp [hne]) fun _ hspan =>
                ih (.node hspan ?_)
              exact (((Row.one htype).more opener).append hindex.row).more
                closer
          · exact .pure htype

private theorem postfixed :
    Passes (postfixed inner) fun node run => Covers run node.outline := by
  refine ⟨.of_alike fun c => .postfixed (hinner.alike c),
    fun origin hordered => ?_⟩
  refine .here fun first hfirst => ?_
  refine .read hordered (primary hinner) fun type part htype => ?_
  refine .look .remaining fun bound => ?_
  exact brackets hinner hordered hfirst bound htype

private theorem operand (bound : Nat) :
    Passes (operand inner bound) fun node run => Covers run node.outline := by
  refine ⟨.of_alike fun c => .operand (hinner.alike c) bound, ?_⟩
  induction bound with
  | zero => exact (postfixed hinner).walks
  | succ bound ih =>
      intro origin hordered
      refine .here fun first hfirst => ?_
      refine .look (.textAt 0) fun word => ?_
      refine .look .operandFollows fun follows => ?_
      split
      · refine .pass (.of_alike fun _ => .advance) fun _ word => ?_
        refine .read hordered
          ⟨.of_alike fun c => .operand (hinner.alike c) bound, ih⟩
          fun inside part hinside => ?_
        have hne := hinside.ne_nil
        exact .spanned hordered hfirst (by simp [hne]) fun _ hspan =>
          .pure (.node hspan (Row.nil.append (.one hinside)))
      · refine .look (.at? "infer") fun infers => ?_
        refine .onAhead fun tokens htokens => ?_
        split
        · next hinfer =>
            cases tokens with
            | nil => simp [frontIsWord] at hinfer
            | cons token rest =>
                refine .advance htokens ?_
                refine .pass (.of_alike fun _ => .advance) fun _ _ => ?_
                refine .pass
                  (.of_alike fun c => .inferredConstraint (hinner.alike c))
                  fun _ _ => ?_
                exact .spanned hordered hfirst (by simp) fun _ hspan =>
                  .pure (.node hspan .nil)
        · exact (postfixed hinner).walks origin hordered

theorem anyOperand :
    Passes (Reader.remaining >>= fun bound => Reader.operand inner bound)
      fun node run =>
    EndsWith run node.outline := by
  refine ⟨.of_alike fun c => .anyOperand (hinner.alike c),
    fun origin hordered => ?_⟩
  refine .look .remaining fun bound => ?_
  exact ((operand hinner bound).walks origin hordered).imp fun _ _ =>
    Covers.endsWith

/-! ### Combinations -/

omit hinner in
theorem separated {part : Reader TypeNode} {separator : String}
    (hpart : Passes part fun node run => EndsWith run node.outline)
    (halike : ∀ c, Alike c (Same TypeNode.unplaced) part part) (bound : Nat) :
    Passes (separated separator part bound) fun nodes run =>
      Listed run nodes := by
  refine ⟨.of_alike fun c => .separated separator (halike c) bound, ?_⟩
  induction bound with
  | zero =>
      intro origin hordered
      exact .read hordered hpart fun node run hnode => .pure (.one hnode)
  | succ bound ih =>
      intro origin hordered
      refine .read hordered hpart fun first run hfirst => ?_
      refine .look (.at? separator) fun more => ?_
      split
      · refine .pass (.of_alike fun _ => .advance) fun _ skipped => ?_
        refine .read hordered
          ⟨.of_alike fun c => .separated separator (halike c) bound, ih⟩
          fun later rest hlater => ?_
        exact .pure (.cons (hfirst.row.more skipped) hlater)
      · exact .pure (.one hfirst)

omit hinner in
theorem joined {origin : Cursor} (hordered : Ordered origin.ahead)
    {first : Span} (hfirst : origin.Opens first)
    {join : Span → List TypeNode → TypeNode}
    (hjoin : ∀ span nodes,
      (join span nodes).outline = .node span (nodeOutlines nodes))
    (lead : List Token) {run : List Token} {nodes : List TypeNode}
    (hlisted : Listed run nodes) :
    Walks origin (lead ++ run)
      (match nodes with
        | [node] => return node
        | nodes => return join (← Reader.spanFrom first) nodes)
      fun node longer => EndsWith longer node.outline := by
  have hne := hlisted.passed
  split
  · exact .pure ((hlisted.alone _ rfl).behind lead)
  · refine .spanned hordered hfirst (by simp [hne]) fun span hspan => .pure ?_
    rw [hjoin]
    exact (Covers.node hspan (.skip lead hlisted.row)).endsWith

private theorem intersection :
    Passes (intersection inner) fun node run => EndsWith run node.outline := by
  refine ⟨.of_alike fun c => .intersection (hinner.alike c),
    fun origin hordered => ?_⟩
  refine .here fun first hfirst => ?_
  refine .pass (.of_alike fun _ => .skip "&") fun _ lead => ?_
  refine .look .remaining fun bound => ?_
  have hoperands : Passes (Reader.separated "&" _ bound) _ :=
    separated (anyOperand hinner) (fun c => .anyOperand (hinner.alike c)) bound
  refine .read hordered hoperands fun nodes run hlisted => ?_
  exact joined hordered hfirst (fun _ _ => rfl) lead hlisted

theorem union :
    Passes (union inner) fun node run => EndsWith run node.outline := by
  refine ⟨.of_alike fun c => .union (hinner.alike c), fun origin hordered => ?_⟩
  refine .here fun first hfirst => ?_
  refine .pass (.of_alike fun _ => .skip "|") fun _ lead => ?_
  refine .look .remaining fun bound => ?_
  have hbranches : Passes (Reader.separated "|" _ bound) _ :=
    separated (intersection hinner) (fun c => .intersection (hinner.alike c))
      bound
  refine .read hordered hbranches fun nodes run hlisted => ?_
  exact joined hordered hfirst (fun _ _ => rfl) lead hlisted

private theorem anyType :
    Passes (anyType inner) fun node run => EndsWith run node.outline := by
  refine ⟨.of_alike fun c => .anyType (hinner.alike c),
    fun origin hordered => ?_⟩
  refine .here fun first hfirst => ?_
  refine .look .opensFunction fun opens => ?_
  split
  · exact (functionType hinner hordered hfirst []).imp fun _ _ =>
      Covers.endsWith
  refine .look (.at? "new") fun _ => ?_
  refine .look (.at? "abstract") fun _ => ?_
  refine .look (.textAt 1) fun _ => ?_
  split
  · refine .pass (.of_alike fun _ => .skip "abstract") fun _ _ => ?_
    refine .pass (.of_alike fun _ => .advance) fun _ _ => ?_
    refine (functionType hinner hordered hfirst _).discarded.bind ?_
    rintro _ longer ⟨node, hnode⟩
    exact .spanned hordered hfirst hnode.ne_nil fun _ hspan =>
      .pure (Covers.node hspan .nil).endsWith
  · refine .read hordered (union hinner) fun checked run hchecked => ?_
    refine .look (.at? "extends") fun conditional => ?_
    split
    · refine .pass (.of_alike fun _ => .advance) fun _ _ => ?_
      refine .pass (.of_alike fun c => (Alike.union (hinner.alike c)).discard)
        fun _ _ => ?_
      refine .pass (.of_alike fun _ => (Alike.expect "?" _).discard)
        fun _ _ => ?_
      refine .pass (.of_alike fun c => (hinner.alike c .type).discard)
        fun _ _ => ?_
      refine .pass (.of_alike fun _ => (Alike.expect ":" _).discard)
        fun _ _ => ?_
      refine .pass (.of_alike fun c => (hinner.alike c .type).discard)
        fun _ _ => ?_
      have hne := hchecked.ne_nil
      exact .spanned hordered hfirst (by simp [hne]) fun _ hspan =>
        .pure (Covers.node hspan .nil).endsWith
    · exact .pure hchecked

end

theorem nestedNodes (depth : Nat) : NestedNodes (nested depth) := by
  induction depth with
  | zero =>
      refine ⟨fun c kind => .nested 0 kind, fun kind => ?_⟩
      exact ⟨.of_alike fun _ => .nested 0 kind, fun _ _ => .fail⟩
  | succ depth ih =>
      refine ⟨fun c kind => .nested (depth + 1) kind, fun kind => ?_⟩
      cases kind with
      | type => exact anyType ih
      | union => exact union ih

theorem type : Passes type fun node run => EndsWith run node.outline := by
  refine ⟨.of_alike fun _ => .type, fun origin hordered => ?_⟩
  refine .look .remaining fun bound => ?_
  exact ((nestedNodes (bound + 1)).passes .type).walks origin hordered

/-! ### Items -/

private theorem typeAfter (word : String) :
    Passes (typeAfter word) fun declared run =>
      Row run (declaredOutlines declared) := by
  refine ⟨.of_alike fun _ => .typeAfter word, fun origin hordered => ?_⟩
  refine .look (.at? word) fun there => ?_
  split
  · refine .pass (.of_alike fun _ => .advance) fun _ _ => ?_
    exact .read hordered type fun node part hnode =>
      .pure (Row.nil.append hnode.row)
  · exact .pure .nil

private theorem typeParameterTail (bound : Nat) :
    Passes (typeParameterTail bound) fun parameters run =>
      Row run (parameterOutlines parameters) := by
  refine ⟨.of_alike fun _ => .typeParameterTail bound, ?_⟩
  induction bound with
  | zero => exact fun origin _ => .pure .nil
  | succ bound ih =>
      intro origin hordered
      refine .look (.at? ">") fun closes => ?_
      split
      · exact .pass (.of_alike fun _ => .advance) fun _ _ => .pure .nil
      refine .pass (.of_alike fun _ => .skipWhile fun h => ?_) fun _ words => ?_
      · rw [h.frontText, (h.drop 1).frontIsWord]
      refine .read hordered (name .typeParameters) fun name _ hname => ?_
      refine .read hordered (typeAfter "extends")
        fun constraint _ hconstraint => ?_
      refine .read hordered (typeAfter "=") fun fallback _ hfallback => ?_
      refine .look (.at? ",") fun more => ?_
      refine .separator (.at? ">") fun skipped => ?_
      refine .read hordered ⟨.of_alike fun _ => .typeParameterTail bound, ih⟩
        fun later _ hlater => ?_
      refine .pure ((Row.more ?_ skipped).append hlater)
      exact ((Row.nil.append (.one hname)).append hconstraint).append hfallback

theorem typeParameters :
    Passes typeParameters fun parameters run =>
      Row run (parameterOutlines parameters) := by
  refine ⟨.of_alike fun _ => .typeParameters, fun origin hordered => ?_⟩
  refine .look (.at? "<") fun opens => ?_
  split
  · refine .pass (.of_alike fun _ => .advance) fun _ opener => ?_
    refine .look .remaining fun bound => ?_
    refine (Walks.after hordered (typeParameterTail (bound + 1))).imp ?_
    rintro parameters _ ⟨part, rfl, hrow⟩
    exact .skip _ hrow
  · exact .pure .nil

private theorem parents :
    Passes parents fun parents run => Row run (nodeOutlines parents) := by
  refine ⟨.of_alike fun _ => .parents, fun origin hordered => ?_⟩
  refine .look (.at? "extends") fun extending => ?_
  split
  · refine .pass (.of_alike fun _ => .advance) fun _ word => ?_
    refine .look .remaining fun depth => ?_
    have hoperands : Passes (Reader.separated "," _ depth) _ :=
      separated (anyOperand (nestedNodes depth))
        (fun _ => .anyOperand fun kind => .nested depth kind) depth
    refine (Walks.after hordered hoperands).imp ?_
    rintro nodes _ ⟨part, rfl, hlisted⟩
    exact .skip _ hlisted.row
  · exact .pure .nil

end Passes

namespace Walks

variable {origin : Cursor} (hordered : Ordered origin.ahead) (first : Span)
  {run : List Token}
include hordered

private theorem interface (exported : Bool) :
    Walks origin run (interface first exported) fun item longer =>
    Row longer (Item.interface item).inside := by
  refine .pass (.of_alike fun _ => .advance) fun _ word => ?_
  refine .read hordered (Passes.name _) fun name _ hname => ?_
  refine .read hordered Passes.typeParameters fun parameters _ hparameters => ?_
  refine .read hordered Passes.parents fun parents _ hparents => ?_
  refine .look .remaining fun bound => ?_
  refine .read hordered (Passes.members (Passes.nestedNodes (bound + 1)))
    fun list _ ⟨_, hlist⟩ => ?_
  refine .look (.spanFrom first) fun span => .pure ?_
  rw [Item.inside, ← List.append_assoc]
  exact ((Row.nil.append (.one hname)).append hparameters |>.append
    hparents).append hlist

private theorem aliasItem (exported : Bool) :
    Walks origin run (aliasItem first exported) fun item longer =>
    Row longer (Item.typeAlias item).inside := by
  refine .pass (.of_alike fun _ => .advance) fun _ word => ?_
  refine .read hordered (Passes.name _) fun name _ hname => ?_
  refine .read hordered Passes.typeParameters fun parameters _ hparameters => ?_
  refine .pass (.of_alike fun _ => (Alike.expect "=" _).discard)
    fun _ equals => ?_
  refine .read hordered Passes.type fun type _ htype => ?_
  refine .pass (.of_alike fun _ => .aliasEnd) fun _ closer => ?_
  refine .look (.spanFrom first) fun span => .pure ?_
  exact (((Row.nil.append (.one hname)).append hparameters |>.more
    equals).append htype.row).more closer

private theorem item :
    Walks origin [] item fun item run => Row run item.inside := by
  refine .look .here fun first => ?_
  refine .look .ahead fun tokens => ?_
  obtain ⟨exported, n⟩ := itemModifiers false tokens
  dsimp only
  split
  · refine .pass (.of_alike fun _ => .advanceBy n) fun _ _ => ?_
    exact (interface hordered first exported).bind fun _ _ hrow => .pure hrow
  split
  · refine .pass (.of_alike fun _ => .advanceBy n) fun _ _ => ?_
    exact (aliasItem hordered first exported).bind fun _ _ hrow => .pure hrow
  · refine .look .ahead fun tokens => ?_
    refine .lift fun n _ => ?_
    refine .pass (.of_alike fun _ => .advanceBy n) fun _ _ => ?_
    exact .look (.spanFrom first) fun _ => .pure .nil

end Walks

private theorem covers_of_run_item {start next : Cursor} {found : Item}
    (hordered : Ordered start.ahead) (hne : start.ahead ≠ [])
    (hrun : Reader.item.run start = .ok (found, next)) :
    ∃ run, start.ahead = run ++ next.ahead ∧ Covers run found.outline := by
  obtain ⟨run, hnonempty, hahead, hstop⟩ := exists_run_of_item hne hrun
  obtain ⟨other, hpassed, hrow⟩ :=
    Walks.item hordered start found next (.refl start) hrun
  obtain rfl : run = other :=
    List.append_cancel_right (hahead.symm.trans hpassed.ahead)
  obtain ⟨first, rest, rfl⟩ := List.exists_cons_of_ne_nil hnonempty
  have hlast := List.getLast?_eq_getLast_of_ne_nil hnonempty
  have hspan := spanned_of_run_item hahead hrun
  rw [hahead] at hordered
  rw [Ends.Spanned, hstop _ hlast,
    Nat.max_eq_left (hordered.left.stop_le_stop rfl hlast)] at hspan
  exact ⟨_, hahead, .node ⟨first, _, rfl, hlast, hspan⟩ hrow⟩

theorem row_of_run_items {bound : Nat} {start next : Cursor} {found : List Item}
    (hordered : Ordered start.ahead)
    (hrun : (items bound).run start = .ok (found, next)) :
    Row start.ahead (found.map Item.outline) := by
  induction bound generalizing start found with
  | zero =>
      obtain ⟨rfl, -⟩ := Prod.mk.inj (Except.ok.inj hrun)
      exact .nil
  | succ bound ih =>
      by_cases hnil : start.ahead = []
      · rw [run_items_nil hnil] at hrun
        obtain ⟨rfl, -⟩ := Prod.mk.inj (Except.ok.inj hrun)
        exact .nil
      rcases run_items_cases hnil hrun with
        ⟨-, middle, hadvance, hitems⟩ |
          ⟨-, item, middle, later, hitem, hlater, rfl⟩
      · have hmiddle : start.ahead = start.ahead.take 1 ++ middle.ahead := by
          rw [Leaves.advance start _ middle rfl hadvance, List.take_append_drop]
        rw [hmiddle] at hordered ⊢
        exact .skip _ (ih hordered.right hitems)
      · obtain ⟨run, hahead, hcovers⟩ := covers_of_run_item hordered hnil hitem
        rw [hahead] at hordered ⊢
        exact .cons hcovers (ih hordered.right hlater)

end ShapeMend.Script
