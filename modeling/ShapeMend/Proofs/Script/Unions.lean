import ShapeMend.Proofs.Script.Leaves
import ShapeMend.Script.Declared

/-!
# Unions of scripts

Every union that is read has a branch, so an alias of literals has a literal.
What a reader yields is stated without the tokens around it; a reader whose
value is not used says nothing about the result.
-/

namespace ShapeMend.Script

open ShapeMend.Text Reader

abbrev Yields {α : Type} (reader : Reader α) (post : α → Prop) : Prop :=
  ∀ tokens, Leaves reader tokens fun value _ => post value

namespace Yields

variable {α β : Type} {reader : Reader α} {post : β → Prop}

theorem pure {value : β} (h : post value) : Yields (Pure.pure value) post :=
  fun _ => Leaves.pure h

theorem fail {flaw : SyntaxFlaw} : Yields (Reader.fail flaw) post :=
  fun _ => Leaves.fail

private theorem throw {error : SyntaxError} :
    Yields (throw error : Reader β) post :=
  fun _ => Leaves.throw

theorem bind {mid : α → Prop} {next : α → Reader β} (hfirst : Yields reader mid)
    (hnext : ∀ value, mid value → Yields (next value) post) :
    Yields (reader >>= next) post :=
  fun tokens => (hfirst tokens).bind fun value rest hvalue =>
    hnext value hvalue rest

theorem after {next : α → Reader β}
    (hnext : ∀ value, Yields (next value) post) :
    Yields (reader >>= next) post := by
  have hfirst : Yields reader fun _ => True := fun _ _ _ _ _ _ => trivial
  exact hfirst.bind fun value _ => hnext value

theorem separated {separator : String} {item : Reader α} {mid : α → Prop}
    (hitem : Yields item mid) (bound : Nat) :
    Yields (separated separator item bound) fun values =>
      values ≠ [] ∧ ∀ value ∈ values, mid value := by
  induction bound with
  | zero => exact hitem.bind fun value hvalue => pure (by simpa using hvalue)
  | succ bound ih =>
      refine hitem.bind fun first hfirst => ?_
      refine after fun more => ?_
      split
      · refine after fun _ => ?_
        refine ih.bind fun later hlater => pure ⟨List.cons_ne_nil _ _, ?_⟩
        exact List.forall_mem_cons.mpr ⟨hfirst, hlater.2⟩
      · exact pure (by simpa using hfirst)

end Yields

/-! ## Types that are read -/

def TypeNode.Populated (node : TypeNode) : Prop := node.literals? ≠ some []

private theorem branchLiterals?_ne_nil {branches : List TypeNode}
    (hne : branches ≠ []) (hbranches : ∀ branch ∈ branches, branch.Populated) :
    branchLiterals? branches ≠ some [] := by
  obtain ⟨branch, branches, rfl⟩ := List.exists_cons_of_ne_nil hne
  have hbranch := hbranches branch List.mem_cons_self
  intro hnone
  rw [branchLiterals?] at hnone
  cases hfirst : branch.literals? with
  | none => simp [hfirst] at hnone
  | some first =>
      cases hmore : branchLiterals? branches with
      | none => simp [hfirst, hmore] at hnone
      | some more =>
          simp only [hfirst, hmore, Option.bind_eq_bind, Option.bind_some,
            Option.pure_def, Option.some.injEq, List.append_eq_nil_iff] at hnone
          exact hbranch (hfirst.trans (congrArg some hnone.1))

namespace TypeNode

theorem populated_of_none {node : TypeNode}
    (h : node.literals? = none) : node.Populated := by
  simp [Populated, h]

theorem populated_literal (span : Span) (value : LiteralValue) :
    (literal span value).Populated := by
  intro hnone
  rw [literals?] at hnone
  cases hvalue : value.toLiteral? with
  | none => simp [hvalue] at hnone
  | some literal => simp [hvalue] at hnone

private theorem populated_parenthesized (span : Span) {inner : TypeNode}
    (h : inner.Populated) : (parenthesized span inner).Populated := by
  unfold Populated
  rwa [literals?]

private theorem populated_union (span : Span) {branches : List TypeNode}
    (hne : branches ≠ []) (hbranches : ∀ branch ∈ branches, branch.Populated) :
    (union span branches).Populated := by
  unfold Populated
  rw [literals?]
  exact branchLiterals?_ne_nil hne hbranches

end TypeNode

namespace Yields

theorem spanned {first : Span} {node : Span → TypeNode}
    (h : ∀ span, (node span).Populated) :
    Yields (Reader.spanFrom first >>= fun span => Pure.pure (node span))
      TypeNode.Populated :=
  after fun span => pure (h span)

theorem hidden {first : Span} {node : Span → TypeNode}
    (h : ∀ span, (node span).literals? = none) :
    Yields (Reader.spanFrom first >>= fun span => Pure.pure (node span))
      TypeNode.Populated :=
  spanned fun span => TypeNode.populated_of_none (h span)

theorem numeral (span : Span) (negative : Bool) (text : String) :
    Yields (numeral span negative text) TypeNode.Populated := by
  unfold Reader.numeral
  split
  · exact pure (TypeNode.populated_literal span _)
  · exact throw

section

variable {inner : Nested → Reader TypeNode}
  (hinner : ∀ kind, Yields (inner kind) TypeNode.Populated)

private theorem functionType (first : Span) :
    Yields (functionType inner first) TypeNode.Populated := by
  have hrest : Yields (do
      if ← at? "(" then
        discard group
        discard (expect "=>" .functionType)
        returnType inner
        return .sealed (← Reader.spanFrom first) .function
      else Reader.fail (.missing "(" .functionType)) TypeNode.Populated := by
    refine after fun opens => ?_
    split
    · refine after fun _ => ?_
      refine after fun _ => ?_
      refine after fun _ => ?_
      exact hidden fun _ => rfl
    · exact fail
  refine after fun opens => ?_
  split
  · exact after fun _ => hrest
  · exact hrest

private theorem worded : Yields (worded inner) TypeNode.Populated := by
  refine after fun first => ?_
  refine after fun word => ?_
  refine after fun next => ?_
  split
  · exact after fun _ => pure (TypeNode.populated_literal first _)
  refine after fun follows => ?_
  split
  · refine after fun _ => ?_
    refine after fun _ => ?_
    refine after fun _ => ?_
    split
    · refine after fun _ => ?_
      refine after fun _ => ?_
      exact hidden fun _ => rfl
    · refine after fun _ => ?_
      refine after fun _ => ?_
      exact hidden fun _ => rfl
  split
  · refine after fun _ => ?_
    refine after fun _ => ?_
    exact hidden fun _ => rfl
  split
  · exact after fun _ => pure (TypeNode.populated_of_none rfl)
  refine after fun name => ?_
  refine after fun tokens => ?_
  obtain ⟨name, qualified⟩ := name
  cases tokens with
  | nil => exact hidden fun _ => rfl
  | cons token later =>
      simp only
      split
      · refine after fun _ => ?_
        refine after fun _ => ?_
        refine after fun _ => ?_
        exact hidden fun _ => rfl
      · exact hidden fun _ => rfl

include hinner

private theorem symbolic (first : Span) (symbol : String) (later : List Token) :
    Yields (symbolic inner first symbol later) TypeNode.Populated := by
  unfold Reader.symbolic
  split
  · refine after fun _ => ?_
    exact after fun _ => numeral _ _ _
  split
  · refine after fun _ => ?_
    refine (hinner .type).bind fun type htype => ?_
    refine after fun _ => ?_
    exact spanned fun span => TypeNode.populated_parenthesized span htype
  split
  · refine after fun _ => ?_
    refine after fun _ => ?_
    refine after fun _ => ?_
    exact hidden fun _ => rfl
  split
  · refine after fun tokens => ?_
    split
    · exact after fun _ => pure (TypeNode.populated_of_none rfl)
    · refine after fun _ => ?_
      exact hidden fun _ => rfl
  · exact fail

private theorem primary : Yields (primary inner) TypeNode.Populated := by
  refine after fun tokens => ?_
  split
  · exact fail
  split
  · exact after fun _ => pure (TypeNode.populated_literal _ _)
  · exact after fun _ => numeral _ _ _
  · exact after fun _ => pure (TypeNode.populated_of_none rfl)
  · exact worded
  · exact fail
  · exact symbolic hinner _ _ _

omit hinner in
private theorem brackets (first : Span) (bound : Nat) {type : TypeNode}
    (htype : type.Populated) :
    Yields (brackets inner first bound type) TypeNode.Populated := by
  induction bound generalizing type with
  | zero => exact pure htype
  | succ bound ih =>
      refine after fun tokens => ?_
      cases tokens with
      | nil => exact pure htype
      | cons token later =>
          simp only
          split
          · refine after fun _ => ?_
            refine after fun closes => ?_
            split
            · refine after fun _ => ?_
              exact after fun _ => ih (TypeNode.populated_of_none rfl)
            · refine after fun _ => ?_
              refine after fun _ => ?_
              exact after fun _ => ih (TypeNode.populated_of_none rfl)
          · exact pure htype

private theorem postfixed : Yields (postfixed inner) TypeNode.Populated := by
  refine after fun first => ?_
  refine (primary hinner).bind fun _ htype => ?_
  exact after fun bound => brackets first bound htype

private theorem operand (bound : Nat) :
    Yields (operand inner bound) TypeNode.Populated := by
  induction bound with
  | zero => exact postfixed hinner
  | succ bound ih =>
      refine after fun first => ?_
      refine after fun word => ?_
      refine after fun follows => ?_
      split
      · refine after fun _ => ?_
        refine after fun _ => ?_
        exact hidden fun _ => rfl
      · refine after fun _ => ?_
        refine after fun _ => ?_
        split
        · refine after fun _ => ?_
          refine after fun _ => ?_
          refine after fun _ => ?_
          exact hidden fun _ => rfl
        · exact postfixed hinner

private theorem intersection :
    Yields (intersection inner) TypeNode.Populated := by
  refine after fun first => ?_
  refine after fun _ => ?_
  refine after fun bound => ?_
  refine (separated (after fun depth => operand hinner depth) bound).bind
    fun parts hparts => ?_
  split
  · exact pure (hparts.2 _ List.mem_cons_self)
  · exact hidden fun _ => rfl

theorem union : Yields (union inner) TypeNode.Populated := by
  refine after fun first => ?_
  refine after fun _ => ?_
  refine after fun bound => ?_
  refine (separated (intersection hinner) bound).bind
    fun branches hbranches => ?_
  split
  · exact pure (hbranches.2 _ List.mem_cons_self)
  · exact spanned fun span =>
      TypeNode.populated_union span hbranches.1 hbranches.2

private theorem anyType : Yields (anyType inner) TypeNode.Populated := by
  refine after fun first => ?_
  refine after fun opens => ?_
  split
  · exact functionType first
  refine after fun _ => ?_
  refine after fun _ => ?_
  refine after fun _ => ?_
  split
  · refine after fun _ => ?_
    refine after fun _ => ?_
    refine after fun _ => ?_
    exact hidden fun _ => rfl
  · refine (union hinner).bind fun checked hchecked => ?_
    refine after fun conditional => ?_
    split
    · refine after fun _ => ?_
      refine after fun _ => ?_
      refine after fun _ => ?_
      refine after fun _ => ?_
      refine after fun _ => ?_
      refine after fun _ => ?_
      exact hidden fun _ => rfl
    · exact pure hchecked

end

private theorem nested (depth : Nat) (kind : Nested) :
    Yields (nested depth kind) TypeNode.Populated := by
  induction depth generalizing kind with
  | zero => exact fail
  | succ depth ih =>
      cases kind with
      | type => exact anyType ih
      | union => exact union ih

private theorem type : Yields type TypeNode.Populated :=
  after fun _ => nested _ _

end Yields

/-! ## Items that are read -/

def Item.Populated : Item → Prop
  | .typeAlias item => item.type.Populated
  | _ => True

namespace Yields

private theorem aliasItem (first : Span) (exported : Bool) :
    Yields (aliasItem first exported) fun item => item.type.Populated := by
  refine after fun _ => ?_
  refine after fun _ => ?_
  refine after fun _ => ?_
  refine after fun _ => ?_
  refine type.bind fun _ htype => ?_
  refine after fun _ => ?_
  exact after fun _ => pure htype

private theorem item : Yields item Item.Populated := by
  refine after fun first => ?_
  refine after fun tokens => ?_
  obtain ⟨exported, n⟩ := itemModifiers false tokens
  simp only
  split
  · refine after fun _ => ?_
    exact after fun _ => pure trivial
  split
  · refine after fun _ => ?_
    exact (aliasItem first exported).bind fun _ hitem => pure hitem
  · refine after fun _ => ?_
    refine after fun _ => ?_
    refine after fun _ => ?_
    exact after fun _ => pure trivial

private theorem items (bound : Nat) :
    Yields (items bound) fun list => ∀ item ∈ list, item.Populated := by
  induction bound with
  | zero => exact pure (List.forall_mem_nil _)
  | succ bound ih =>
      refine after fun _ => ?_
      split
      · exact pure (List.forall_mem_nil _)
      refine after fun _ => ?_
      split
      · exact after fun _ => ih
      · refine item.bind fun first hfirst => ?_
        exact ih.bind fun later hlater =>
          pure (List.forall_mem_cons.mpr ⟨hfirst, hlater⟩)

end Yields

theorem populated_of_itemsOfText {text : List Char} {items : List Item}
    (h : itemsOfText text = .ok items) : ∀ item ∈ items, item.Populated := by
  unfold itemsOfText at h
  split at h
  · cases h
  · obtain ⟨_, hitems⟩ := (Yields.items _ _).exists_of_run' rfl h
    exact hitems

end ShapeMend.Script
