import ShapeMend.Proofs.Script.ItemRuns

/-!
# Outlines

The outline of a tree is the tree of its spans.  Each span goes from the start
of a token to the end of one, the spans inside it lie in it, and beside one
another in the order of the source.
-/

namespace ShapeMend.Script

open ShapeMend.Text

/-- A span with the spans inside it. -/
inductive Outline where
  | node (span : Span) (inside : List Outline)

def Outline.span : Outline → Span
  | node span _ => span

/-! ## Outlines of trees -/

def AccessorKey.outlines : AccessorKey → List Outline
  | plain _ => []
  | computed span => [.node span []]

def MemberForm.outlines : MemberForm → List Outline
  | accessor key => key.outlines
  | _ => []

mutual

def TypeNode.outline : TypeNode → Outline
  | .keyword span _ | .literal span _ | .sealed span _ => .node span []
  | .reference span _ _ arguments => .node span (nodeOutlines arguments)
  | .array span element => .node span [element.outline]
  | .union span branches => .node span (nodeOutlines branches)
  | .intersection span parts => .node span (nodeOutlines parts)
  | .object span members => .node span (memberOutlines members)
  | .parenthesized span inner => .node span [inner.outline]
  | .tuple span elements => .node span (nodeOutlines elements)
  | .indexedAccess span object index =>
      .node span [object.outline, index.outline]
  | .operator span _ operand => .node span [operand.outline]

def nodeOutlines : List TypeNode → List Outline
  | [] => []
  | node :: nodes => node.outline :: nodeOutlines nodes

def declaredOutlines : Option TypeNode → List Outline
  | none => []
  | some node => [node.outline]

def Member.outline : Member → Outline
  | .property span _ _ declared => .node span (declaredOutlines declared)
  | .other span form => .node span form.outlines

def memberOutlines : List Member → List Outline
  | [] => []
  | member :: members => member.outline :: memberOutlines members

end

def Name.outline (name : Name) : Outline := .node name.span []

def TypeParameter.outlines (parameter : TypeParameter) : List Outline :=
  parameter.name.outline ::
    (declaredOutlines parameter.constraint ++
      declaredOutlines parameter.fallback)

def parameterOutlines : List TypeParameter → List Outline
  | [] => []
  | parameter :: parameters =>
      parameter.outlines ++ parameterOutlines parameters

def Item.inside : Item → List Outline
  | interface item =>
    item.name.outline ::
      (parameterOutlines item.parameters ++
        (nodeOutlines item.parents ++ memberOutlines item.members))
  | typeAlias item =>
      item.name.outline ::
        (parameterOutlines item.parameters ++ [item.type.outline])
  | other _ => []

def Item.outline (item : Item) : Outline := .node item.span item.inside

theorem TypeNode.span_outline (node : TypeNode) :
    node.outline.span = node.span := by
  cases node <;> rfl

theorem Member.span_outline (member : Member) :
    member.outline.span = member.span := by
  cases member <;> rfl

theorem Item.span_outline (item : Item) : item.outline.span = item.span := rfl

/-! ## Well nested spans -/

/-- The span goes from the start of a token to the end of one. -/
def Span.Around (tokens : List Token) (span : Span) : Prop :=
  ∃ first ∈ tokens, ∃ last ∈ tokens, span = ⟨first.span.start, last.span.stop⟩

/-- The second span is not before the end of the first. -/
def Outline.Before (first later : Outline) : Prop :=
  first.span.stop ≤ later.span.start.offset

def Outline.Encloses (outer inner : Outline) : Prop :=
  outer.span.start.offset ≤ inner.span.start.offset ∧
    inner.span.stop ≤ outer.span.stop

/-- Every span is around tokens and encloses those inside it, which are disjoint
and in order. -/
inductive WellNested (tokens : List Token) : Outline → Prop
  | node {span : Span} {inside : List Outline}
      (haround : Span.Around tokens span)
      (hencloses : ∀ inner ∈ inside, (Outline.node span inside).Encloses inner)
      (hordered : inside.Pairwise Outline.Before)
      (hinside : ∀ inner ∈ inside, WellNested tokens inner) :
      WellNested tokens (.node span inside)

/-! ## Runs of tokens -/

def Span.Spans (run : List Token) (span : Span) : Prop :=
  ∃ first last, run.head? = some first ∧ run.getLast? = some last ∧
    span = ⟨first.span.start, last.span.stop⟩

mutual

inductive Covers : List Token → Outline → Prop
  | node {run : List Token} {span : Span} {inside : List Outline}
      (hspan : Span.Spans run span)
      (hrow : Row run inside) : Covers run (.node span inside)

inductive Row : List Token → List Outline → Prop
  | nil {run : List Token} : Row run []
  | skip {run : List Token} {outlines : List Outline} (skipped : List Token)
      (hrow : Row run outlines) :
      Row (skipped ++ run) outlines
  | cons {part run : List Token} {outline : Outline} {outlines : List Outline}
      (hcovers : Covers part outline)
      (hrow : Row run outlines) : Row (part ++ run) (outline :: outlines)

end

namespace Row

theorem append {run part : List Token} {outlines others : List Outline}
    (h : Row run outlines) (hothers : Row part others) :
    Row (run ++ part) (outlines ++ others) := by
  match h with
  | .nil => exact .skip run hothers
  | .skip skipped hrow =>
      rw [List.append_assoc]
      exact .skip skipped (append hrow hothers)
  | .cons hcovers hrow =>
      rw [List.append_assoc]
      exact .cons hcovers (append hrow hothers)

variable {run : List Token} {outlines : List Outline}

theorem one {outline : Outline} (h : Covers run outline) :
    Row run [outline] := by
  have hrow : Row (run ++ []) [outline] := .cons h .nil
  rwa [List.append_nil] at hrow

theorem more (h : Row run outlines) (part : List Token) :
    Row (run ++ part) outlines := by
  have hrow : Row (run ++ part) (outlines ++ []) := h.append .nil
  rwa [List.append_nil] at hrow

end Row

/-! ## Outlines of ordered tokens -/

theorem Span.Around.of_spans {run : List Token} {span : Span}
    (h : Span.Spans run span) : Span.Around run span := by
  obtain ⟨first, last, hfirst, hlast, hspan⟩ := h
  exact ⟨first, List.mem_of_head? hfirst, last,
    List.mem_of_getLast? hlast, hspan⟩

private theorem Span.Around.mono {run tokens : List Token} {span : Span}
    (h : Span.Around run span) (hsubset : run ⊆ tokens) :
    Span.Around tokens span := by
  obtain ⟨first, hfirst, last, hlast, hspan⟩ := h
  exact ⟨first, hsubset hfirst, last, hsubset hlast, hspan⟩

theorem WellNested.around {tokens : List Token} {outline : Outline}
    (h : WellNested tokens outline) : Span.Around tokens outline.span := by
  cases h with
  | node haround => exact haround

theorem WellNested.mono {run tokens : List Token} {outline : Outline}
    (h : WellNested run outline) (hsubset : run ⊆ tokens) :
    WellNested tokens outline := by
  induction h with
  | node haround hencloses hordered _ ih =>
      exact .node (haround.mono hsubset) hencloses hordered ih

namespace Ordered

variable {run tokens : List Token} {span : Span}

private theorem start_le_start (h : Ordered run) {first token : Token}
    (hfirst : run.head? = some first) (htoken : token ∈ run) :
    first.span.start.offset ≤ token.span.start.offset := by
  obtain ⟨rest, rfl⟩ := List.head?_eq_some_iff.mp hfirst
  rcases List.mem_cons.mp htoken with rfl | hbehind
  · exact Nat.le_refl _
  · have hapart := (List.pairwise_cons.mp h.apart).1 token hbehind
    have hnonempty := h.nonempty first (List.mem_cons_self ..)
    omega

private theorem stop_le_last (h : Ordered run) {token last : Token}
    (htoken : token ∈ run) (hlast : run.getLast? = some last) :
    token.span.stop ≤ last.span.stop := by
  obtain ⟨front, rfl⟩ := List.getLast?_eq_some_iff.mp hlast
  rcases List.mem_append.mp htoken with hbefore | hend
  · have hapart :=
      (List.pairwise_append.mp h.apart).2.2 token hbefore last
        (List.mem_singleton_self last)
    have hnonempty :=
      h.nonempty last (List.mem_append_right _ (List.mem_singleton_self last))
    omega
  · rw [List.mem_singleton.mp hend]

theorem encloses (h : Ordered run) {outline : Outline}
    (houtline : Span.Around run outline.span) (hspan : Span.Spans run span)
    (inside : List Outline) : (Outline.node span inside).Encloses outline := by
  obtain ⟨token, htoken, other, hother, hinner⟩ := houtline
  obtain ⟨first, last, hfirst, hlast, rfl⟩ := hspan
  rw [Outline.Encloses, hinner]
  exact ⟨h.start_le_start hfirst htoken, h.stop_le_last hother hlast⟩

theorem before (h : Ordered (run ++ tokens)) {outline later : Outline}
    (houtline : Span.Around run outline.span)
    (hlater : Span.Around tokens later.span) : outline.Before later := by
  obtain ⟨_, _, last, hlast, hspan⟩ := houtline
  obtain ⟨first, hfirst, _, _, hlaterSpan⟩ := hlater
  rw [Outline.Before, hspan, hlaterSpan]
  exact (List.pairwise_append.mp h.apart).2.2 last hlast first hfirst

end Ordered

mutual

theorem Covers.wellNested {run : List Token} {outline : Outline}
    (h : Covers run outline) (hordered : Ordered run) :
    WellNested run outline := by
  match h with
  | .node hspan hrow =>
      obtain ⟨hinside, hpairwise⟩ := Row.wellNested hrow hordered
      exact .node (.of_spans hspan)
        (fun inner hinner =>
          hordered.encloses (hinside inner hinner).around hspan _)
        hpairwise hinside

theorem Row.wellNested {run : List Token} {outlines : List Outline}
    (h : Row run outlines) (hordered : Ordered run) :
    (∀ outline ∈ outlines, WellNested run outline) ∧
      outlines.Pairwise Outline.Before := by
  match h with
  | .nil => exact ⟨List.forall_mem_nil _, .nil⟩
  | .skip skipped hrow =>
      obtain ⟨hinside, hpairwise⟩ := Row.wellNested hrow hordered.right
      exact ⟨fun outline houtline => (hinside outline houtline).mono
        (List.subset_append_right ..), hpairwise⟩
  | .cons hcovers hrow =>
      have hfirst := Covers.wellNested hcovers hordered.left
      obtain ⟨hinside, hpairwise⟩ := Row.wellNested hrow hordered.right
      refine ⟨List.forall_mem_cons.mpr
        ⟨hfirst.mono (List.subset_append_left ..), fun outline houtline =>
        (hinside outline houtline).mono (List.subset_append_right ..)⟩,
          .cons (fun later hlater => ?_) hpairwise⟩
      exact hordered.before hfirst.around (hinside later hlater).around

end

end ShapeMend.Script
