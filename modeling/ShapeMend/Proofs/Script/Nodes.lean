import Mathlib.Data.List.Forall2
import ShapeMend.Proofs.Schema.FieldLists
import ShapeMend.Script.Declared

/-!
# The nodes of shapes

Syntax trees that stand for a shape, an alternative or a field, and what the
declarations of a script make of them.
-/

namespace ShapeMend

open ShapeMend.Text ShapeMend.Script

inductive Shape.ReadAs : Shape → TypeNode → Prop
  | primitive (span : Span) (primitive : Primitive) :
    ReadAs (.primitive primitive) (.keyword span primitive.keyword)
  | literal (span : Span) {literal : Literal} {value : LiteralValue}
    (h : value.toLiteral? = some literal) :
    ReadAs (.literal literal) (.literal span value)
  | reference (span : Span) (name : String) :
    ReadAs (.reference name) (.reference span name false [])
  | inline (span : Span) {fields : List Field} {members : List Member}
    (h : ∀ scope : Scope,
    scope.parameters = [] → memberFields scope members = pure fields) :
    ReadAs (.inline fields) (.object span members)

inductive AlternativeReadAs : Alternative → TypeNode → Prop
  | one {shape : Shape} {node : TypeNode} (h : shape.ReadAs node) :
    AlternativeReadAs ⟨shape, false⟩ node
  | array (span : Span) {shape : Shape} {node : TypeNode}
      (h : shape.ReadAs node) :
    AlternativeReadAs ⟨shape, true⟩ (.array span node)

inductive AlternativesReadAs : List Alternative → TypeNode → Prop
  | single {alternative : Alternative} {node : TypeNode}
      (h : AlternativeReadAs alternative node) :
    AlternativesReadAs [alternative] node
  | union (span : Span) {first next : Alternative} {rest : List Alternative}
    {branches : List TypeNode}
    (h : List.Forall₂ AlternativeReadAs (first :: next :: rest) branches) :
    AlternativesReadAs (first :: next :: rest) (.union span branches)

inductive FieldReadAs : Field → Member → Prop
  | property (span : Span) {key : String} {optional : Bool}
      {alternatives : List Alternative}
    {node : TypeNode} (hne : alternatives ≠ [])
    (h : AlternativesReadAs alternatives node) :
    FieldReadAs ⟨key, optional, alternatives⟩
      (.property span key optional (some node))

/-! ## Alternatives and fields -/

section

variable {scope : Scope}

theorem Primitive.ofKeyword?_keyword (primitive : Primitive) :
    Primitive.ofKeyword? primitive.keyword = some primitive := by
  cases primitive <;> decide +kernel

theorem Primitive.eq_of_keyword_eq {first second : Primitive}
    (h : first.keyword = second.keyword) : first = second := by
  have hfirst := Primitive.ofKeyword?_keyword first
  rw [h, Primitive.ofKeyword?_keyword second] at hfirst
  exact (Option.some.inj hfirst).symm

private theorem Shape.ReadAs.alternatives {shape : Shape} {node : TypeNode}
    (h : shape.ReadAs node) (hscope : scope.parameters = []) :
    node.alternatives scope = pure [.one shape] := by
  cases h with
  | primitive span primitive =>
      rw [TypeNode.alternatives, primitive.ofKeyword?_keyword]
  | literal span hvalue => rw [TypeNode.alternatives, hvalue]
  | reference span name => simp [TypeNode.alternatives, hscope]
  | inline span hfields =>
      rw [TypeNode.alternatives, hfields scope hscope]
      rfl

theorem AlternativeReadAs.alternatives {alternative : Alternative}
    {node : TypeNode} (h : AlternativeReadAs alternative node)
    (hscope : scope.parameters = []) :
    node.alternatives scope = pure [alternative] := by
  cases h with
  | one hshape => exact hshape.alternatives hscope
  | array span hshape =>
      rw [TypeNode.alternatives, hshape.alternatives hscope]
      rfl

private theorem branchAlternatives_of_readAs {alternatives : List Alternative}
    {branches : List TypeNode}
    (h : List.Forall₂ AlternativeReadAs alternatives branches)
    (hscope : scope.parameters = []) :
    branchAlternatives scope branches = pure alternatives := by
  induction h with
  | nil => rfl
  | cons hfirst _ ih =>
      rw [branchAlternatives, hfirst.alternatives hscope, ih]
      rfl

private theorem AlternativesReadAs.alternatives
    {alternatives : List Alternative} {node : TypeNode}
    (h : AlternativesReadAs alternatives node)
    (hscope : scope.parameters = []) :
    node.alternatives scope = pure alternatives := by
  cases h with
  | single halternative => exact halternative.alternatives hscope
  | union span hbranches =>
      rw [TypeNode.alternatives]
      exact branchAlternatives_of_readAs hbranches hscope

theorem memberFields_of_readAs {fields : List Field} {members : List Member}
    (h : List.Forall₂ FieldReadAs fields members)
    (hscope : scope.parameters = []) :
    memberFields scope members = pure fields := by
  induction h with
  | nil => rfl
  | cons hfirst _ ih =>
      cases hfirst with
      | property span hne hnode =>
          rw [memberFields, declaredAlternatives, hnode.alternatives hscope, ih]
          simp only [Logged.pure_bind, List.isEmpty_iff, hne, if_false]

end

/-! ## Literals -/

theorem AlternativeReadAs.literals? {alternative : Alternative}
    {node : TypeNode} (h : AlternativeReadAs alternative node)
    (hliteral : alternative.isLiteral) :
    ∃ literal, node.literals? = some [literal] ∧
      alternative = .one (.literal literal) := by
  obtain ⟨literal, rfl⟩ := AlternativeOf.eq_of_isLiteral hliteral
  cases h with
  | one hshape =>
    cases hshape with
    | literal span hvalue =>
      refine ⟨literal, ?_, rfl⟩
      rw [TypeNode.literals?, hvalue]
      rfl

private theorem branchLiterals?_of_readAs {alternatives : List Alternative}
    {branches : List TypeNode}
    (h : List.Forall₂ AlternativeReadAs alternatives branches)
    (hliteral : ∀ alternative ∈ alternatives, alternative.isLiteral) :
    ∃ literals, branchLiterals? branches = some literals ∧
      alternatives = literals.map fun literal => .one (.literal literal) := by
  induction h with
  | nil => exact ⟨[], rfl, rfl⟩
  | cons hfirst _ ih =>
      obtain ⟨literal, hnode, rfl⟩ :=
        hfirst.literals? (hliteral _ List.mem_cons_self)
      obtain ⟨literals, hrest, rfl⟩ :=
        ih fun other hother => hliteral other (List.mem_cons_of_mem _ hother)
      refine ⟨literal :: literals, ?_, rfl⟩
      rw [branchLiterals?, hnode, hrest]
      rfl

theorem AlternativesReadAs.literals? {alternatives : List Alternative}
    {node : TypeNode} (h : AlternativesReadAs alternatives node)
    (hliteral : ∀ alternative ∈ alternatives, alternative.isLiteral) :
    ∃ literals, node.literals? = some literals ∧
      alternatives = literals.map fun literal => .one (.literal literal) := by
  cases h with
  | single halternative =>
      obtain ⟨literal, hnode, rfl⟩ :=
        halternative.literals? (hliteral _ List.mem_cons_self)
      exact ⟨[literal], hnode, rfl⟩
  | union span hbranches =>
      obtain ⟨literals, hliterals, heq⟩ :=
        branchLiterals?_of_readAs hbranches hliteral
      exact ⟨literals, by rw [TypeNode.literals?, hliterals], heq⟩

end ShapeMend
