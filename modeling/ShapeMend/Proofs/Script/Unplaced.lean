import ShapeMend.Proofs.Script.Lexing
import ShapeMend.Script.Declared

/-!
# Trees without their places

What is declared by a tree does not depend on where its parts stand, nor on the
source that they come from. Places are only noted.
-/

namespace ShapeMend.Script

open ShapeMend.Text

/-! ## Trees -/

def nowhere : Span := .point .origin

def AccessorKey.unplaced : AccessorKey → AccessorKey
  | .plain text => .plain text
  | .computed _ => .computed nowhere

def MemberForm.unplaced : MemberForm → MemberForm
  | .accessor key => .accessor key.unplaced
  | form => form

mutual

def TypeNode.unplaced : TypeNode → TypeNode
  | .keyword _ word => .keyword nowhere word
  | .literal _ value => .literal nowhere value
  | .reference _ name qualified arguments =>
      .reference nowhere name qualified (nodesUnplaced arguments)
  | .array _ element => .array nowhere element.unplaced
  | .union _ branches => .union nowhere (nodesUnplaced branches)
  | .intersection _ parts => .intersection nowhere (nodesUnplaced parts)
  | .object _ members => .object nowhere (membersUnplaced members)
  | .parenthesized _ inner => .parenthesized nowhere inner.unplaced
  | .tuple _ elements => .tuple nowhere (nodesUnplaced elements)
  | .indexedAccess _ object index =>
      .indexedAccess nowhere object.unplaced index.unplaced
  | .operator _ operator operand => .operator nowhere operator operand.unplaced
  | .sealed _ form => .sealed nowhere form

def nodesUnplaced : List TypeNode → List TypeNode
  | [] => []
  | node :: nodes => node.unplaced :: nodesUnplaced nodes

def declaredUnplaced : Option TypeNode → Option TypeNode
  | none => none
  | some node => some node.unplaced

def Member.unplaced : Member → Member
  | .property _ key optional declared =>
      .property nowhere key optional (declaredUnplaced declared)
  | .other _ form => .other nowhere form.unplaced

def membersUnplaced : List Member → List Member
  | [] => []
  | member :: members => member.unplaced :: membersUnplaced members

end

theorem nodesUnplaced_eq (nodes : List TypeNode) :
    nodesUnplaced nodes = nodes.map TypeNode.unplaced := by
  induction nodes with
  | nil => rfl
  | cons node nodes ih => rw [nodesUnplaced, ih, List.map_cons]

theorem membersUnplaced_eq (members : List Member) :
    membersUnplaced members = members.map Member.unplaced := by
  induction members with
  | nil => rfl
  | cons member members ih => rw [membersUnplaced, ih, List.map_cons]

def Name.unplaced (name : Name) : Name := ⟨name.text, nowhere⟩

theorem Name.text_of_unplaced {name other : Name}
    (h : other.unplaced = name.unplaced) : other.text = name.text :=
  (Name.mk.inj h).1

def TypeParameter.unplaced (parameter : TypeParameter) : TypeParameter :=
  ⟨parameter.name.unplaced, parameter.constraint.map TypeNode.unplaced,
    parameter.fallback.map TypeNode.unplaced⟩

def InterfaceItem.unplaced (item : InterfaceItem) : InterfaceItem :=
  ⟨nowhere, item.name.unplaced, item.exported,
    item.parameters.map TypeParameter.unplaced,
    item.parents.map TypeNode.unplaced, item.members.map Member.unplaced⟩

def AliasItem.unplaced (item : AliasItem) : AliasItem :=
  ⟨nowhere, item.name.unplaced, item.exported,
    item.parameters.map TypeParameter.unplaced,
    item.type.unplaced⟩

def Item.unplaced : Item → Item
  | .interface item => .interface item.unplaced
  | .typeAlias item => .typeAlias item.unplaced
  | .other _ => .other nowhere

/-! ## What they declare -/

variable {scope other : Scope}

mutual

theorem TypeNode.value_alternatives_unplaced
    (hparameters : other.parameters = scope.parameters) (node : TypeNode) :
    (node.unplaced.alternatives other).value =
      (node.alternatives scope).value := by
  cases node with
  | keyword span word =>
      rw [TypeNode.unplaced, TypeNode.alternatives, TypeNode.alternatives]
      split <;> simp
  | literal span value =>
      rw [TypeNode.unplaced, TypeNode.alternatives, TypeNode.alternatives]
      split <;> simp
  | reference span name qualified arguments =>
      rw [TypeNode.unplaced, TypeNode.alternatives, TypeNode.alternatives,
        nodesUnplaced_eq, hparameters, List.isEmpty_map]
      repeat' split
      all_goals simp
  | array span element =>
      have helement := TypeNode.value_alternatives_unplaced hparameters element
      rw [TypeNode.unplaced, TypeNode.alternatives, TypeNode.alternatives,
        Logged.value_bind, Logged.value_bind, helement]
  | union span branches =>
      rw [TypeNode.unplaced, TypeNode.alternatives, TypeNode.alternatives]
      exact value_branchAlternatives_unplaced hparameters branches
  | parenthesized span inner =>
      rw [TypeNode.unplaced, TypeNode.alternatives, TypeNode.alternatives]
      exact TypeNode.value_alternatives_unplaced hparameters inner
  | object span members =>
      have hmembers := value_memberFields_unplaced hparameters members
      rw [TypeNode.unplaced, TypeNode.alternatives, TypeNode.alternatives,
        Logged.value_bind, Logged.value_bind, hmembers]
  | _ => simp [TypeNode.unplaced, TypeNode.alternatives]

theorem value_branchAlternatives_unplaced
    (hparameters : other.parameters = scope.parameters)
    (branches : List TypeNode) :
    (branchAlternatives other (nodesUnplaced branches)).value =
      (branchAlternatives scope branches).value := by
  match branches with
  | [] => rfl
  | branch :: branches =>
      have hbranch := TypeNode.value_alternatives_unplaced hparameters branch
      have hmore := value_branchAlternatives_unplaced hparameters branches
      rw [nodesUnplaced, branchAlternatives, branchAlternatives]
      simp only [Logged.value_bind, Logged.value_pure, hbranch, hmore]

theorem value_memberFields_unplaced
    (hparameters : other.parameters = scope.parameters)
    (members : List Member) :
    (memberFields other (membersUnplaced members)).value =
      (memberFields scope members).value := by
  match members with
  | [] => rfl
  | .other span form :: members =>
      have hmembers := value_memberFields_unplaced hparameters members
      rw [membersUnplaced, Member.unplaced, memberFields, memberFields]
      simpa only [Logged.value_bind] using hmembers
  | .property span key optional declared :: members =>
      have hdeclared := value_declaredAlternatives_unplaced hparameters declared
      have hmembers := value_memberFields_unplaced hparameters members
      rw [membersUnplaced, Member.unplaced, memberFields, memberFields,
        Logged.value_bind, Logged.value_bind, hdeclared]
      split
      · simpa only [Logged.value_bind] using hmembers
      · simp only [Logged.value_bind, Logged.value_pure, hmembers]

theorem value_declaredAlternatives_unplaced
    (hparameters : other.parameters = scope.parameters)
    (declared : Option TypeNode) :
    (declaredAlternatives other (declaredUnplaced declared)).value =
      (declaredAlternatives scope declared).value := by
  match declared with
  | none => rfl
  | some node =>
      rw [declaredUnplaced, declaredAlternatives, declaredAlternatives]
      exact TypeNode.value_alternatives_unplaced hparameters node

end

mutual

theorem TypeNode.literals?_unplaced (node : TypeNode) :
    node.unplaced.literals? = node.literals? := by
  cases node with
  | literal span value =>
      rw [TypeNode.unplaced, TypeNode.literals?, TypeNode.literals?]
  | parenthesized span inner =>
      rw [TypeNode.unplaced, TypeNode.literals?, TypeNode.literals?]
      exact TypeNode.literals?_unplaced inner
  | union span branches =>
      rw [TypeNode.unplaced, TypeNode.literals?, TypeNode.literals?]
      exact branchLiterals?_unplaced branches
  | _ => simp [TypeNode.unplaced, TypeNode.literals?]

theorem branchLiterals?_unplaced (branches : List TypeNode) :
    branchLiterals? (nodesUnplaced branches) = branchLiterals? branches := by
  match branches with
  | [] => rfl
  | branch :: branches =>
      rw [nodesUnplaced, branchLiterals?, branchLiterals?,
        TypeNode.literals?_unplaced branch, branchLiterals?_unplaced branches]

end

theorem TypeNode.unparenthesized_unplaced (node : TypeNode) :
    node.unplaced.unparenthesized = node.unparenthesized.unplaced := by
  match node with
  | .parenthesized span inner =>
      rw [TypeNode.unplaced, TypeNode.unparenthesized,
        inner.unparenthesized_unplaced, TypeNode.unparenthesized]
  | .keyword .. | .literal .. | .reference .. | .array .. | .union .. |
      .intersection .. | .object ..
  | .tuple .. | .indexedAccess .. | .operator .. | .sealed .. => rfl

theorem names_unplaced (parameters : List TypeParameter) :
    (parameters.map TypeParameter.unplaced).map (·.name.text) =
      parameters.map (·.name.text) := by
  rw [List.map_map]
  rfl

private theorem InterfaceItem.value_declaration_unplaced (source other : String)
    (item : InterfaceItem) :
    (item.unplaced.declaration other).value =
      (item.declaration source).value := by
  have hparameters :
      (item.unplaced.scope other).parameters = (item.scope source).parameters :=
    names_unplaced item.parameters
  have hfields := value_memberFields_unplaced hparameters item.members
  rw [membersUnplaced_eq] at hfields
  have hvalue (source : String) (item : InterfaceItem) :
      (item.declaration source).value =
      ⟨item.name.text, .interface, item.exported,
        (memberFields (item.scope source) item.members).value⟩ := by
    unfold InterfaceItem.declaration
    split <;> rfl
  rw [hvalue, hvalue]
  exact congrArg (Declaration.mk _ _ _) hfields

private theorem AliasItem.value_declaration?_unplaced (source other : String)
    (item : AliasItem) :
    (item.unplaced.declaration? other).value =
      (item.declaration? source).value := by
  have hparameters :
      (item.unplaced.scope other).parameters = (item.scope source).parameters :=
    names_unplaced item.parameters
  have hinside :
      item.unplaced.type.unparenthesized = item.type.unparenthesized.unplaced :=
    item.type.unparenthesized_unplaced
  have hliterals : item.unplaced.type.literals? = item.type.literals? :=
    item.type.literals?_unplaced
  unfold AliasItem.declaration?
  rw [hinside, hliterals]
  cases hnode : item.type.unparenthesized with
  | object span members =>
      have hfields := value_memberFields_unplaced hparameters members
      simp only [TypeNode.unplaced, Logged.value_bind, hfields]
      rfl
  | _ =>
      simp only [TypeNode.unplaced]
      split <;> rfl

theorem Item.value_declaration?_unplaced (source other : String) (item : Item) :
    (item.unplaced.declaration? other).value =
      (item.declaration? source).value := by
  cases item with
  | interface item =>
      exact congrArg some (item.value_declaration_unplaced source other)
  | typeAlias item => exact item.value_declaration?_unplaced source other
  | other span => rfl

end ShapeMend.Script
