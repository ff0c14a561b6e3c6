import ShapeMend.Proofs.Module.Allocation
import ShapeMend.Proofs.Module.OpaqueItems

/-!
# What names are used for in a module

The lexemes of a module are read here without a thought of how they came to be:
a name is used where a constant is declared, where a property is defined, and
where a reference stands as the value of an alternative.  Together with a name
goes what is declared around it.
-/

namespace ShapeMend

open ShapeMend.Text ShapeMend.Script

namespace Module

inductive Role where
  | constant
  | property
  | reference
  deriving DecidableEq

/-- A use of a name, and the constants that are declared around it, bracket by
bracket, innermost first. -/
structure Use where
  role : Role
  name : String
  scopes : List (List String)
  deriving DecidableEq

/-! ## Reading lexemes -/

def opens (lexeme : String) : Bool := ["(", "[", "\x7b"].contains lexeme

def closes (lexeme : String) : Bool := [")", "]", "\x7d"].contains lexeme

/-- The constants that are declared up to the bracket that closes, but for those
inside brackets. -/
def constantsAt : Nat → List String → List String
  | _, [] => []
  | depth, lexeme :: rest =>
    if opens lexeme then constantsAt (depth + 1) rest
    else if closes lexeme then if depth = 0 then []
      else constantsAt (depth - 1) rest
    else if depth = 0 ∧ lexeme = "const" then rest.take 1 ++
      constantsAt depth rest
    else constantsAt depth rest

def use? (lexemes : List String) : Option (Role × String) :=
  if lexemes.take 1 = ["const"] then lexemes[1]?.map (.constant, ·)
  else if lexemes.take 4 = ["Object", ".", "defineProperty", "("] then
    lexemes[4]?.map (.property, ·)
  else if lexemes.take 2 = ["value", ":"] ∧ (lexemes.drop 3).take 3 =
    [",", "isArray", ":"] ∧
      (lexemes.drop 7).take 4 =
        [",", "valueType", ":", Json.quoted "typeReference"] then
    lexemes[2]?.map (.reference, ·)
  else none

def usesHere (scopes : List (List String)) (lexemes : List String) : List Use :=
  ((use? lexemes).map fun use => ⟨use.1, use.2, scopes⟩).toList

def usesIn (scopes : List (List String)) : List String → List Use
  | [] => []
  | lexeme :: rest =>
    usesHere scopes (lexeme :: rest) ++
      usesIn (if opens lexeme then constantsAt 0 rest :: scopes
        else if closes lexeme then scopes.tail else scopes) rest

end Module

/-- The uses in a text.  Outermost are the constants that are declared outside
all brackets. -/
def Script.TokenStream.uses (stream : TokenStream) : List Module.Use :=
  let lexemes := stream.tokens.map (·.text)
  Module.usesIn [Module.constantsAt 0 lexemes] lexemes

/-! ## What should be used -/

namespace Module

/-- The getter of a field has the alternatives in a constant of its own, inside
the brackets of field and getter. -/
def getterScopes (scopes : List (List String)) : List (List String) :=
  ["value"] :: [] :: scopes

mutual

def shapeUses (bindings : List (String × String))
    (scopes : List (List String)) : Shape → List Use
  | .reference name => [⟨.reference, referenceLexeme bindings name, scopes⟩]
  | .inline fields => fieldsUses bindings ([] :: scopes) fields
  | _ => []

def fieldsUses (bindings : List (String × String))
    (scopes : List (List String)) :
    List (FieldOf Shape) → List Use
  | [] => []
  | ⟨_, _, alternatives⟩ :: fields =>
    ⟨.constant, "value", getterScopes scopes⟩ ::
      (alternativesUses bindings ([] :: getterScopes scopes) alternatives ++
        ⟨.property, "this", getterScopes scopes⟩ ::
          fieldsUses bindings scopes fields)

def alternativesUses (bindings : List (String × String))
    (scopes : List (List String)) :
    List (AlternativeOf Shape) → List Use
  | [] => []
  | ⟨shape, _⟩ :: alternatives =>
    shapeUses bindings ([] :: scopes) shape ++
      alternativesUses bindings scopes alternatives

end

/-- A declaration has its binding for a constant and a property, and in between
the bindings that its fields refer to. -/
def declarationUses (bindings : List (String × String))
    (scopes : List (List String)) (declaration : Declaration) : List Use :=
  ⟨.constant, bindingOf bindings declaration, scopes⟩ ::
    (fieldsUses bindings ([] :: scopes) declaration.fields ++
      [⟨.property, bindingOf bindings declaration, scopes⟩])

end Module

def Schema.uses (schema : Schema) : List Module.Use :=
  schema.declarations.flatMap
    (Module.declarationUses schema.bindings [schema.bindings.map (·.2)])

/-! ## Segments -/

namespace Module

structure Segment (lexemes constants : List String)
    (found : List (List String) → List Use) : Prop where
  constantsAt_append : ∀ depth after, constantsAt depth (lexemes ++ after) =
    (if depth = 0 then constants else []) ++ constantsAt depth after
  usesIn_append : ∀ scopes after, usesIn scopes (lexemes ++ after) =
    found scopes ++ usesIn scopes after

def structural : List String := ["(", ")", "[", "]", "\x7b", "\x7d", "const"]

theorem of_not_mem_structural {lexeme : String} (h : lexeme ∉ structural) :
    opens lexeme = false ∧ closes lexeme = false ∧ lexeme ≠ "const" := by
  simp only [structural, List.mem_cons, not_or] at h
  simp [opens, closes, h]

def IsIdle (lexeme : String) : Prop :=
  lexeme ∉ structural ∧ lexeme ≠ "Object" ∧ lexeme ≠ "value"

instance (lexeme : String) : Decidable (IsIdle lexeme) :=
  inferInstanceAs (Decidable (_ ∧ _))

private theorem IsIdle.use?_eq_none {lexeme : String} (h : IsIdle lexeme)
    (rest : List String) : use? (lexeme :: rest) = none := by
  obtain ⟨hstructural, hobject, hvalue⟩ := h
  have hconst := (of_not_mem_structural hstructural).2.2
  simp [use?, hconst, hobject, hvalue]

namespace Segment

variable {lexemes others constants more : List String}
  {found later : List (List String) → List Use}

theorem nil : Segment [] [] fun _ => [] where
  constantsAt_append depth after := by simp
  usesIn_append scopes after := rfl

theorem append (h : Segment lexemes constants found)
    (hmore : Segment others more later) :
    Segment (lexemes ++ others) (constants ++ more) fun scopes =>
      found scopes ++ later scopes where
  constantsAt_append depth after := by
    rw [List.append_assoc, h.constantsAt_append, hmore.constantsAt_append]
    split <;> simp
  usesIn_append scopes after := by
    rw [List.append_assoc, h.usesIn_append, hmore.usesIn_append,
      List.append_assoc]

theorem cons {lexeme : String} (hlexeme : lexeme ∉ structural)
    (use : Option (Role × String))
    (huse : ∀ after, use? (lexeme :: (lexemes ++ after)) = use)
    (h : Segment lexemes constants found) :
    Segment (lexeme :: lexemes) constants fun scopes =>
      (use.map fun use => (⟨use.1, use.2, scopes⟩ : Use)).toList ++
        found scopes where
  constantsAt_append depth after := by
    obtain ⟨hopens, hcloses, hconst⟩ := of_not_mem_structural hlexeme
    rw [List.cons_append, constantsAt, hopens, hcloses, ← h.constantsAt_append]
    simp [hconst]
  usesIn_append scopes after := by
    obtain ⟨hopens, hcloses, -⟩ := of_not_mem_structural hlexeme
    rw [List.cons_append, usesIn, hopens, hcloses, usesHere, huse,
      if_neg Bool.false_ne_true, if_neg Bool.false_ne_true, h.usesIn_append,
      List.append_assoc]

theorem idle (h : ∀ lexeme ∈ lexemes, IsIdle lexeme) :
    Segment lexemes [] fun _ => [] := by
  induction lexemes with
  | nil => exact nil
  | cons lexeme lexemes ih =>
      have hlexeme := h lexeme List.mem_cons_self
      have hrest :=
        ih fun other hother => h other (List.mem_cons_of_mem _ hother)
      exact hrest.cons hlexeme.1 none fun after => hlexeme.use?_eq_none _

theorem append_idle (h : Segment lexemes constants found)
    (hidle : ∀ lexeme ∈ others, IsIdle lexeme) :
    Segment (lexemes ++ others) constants found := by
  simpa using h.append (idle hidle)

theorem followed (h : Segment lexemes constants found) (lexeme : String)
    (hidle : IsIdle lexeme) : Segment (lexemes ++ [lexeme]) constants found :=
  h.append_idle (List.forall_mem_singleton.mpr hidle)

theorem idle_append (hidle : ∀ lexeme ∈ others, IsIdle lexeme)
    (h : Segment lexemes constants found) :
    Segment (others ++ lexemes) constants found := by
  simpa using (idle hidle).append h

theorem name {name next : String} (hname : name ∉ structural)
    (hnext : IsIdle next) (hend : next ≠ "." ∧ next ≠ ":") :
    Segment [name, next] [] fun _ => [] := by
  have hsingle : Segment [next] [] fun _ => [] := idle (by simpa using hnext)
  refine hsingle.cons hname none fun after => ?_
  have hconst := (of_not_mem_structural hname).2.2
  simp [use?, hconst, hend]

theorem enclosed (brackets : Brackets) (h : Segment lexemes constants found) :
    Segment (enclosed brackets lexemes) [] fun scopes =>
      found (constants :: scopes) := by
  have hopener : opens (String.ofList [brackets.opener]) ∧
      ∀ rest, use? (String.ofList [brackets.opener] :: rest) = none := by
    cases brackets <;>
      exact ⟨by decide, fun rest => by simp [use?, Brackets.opener]⟩
  have hcloser : opens (String.ofList [brackets.closer]) = false ∧
      closes (String.ofList [brackets.closer]) ∧
      ∀ rest, use? (String.ofList [brackets.closer] :: rest) = none := by
    cases brackets <;>
      exact ⟨by decide, by decide, fun rest => by simp [use?, Brackets.closer]⟩
  have hsplit (after : List String) :
      Module.enclosed brackets lexemes ++ after =
      String.ofList [brackets.opener] ::
        (lexemes ++ String.ofList [brackets.closer] :: after) := by
    simp [Module.enclosed]
  constructor
  · intro depth after
    rw [hsplit, constantsAt, if_pos hopener.1, h.constantsAt_append,
      constantsAt, hcloser.1, if_neg Bool.false_ne_true, if_pos hcloser.2.1]
    simp
  · intro scopes after
    rw [hsplit, usesIn, if_pos hopener.1, usesHere, hopener.2,
      h.constantsAt_append, constantsAt, hcloser.1, if_neg Bool.false_ne_true,
      if_pos hcloser.2.1, h.usesIn_append, usesIn, usesHere, hcloser.2.2,
      hcloser.1, if_neg Bool.false_ne_true, if_pos hcloser.2.1]
    simp

theorem constant {name : String} (hname : name ∉ structural) :
    Segment ["const", name, "="] [name] fun scopes =>
      [⟨.constant, name, scopes⟩] := by
  have hbehind : Segment [name, "="] [] fun _ => [] :=
    Segment.name hname (by decide) (by decide)
  constructor
  · intro depth after
    have hrest := hbehind.constantsAt_append depth after
    have hopens : opens "const" = false := by decide
    have hcloses : closes "const" = false := by decide
    rw [List.cons_append, constantsAt, hopens, hcloses,
      if_neg Bool.false_ne_true, if_neg Bool.false_ne_true, hrest]
    by_cases hdepth : depth = 0 <;> simp [hdepth]
  · intro scopes after
    have hrest := hbehind.usesIn_append scopes after
    have hopens : opens "const" = false := by decide
    have hcloses : closes "const" = false := by decide
    have huse : use? ("const" :: ([name, "="] ++ after)) =
        some (.constant, name) := by simp [use?]
    rw [List.cons_append, usesIn, hopens, hcloses, if_neg Bool.false_ne_true,
      if_neg Bool.false_ne_true, hrest, usesHere, huse]
    rfl

theorem property {name : String} (hname : name ∉ structural)
    (h : Segment lexemes constants found) :
    Segment (["Object", ".", "defineProperty"] ++
      Module.enclosed .round ([name, ","] ++ lexemes)) []
      fun scopes =>
        ⟨.property, name, scopes⟩ :: found (constants :: scopes) := by
  have harguments : Segment ([name, ","] ++ lexemes) ([] ++ constants) _ :=
    (Segment.name hname (by decide) (by decide)).append h
  have hmethod : Segment [".", "defineProperty"] [] fun _ => [] :=
    idle (by decide)
  have hobject : "Object" ∉ structural := by decide
  have hcall := (hmethod.append (harguments.enclosed .round)).cons hobject
      (some (.property, name))
  exact hcall fun after => by simp [use?, Module.enclosed, Brackets.opener]

end Segment

end Module

end ShapeMend
