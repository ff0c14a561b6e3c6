import ShapeMend.Proofs.Module.EmittedUses
import ShapeMend.Script.Declared

/-!
# Where bindings are found

A binding serves if it is an identifier and the module around it does not use
the same name for a purpose of its own.  Whether all bindings serve can be told
from the declared names: they have no character that a binding keeps and an
identifier does not have, and none is a name of the module's own.
-/

namespace ShapeMend

open ShapeMend.Text ShapeMend.Script

namespace Module

/-- The names that a module uses and declares for itself, or not at all. -/
def templateNames : List String := ["value", "Object", "undefined"]

/-- The scopes from the innermost one that declares the name. -/
def holder (name : String) (scopes : List (List String)) : List (List String) :=
  scopes.dropWhile fun scope => !scope.contains name

/-- What is used is the constant of the module where there is one, and else
nothing that is declared.  So is the object whose method defines a property. -/
def Use.Resolves (constants : List String) (use : Use) : Prop :=
  (use.role ≠ .constant →
    holder use.name use.scopes = if use.name ∈ constants then [constants]
      else []) ∧
  (use.role = .property → holder "Object" use.scopes = [])

instance (constants : List String) (use : Use) :
    Decidable (use.Resolves constants) :=
  inferInstanceAs (Decidable (_ ∧ _))

end Module

open ShapeMend.Module

/-- Every binding is an identifier that the module does not use for itself, and
every use finds what it is for. -/
structure Schema.Usable (schema : Schema) : Prop where
  identifiers : ∀ entry ∈ schema.bindings, Binding.isIdentifier entry.2
  apart : ∀ entry ∈ schema.bindings, entry.2 ∉ templateNames
  resolves : ∀ exportAll, ∃ stream,
    TokenStream.ofText
      (declarationsText schema.bindings exportAll schema.declarations) =
      .ok stream ∧
      stream.uses = schema.uses ∧ ∀ use ∈ stream.uses,
        use.Resolves (schema.bindings.map (·.2))

/-! ## Identifiers -/

namespace Binding

private theorem continuesIdentifier_of_isIdentifier {s : String}
    (h : isIdentifier s) : ∀ c ∈ s.toList, continuesIdentifier c := by
  unfold isIdentifier at h
  split at h
  · exact absurd h Bool.false_ne_true
  · next first rest hchars =>
      rw [Bool.and_eq_true, List.all_eq_true] at h
      rw [hchars, List.forall_mem_cons]
      exact ⟨by simp [continuesIdentifier, h.1], h.2⟩

private theorem continuesIdentifier_of_isDigit {c : Char} (h : c.isDigit) :
    continuesIdentifier c := by
  have hascii := toNat_lt_of_isDigit h
  have hbeyond : recentRanges.all fun range =>
      decide (0x80 ≤ range.first) := by decide
  have hrecent : isRecent c = false := by
    refine Bool.eq_false_iff.mpr fun hrecent => ?_
    obtain ⟨range, hrange, hcontains⟩ := List.any_eq_true.mp hrecent
    have hfirst := of_decide_eq_true (List.all_eq_true.mp hbeyond range hrange)
    simp only [CodeRange.contains, Bool.and_eq_true, decide_eq_true_eq]
      at hcontains
    omega
  simp [continuesIdentifier, isNumeric_of_isDigit h, hrecent]

theorem isIdentifier_append {s suffix : String} (h : isIdentifier s)
    (hsuffix : ∀ c ∈ suffix.toList, continuesIdentifier c) :
    isIdentifier (s ++ suffix) := by
  unfold isIdentifier at h ⊢
  rw [String.toList_append]
  cases hchars : s.toList with
  | nil => simp [hchars] at h
  | cons first rest =>
      rw [hchars, Bool.and_eq_true] at h
      simp only [List.cons_append, List.all_append, Bool.and_eq_true]
      exact ⟨h.1, h.2, List.all_eq_true.mpr hsuffix⟩

private theorem isIdentifier_sanitized {name : String}
    (h : ∀ c ∈ name.toList, isKept c → continuesIdentifier c) :
    isIdentifier (sanitized name) := by
  simp only [sanitized]
  split
  · refine isIdentifier_append (by decide) fun c hc => ?_
    rw [String.toList_ofList] at hc
    obtain ⟨d, hd, rfl⟩ := List.mem_map.mp hc
    split
    · next hkept => exact h d hd hkept
    · decide
  · next hidentifier =>
      simp only [Bool.or_eq_true, not_or, Bool.not_eq_true', Bool.not_eq_false]
        at hidentifier
      exact hidentifier.1

private theorem isIdentifier_candidate {identifier : String}
    (h : isIdentifier identifier) (number : Nat) :
    isIdentifier (candidate identifier number) := by
  obtain ⟨suffix, heq, hsuffix⟩ := exists_candidate_eq identifier number
  rw [heq]
  refine isIdentifier_append h fun c hc => ?_
  rcases hsuffix c hc with rfl | hdigit
  · decide
  · exact continuesIdentifier_of_isDigit hdigit

private theorem mem_candidate_of_isKept {name : String} {c : Char}
    (hc : c ∈ name.toList) (hkept : isKept c) (number : Nat) :
    c ∈ (candidate (sanitized name) number).toList := by
  obtain ⟨suffix, heq, -⟩ := exists_candidate_eq (sanitized name) number
  have hreplaced : c ∈ name.toList.map fun c => if isKept c then c else '_' :=
    List.mem_map.mpr ⟨c, hc, if_pos hkept⟩
  rw [heq, String.toList_append, List.mem_append]
  refine .inl ?_
  simp only [sanitized]
  split
  · rw [String.toList_append, List.mem_append]
    exact .inr (by rwa [String.toList_ofList])
  · rwa [String.toList_ofList]

namespace Allocates

variable {names : List String} {bindings : List (String × String)}

theorem exists_of_mem (h : Allocates names bindings) {name : String}
    (hname : name ∈ names) :
    ∃ before binding after, bindings = before ++ (name, binding) :: after := by
  rw [← h.keys_eq] at hname
  obtain ⟨⟨_, binding⟩, hentry, rfl⟩ := List.mem_map.mp hname
  obtain ⟨before, after, hsplit⟩ := List.append_of_mem hentry
  exact ⟨before, binding, after, hsplit⟩

theorem firstFree_of_mem (h : Allocates names bindings)
    {entry : String × String} (hentry : entry ∈ bindings) : entry.1 ∈ names ∧
      ∃ taken, FirstFree taken (sanitized entry.1) entry.2 := by
  obtain ⟨before, after, hsplit⟩ := List.append_of_mem hentry
  exact ⟨h.keys_eq ▸ List.mem_map_of_mem hentry, _,
    h.firstFree before entry.1 entry.2 after hsplit⟩

private theorem forall_isIdentifier_iff (h : Allocates names bindings) :
    (∀ entry ∈ bindings, isIdentifier entry.2) ↔
      ∀ name ∈ names, ∀ c ∈ name.toList, isKept c → continuesIdentifier c := by
  constructor
  · intro hidentifiers name hname c hc hkept
    obtain ⟨before, binding, after, hsplit⟩ := h.exists_of_mem hname
    have hbinding : isIdentifier binding :=
      hidentifiers (name, binding) (by simp [hsplit])
    obtain ⟨-, number, -, rfl, -⟩ :=
      h.firstFree before name binding after hsplit
    exact continuesIdentifier_of_isIdentifier hbinding c
      (mem_candidate_of_isKept hc hkept number)
  · intro hnames entry hentry
    obtain ⟨hname, _, -, number, -, heq, -⟩ := h.firstFree_of_mem hentry
    rw [heq]
    exact isIdentifier_candidate
      (isIdentifier_sanitized (hnames entry.1 hname)) number

/-- Words that can be bound as they are, and have no underscore, are bound only
if they are declared. -/
private theorem forall_not_mem_iff (h : Allocates names bindings)
    {words : List String}
    (hwords : ∀ word ∈ words, '_' ∉ word.toList ∧ sanitized word = word) :
    (∀ entry ∈ bindings, entry.2 ∉ words) ↔ ∀ name ∈ names, name ∉ words := by
  constructor
  · intro hapart name hname hword
    obtain ⟨before, binding, after, hsplit⟩ := h.exists_of_mem hname
    obtain ⟨-, number, hpos, heq, hbefore⟩ :=
      h.firstFree before name binding after hsplit
    have hfirst : candidate (sanitized name) 1 = name := (hwords name hword).2
    by_cases hnumber : number = 1
    · rw [hnumber, hfirst] at heq
      exact hapart (name, binding) (by simp [hsplit]) (heq ▸ hword)
    · have htaken := hbefore 1 Nat.one_pos (by omega)
      obtain ⟨entry, hentry, hsame⟩ := List.mem_map.mp htaken
      refine hapart entry (by simp [hsplit, hentry]) ?_
      rw [hsame, hfirst]
      exact hword
  · intro hnames entry hentry hword
    obtain ⟨hname, _, -, number, -, heq, -⟩ := h.firstFree_of_mem hentry
    obtain ⟨hsame, -⟩ := eq_of_candidate_eq (hwords entry.2 hword).1 heq.symm
    exact hnames entry.1 hname (hsame ▸ hword)

end Allocates

end Binding

/-! ## Scopes -/

namespace Module

/-- The constants of a module are outermost, and between them and the inside
nothing is declared but the constants of getters. -/
def Within (constants : List String) (scopes : List (List String)) : Prop :=
  ∃ layers, scopes = layers ++ [constants] ∧ ∀ layer ∈ layers, ∀ name ∈ layer,
    name = "value"

namespace Within

variable {constants : List String} {scopes : List (List String)}

private theorem outermost (constants : List String) :
    Within constants [constants] :=
  ⟨[], rfl, fun _ h => absurd h List.not_mem_nil⟩

theorem cons {layer : List String} (hlayer : ∀ name ∈ layer, name = "value")
    (h : Within constants scopes) : Within constants (layer :: scopes) := by
  obtain ⟨layers, rfl, hlayers⟩ := h
  exact ⟨layer :: layers, rfl, List.forall_mem_cons.mpr ⟨hlayer, hlayers⟩⟩

theorem bracket (h : Within constants scopes) :
    Within constants ([] :: scopes) :=
  h.cons fun _ hname => absurd hname List.not_mem_nil

private theorem getter (h : Within constants scopes) :
    Within constants (getterScopes scopes) :=
  h.bracket.cons fun _ hname => List.mem_singleton.mp hname

private theorem holder_eq (h : Within constants scopes) {name : String}
    (hname : name ≠ "value") :
    holder name scopes = if name ∈ constants then [constants] else [] := by
  obtain ⟨layers, rfl, hlayers⟩ := h
  induction layers with
  | nil => by_cases hmem : name ∈ constants <;> simp [holder, hmem]
  | cons layer layers ih =>
      rw [List.forall_mem_cons] at hlayers
      have hskip : layer.contains name = false := by
        simpa using fun hmem => hname (hlayers.1 name hmem)
      rw [← ih hlayers.2, List.cons_append, holder, List.dropWhile_cons, hskip]
      rfl

end Within

def Use.Reaches (constants : List String) (use : Use) : Prop :=
  Within constants use.scopes ∧ (use.role ≠ .constant → use.name ≠ "value")

private theorem Use.Reaches.resolves {constants : List String} {use : Use}
    (h : use.Reaches constants) (hobject : "Object" ∉ constants) :
    use.Resolves constants := by
  refine ⟨fun hrole => h.1.holder_eq (h.2 hrole), fun _ => ?_⟩
  rw [h.1.holder_eq (by decide), if_neg hobject]

section

variable {bindings : List (String × String)} {constants : List String}
  {scopes : List (List String)}

private theorem referenceLexeme_ne_value
    (hbindings : ∀ entry ∈ bindings, entry.2 ≠ "value") (name : String) :
    referenceLexeme bindings name ≠ "value" := by
  unfold referenceLexeme
  cases hlookup : Keyed.lookup name bindings with
  | none => decide
  | some binding => exact hbindings _ (Keyed.mem_of_lookup hlookup)

mutual

theorem reaches_shape (hbindings : ∀ entry ∈ bindings, entry.2 ≠ "value")
    {scopes : List (List String)} (hscopes : Within constants scopes)
    (shape : Shape) :
    ∀ use ∈ shapeUses bindings scopes shape, use.Reaches constants := by
  match shape with
  | .primitive _ | .literal _ => exact fun _ h => absurd h List.not_mem_nil
  | .reference name =>
      exact List.forall_mem_singleton.mpr
        ⟨hscopes, fun _ => referenceLexeme_ne_value hbindings name⟩
  | .inline fields => exact reaches_fields hbindings hscopes.bracket fields

private theorem reaches_fields
    (hbindings : ∀ entry ∈ bindings, entry.2 ≠ "value")
    {scopes : List (List String)} (hscopes : Within constants scopes)
    (fields : List (FieldOf Shape)) :
    ∀ use ∈ fieldsUses bindings scopes fields, use.Reaches constants := by
  match fields with
  | [] => exact fun _ h => absurd h List.not_mem_nil
  | ⟨_, _, alternatives⟩ :: fields =>
      have hthis : "this" ≠ "value" := by decide
      have hinside :=
        reaches_alternatives hbindings hscopes.getter.bracket alternatives
      have hlater := reaches_fields hbindings hscopes fields
      rw [fieldsUses, List.forall_mem_cons, List.forall_mem_append,
        List.forall_mem_cons]
      exact ⟨⟨hscopes.getter, fun h => absurd rfl h⟩, hinside,
        ⟨hscopes.getter, fun _ => hthis⟩, hlater⟩

theorem reaches_alternatives (hbindings : ∀ entry ∈ bindings, entry.2 ≠ "value")
    {scopes : List (List String)} (hscopes : Within constants scopes)
    (alternatives : List (AlternativeOf Shape)) :
    ∀ use ∈ alternativesUses bindings scopes alternatives,
      use.Reaches constants := by
  match alternatives with
  | [] => exact fun _ h => absurd h List.not_mem_nil
  | ⟨shape, _⟩ :: alternatives =>
      rw [alternativesUses, List.forall_mem_append]
      exact ⟨reaches_shape hbindings hscopes.bracket shape,
        reaches_alternatives hbindings hscopes alternatives⟩

end

end

end Module

namespace Schema

private theorem reaches_uses {schema : Schema}
    (h : ∀ entry ∈ schema.bindings, entry.2 ≠ "value") :
    ∀ use ∈ schema.uses, use.Reaches (schema.bindings.map (·.2)) := by
  intro use huse
  obtain ⟨declaration, hdeclaration, huse⟩ := List.mem_flatMap.mp huse
  have hbinding := h _ (Keyed.mem_of_lookup (lookup_bindings_eq hdeclaration))
  have houtermost := Within.outermost (schema.bindings.map (·.2))
  have hfields := reaches_fields h houtermost.bracket declaration.fields
  rw [declarationUses, List.mem_cons, List.mem_append, List.mem_singleton]
    at huse
  rcases huse with rfl | hinside | rfl
  · exact ⟨houtermost, fun hrole => absurd rfl hrole⟩
  · exact hfields use hinside
  · exact ⟨houtermost, fun _ => hbinding⟩

/-- The bindings of a module are of use exactly if no declaration is called like
what the module uses for itself, and all that is kept of their names can stand
in identifiers. -/
theorem usable_iff (schema : Schema) :
    schema.Usable ↔ ∀ name ∈ schema.names, name ∉ templateNames ∧
    ∀ c ∈ name.toList, Binding.isKept c → Binding.continuesIdentifier c := by
  have hallocates := Binding.allocates_allocateAll schema.names
  have hwords : ∀ word ∈ templateNames,
      '_' ∉ word.toList ∧ Binding.sanitized word = word := by
    decide +kernel
  have hidentifiers := hallocates.forall_isIdentifier_iff
  have hapart := hallocates.forall_not_mem_iff hwords
  constructor
  · intro husable name hname
    exact ⟨hapart.mp husable.apart name hname,
      hidentifiers.mp husable.identifiers name hname⟩
  · intro hnames
    have hbindings : ∀ entry ∈ schema.bindings, entry.2 ∉ templateNames :=
      hapart.mpr fun name hname => (hnames name hname).1
    refine ⟨hidentifiers.mpr fun name hname => (hnames name hname).2, hbindings,
      fun exportAll => ?_⟩
    obtain ⟨stream, hstream, hlexemes⟩ := exists_stream_lexemes schema exportAll
    have huses := uses_of_lexemes hlexemes
    have hvalue : ∀ entry ∈ schema.bindings, entry.2 ≠ "value" := by
      rintro entry hentry hsame
      exact hbindings entry hentry (hsame ▸ by decide)
    have hobject : "Object" ∉ schema.bindings.map (·.2) := by
      intro hmem
      obtain ⟨entry, hentry, hsame⟩ := List.mem_map.mp hmem
      exact hbindings entry hentry (hsame ▸ by decide)
    refine ⟨stream, hstream, huses, fun use huse => ?_⟩
    rw [huses] at huse
    exact (reaches_uses hvalue use huse).resolves hobject

/-- A circled letter is alphabetic and yet no letter. -/
def capturingSource : Source :=
  ⟨"test.ts",
    "interface Object \x7b all: value \x7d\ninterface value \x7b one: Ⓐ \x7d\ntype Ⓐ = 1"⟩

theorem not_usable_capturingSource :
    ∃ parsed, schemaOfSource capturingSource false = .ok parsed ∧
    parsed.value.bindings =
      [("Object", "Object"), ("value", "value"), ("Ⓐ", "_Ⓐ")] ∧
    Binding.isIdentifier "_Ⓐ" = false ∧ "value" ∈ templateNames ∧
      "Object" ∈ templateNames ∧
    (∃ use ∈ parsed.value.uses, use.role = .reference ∧ use.name = "value" ∧
      holder use.name use.scopes ≠ [parsed.value.bindings.map (·.2)]) ∧
    (∃ use ∈ parsed.value.uses,
      use.role = .property ∧ holder "Object" use.scopes ≠ []) ∧
    ¬ parsed.value.Usable := by
  have hfaults :
      (schemaOfSource capturingSource false).toOption.any fun parsed =>
      parsed.value.bindings =
        [("Object", "Object"), ("value", "value"), ("Ⓐ", "_Ⓐ")] ∧
      (∃ use ∈ parsed.value.uses, use.role = .reference ∧ use.name = "value" ∧
        holder use.name use.scopes ≠ [parsed.value.bindings.map (·.2)]) ∧
      (∃ use ∈ parsed.value.uses,
        use.role = .property ∧ holder "Object" use.scopes ≠ []) := by
    decide +kernel
  cases h : schemaOfSource capturingSource false with
  | error error => simp [h, Except.toOption] at hfaults
  | ok parsed =>
      simp only [h, Except.toOption, Option.any_some, decide_eq_true_eq]
        at hfaults
      obtain ⟨hbindings, hreference, hproperty⟩ := hfaults
      have hcircled : Binding.isIdentifier "_Ⓐ" = false := by decide +kernel
      refine ⟨parsed, rfl, hbindings, hcircled, by
        decide, by decide, hreference, hproperty,
        fun husable => ?_⟩
      have hidentifier := husable.identifiers ("Ⓐ", "_Ⓐ") (by simp [hbindings])
      exact Bool.false_ne_true (hcircled.symm.trans hidentifier)

end Schema

end ShapeMend
