import ShapeMend.Proofs.Module.Bindings
import ShapeMend.Proofs.Number.Layouts
import ShapeMend.Proofs.Module.Layout
import ShapeMend.Proofs.Schema.Descriptors

/-!
# Emitted modules tell their schemas

The text of a module can be taken apart from the front.  A string ends at its
first bare quote, a list at the bracket that stands where the next row would
begin, and every other value at the comma behind it; the words that are written
about a value tell what kind of value it is.
-/

namespace ShapeMend

open ShapeMend.Number ShapeMend.Script

/-! ## Parts of texts -/

namespace Json

theorem quoted_append_inj {value other : String} {rest more : List Char}
    (h : (quoted value).toList ++ rest = (quoted other).toList ++ more) :
    value = other ∧ rest = more := by
  simp only [quoted, String.toList_ofList, List.cons_append, List.append_assoc,
    List.nil_append, List.cons.injEq, true_and] at h
  have hbody := congrArg (Quoted.body '\x22') h
  rw [Quoted.body_quoted, Quoted.body_quoted] at hbody
  obtain ⟨-, hvalue⟩ := Prod.mk.inj (Except.ok.inj hbody)
  obtain rfl := String.toList_inj.mp hvalue
  exact ⟨rfl, (List.cons.inj (List.append_cancel_left h)).2⟩

theorem quoted_injective {value other : String}
    (h : quoted value = quoted other) : value = other := by
  have hlist :
      (quoted value).toList ++ [] = (quoted other).toList ++ [] := by rw [h]
  exact (quoted_append_inj hlist).1

theorem head?_quoted (value : String) :
    (quoted value).toList.head? = some '\x22' := by
  simp [quoted]

end Json

namespace Module

theorem truth_append_inj {a b : Bool} {rest more : List Char}
    (h : (truth a).toList ++ rest = (truth b).toList ++ more) :
    a = b ∧ rest = more := by
  cases a <;> cases b <;> simp [truth] at h ⊢ <;> exact h

private theorem append_comma_inj {text other rest more : List Char}
    (htext : ',' ∉ text) (hother : ',' ∉ other)
    (h : text ++ ',' :: rest = other ++ ',' :: more) :
    text = other ∧ rest = more := by
  induction text generalizing other with
  | nil =>
      cases other with
      | nil => exact ⟨rfl, (List.cons.inj h).2⟩
      | cons c other =>
          exact absurd ((List.cons.inj h).1 ▸ List.mem_cons_self) hother
  | cons c text ih =>
      cases other with
      | nil => exact absurd ((List.cons.inj h).1 ▸ List.mem_cons_self) htext
      | cons d other =>
          obtain ⟨rfl, htail⟩ := List.cons.inj h
          obtain ⟨rfl, hrest⟩ :=
            ih (fun hc => htext (List.mem_cons_of_mem _ hc))
            (fun hc => hother (List.mem_cons_of_mem _ hc)) htail
          exact ⟨rfl, hrest⟩

theorem indent_succ_ne (depth : Nat) (rest more : List Char) :
    (indent (depth + 1)).toList ++ '\x7b' :: rest ≠ (indent depth).toList ++
      ']' :: more := by
  have hdeeper :
      (indent (depth + 1)).toList = (indent depth).toList ++ [' ', ' '] := by
    change ((("".pushn ' ' (2 * depth)).push ' ').push ' ').toList = _
    rw [String.toList_push, String.toList_push, List.append_assoc]
    rfl
  rw [hdeeper, List.append_assoc]
  intro h
  exact absurd (List.cons.inj (List.append_cancel_left h)).1 (by decide)

/-! ## Rows -/

variable {bindings : List (String × String)} {declared : String → Bool}
  {depth : Nat}

def fieldEnd (depth : Nat) : List Char :=
  (";\n" ++ line (depth + 3)
      "Object.defineProperty(this, \"attribute\", \x7b value, enumerable: true \x7d);"
    ++ line (depth + 3) "return value;" ++ line (depth + 2) "\x7d," ++
      line (depth + 1) "\x7d,").toList

theorem toList_fieldLines (key : String) (optional : Bool)
    (alternatives : List (AlternativeOf Shape)) (fields : List (FieldOf Shape))
    (rest : List Char) :
    (fieldLines bindings depth
      (⟨key, optional, alternatives⟩ :: fields)).toList ++ rest =
      (indent (depth + 1)).toList ++ '\x7b' ::
        (("\n" ++ indent (depth + 2) ++ "key: ").toList ++
        ((Json.quoted key).toList ++
          ((",\n" ++ indent (depth + 2) ++ "optional: ").toList ++
          ((truth optional).toList ++
            ((",\n" ++ line (depth + 2) "get attribute() \x7b"
              ++ line (depth + 3) "const value = [").toList ++
            ((alternativeLines bindings (depth + 3 + 1) alternatives).toList ++
              ((indent (depth + 3)).toList ++ ']' ::
                (fieldEnd depth ++ ((fieldLines bindings depth fields).toList
                  ++ rest))))))))) := by
  simp [fieldLines, line, fieldEnd]

private theorem toList_alternativeLines (shape : Shape) (isArray : Bool)
    (alternatives : List (AlternativeOf Shape)) (rest : List Char) :
    (alternativeLines bindings depth
      (⟨shape, isArray⟩ :: alternatives)).toList ++ rest =
      (indent depth).toList ++ '\x7b' :: (" value: ".toList ++
        ((shapeText bindings depth shape).toList ++ ',' ::
          (" isArray: ".toList ++
          ((truth isArray).toList ++ (", valueType: ".toList ++
            ((Json.quoted shape.valueType.keyword).toList ++
              (" \x7d,\n".toList ++
              ((alternativeLines bindings depth alternatives).toList ++
                rest)))))))) := by
  simp [alternativeLines, line]

private theorem fieldLines_cons_inj {key otherKey : String}
    {optional otherOptional : Bool}
    {alternatives others : List (AlternativeOf Shape)}
    {fields otherFields : List (FieldOf Shape)} {rest more : List Char}
    (h :
      (fieldLines bindings depth
      (⟨key, optional, alternatives⟩ :: fields)).toList ++ rest =
      (fieldLines bindings depth
        (⟨otherKey, otherOptional, others⟩ :: otherFields)).toList ++ more) :
    key = otherKey ∧ optional = otherOptional ∧
      (alternativeLines bindings (depth + 3 + 1) alternatives).toList ++
          ((indent (depth + 3)).toList ++ ']' :: (fieldEnd depth ++
            ((fieldLines bindings depth fields).toList ++ rest))) =
        (alternativeLines bindings (depth + 3 + 1) others).toList ++
          ((indent (depth + 3)).toList ++ ']' :: (fieldEnd depth ++
            ((fieldLines bindings depth otherFields).toList ++ more))) := by
  rw [toList_fieldLines, toList_fieldLines] at h
  have hkey :=
    List.append_cancel_left (List.cons.inj (List.append_cancel_left h)).2
  obtain ⟨rfl, hoptional⟩ := Json.quoted_append_inj hkey
  obtain ⟨rfl, hvalues⟩ := truth_append_inj (List.append_cancel_left hoptional)
  exact ⟨rfl, rfl, List.append_cancel_left hvalues⟩

private theorem alternativeEnd_inj {isArray otherArray : Bool}
    {valueType otherType : String} {rest more : List Char}
    (h : " isArray: ".toList ++
      ((truth isArray).toList ++
      (", valueType: ".toList ++
      ((Json.quoted valueType).toList ++ (" \x7d,\n".toList ++ rest)))) =
      " isArray: ".toList ++
        ((truth otherArray).toList ++
          (", valueType: ".toList ++
          ((Json.quoted otherType).toList ++ (" \x7d,\n".toList ++ more))))) :
    isArray = otherArray ∧ valueType = otherType ∧ rest = more := by
  obtain ⟨rfl, htype⟩ := truth_append_inj (List.append_cancel_left h)
  obtain ⟨rfl, hrows⟩ := Json.quoted_append_inj (List.append_cancel_left htype)
  exact ⟨rfl, rfl, List.append_cancel_left hrows⟩

end Module

/-! ## Literals -/

private theorem JsonNumber.mem_text {number : JsonNumber} {c : Char}
    (h : c ∈ number.text.toList) : c.isDigit ∨ c ∈ ['-', '+', '.', 'e'] := by
  obtain ⟨negative, d, hwritten, htext⟩ := number.exists_text
  obtain ⟨-, hwhole, hfraction, hexponent⟩ := DecimalText.of_isWritten hwritten
  rw [htext, DecimalText.text, List.mem_append, List.mem_append,
    List.mem_append] at h
  rcases h with hsign | hdigit | hpoint | hend
  · cases negative <;> simp at hsign
    exact .inr (by simp [hsign])
  · exact .inl (hwhole c hdigit)
  · unfold DecimalText.fractionText at hpoint
    split at hpoint
    · cases hpoint
    · rcases List.mem_cons.mp hpoint with rfl | hdigit
      · exact .inr (by simp)
      · exact .inl (hfraction c hdigit)
  · unfold DecimalText.exponentText at hend
    split at hend
    · cases hend
    · next sign digits hsome =>
        rcases List.mem_cons.mp hend with rfl | hrest
        · exact .inr (by simp)
        rcases List.mem_cons.mp hrest with rfl | hdigit
        · cases sign <;> exact .inr (by simp)
        · exact .inl ((hexponent _ hsome).2 c hdigit)

namespace Literal

theorem not_mem_compact_number {x : Binary64} (h : x.isFinite) {c : Char}
    (hdigit : ¬ c.isDigit) (hmark : c ∉ ['-', '+', '.', 'e']) :
    c ∉ (numberToJson x).compact.toList := by
  obtain ⟨written, hwritten, -⟩ := exists_numberToJson h
  rw [hwritten]
  exact fun hmem => (JsonNumber.mem_text hmem).elim hdigit hmark

private theorem agrees_of_compact_eq {a b : Literal} (ha : a.isFinite)
    (hb : b.isFinite) (h : a.toJson.compact = b.toJson.compact) :
    a.agrees b := by
  have hquote (value : String) :
      '\x22' ∈ (string value).toJson.compact.toList := by
    simp [toJson, Json.compact, Json.quoted]
  have htruth (value : Bool) :
      ∃ c ∈ (boolean value).toJson.compact.toList,
        ¬ c.isDigit ∧ c ∉ ['-', '+', '.', 'e'] := by
    cases value
    · exact ⟨'f', by decide, by decide⟩
    · exact ⟨'t', by decide, by decide⟩
  have hplain (value : Bool) :
      '\x22' ∉ (boolean value).toJson.compact.toList := by
    cases value <;> decide
  cases a with
  | string value =>
      cases b with
      | string other => exact decide_eq_true (Json.quoted_injective h)
      | number other =>
          have hmem := hquote value
          rw [h] at hmem
          exact absurd hmem (not_mem_compact_number hb (by decide) (by decide))
      | boolean other => exact absurd (h ▸ hquote value) (hplain other)
      | notANumber => cases hb
  | number value =>
      cases b with
      | string other =>
          have hmem := hquote other
          rw [← h] at hmem
          exact absurd hmem (not_mem_compact_number ha (by decide) (by decide))
      | number other => exact sameValue_of_compact_eq ha hb h
      | boolean other =>
          obtain ⟨c, hc, hdigit, hmark⟩ := htruth other
          rw [← h] at hc
          exact absurd hc (not_mem_compact_number ha hdigit hmark)
      | notANumber => cases hb
  | boolean value =>
      cases b with
      | string other => exact absurd (h ▸ hquote other) (hplain value)
      | number other =>
          obtain ⟨c, hc, hdigit, hmark⟩ := htruth value
          rw [h] at hc
          exact absurd hc (not_mem_compact_number hb hdigit hmark)
      | boolean other =>
          cases value <;> cases other
          · rfl
          · exact absurd h (by decide)
          · exact absurd h (by decide)
          · rfl
      | notANumber => cases hb
  | notANumber => cases ha

end Literal

namespace Module

/-! ## Shapes -/

structure TellsApart (bindings : List (String × String))
    (declared : String → Bool) : Prop where
  exists_binding : ∀ {name}, declared name →
    ∃ binding, Keyed.lookup name bindings = some binding ∧ isName binding
  injective : ∀ {first second binding},
    Keyed.lookup first bindings = some binding →
    Keyed.lookup second bindings = some binding → first = second

structure IsTold (declared : String → Bool) (shape : Shape) : Prop where
  declared : shapeUndeclared declared shape = []
  finite : shape.isFinite

structure AreTold (declared : String → Bool)
    (alternatives : List (AlternativeOf Shape)) : Prop where
  declared : alternativesUndeclared declared alternatives = []
  finite : alternativesFinite alternatives

section

variable {declared : String → Bool}

private theorem IsTold.fields {key : String} {optional : Bool}
    {alternatives : List (AlternativeOf Shape)} {fields : List (FieldOf Shape)}
    (h : IsTold declared (.inline (⟨key, optional, alternatives⟩ :: fields))) :
    AreTold declared alternatives ∧ IsTold declared (.inline fields) := by
  obtain ⟨hdeclared, hfinite⟩ := h
  rw [shapeUndeclared, fieldsUndeclared, List.append_eq_nil_iff] at hdeclared
  rw [Shape.isFinite, fieldsFinite, Bool.and_eq_true] at hfinite
  exact ⟨⟨hdeclared.1, hfinite.1⟩, ⟨hdeclared.2, hfinite.2⟩⟩

private theorem AreTold.alternatives {shape : Shape} {isArray : Bool}
    {alternatives : List (AlternativeOf Shape)}
    (h : AreTold declared (⟨shape, isArray⟩ :: alternatives)) :
    IsTold declared shape ∧ AreTold declared alternatives := by
  obtain ⟨hdeclared, hfinite⟩ := h
  rw [alternativesUndeclared, List.append_eq_nil_iff] at hdeclared
  rw [alternativesFinite, Bool.and_eq_true] at hfinite
  exact ⟨⟨hdeclared.1, hfinite.1⟩, ⟨hdeclared.2, hfinite.2⟩⟩

end

structure IsPlain (text : String) : Prop where
  comma : ',' ∉ text.toList
  first : ∀ c ∈ text.toList.head?, c ≠ '\x22' ∧ c ≠ '['

private theorem isPlain_of_isName {name : String}
    (h : isName name) : IsPlain name := by
  unfold isName at h
  have hcomma : startsWord ',' = false ∧ continuesWord ',' = false := by
    decide +kernel
  have hfirst : startsWord '\x22' = false ∧ startsWord '[' = false := by
    decide +kernel
  cases hchars : name.toList with
  | nil => simp [hchars] at h
  | cons c rest =>
      rw [hchars, Bool.and_eq_true, List.all_eq_true] at h
      refine ⟨?_, ?_⟩
      · rw [hchars]
        intro hmem
        rcases List.mem_cons.mp hmem with rfl | hlater
        · exact Bool.false_ne_true (hcomma.1.symm.trans h.1)
        · exact Bool.false_ne_true (hcomma.2.symm.trans (h.2 _ hlater))
      · rw [hchars]
        rintro d hd
        obtain rfl : c = d := Option.some.inj hd
        refine ⟨?_, ?_⟩
        · rintro rfl
          exact Bool.false_ne_true (hfirst.1.symm.trans h.1)
        · rintro rfl
          exact Bool.false_ne_true (hfirst.2.symm.trans h.1)

private theorem isPlain_number {x : Binary64} (h : x.isFinite) :
    IsPlain (Literal.numberToJson x).compact where
  comma := Literal.not_mem_compact_number h (by decide) (by decide)
  first := by
    intro c hc
    have hmem := List.mem_of_head? hc
    refine ⟨?_, ?_⟩
    · rintro rfl
      exact Literal.not_mem_compact_number h (by decide) (by decide) hmem
    · rintro rfl
      exact Literal.not_mem_compact_number h (by decide) (by decide) hmem

section

variable {bindings : List (String × String)} {declared : String → Bool}
  {depth : Nat}

theorem IsTold.exists_binding (hbindings : TellsApart bindings declared)
    {name : String} (h : IsTold declared (.reference name)) :
    ∃ binding, Keyed.lookup name bindings = some binding ∧ isName binding := by
  have hundeclared := h.declared
  rw [shapeUndeclared] at hundeclared
  split at hundeclared
  · next hdeclared => exact hbindings.exists_binding hdeclared
  · cases hundeclared

theorem referenceText_of_lookup {name binding : String}
    (h : Keyed.lookup name bindings = some binding) :
    referenceText bindings name = binding := by
  rw [referenceText, h]

theorem quoted_or_plain (hbindings : TellsApart bindings declared) (depth : Nat)
    {shape : Shape} (htold : IsTold declared shape)
    (hleaf : ∀ fields, shape ≠ .inline fields) :
    (∃ value, shapeText bindings depth shape = Json.quoted value) ∨
      IsPlain (shapeText bindings depth shape) := by
  cases shape with
  | primitive primitive => exact .inl ⟨_, by rw [shapeText]⟩
  | literal literal =>
      rw [shapeText]
      cases literal with
      | string value => exact .inl ⟨value, rfl⟩
      | number value => exact .inr (isPlain_number htold.finite)
      | notANumber => cases htold.finite
      | boolean value =>
          refine .inr ⟨?_, fun c hc => ?_⟩
          · cases value <;> decide
          · have hletter : c = 't' ∨ c = 'f' := by
              cases value with
              | true => exact .inl (Option.some.inj hc).symm
              | false => exact .inr (Option.some.inj hc).symm
            rcases hletter with rfl | rfl <;> decide
  | reference name =>
      obtain ⟨binding, hlookup, hname⟩ := htold.exists_binding hbindings
      rw [shapeText, referenceText_of_lookup hlookup]
      exact .inr (isPlain_of_isName hname)
  | inline fields => exact absurd rfl (hleaf fields)

/-- The text of a value that is no object written out is told from the rest of
its row. -/
private theorem leaf_append_inj {text other : String} {rest more : List Char}
    (htext : (∃ value, text = Json.quoted value) ∨ IsPlain text)
    (hother : (∃ value, other = Json.quoted value) ∨ IsPlain other)
    (h : text.toList ++ ',' :: rest = other.toList ++ ',' :: more) :
    text = other ∧ rest = more := by
  have hmixed {value plain : String} {rest more : List Char}
      (hplain : IsPlain plain) :
      (Json.quoted value).toList ++ ',' :: rest ≠ plain.toList ++ ',' ::
        more := by
    intro heq
    have hhead := congrArg List.head? heq
    rw [List.head?_append, Json.head?_quoted, List.head?_append, Option.some_or]
      at hhead
    cases hfirst : plain.toList.head? with
    | none => simp [hfirst] at hhead
    | some c =>
        obtain rfl : '\x22' = c := by simpa [hfirst] using hhead
        exact (hplain.first _ hfirst).1 rfl
  rcases htext with ⟨value, rfl⟩ | htext <;> rcases hother
    with ⟨second, rfl⟩ | hother
  · obtain ⟨rfl, hcomma⟩ := Json.quoted_append_inj h
    exact ⟨rfl, (List.cons.inj hcomma).2⟩
  · exact absurd h (hmixed hother)
  · exact absurd h.symm (hmixed htext)
  · obtain ⟨hsame, hrest⟩ := append_comma_inj htext.comma hother.comma h
    exact ⟨String.toList_inj.mp hsame, hrest⟩

private theorem leaf_agrees (hbindings : TellsApart bindings declared)
    {first second : Shape} (hfirst : IsTold declared first)
    (hsecond : IsTold declared second)
    (hleaf : ∀ fields, first ≠ .inline fields)
    (htype : first.valueType = second.valueType)
    (h : shapeText bindings depth first = shapeText bindings depth second) :
    first.agrees second := by
  cases first with
  | primitive primitive =>
      cases second with
      | primitive other =>
          have hkeyword : primitive.keyword = other.keyword :=
            Json.quoted_injective h
          have hsame : primitive = other := by
            revert hkeyword
            cases primitive <;> cases other <;> decide
          exact decide_eq_true hsame
      | literal other => cases htype
      | reference name => cases htype
      | inline fields => cases htype
  | literal literal =>
      cases second with
      | primitive other => cases htype
      | literal other =>
          exact Literal.agrees_of_compact_eq hfirst.finite hsecond.finite h
      | reference name => cases htype
      | inline fields => cases htype
  | reference name =>
      cases second with
      | primitive other => cases htype
      | literal other => cases htype
      | reference other =>
          obtain ⟨binding, hlookup, -⟩ := hfirst.exists_binding hbindings
          obtain ⟨bound, hother, -⟩ := hsecond.exists_binding hbindings
          rw [shapeText, shapeText, referenceText_of_lookup hlookup,
            referenceText_of_lookup hother] at h
          exact decide_eq_true (hbindings.injective hlookup (h ▸ hother))
      | inline fields => cases htype
  | inline fields => exact absurd rfl (hleaf fields)

private theorem valueType_keyword_injective {first second : ValueType}
    (h : first.keyword = second.keyword) : first = second := by
  revert h
  cases first <;> cases second <;> decide

/-! ## Taking lists apart -/

theorem head?_inline (fields : List (FieldOf Shape)) (rest : List Char) :
    ((shapeText bindings depth (.inline fields)).toList ++ rest) =
      '[' :: '\n' :: ((fieldLines bindings depth fields).toList ++
        ((indent depth).toList ++ ']' :: rest)) := by
  simp [shapeText]

theorem inline_ne_leaf {fields : List (FieldOf Shape)} {text : String}
    {rest more : List Char}
    (htext : (∃ value, text = Json.quoted value) ∨ IsPlain text) :
    (shapeText bindings depth (.inline fields)).toList ++ ',' :: rest ≠
      text.toList ++ ',' :: more := by
  intro h
  rw [head?_inline] at h
  have hhead := congrArg List.head? h
  rw [List.head?_append, List.head?_cons] at hhead
  rcases htext with ⟨value, rfl⟩ | hplain
  · rw [Json.head?_quoted] at hhead
    exact absurd (Option.some.inj hhead) (by decide)
  · cases hfirst : text.toList.head? with
    | none => simp [hfirst] at hhead
    | some c =>
        obtain rfl : '[' = c := by simpa [hfirst] using hhead
        exact (hplain.first _ hfirst).2 rfl

/-- A value that is no object written out is told from the rest of its row and
from all other values. -/
private theorem leaf_told (hbindings : TellsApart bindings declared)
    {first second : Shape} (hfirst : IsTold declared first)
    (hsecond : IsTold declared second)
    (hleaf : ∀ fields, first ≠ .inline fields) {rest more : List Char}
    (h : (shapeText bindings depth first).toList ++ ',' ::
      rest = (shapeText bindings depth second).toList ++ ',' :: more) :
    rest = more ∧
      (first.valueType = second.valueType → first.agrees second) := by
  have htext := quoted_or_plain hbindings depth hfirst hleaf
  by_cases hother : ∃ fields, second = .inline fields
  · obtain ⟨fields, rfl⟩ := hother
    exact absurd h.symm (inline_ne_leaf htext)
  · have hsecondLeaf : ∀ fields, second ≠ .inline fields :=
      fun fields heq => hother ⟨fields, heq⟩
    obtain ⟨hsame, hrest⟩ := leaf_append_inj htext
      (quoted_or_plain hbindings depth hsecond hsecondLeaf) h
    exact ⟨hrest,
      fun htype => leaf_agrees hbindings hfirst hsecond hleaf htype hsame⟩

mutual

/-- A value is told from the rest of its row, and with its kind from other
values. -/
theorem shape_append_inj (hbindings : TellsApart bindings declared)
    (depth : Nat) (first second : Shape) (hfirst : IsTold declared first)
    (hsecond : IsTold declared second) {rest more : List Char}
    (h : (shapeText bindings depth first).toList ++ ',' ::
      rest = (shapeText bindings depth second).toList ++ ',' :: more) :
    rest = more ∧
      (first.valueType = second.valueType → first.agrees second) := by
  revert h
  match first, second with
  | .inline fields, .inline others =>
      intro h
      rw [head?_inline, head?_inline] at h
      obtain ⟨hrest, hagree⟩ :=
        fields_append_inj hbindings depth fields others hfirst hsecond
        (List.cons.inj (List.cons.inj h).2).2
      refine ⟨(List.cons.inj hrest).2, fun _ => ?_⟩
      rwa [Shape.agrees]
  | .inline fields, .primitive other | .inline fields, .literal other
  | .inline fields, .reference other =>
      exact fun h =>
        absurd h
        (inline_ne_leaf (quoted_or_plain hbindings depth hsecond (by simp)))
  | .primitive _, second | .literal _, second | .reference _, second =>
      exact leaf_told hbindings hfirst hsecond (by simp)

private theorem fields_append_inj (hbindings : TellsApart bindings declared)
    (depth : Nat) (first second : List (FieldOf Shape))
    (hfirst : IsTold declared (.inline first))
    (hsecond : IsTold declared (.inline second)) {rest more : List Char}
    (h : (fieldLines bindings depth first).toList ++
      ((indent depth).toList ++ ']' :: rest) =
      (fieldLines bindings depth second).toList ++
      ((indent depth).toList ++ ']' :: more)) :
    rest = more ∧ fieldsAgree first second := by
  revert h
  match first, second with
  | [], [] =>
      intro h
      simp only [fieldLines, String.toList_empty, List.nil_append] at h
      exact ⟨(List.cons.inj (List.append_cancel_left h)).2, rfl⟩
  | [], ⟨key, optional, alternatives⟩ :: fields =>
      intro h
      rw [toList_fieldLines] at h
      exact absurd h.symm (indent_succ_ne depth _ _)
  | ⟨key, optional, alternatives⟩ :: fields, [] =>
      intro h
      rw [toList_fieldLines] at h
      exact absurd h (indent_succ_ne depth _ _)
  | ⟨key, optional, alternatives⟩ :: fields,
      ⟨otherKey, otherOptional, others⟩ :: otherFields =>
      intro h
      obtain ⟨hinside, hlater⟩ := hfirst.fields
      obtain ⟨hotherInside, hotherLater⟩ := hsecond.fields
      obtain ⟨rfl, rfl, hvalues⟩ := fieldLines_cons_inj h
      obtain ⟨hend, hagree⟩ :=
        alternatives_append_inj hbindings (depth + 3) alternatives others
        hinside hotherInside hvalues
      obtain ⟨hrest, hfields⟩ :=
        fields_append_inj hbindings depth fields otherFields hlater
        hotherLater (List.append_cancel_left hend)
      exact ⟨hrest, by simp [fieldsAgree, hagree, hfields]⟩

theorem alternatives_append_inj (hbindings : TellsApart bindings declared)
    (depth : Nat) (first second : List (AlternativeOf Shape))
    (hfirst : AreTold declared first) (hsecond : AreTold declared second)
    {rest more : List Char}
    (h : (alternativeLines bindings (depth + 1) first).toList ++
      ((indent depth).toList ++ ']' :: rest) =
      (alternativeLines bindings (depth + 1) second).toList ++
      ((indent depth).toList ++ ']' :: more)) :
    rest = more ∧ alternativesAgree first second := by
  revert h
  match first, second with
  | [], [] =>
      intro h
      simp only [alternativeLines, String.toList_empty, List.nil_append] at h
      exact ⟨(List.cons.inj (List.append_cancel_left h)).2, rfl⟩
  | [], ⟨shape, isArray⟩ :: alternatives =>
      intro h
      rw [toList_alternativeLines] at h
      exact absurd h.symm (indent_succ_ne depth _ _)
  | ⟨shape, isArray⟩ :: alternatives, [] =>
      intro h
      rw [toList_alternativeLines] at h
      exact absurd h (indent_succ_ne depth _ _)
  | ⟨shape, isArray⟩ :: alternatives, ⟨otherShape, otherArray⟩ :: others =>
      intro h
      rw [toList_alternativeLines, toList_alternativeLines] at h
      obtain ⟨hinside, hlater⟩ := hfirst.alternatives
      obtain ⟨hotherInside, hotherLater⟩ := hsecond.alternatives
      have hvalue :=
        List.append_cancel_left (List.cons.inj (List.append_cancel_left h)).2
      obtain ⟨hend, hshape⟩ :=
        shape_append_inj hbindings (depth + 1) shape otherShape hinside
        hotherInside hvalue
      obtain ⟨rfl, htype, hrows⟩ := alternativeEnd_inj hend
      obtain ⟨hrest, halternatives⟩ :=
        alternatives_append_inj hbindings depth alternatives others
        hlater hotherLater hrows
      have hagree := hshape (valueType_keyword_injective htype)
      exact ⟨hrest, by simp [alternativesAgree, hagree, halternatives]⟩

end

/-! ## Declarations -/

private theorem toList_declarationText {declaration : Declaration}
    {binding : String}
    (h : Keyed.lookup declaration.name bindings = some binding)
    (rest : List Char) :
    (declarationText bindings false declaration).toList ++ rest =
      (if declaration.exported then "export ".toList else []) ++
        (("const " ++ binding ++ " = ").toList ++ '[' :: '\n' ::
          ((fieldLines bindings 0 declaration.fields).toList ++
            ((indent 0).toList ++ ']' ::
            ((";\nObject.defineProperty(" ++ binding ++
              ", \"kind\", \x7b value: ").toList ++
              ((Json.quoted declaration.kind.keyword).toList ++
                (", enumerable: false \x7d);\n".toList ++ rest)))))) := by
  cases hexported : declaration.exported
  all_goals simp [declarationText, h, hexported, fieldsText, shapeText]

private theorem exported_append_inj {a b : Bool} {rest more : List Char}
    (h : (if a then "export ".toList else []) ++ 'c' ::
      rest = (if b then "export ".toList else []) ++ 'c' :: more) :
    a = b ∧ rest = more := by
  cases a <;> cases b <;> simp at h ⊢ <;> exact h

private theorem kind_keyword_injective {first second : DeclarationKind}
    (h : first.keyword = second.keyword) : first = second := by
  revert h
  cases first <;> cases second <;> decide

private theorem declaration_append_inj
    (hbindings : TellsApart bindings declared) {first second : Declaration}
    (hname : first.name = second.name) (hdeclared : declared first.name)
    (hfirst : IsTold declared (.inline first.fields))
    (hsecond : IsTold declared (.inline second.fields)) {rest more : List Char}
    (h : (declarationText bindings false first).toList ++
      rest = (declarationText bindings false second).toList ++ more) :
    first.agrees second ∧ rest = more := by
  obtain ⟨binding, hlookup, -⟩ := hbindings.exists_binding hdeclared
  rw [toList_declarationText hlookup, toList_declarationText (hname ▸ hlookup)]
    at h
  have hconst (text : List Char) :
      ("const " ++ binding ++ " = ").toList ++ text =
      'c' :: (("onst " ++ binding ++ " = ").toList ++ text) := by simp
  rw [hconst, hconst] at h
  obtain ⟨hexported, hbody⟩ := exported_append_inj h
  have hrows :=
    (List.cons.inj (List.cons.inj (List.append_cancel_left hbody)).2).2
  obtain ⟨hend, hfields⟩ :=
    fields_append_inj hbindings 0 _ _ hfirst hsecond hrows
  obtain ⟨hkind, hrest⟩ := Json.quoted_append_inj (List.append_cancel_left hend)
  refine ⟨?_, List.append_cancel_left hrest⟩
  simp [Declaration.agrees, hname, hexported, hfields,
    kind_keyword_injective hkind]

private theorem declarations_inj (hbindings : TellsApart bindings declared)
    {first second : List Declaration}
    (hnames : first.map (·.name) = second.map (·.name))
    (hdeclared : ∀ declaration ∈ first, declared declaration.name)
    (hfirst : ∀ declaration ∈ first,
      IsTold declared (.inline declaration.fields))
    (hsecond : ∀ declaration ∈ second,
      IsTold declared (.inline declaration.fields))
    (h : declarationsText bindings false first =
      declarationsText bindings false second) :
    List.Forall₂ (fun declaration other => declaration.agrees other) first
      second := by
  induction first generalizing second with
  | nil =>
      obtain rfl := List.map_eq_nil_iff.mp hnames.symm
      exact .nil
  | cons declaration first ih =>
      cases second with
      | nil => cases hnames
      | cons other second =>
          obtain ⟨hname, hlater⟩ := List.cons.inj hnames
          simp only [declarationsText, List.flatMap_cons, List.cons_append] at h
          obtain ⟨hagree, hrest⟩ := declaration_append_inj hbindings hname
            (hdeclared _ List.mem_cons_self) (hfirst _ List.mem_cons_self)
            (hsecond _ List.mem_cons_self) (List.cons.inj h).2
          refine .cons hagree (ih hlater ?_ ?_ ?_ hrest)
          · exact fun _ hmem => hdeclared _ (List.mem_cons_of_mem _ hmem)
          · exact fun _ hmem => hfirst _ (List.mem_cons_of_mem _ hmem)
          · exact fun _ hmem => hsecond _ (List.mem_cons_of_mem _ hmem)

end

end Module

/-! ## Schemas -/

namespace Schema

private theorem tellsApart_bindings (schema : Schema) :
    Module.TellsApart schema.bindings schema.contains where
  exists_binding := by
    intro name hname
    obtain ⟨declaration, hmem, rfl⟩ :=
      List.mem_map.mp (contains_iff_mem_names.mp hname)
    obtain ⟨binding, hlookup⟩ := exists_lookup_bindings hmem
    exact ⟨binding, hlookup,
      Binding.isName_of_mem_allocateAll (Keyed.mem_of_lookup hlookup)⟩
  injective := bindings_injective

private theorem isTold_fields {schema : Schema}
    (hdeclared : schema.undeclared = []) (hfinite : schema.isFinite) :
    ∀ declaration ∈ schema.declarations,
      Module.IsTold schema.contains (.inline declaration.fields) := by
  intro declaration hmem
  refine ⟨?_, ?_⟩
  · exact List.flatMap_eq_nil_iff.mp hdeclared declaration hmem
  · exact List.all_eq_true.mp hfinite declaration hmem

/-- A schema can be recovered from the text of its module and the names of its
declarations, if all that it refers to is declared and its numbers are finite:
schemas with the same text agree in everything, up to the sign of zeros. -/
theorem agrees_of_moduleText_eq {first second : Schema} (header : String)
    (hnames : first.names = second.names)
    (hdeclared : first.undeclared = [] ∧ second.undeclared = [])
    (hfinite : first.isFinite ∧ second.isFinite)
    (h : first.moduleText false header = second.moduleText false header) :
    List.Forall₂ (fun declaration other => declaration.agrees other)
      first.declarations second.declarations := by
  have hbindings : second.bindings = first.bindings := by
    rw [bindings, bindings, hnames]
  have hcontains : second.contains = first.contains := by
    funext name
    rw [Bool.eq_iff_iff, contains_iff_mem_names, contains_iff_mem_names, hnames]
  have htext := congrArg String.toList h
  rw [Module.toList_moduleText, Module.toList_moduleText, hbindings] at htext
  refine Module.declarations_inj (tellsApart_bindings first) hnames ?_
    (isTold_fields hdeclared.1 hfinite.1) ?_ (List.append_cancel_left htext)
  · exact fun declaration hmem =>
      contains_iff_mem_names.mpr (List.mem_map_of_mem hmem)
  · rw [← hcontains]
    exact isTold_fields hdeclared.2 hfinite.2

/-- A zero of either sign beside an object that refers back. -/
def signed (negative : Bool) : Schema := .ofDeclarations [
  ⟨"a b", .interface, true, [
    ⟨"zero", false, [
      ⟨.literal (.number ⟨negative, .zero⟩), false⟩,
      ⟨.inline [⟨"back", true, [⟨.reference "a b", true⟩]⟩], false⟩]⟩]⟩]

theorem agrees_of_moduleText_eq_signed :
    (signed false).moduleText false Module.defaultHeader =
        (signed true).moduleText false Module.defaultHeader ∧
      List.Forall₂ (fun declaration other => declaration.agrees other)
        (signed false).declarations (signed true).declarations := by
  have hnames : (signed false).names = (signed true).names := by decide +kernel
  have hdeclared : (signed false).undeclared = [] ∧ (signed true).undeclared =
      [] := by
    decide +kernel
  have hfinite : (signed false).isFinite ∧ (signed true).isFinite := by
    decide +kernel
  have htext : (signed false).moduleText false Module.defaultHeader =
      (signed true).moduleText false Module.defaultHeader := by decide +kernel
  exact ⟨htext,
    agrees_of_moduleText_eq Module.defaultHeader hnames hdeclared hfinite htext⟩

end Schema

end ShapeMend
