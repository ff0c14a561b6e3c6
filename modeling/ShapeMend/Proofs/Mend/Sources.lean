import ShapeMend.Json.Writer
import ShapeMend.Proofs.Mend.Idempotence
import ShapeMend.Proofs.Script.Declared

/-!
# Mending by the declarations of a source

The declarations of a source are merged by name, so their fields may repeat a
key.  Their literal unions are plain, and that is enough to tell when mending
settles everything at once.
-/

namespace ShapeMend

/-- The schema of the declarations of a source. -/
def declaredSchema (source : Text.Source) (exportAll : Bool) :
    Except SourceError Schema :=
  (schemaOfSource source exportAll).map fun parsed =>
    .ofDeclarations parsed.value.declarations

private theorem declaredSchema_eq_ok {source : Text.Source} {exportAll : Bool}
    {schema : Schema} (h : declaredSchema source exportAll = .ok schema) :
    ∃ parsed, schemaOfSource source exportAll = .ok parsed ∧ parsed.value =
      schema := by
  unfold declaredSchema at h
  cases hparsed : schemaOfSource source exportAll with
  | error error => simp [hparsed, Except.map] at h
  | ok parsed =>
      refine ⟨parsed, rfl, ?_⟩
      simpa [hparsed, Except.map, Schema.ofDeclarations_declarations] using h

namespace Schema

/-- For a declaration of a source, mending every value twice is mending it once
exactly when no default, however far inside, is changed by the fields of its own
key. -/
theorem mend_mend_iff_of_source {source : Text.Source} {exportAll : Bool}
    {schema : Schema} (hsource : declaredSchema source exportAll = .ok schema)
    {name : String} {declaration : Declaration}
    (hfind : schema.find? name = some declaration) :
    (∀ isArray value,
      (schema.mend declaration isArray
        (schema.mend declaration isArray value).value).value =
        (schema.mend declaration isArray value).value) ↔
      (declaration.kind.isObject = true →
        Context.KeepsDefaults schema (declaration.context schema)) := by
  obtain ⟨parsed, hparsed, rfl⟩ := declaredSchema_eq_ok hsource
  exact mend_mend_iff_keepsDefaults (literalUnionsPlain_of_source hparsed)
    (mem_of_find?_eq_some hfind).1

def mendedTexts (text name : String) : Option (String × String) := do
  let schema ← (declaredSchema ⟨"shapes", text⟩ false).toOption
  let declaration ← schema.find? name
  let once := (schema.mend declaration false (.object [])).value
  return (once.compact, (schema.mend declaration false once).value.compact)

theorem exists_of_mendedTexts {text name once twice : String}
    (h : mendedTexts text name = some (once, twice)) :
    ∃ schema declaration, declaredSchema ⟨"shapes", text⟩ false = .ok schema ∧
      schema.find? name = some declaration ∧
      (schema.mend declaration false (.object [])).value.compact = once ∧
      (schema.mend declaration false
        (schema.mend declaration false (.object [])).value).value.compact =
          twice := by
  unfold mendedTexts at h
  cases hsource : declaredSchema ⟨"shapes", text⟩ false with
  | error error => simp [hsource, Except.toOption] at h
  | ok schema =>
      cases hfind : schema.find? name with
      | none => simp [hsource, Except.toOption, hfind] at h
      | some declaration =>
          simp only [hsource, Except.toOption, hfind, Option.bind_eq_bind,
            Option.bind_some, Option.pure_def, Option.some.injEq, Prod.mk.injEq]
            at h
          exact ⟨schema, declaration, rfl, hfind, h.1, h.2⟩

theorem mend_mend_iff_of_list :
    ∃ schema declaration,
      declaredSchema
        ⟨"shapes", "interface List \x7b head: string; tail: null | List \x7d"⟩
        false = .ok schema ∧
      schema.find? "List" = some declaration ∧
      ((∀ isArray value,
        (schema.mend declaration isArray
          (schema.mend declaration isArray value).value).value =
          (schema.mend declaration isArray value).value) ↔
        (declaration.kind.isObject = true →
          Context.KeepsDefaults schema (declaration.context schema))) := by
  have htexts :
      mendedTexts "interface List \x7b head: string; tail: null | List \x7d"
      "List" =
      some ("\x7b\"head\":\"\",\"tail\":\x7b\x7d\x7d",
        "\x7b\"head\":\"\",\"tail\":\x7b\x7d\x7d") := by
    decide +kernel
  obtain ⟨schema, declaration, hsource, hfind, _⟩ :=
    exists_of_mendedTexts htexts
  exact ⟨schema, declaration, hsource, hfind,
    mend_mend_iff_of_source hsource hfind⟩

theorem exists_mend_mend_ne :
    ∃ schema declaration,
      declaredSchema
        ⟨"shapes",
          "interface S \x7b f: \x7b a: string \x7d | \x7b b: string \x7d \x7d"⟩
        false = .ok schema ∧
      schema.find? "S" = some declaration ∧
      (schema.mend declaration false
        (schema.mend declaration false (.object [])).value).value ≠
          (schema.mend declaration false (.object [])).value := by
  have htexts :
      mendedTexts
      "interface S \x7b f: \x7b a: string \x7d | \x7b b: string \x7d \x7d" "S" =
      some ("\x7b\"f\":\x7b\"b\":\"\"\x7d\x7d",
        "\x7b\"f\":\x7b\"b\":\"\",\"a\":\"\"\x7d\x7d") := by
    decide +kernel
  obtain ⟨schema, declaration, hsource, hfind, honce, htwice⟩ :=
    exists_of_mendedTexts htexts
  refine ⟨schema, declaration, hsource, hfind, ?_⟩
  intro hsame
  rw [hsame, honce] at htwice
  exact absurd htwice (by decide)

end Schema

end ShapeMend
