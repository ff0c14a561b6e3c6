import ShapeMend.Proofs.Script.Nodes
import ShapeMend.Proofs.Script.Reading

/-!
# Reading written types

The tokens of shapes are read as nodes that stand for those shapes again.  The
readers of nested types come in with what they can read; tying them to
themselves is an induction on their depth.
-/

namespace ShapeMend

open ShapeMend.Text ShapeMend.Number ShapeMend.Script

/-! ## Words as types -/

namespace Script.Reads

open Reader

variable {inner : Nested → Reader TypeNode} {after : List Token} {word : String}

def enders : List String := ["|", ";"]

def followers : List String := "[" :: enders

theorem front_ne {texts : List String} {text : String}
    (hafter : frontText after ∈ texts) (h : text ∉ texts) :
    frontText after ≠ text := by
  rintro rfl
  exact h hafter

theorem operandFollows {tokens : List Token} :
    Reads operandFollows tokens tokens (fun _ => True) :=
  ahead.bind fun _ _ => pure trivial

private theorem worded_boolean (value : Bool) :
    Reads (worded inner)
      (.ofWord (if value then "true" else "false") :: after) after
      (fun node => ∃ span, node = .literal span (.boolean value)) := by
  refine here.bind fun first _ => (textAt_word _).step (textAt_one.step ?_)
  cases value with
  | false => exact advance.bind fun _ _ => pure ⟨first, rfl⟩
  | true => exact advance.bind fun _ _ => pure ⟨first, rfl⟩

private theorem worded_keyword (hword : word ∈ keywordTypes)
    (hafter : frontText after ∈ followers) :
    Reads (worded inner) (.ofWord word :: after) after
      (fun node => ∃ span, node = .keyword span word) := by
  have hne : ∀ text, text ∉ keywordTypes → word ≠ text := by
    rintro text htext rfl
    exact htext hword
  have hdot : frontText after ≠ "." := front_ne hafter (by decide)
  refine here.bind fun first _ => (textAt_word word).step (textAt_one.step ?_)
  rw [if_neg (by simp [hne "true" (by decide), hne "false" (by decide)])]
  refine operandFollows.bind fun _ _ => ?_
  rw [if_neg (by simp [hne "typeof" (by decide)]),
    if_neg (by simp [hne "import" (by decide)]), if_pos (by simp [hword, hdot])]
  exact advance.bind fun _ _ => pure ⟨first, rfl⟩

private theorem dottedName (hafter : frontText after ∈ followers) :
    Reads dottedName (.ofWord word :: after) after (· = (word, false)) := by
  refine (name rfl).bind fun first hfirst => remaining.step ?_
  have htail : Reads (dottedTail after.length) after after (· = []) := by
    cases after with
    | nil => exact pure rfl
    | cons token after =>
        exact (at_ne (front_ne hafter (by decide))).step (pure rfl)
  refine htail.step (pure ?_)
  simp [hfirst, Token.ofWord, Token.lone]

private theorem worded_reference (hname : word ∉ reservedWords)
    (hafter : frontText after ∈ followers) :
    Reads (worded inner) (.ofWord word :: after) after
      (fun node => ∃ span, node = .reference span word false []) := by
  have hne : ∀ text ∈ reservedWords, word ≠ text := by
    rintro text htext rfl
    exact hname htext
  have hkeyword : word ∉ keywordTypes :=
    fun h => hname (List.mem_append_left _ h)
  refine here.bind fun first _ => (textAt_word word).step (textAt_one.step ?_)
  rw [if_neg (by simp [hne "true" (by decide), hne "false" (by decide)])]
  refine operandFollows.bind fun _ _ => ?_
  rw [if_neg (by simp [hne "typeof" (by decide)]),
    if_neg (by simp [hne "import" (by decide)]), if_neg (by simp [hkeyword])]
  refine (dottedName hafter).step ?_
  refine ahead.bind fun actual hactual => ?_
  have hangle : frontText actual ≠ "<" := by
    rw [← frontText_unplaced, hactual]
    exact front_ne hafter (by decide)
  cases actual with
  | nil => exact (spanFrom first).bind fun span _ => pure ⟨span, rfl⟩
  | cons token later =>
      have hopens : token.syntacticText ≠ "<" := hangle
      simp only [hopens, decide_false, Bool.false_and,
        if_neg Bool.false_ne_true]
      exact (spanFrom first).bind fun span _ => pure ⟨span, rfl⟩

/-! ## Single shapes -/

private theorem numeral {tokens : List Token} (span : Span) (negative : Bool)
    {n : Nat} (h : n ≤ twoTo 53) :
    Reads (Reader.numeral span negative (String.ofList (Nat.toDigits 10 n)))
      tokens tokens
      (· = .literal span (.number ⟨negative, .ofNat n⟩)) := by
  unfold Reader.numeral
  rw [LiteralValue.ofNumeral?_toDigits negative h]
  exact pure rfl

private theorem primary_number {negative : Bool} {n : Nat} (h : n ≤ twoTo 53) :
    Reads (primary inner)
      ((if negative then [.ofSymbol "-"] else []) ++ .ofNumeral n ::
        after) after
      (fun node => ∃ span,
        node = .literal span (.number ⟨negative, .ofNat n⟩)) := by
  cases negative with
  | false =>
      refine ahead_cons fun span later hlater => ?_
      refine advance.bind fun _ _ => ?_
      exact (numeral span false h).imp fun node hnode => ⟨span, hnode⟩
  | true =>
      refine ahead_cons fun span later hlater => ?_
      obtain ⟨place, rest, rfl, hrest⟩ := eq_of_map_unplaced hlater
      refine advance.bind fun _ _ => ?_
      refine advance.bind fun _ _ => ?_
      exact (numeral _ true h).imp fun node hnode => ⟨_, hnode⟩

private theorem primary_literal {literal : Literal}
    (hwritable : literal.Writable) :
    Reads (primary inner) (literal.tokens ++ after) after
      (Shape.literal literal).ReadAs := by
  cases literal with
  | string value =>
      refine ahead_cons fun span later hlater => ?_
      exact advance.bind fun _ _ => pure (.literal span rfl)
  | boolean value =>
      refine ahead_cons fun span later hlater => ?_
      refine (worded_boolean value).imp ?_
      rintro _ ⟨place, rfl⟩
      exact .literal place rfl
  | number value =>
      obtain ⟨n, hle, hmagnitude⟩ := hwritable
      obtain ⟨negative, magnitude⟩ := value
      subst hmagnitude
      simp only [Literal.tokens, Magnitude.toNat?_ofNat hle, Option.getD_some,
        List.append_assoc]
      refine (primary_number hle).imp ?_
      rintro _ ⟨place, rfl⟩
      have hfinite : (Binary64.mk negative (.ofNat n)).isFinite := by
        rw [Binary64.isFinite, (Magnitude.units_ofNat hle).2]
        rfl
      exact .literal place (by rw [LiteralValue.toLiteral?, if_pos hfinite])
  | notANumber => exact hwritable.elim

/-! ## Alternatives -/

private theorem mem_followers (hafter : frontText after ∈ enders)
    (isArray : Bool) :
    frontText (bracketTokens isArray ++ after) ∈ followers := by
  cases isArray with
  | false => exact List.mem_cons_of_mem _ hafter
  | true => exact List.mem_cons_self

private theorem brackets_ne {tokens : List Token} {first : Span} {bound : Nat}
    {node : TypeNode} (h : frontText tokens ≠ "[") :
    Reads (brackets inner first bound node) tokens tokens (· = node) := by
  cases bound with
  | zero => exact pure rfl
  | succ bound =>
      refine ahead.bind fun actual hactual => ?_
      have hfront : frontText actual ≠ "[" := by
        rwa [← frontText_unplaced, hactual]
      cases actual with
      | nil => exact pure rfl
      | cons token later =>
          have hopens : token.syntacticText ≠ "[" := hfront
          simp only [hopens, decide_false, Bool.false_and,
            if_neg Bool.false_ne_true]
          exact pure rfl

private theorem brackets {first : Span} {bound : Nat} {shape : Shape}
    {node : TypeNode} (isArray : Bool) (hnode : shape.ReadAs node)
    (hbound : (bracketTokens isArray).length ≤ bound)
    (hafter : frontText after ∈ enders) :
    Reads (Reader.brackets inner first bound node)
      (bracketTokens isArray ++ after) after
      (AlternativeReadAs ⟨shape, isArray⟩) := by
  have hbracket : frontText after ≠ "[" := front_ne hafter (by decide)
  cases isArray with
  | false =>
      refine (brackets_ne hbracket).imp ?_
      rintro _ rfl
      exact .one hnode
  | true =>
      have hpositive : 2 ≤ bound := hbound
      obtain ⟨bound, rfl⟩ : ∃ n, bound = n + 1 := ⟨bound - 1, by omega⟩
      refine ahead_cons fun span later hlater => ?_
      refine advance.bind fun _ _ => ?_
      refine at_symbol.step ?_
      refine advance.bind fun _ _ => ?_
      refine (spanFrom first).bind fun place _ => (brackets_ne hbracket).imp ?_
      rintro _ rfl
      exact .array place hnode

private theorem postfixed {shape : Shape} {isArray : Bool}
    (hprimary : Reads (primary inner)
      (shape.tokens ++ (bracketTokens isArray ++ after))
      (bracketTokens isArray ++ after) shape.ReadAs)
    (hafter : frontText after ∈ enders) :
    Reads (postfixed inner)
      (shape.tokens ++ (bracketTokens isArray ++ after)) after
      (AlternativeReadAs ⟨shape, isArray⟩) := by
  refine here.bind fun first _ => ?_
  refine hprimary.bind fun node hnode => remaining.step ?_
  refine brackets isArray hnode ?_ hafter
  rw [List.length_append]
  omega

def openers : List String :=
  ["(", "<", "&", "|", "new", "abstract", "keyof", "readonly", "unique",
    "infer"]

theorem front_not_mem_openers {shape : Shape} (hwritable : shape.Writable)
    (tokens : List Token) : frontText (shape.tokens ++ tokens) ∉ openers := by
  cases shape with
  | primitive primitive =>
      have hword : primitive.keyword ∉ openers := by
        cases primitive <;> decide +kernel
      exact hword
  | literal literal =>
      cases literal with
      | string value => exact (by decide : "" ∉ openers)
      | boolean value =>
          cases value with
          | false => exact (by decide : "false" ∉ openers)
          | true => exact (by decide : "true" ∉ openers)
      | number value =>
          simp only [Shape.tokens, Literal.tokens]
          cases value.negative with
          | false => exact (by decide : "" ∉ openers)
          | true => exact (by decide : "-" ∉ openers)
      | notANumber => exact hwritable.elim
  | reference name =>
      rw [Shape.Writable] at hwritable
      have htable : ∀ text ∈ openers,
          isName text = true → text ∈ reservedWords := by
        decide +kernel
      exact fun hmem => hwritable.2 (htable name hmem hwritable.1)
  | inline fields => exact (by decide : "\x7b" ∉ openers)

private theorem typeOperator?_eq_none {text : String} (h : text ∉ openers) :
    typeOperator? text = none := by
  simp only [openers, List.mem_cons, not_or] at h
  simp [typeOperator?, h]

variable {tokens : List Token}

theorem openers_ne (hfront : frontText tokens ∉ openers) {text : String}
    (h : text ∈ openers) : frontText tokens ≠ text := by
  rintro rfl
  exact hfront h

private theorem operand (bound : Nat) {post : TypeNode → Prop}
    (hfront : frontText tokens ∉ openers)
    (hpostfixed : Reads (Reader.postfixed inner) tokens after post) :
    Reads (operand inner bound) tokens after post := by
  cases bound with
  | zero => exact hpostfixed
  | succ bound =>
      refine here.bind fun first _ => ?_
      refine (textAt 0).step ?_
      refine operandFollows.bind fun follows _ => ?_
      rw [List.drop_zero, typeOperator?_eq_none hfront]
      refine (at_ne (openers_ne hfront (by decide))).step ?_
      refine ahead.bind fun actual _ => ?_
      exact hpostfixed

private theorem intersection {post : TypeNode → Prop}
    (hfront : frontText tokens ∉ openers)
    (hpostfixed : Reads (Reader.postfixed inner) tokens after post)
    (hafter : frontText after ∈ enders) :
    Reads (intersection inner) tokens after post := by
  have hamp : frontText after ≠ "&" := front_ne hafter (by decide)
  refine here.bind fun first _ => ?_
  refine (skip_ne (openers_ne hfront (by decide))).bind fun _ _ => ?_
  refine remaining.step ?_
  have hitem := remaining.step (operand tokens.length hfront hpostfixed)
  refine (separated_one hitem hamp).bind ?_
  rintro _ ⟨node, rfl, hnode⟩
  exact pure hnode

def ReadsAlternatives (reader : Reader TypeNode) (bound : Nat) : Prop :=
  ∀ (alternatives : List Alternative) (later : List Token), alternatives ≠ [] →
    AlternativesWritable alternatives →
      (alternativeTokens alternatives).length < bound →
      Reads reader (alternativeTokens alternatives ++ .ofSymbol ";" :: later)
        (.ofSymbol ";" :: later) (AlternativesReadAs alternatives)

/-! ## Members -/

private theorem plainKey (key : String) :
    Reads plainKey (keyToken key :: after) after (· = key) := by
  unfold keyToken
  split
  · refine ahead_cons fun span later hlater => ?_
    exact advance.bind fun _ _ => pure rfl
  · refine ahead_cons fun span later hlater => ?_
    exact advance.bind fun _ _ => pure rfl

theorem front_keyToken_ne {key text : String} (hempty : text ≠ "")
    (htext : isName text = false) :
    frontText (keyToken key :: after) ≠ text := by
  unfold keyToken
  split
  · next hname =>
      rintro rfl
      exact Bool.false_ne_true (htext.symm.trans hname)
  · exact hempty.symm

private theorem mark {β : Type} {next : Bool → Reader β} {optional : Bool}
    {post : β → Prop}
    (hnext : Reads (next optional) (.ofSymbol ":" :: tokens) after post) :
    Reads (Reader.at? "?" >>= fun value => skip "?" >>= fun _ => next value)
      (markTokens optional tokens) after post := by
  cases optional with
  | false =>
      refine (at_symbol_ne (by decide)).step ?_
      exact (skip_symbol_ne (by decide)).bind fun _ _ => hnext
  | true => exact at_symbol.step (skip_symbol.bind fun _ _ => hnext)

private theorem namedMember {first : Span} {key : String} {optional : Bool}
    {alternatives : List Alternative} (hne : alternatives ≠ [])
    (htype :
      Reads (inner .type) tokens after (AlternativesReadAs alternatives)) :
    Reads (namedMember inner first)
      (keyToken key :: markTokens optional tokens) after
      (FieldReadAs ⟨key, optional, alternatives⟩) := by
  refine (plainKey key).step (mark ?_)
  refine (at_symbol_ne (by decide)).step ((at_symbol_ne (by decide)).step ?_)
  refine at_symbol.step ?_
  refine advance.bind fun _ _ => ?_
  refine htype.bind fun node hnode => ?_
  exact (spanFrom first).bind fun place _ => pure (.property place hne hnode)

private theorem startsKey_markTokens (optional : Bool) :
    startsKey (markTokens optional tokens) = false := by
  cases optional <;> rfl

theorem front_markTokens_ne {text : String} (optional : Bool)
    (htext : "?" ≠ text ∧ ":" ≠ text) :
    frontText (markTokens optional tokens) ≠ text := by
  cases optional with
  | false => exact htext.2
  | true => exact htext.1

/-- Words that could modify a member or name its form are keys where a mark
follows. -/
private theorem member {key : String} {optional : Bool}
    {alternatives : List Alternative} (hne : alternatives ≠ [])
    (htype :
      Reads (inner .type) tokens after (AlternativesReadAs alternatives)) :
    Reads (member inner) (keyToken key :: markTokens optional tokens) after
      (FieldReadAs ⟨key, optional, alternatives⟩) := by
  refine here.bind fun first _ => ?_
  refine (skipWhile_ne ?_).bind fun _ _ => ?_
  · intro actual hactual
    obtain ⟨span, later, rfl, hlater⟩ := eq_of_map_unplaced hactual
    have hkey : startsKey later = false := by
      rw [← startsKey_unplaced, hlater, startsKey_markTokens]
    rw [List.drop_one, List.tail_cons, hkey, Bool.and_false]
  · refine ahead_cons fun span later hlater => ?_
    have hkey : startsKey later = false := by
      rw [← startsKey_unplaced, hlater, startsKey_markTokens]
    have hopen : frontText later ≠ "(" ∧ frontText later ≠ "<" := by
      rw [← frontText_unplaced, hlater]
      exact ⟨front_markTokens_ne optional (by decide),
        front_markTokens_ne optional (by decide)⟩
    refine (at_ne (front_keyToken_ne (by decide) (by decide))).step ?_
    refine (at_ne (front_keyToken_ne (by decide) (by decide))).step ?_
    refine (at? "new").step ?_
    rw [if_neg (by simp [hopen])]
    refine (at? "get").step ((at? "set").step ?_)
    rw [if_neg (by simp [hkey])]
    refine (at_ne (front_keyToken_ne (by decide) (by decide))).step ?_
    exact namedMember hne htype

private theorem memberTail {opener : Span} {bound count : Nat}
    {later : List Token} {fields : List Field}
    (hinner : ReadsAlternatives (inner .type) bound)
    (hwritable : FieldsWritable fields)
    (hbound : (fieldTokens fields).length < bound)
    (hcount : fields.length < count) :
    Reads (memberTail inner opener count)
      (fieldTokens fields ++ .ofSymbol "\x7d" :: later) later
      (List.Forall₂ FieldReadAs fields) := by
  induction fields generalizing count with
  | nil =>
      obtain ⟨count, rfl⟩ : ∃ n, count = n + 1 := ⟨count - 1, by omega⟩
      refine (skipWhile_ne ?_).bind fun _ _ =>
        at_symbol.step (advance.bind fun _ _ => pure .nil)
      intro actual hactual
      rw [← frontText_unplaced, hactual]
      rfl
  | cons field fields ih =>
      obtain ⟨key, optional, alternatives⟩ := field
      obtain ⟨count, rfl⟩ : ∃ n, count = n + 1 := ⟨count - 1, by omega⟩
      rw [FieldsWritable] at hwritable
      obtain ⟨hne, halternatives, hfields⟩ := hwritable
      have hlength := length_lt_markTokens optional
        (alternativeTokens alternatives ++ .ofSymbol ";" :: fieldTokens fields)
      rw [fieldTokens, List.length_cons] at hbound
      rw [List.length_append, List.length_cons] at hlength
      have htokens : fieldTokens (⟨key, optional, alternatives⟩ :: fields) ++
          .ofSymbol "\x7d" :: later = keyToken key :: markTokens optional
            (alternativeTokens alternatives ++ .ofSymbol ";" ::
              (fieldTokens fields ++ .ofSymbol "\x7d" :: later)) := by
        simp [fieldTokens, markTokens_append]
      rw [htokens]
      refine (skipWhile_ne ?_).bind fun _ _ => ?_
      · intro actual hactual
        rw [← frontText_unplaced, hactual,
          decide_eq_false (front_keyToken_ne (by decide) (by decide)),
          decide_eq_false (front_keyToken_ne (by decide) (by decide))]
        rfl
      · refine (at_ne (front_keyToken_ne (by decide) (by decide))).step ?_
        refine ahead_cons fun span rest hrest => ?_
        have htype :=
          hinner alternatives
            (fieldTokens fields ++ .ofSymbol "\x7d" :: later) hne
          halternatives (by omega)
        refine (member hne htype).bind fun value hvalue => ?_
        refine at_symbol.step ((at? ",").step (advance.bind fun _ _ => ?_))
        refine (ih hfields (by omega) (Nat.lt_of_succ_lt_succ hcount)).bind
          fun more hmore => ?_
        exact pure (.cons hvalue hmore)

theorem members {bound : Nat} {later : List Token} {fields : List Field}
    (hinner : ReadsAlternatives (inner .type) bound)
    (hwritable : FieldsWritable fields)
    (hbound : (fieldTokens fields).length < bound) :
    Reads (members inner)
      (.ofSymbol "\x7b" :: (fieldTokens fields ++ .ofSymbol "\x7d" :: later))
      later (List.Forall₂ FieldReadAs fields) := by
  refine expect.bind fun opener _ => remaining.step ?_
  refine memberTail hinner hwritable hbound ?_
  have hlength := length_le_fieldTokens fields
  rw [List.length_append]
  omega

/-! ## Types -/

private theorem startsMapped_fields (fields : List Field) (later : List Token) :
    startsMapped
      (.ofSymbol "\x7b" :: (fieldTokens fields ++ .ofSymbol "\x7d" :: later)) =
      false := by
  cases fields with
  | nil => rfl
  | cons field fields =>
      obtain ⟨key, optional, alternatives⟩ := field
      rw [fieldTokens, List.cons_append, markTokens_append]
      generalize hrest : markTokens optional _ = rest
      have hbracket : frontText rest ≠ "[" := by
        rw [← hrest]
        exact front_markTokens_ne optional (by decide)
      have hplus : frontText (keyToken key :: rest) ≠ "+" :=
        front_keyToken_ne (by decide) (by decide)
      have hminus : frontText (keyToken key :: rest) ≠ "-" :=
        front_keyToken_ne (by decide) (by decide)
      have hopen : frontText (keyToken key :: rest) ≠ "[" :=
        front_keyToken_ne (by decide) (by decide)
      by_cases hmodifier : frontText (keyToken key :: rest) = "readonly"
      · simp [startsMapped, hmodifier, hbracket]
      · simp [startsMapped, hplus, hminus, hmodifier, hopen]

private theorem symbolic_brace {first : Span} {ahead : List Token} {bound : Nat}
    {fields : List Field} (hinner : ReadsAlternatives (inner .type) bound)
    (hwritable : FieldsWritable fields)
    (hbound : (fieldTokens fields).length < bound) :
    Reads (symbolic inner first "\x7b" ahead)
      (.ofSymbol "\x7b" ::
        (fieldTokens fields ++ .ofSymbol "\x7d" :: after)) after
      (Shape.inline fields).ReadAs := by
  have hnegated : negated? "\x7b" ahead = none := by
    cases ahead <;> rfl
  unfold symbolic
  rw [hnegated]
  refine Reads.ahead.bind fun actual hactual => ?_
  have hmapped : startsMapped actual = false := by
    rw [← startsMapped_unplaced, hactual, startsMapped_fields]
  rw [hmapped, if_neg Bool.false_ne_true]
  refine (members hinner hwritable hbound).bind fun list hlist => ?_
  refine (spanFrom first).bind fun place _ => ?_
  refine pure ?_
  refine .inline place fun scope hscope => ?_
  exact memberFields_of_readAs hlist hscope

private theorem primary {bound : Nat} {shape : Shape}
    (hinner : ReadsAlternatives (inner .type) bound)
    (hwritable : shape.Writable) (hbound : shape.tokens.length ≤ bound)
    (hafter : frontText after ∈ followers) :
    Reads (primary inner) (shape.tokens ++ after) after shape.ReadAs := by
  cases shape with
  | primitive primitive =>
      have hword : primitive.keyword ∈ keywordTypes := by
        cases primitive <;> decide +kernel
      refine ahead_cons fun span later hlater =>
        (worded_keyword hword hafter).imp ?_
      rintro _ ⟨place, rfl⟩
      exact .primitive place primitive
  | literal literal =>
      rw [Shape.Writable] at hwritable
      exact primary_literal hwritable
  | reference name =>
      rw [Shape.Writable] at hwritable
      refine ahead_cons fun span later hlater =>
        (worded_reference hwritable.2 hafter).imp ?_
      rintro _ ⟨place, rfl⟩
      exact .reference place name
  | inline fields =>
      rw [Shape.Writable] at hwritable
      have hlength : (fieldTokens fields).length < bound := by
        rw [Shape.tokens, List.length_cons, List.length_append,
          List.length_singleton] at hbound
        omega
      have htokens : (Shape.inline fields).tokens ++ after =
          .ofSymbol "\x7b" ::
            (fieldTokens fields ++ .ofSymbol "\x7d" :: after) := by
        simp [Shape.tokens]
      rw [htokens]
      exact ahead_cons fun span later hlater =>
        symbolic_brace hinner hwritable hlength

private theorem alternative {bound : Nat} {shape : Shape} (isArray : Bool)
    (hinner : ReadsAlternatives (inner .type) bound)
    (hwritable : shape.Writable) (hbound : shape.tokens.length ≤ bound)
    (hafter : frontText after ∈ enders) :
    Reads (Reader.intersection inner)
      (shape.tokens ++ (bracketTokens isArray ++ after)) after
      (AlternativeReadAs ⟨shape, isArray⟩) := by
  have hprimary :=
    primary hinner hwritable hbound (mem_followers hafter isArray)
  exact intersection (front_not_mem_openers hwritable _)
    (postfixed hprimary hafter) hafter

private theorem branches {bound count : Nat} {first : Alternative}
    {rest : List Alternative} {later : List Token}
    (hinner : ReadsAlternatives (inner .type) bound)
    (hwritable : AlternativesWritable (first :: rest))
    (hbound : (alternativeTokens (first :: rest)).length ≤ bound)
    (hcount : rest.length ≤ count) :
    Reads (separated "|" (Reader.intersection inner) count)
      (alternativeTokens (first :: rest) ++ .ofSymbol ";" :: later)
        (.ofSymbol ";" :: later)
      (List.Forall₂ AlternativeReadAs (first :: rest)) := by
  induction rest generalizing first count with
  | nil =>
      obtain ⟨shape, isArray⟩ := first
      rw [AlternativesWritable] at hwritable
      rw [alternativeTokens, List.length_append] at hbound
      rw [alternativeTokens, List.append_assoc]
      have hafter : frontText (.ofSymbol ";" :: later) ∈ enders :=
        (by decide : ";" ∈ enders)
      have hitem := alternative isArray hinner hwritable.1 (by omega) hafter
      refine (separated_one hitem (by decide : ";" ≠ "|")).imp ?_
      rintro _ ⟨node, rfl, hnode⟩
      exact .cons hnode .nil
  | cons next rest ih =>
      obtain ⟨shape, isArray⟩ := first
      rw [List.length_cons] at hcount
      obtain ⟨count, rfl⟩ : ∃ n, count = n + 1 := ⟨count - 1, by omega⟩
      rw [AlternativesWritable] at hwritable
      rw [alternativeTokens, List.length_append, List.length_append,
        List.length_cons] at hbound
      have hmore := ih hwritable.2 (by omega) (Nat.le_of_succ_le_succ hcount)
      rw [alternativeTokens, List.append_assoc, List.append_assoc,
        List.cons_append]
      have hafter : frontText (.ofSymbol "|" ::
          (alternativeTokens (next :: rest) ++ .ofSymbol ";" :: later)) ∈
            enders :=
        (by decide : "|" ∈ enders)
      have hitem := alternative isArray hinner hwritable.1 (by omega) hafter
      refine (separated_cons hitem rfl hmore).imp ?_
      rintro _ ⟨node, nodes, rfl, hnode, hnodes⟩
      exact .cons hnode hnodes

theorem front_alternatives {alternatives : List Alternative}
    (hne : alternatives ≠ []) (hwritable : AlternativesWritable alternatives)
    (later : List Token) :
    frontText (alternativeTokens alternatives ++ later) ∉ openers := by
  match alternatives, hne with
  | [⟨shape, isArray⟩], _ =>
      rw [AlternativesWritable] at hwritable
      rw [alternativeTokens, List.append_assoc]
      exact front_not_mem_openers hwritable.1 _
  | ⟨shape, isArray⟩ :: next :: rest, _ =>
      rw [AlternativesWritable] at hwritable
      rw [alternativeTokens, List.append_assoc]
      exact front_not_mem_openers hwritable.1 _

private theorem union {bound : Nat} {alternatives : List Alternative}
    {later : List Token} (hinner : ReadsAlternatives (inner .type) bound)
    (hne : alternatives ≠ []) (hwritable : AlternativesWritable alternatives)
    (hbound : (alternativeTokens alternatives).length ≤ bound) :
    Reads (union inner)
      (alternativeTokens alternatives ++ .ofSymbol ";" :: later)
      (.ofSymbol ";" :: later) (AlternativesReadAs alternatives) := by
  have hfront := front_alternatives hne hwritable (.ofSymbol ";" :: later)
  obtain ⟨first, rest, rfl⟩ := List.exists_cons_of_ne_nil hne
  refine here.bind fun place _ => ?_
  refine (skip_ne (openers_ne hfront (by decide))).bind fun _ _ => ?_
  refine remaining.step ?_
  have hcount : rest.length ≤
      (alternativeTokens (first :: rest) ++ .ofSymbol ";" :: later).length := by
    rw [List.length_append]
    exact Nat.le_add_right_of_le (length_le_alternativeTokens first rest)
  refine (branches hinner hwritable hbound hcount).bind fun nodes hnodes => ?_
  cases hnodes with
  | cons hfirst hrest =>
    cases hrest with
    | nil => exact pure (.single hfirst)
    | cons hnext hrest =>
      exact (spanFrom place).bind fun span _ =>
        pure (.union span (.cons hfirst (.cons hnext hrest)))

private theorem anyType {bound : Nat} {alternatives : List Alternative}
    {later : List Token} (hinner : ReadsAlternatives (inner .type) bound)
    (hne : alternatives ≠ []) (hwritable : AlternativesWritable alternatives)
    (hbound : (alternativeTokens alternatives).length ≤ bound) :
    Reads (anyType inner)
      (alternativeTokens alternatives ++ .ofSymbol ";" :: later)
      (.ofSymbol ";" :: later) (AlternativesReadAs alternatives) := by
  have hfront := front_alternatives hne hwritable (.ofSymbol ";" :: later)
  have hopens :
      Reads opensFunction
      (alternativeTokens alternatives ++ .ofSymbol ";" :: later)
      (alternativeTokens alternatives ++ .ofSymbol ";" :: later) (· = false) :=
    (at_ne (openers_ne hfront (by decide))).step
      ((at_ne (openers_ne hfront (by decide))).step (pure rfl))
  refine here.bind fun first _ => hopens.step ?_
  refine (at_ne (openers_ne hfront (by decide))).step ?_
  refine (at_ne (openers_ne hfront (by decide))).step ((textAt 1).step ?_)
  refine (union hinner hne hwritable hbound).bind fun node hnode => ?_
  exact (at_symbol_ne (by decide)).step (pure hnode)

theorem nested (depth : Nat) :
    ReadsAlternatives (nested depth .type) depth := by
  induction depth with
  | zero =>
      intro alternatives later _ _ hlength
      exact absurd hlength (Nat.not_lt_zero _)
  | succ depth ih =>
      intro alternatives later hne hwritable hlength
      exact anyType ih hne hwritable (Nat.le_of_lt_succ hlength)

theorem type {alternatives : List Alternative} {later : List Token}
    (hne : alternatives ≠ []) (hwritable : AlternativesWritable alternatives) :
    Reads type (alternativeTokens alternatives ++ .ofSymbol ";" :: later)
      (.ofSymbol ";" :: later) (AlternativesReadAs alternatives) := by
  refine remaining.step (nested _ alternatives later hne hwritable ?_)
  rw [List.length_append]
  omega

end Script.Reads

end ShapeMend
