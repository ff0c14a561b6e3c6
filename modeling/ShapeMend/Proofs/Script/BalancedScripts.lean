import ShapeMend.Proofs.Script.Groups

/-!
# The brackets of scripts

In a script that is read, every bracket is closed, and by one that fits.  The
only closing brackets that close nothing are those that stand in skipped angle
brackets.
-/

namespace ShapeMend.Script

open ShapeMend.Text Reader

/-! ## Declarations -/

namespace Takes

variable {tokens : List Token}

private theorem typeAfter (word : String) (hword : isPlainText word) :
    Takes (typeAfter word) tokens := by
  refine Leaves.atFront word (fun hfront => ?_) fun _ => pure _
  refine step (.of_text hfront hword) ?_
  exact type.bind fun _ _ => pure _

private theorem typeParameterTail (bound : Nat) :
    Takes (typeParameterTail bound) tokens := by
  induction bound generalizing tokens with
  | zero => exact pure _
  | succ bound ih =>
      refine Leaves.atFront ">"
        (fun hfront => step (.of_text hfront (by decide)) (pure _)) fun _ => ?_
      refine (skipWhile fun tokens htokens => ?_).bind fun _ rest => ?_
      · rw [Bool.and_eq_true] at htokens
        exact .of_mem htokens.1 (by decide)
      refine (name _).bind fun parameter _ => ?_
      refine (typeAfter "extends" (by decide)).bind fun constraint _ => ?_
      refine (typeAfter "=" (by decide)).bind fun fallback _ => ?_
      refine Leaves.atFront "," (fun hfront => ?_) fun _ =>
        Leaves.atFront ">" (fun _ => ?_) fun _ => ?_
      · refine step (.of_text hfront (by decide)) ?_
        exact ih.bind fun _ _ => pure _
      · exact ih.bind fun _ _ => pure _
      · exact Leaves.failed

theorem typeParameters : Takes typeParameters tokens := by
  refine Leaves.atFront "<" (fun hfront => ?_) fun _ => pure _
  refine step (.of_text hfront (by decide)) ?_
  exact look Leaves.remaining fun _ => typeParameterTail _

private theorem parents : Takes parents tokens := by
  refine Leaves.atFront "extends" (fun hfront => ?_) fun _ => pure _
  refine step (.of_text hfront (by decide)) ?_
  refine look Leaves.remaining fun depth => ?_
  exact separated "," (by decide)
    (fun _ => look Leaves.remaining fun _ => operand (nested depth) _) _

private theorem aliasEnd : Takes aliasEnd tokens := by
  refine Leaves.onAhead ?_
  cases tokens with
  | nil => exact pure _
  | cons token tokens =>
      simp only
      split
      · next hsemicolon => exact advance (.of_text hsemicolon (by decide))
      · split
        · exact pure _
        · exact Leaves.fail

end Takes

/-! ## Items -/

private theorem whole_itemModifiers (afterExport : Bool) (tokens : List Token) :
    Whole tokens (tokens.drop (itemModifiers afterExport tokens).2) := by
  induction tokens generalizing afterExport with
  | nil => exact .refl []
  | cons token tokens ih =>
      rw [itemModifiers]
      split
      · next hexport =>
          exact (ih true).plain
            (Token.isBracket_of_syntacticText hexport (by decide))
      split
      · next hmodifier =>
          simp only [Bool.or_eq_true, Bool.and_eq_true, decide_eq_true_eq]
            at hmodifier
          refine (ih false).plain ?_
          refine hmodifier.elim (fun h => ?_) fun h => ?_
          · exact Token.isBracket_of_syntacticText h.2 (by decide)
          · exact Token.isBracket_of_syntacticText h.1 (by decide)
      · exact .refl _

theorem statementLength_pos {tokens stack : List Token} {n : Nat}
    (hne : tokens ≠ []) (h : statementLength stack false tokens = .ok n) :
    0 < n := by
  cases tokens with
  | nil => contradiction
  | cons token tokens =>
      rw [statementLength] at h
      simp only [Bool.false_and, Bool.false_eq_true, if_false] at h
      obtain ⟨within, -, h⟩ := SyntaxError.bind_eq_ok.mp h
      split at h
      · obtain rfl := Except.ok.inj h
        exact Nat.one_pos
      · obtain ⟨m, -, rfl⟩ := Bracket.bind_succ_eq_ok.mp h
        exact Nat.succ_pos m

abbrev Consumes {α : Type} (reader : Reader α) (tokens : List Token) : Prop :=
  Leaves reader tokens fun _ rest =>
    Whole tokens rest ∧ rest.length < tokens.length

namespace Consumes

variable {α : Type} {tokens : List Token}

theorem step {word : String} {next : Unit → Reader α}
    (hfront : frontText tokens = word) (hword : isPlainText word ∧ word ≠ "")
    (hnext : Takes (next ()) (tokens.drop 1)) :
    Consumes (Reader.advance >>= next) tokens := by
  have hplain := PlainFront.whole_drop (.of_text hfront hword.1)
  have hshorter := length_drop_lt hfront hword.2
  refine Leaves.advance.bind ?_
  rintro _ _ rfl
  exact hnext.imp fun _ _ hrest =>
    ⟨hplain.trans hrest, by have := hrest.length_le; omega⟩

private theorem interface (first : Span) (exported : Bool)
    (hfront : frontText tokens = "interface") :
    Consumes (interface first exported) tokens := by
  refine step hfront (by decide) <| (Takes.name _).bind fun _ _ => ?_
  refine Takes.typeParameters.bind fun _ _ => ?_
  refine Takes.parents.bind fun _ _ => ?_
  refine Takes.look Leaves.remaining fun _ => ?_
  exact (Takes.members (Takes.nested _)).bind fun _ _ => Takes.spanned

private theorem aliasItem (first : Span) (exported : Bool)
    (hfront : frontText tokens = "type") :
    Consumes (aliasItem first exported) tokens := by
  refine step hfront (by decide) <| (Takes.name _).bind fun _ _ => ?_
  refine Takes.typeParameters.bind fun _ _ => ?_
  refine (Takes.expect _ _ (by decide)).discard.bind fun _ _ => ?_
  refine Takes.type.bind fun _ _ => ?_
  exact Takes.aliasEnd.bind fun _ _ => Takes.spanned

private theorem opaqueItem (first : Span) (hne : tokens ≠ []) :
    Consumes (opaqueItem first) tokens := by
  refine Leaves.onAhead ?_
  refine (Leaves.lift _).look fun n hn => ?_
  refine (Leaves.advanceBy n).bind ?_
  rintro _ _ rfl
  have hwhole := Reader.unwinds_of_statementLength (List.forall_mem_nil _) hn
  have hpos := statementLength_pos hne hn
  have hlength := List.length_pos_iff.mpr hne
  refine Leaves.look (Leaves.spanFrom first) fun _ _ => Leaves.pure ⟨hwhole, ?_⟩
  rw [List.length_drop]
  omega

private theorem behind {n : Nat} {reader : Reader α} {value : α → Item}
    (hrun : Whole tokens (tokens.drop n))
    (h : Consumes reader (tokens.drop n)) :
    Consumes (Reader.advanceBy n >>= fun _ => reader >>=
      fun item => Pure.pure (value item))
      tokens := by
  refine (Leaves.advanceBy n).bind ?_
  rintro _ _ rfl
  refine h.bind fun _ rest hrest => Leaves.pure ?_
  have hbehind := hrun.length_le
  exact ⟨hrun.trans hrest.1, by omega⟩

theorem item (hne : tokens ≠ []) : Consumes item tokens := by
  refine Leaves.look Leaves.here fun first _ => Leaves.onAhead ?_
  have hrun := whole_itemModifiers false tokens
  generalize itemModifiers false tokens = modifiers at hrun ⊢
  obtain ⟨exported, n⟩ := modifiers
  simp only at hrun ⊢
  split
  · next hinterface =>
      simp only [Bool.and_eq_true, decide_eq_true_eq] at hinterface
      exact behind hrun (interface first exported hinterface.1)
  split
  · next htype =>
      simp only [Bool.and_eq_true, decide_eq_true_eq] at htype
      exact behind hrun (aliasItem first exported htype.1.1)
  · exact opaqueItem first hne

end Consumes

private theorem Takes.items {tokens : List Token} {bound : Nat}
    (hbound : tokens.length < bound) :
    Leaves (Reader.items bound) tokens fun _ rest =>
      Whole tokens rest ∧ rest = [] := by
  induction bound generalizing tokens with
  | zero => omega
  | succ bound ih =>
      refine Leaves.onAhead ?_
      split
      · next hempty =>
          rw [List.isEmpty_iff] at hempty
          exact Leaves.pure ⟨.refl _, hempty⟩
      next hne =>
      refine Leaves.atFront ";" (fun hfront => ?_) fun _ => ?_
      · have hplain := PlainFront.whole_drop (.of_text hfront (by decide))
        have hshorter := length_drop_lt hfront (by decide)
        refine Leaves.advance.bind ?_
        rintro _ _ rfl
        exact (ih (by omega)).imp fun _ _ hrest =>
          ⟨hplain.trans hrest.1, hrest.2⟩
      · refine (Consumes.item (by simpa using hne)).bind
          fun first rest hrest => ?_
        obtain ⟨hfirst, hshorter⟩ := hrest
        refine (ih (by omega)).bind fun later after hlater => Leaves.pure ?_
        exact ⟨hfirst.trans hlater.1, hlater.2⟩

/-- In a script that is read every bracket is closed by one that fits, except
for strays. -/
theorem exists_nests_of_itemsOfText {text : List Char} {items : List Item}
    (h : itemsOfText text = .ok items) :
    ∃ stream strays, TokenStream.ofText text = .ok stream ∧
      Nests false strays stream.tokens [] ∧
      ∀ token ∈ stream.tokens, token.Proper := by
  unfold itemsOfText at h
  split at h
  · cases h
  next stream hstream =>
  obtain ⟨_, ⟨strays, hnests⟩, rfl⟩ :=
    (Takes.items (Nat.lt_succ_self _)).exists_of_run' rfl h
  exact ⟨stream, strays, hstream, hnests,
    (TokenStream.tiles_ofText hstream).proper⟩

/-- The brackets of a script that is read are balanced unless closing brackets
that close nothing stand in skipped angle brackets. -/
theorem balanced_iff_of_itemsOfText {text : List Char} {items : List Item}
    (h : itemsOfText text = .ok items) :
    ∃ stream strays, TokenStream.ofText text = .ok stream ∧
      Nests false strays stream.tokens [] ∧
      (Balanced (bracketTexts stream.tokens) ↔ strays = []) := by
  obtain ⟨stream, strays, hstream, hnests, hproper⟩ :=
    exists_nests_of_itemsOfText h
  exact ⟨stream, strays, hstream, hnests, hnests.balanced_iff hproper⟩

/-- A function with a type parameter, in which every kind of bracket occurs. -/
def firstItem : List Char :=
  "type First = <T>(items: T[]) => { item: T; }".toList

theorem balanced_iff_firstItem :
    ∃ stream strays, TokenStream.ofText firstItem = .ok stream ∧
    Nests false strays stream.tokens [] ∧
      (Balanced (bracketTexts stream.tokens) ↔ strays = []) := by
  have hok : (itemsOfText firstItem).isOk := by decide +kernel
  cases h : itemsOfText firstItem with
  | error error => simp [h, Except.isOk, Except.toBool] at hok
  | ok items => exact balanced_iff_of_itemsOfText h

/-- A type parameter list that holds nothing but a closing parenthesis. -/
def loneCloser : List Char := "type A = <)>() => void".toList

theorem not_balanced_loneCloser :
    ∃ items stream, itemsOfText loneCloser = .ok items ∧
    TokenStream.ofText loneCloser = .ok stream ∧
      ¬Balanced (bracketTexts stream.tokens) := by
  have hok : (itemsOfText loneCloser).isOk := by decide +kernel
  have hbrackets :
      (TokenStream.ofText loneCloser).toOption.map (bracketTexts ·.tokens) =
      some [")", "(", ")"] := by decide +kernel
  cases hitems : itemsOfText loneCloser with
  | error error => simp [hitems, Except.isOk, Except.toBool] at hok
  | ok items =>
      cases hstream : TokenStream.ofText loneCloser with
      | error error => simp [hstream, Except.toOption] at hbrackets
      | ok stream =>
          have htexts : bracketTexts stream.tokens = [")", "(", ")"] := by
            simpa [hstream, Except.toOption] using hbrackets
          refine ⟨items, stream, rfl, rfl, fun hbalanced => ?_⟩
          rw [htexts] at hbalanced
          exact absurd hbalanced.countP_eq (by decide)

theorem balanced_of_no_angles {text : List Char} {items : List Item}
    {stream : TokenStream} (h : itemsOfText text = .ok items)
    (hstream : TokenStream.ofText text = .ok stream)
    (hangles : ∀ token ∈ stream.tokens, token.syntacticText ≠ "<") :
    Balanced (bracketTexts stream.tokens) := by
  obtain ⟨found, strays, hfound, hnests, hproper⟩ :=
    exists_nests_of_itemsOfText h
  obtain rfl : found = stream := Except.ok.inj (hfound.symm.trans hstream)
  exact (hnests.balanced_iff hproper).mpr (hnests.strays_eq_nil hangles)

end ShapeMend.Script
