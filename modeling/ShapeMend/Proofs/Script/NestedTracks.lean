import ShapeMend.Proofs.Script.TypeTracks

/-!
# Nested types with more tokens behind

A constraint on an inferred type is given up where it cannot be read, so a run
may succeed where it meets the end of its tokens.  Such a run is stuck in front
of the constraint: no reader around it can go on from there.
-/

namespace ShapeMend.Script

open ShapeMend.Text Reader

/-! ## Operands and combinations -/

/-- Readers of nested types of which the second follows the first in front of up
to `limit` tokens.  What is lost are the tokens from a constraint on that cannot
be read, and no reader can do anything with them. -/
structure NestedTracks (lost : List Token → Prop) (more : List Token)
    (limit : Nat)
    (inner inner' : Nested → Reader TypeNode) : Prop where
  takes : ∀ kind tokens, Takes (inner kind) tokens
  tracks_type : ∀ {k tokens others}, k ≤ limit → Beside more k tokens others →
    Tracks more (k - 1) TypeNode.unplaced (inner .type) (inner' .type)
      tokens others
  follows_union : ∀ {k tokens others}, k ≤ limit → Beside more k tokens others →
    Follows lost (Beside more (k - 1)) TypeNode.unplaced (inner .union)
      (inner' .union) tokens others
  given_up : ∀ {k tokens others} {start other : Cursor} {error},
    k ≤ limit + 1 → Beside more k tokens others →
    frontText tokens = "extends" → start.ahead = tokens.drop 1 →
      other.ahead = others.drop 1 →
    (inner .union).run start = .error error →
    lost tokens ∨ ∃ error', (inner' .union).run other = .error error'
  frontText_of_lost : ∀ {tokens}, lost tokens → frontText tokens = "extends"
  unread_of_lost : ∀ {tokens}, lost tokens → tokens.length ≤ limit + 1 →
    Leaves (Reader.union inner) (tokens.drop 1) fun _ _ => False

namespace NestedTracks

variable {lost : List Token → Prop} {more tokens others : List Token}
  {n limit bound bound' : Nat}
  {inner inner' : Nested → Reader TypeNode}

private theorem inferredConstraint
    (hinner : NestedTracks lost more limit inner inner') (hn : n ≤ limit + 1)
    (h : Beside more n tokens others) :
    Follows lost (Beside more n) unseen (inferredConstraint inner)
      (inferredConstraint inner') tokens others := by
  refine Follows.atFront h "extends" (fun hfront => ?_) fun _ =>
    Follows.pure rfl h
  refine Follows.get fun start start' hstart hstart' => ?_
  refine Follows.step ?_
  refine Follows.get fun behind behind' hbehind hbehind' => ?_
  have hlater := h.later (.of_text hfront (by decide))
  have hstays : Beside more n start.ahead start'.ahead := by
    rwa [hstart, hstart']
  cases hread : (inner .union).run behind with
  | error error =>
      rcases hinner.given_up hn h hfront hbehind hbehind' hread
        with hgone | ⟨error', hread'⟩
      · refine Follows.of_lost ?_
        exact (Leaves.set start).imp fun _ _ hrest => by rwa [hrest, hstart]
      · simp only [hread']
        exact Follows.set (.inr hstays)
  | ok result =>
      obtain ⟨type, after⟩ := result
      rcases hinner.follows_union (by omega) hlater behind behind' type after
        hbehind hbehind' hread with
        hgone | ⟨type', after', hread', -, hafter⟩
      · refine Follows.of_lost ?_
        refine (Leaves.set _).imp fun _ _ hrest => ?_
        rwa [hrest, if_neg (by rw [hinner.frontText_of_lost hgone]; decide)]
      · simp only [hread', hafter.frontText]
        refine Follows.set (.inr ?_)
        split
        · exact hstays
        · exact hafter.mono (by omega)

theorem operand_nil (inner : Nested → Reader TypeNode) (bound : Nat) :
    Leaves (operand inner bound) [] fun _ _ => False := by
  rintro ⟨actual, lastStop, stop⟩ value next hahead hrun
  obtain rfl : actual = [] := hahead
  cases bound <;> cases hrun

theorem operand (hinner : NestedTracks lost more limit inner inner')
    (hn : n ≤ limit + 1) (h : Beside more n tokens others) (hbound : n ≤ bound)
    (hbound' : n + more.length ≤ bound') :
    Follows lost (Beside more (n - 1)) TypeNode.unplaced (operand inner bound)
      (operand inner' bound')
      tokens others := by
  induction n generalizing bound bound' tokens others with
  | zero =>
      obtain ⟨rfl, -⟩ := h.of_zero
      refine Follows.of_lost ?_
      exact (operand_nil inner bound).imp fun _ _ => False.elim
  | succ n ih =>
      obtain ⟨bound, bound', rfl, rfl, hbound, hbound'⟩ :=
        exists_bounds hbound hbound'
      have hpostfixed :
          Follows lost (Beside more n) TypeNode.unplaced (postfixed inner)
          (postfixed inner')
          tokens others :=
            (Tracks.postfixed hinner.tracks_type hn h).imp (fun _ => False.elim)
            fun _ _ => id
      have hplain (first first' : Span) :
          Follows lost (Beside more n) TypeNode.unplaced
          (do
            if (← Reader.at? "infer") &&
                frontIsWord ((← Reader.ahead).drop 1) then
              Reader.advance
              Reader.advance
              Reader.inferredConstraint inner
              return .sealed (← Reader.spanFrom first) .inference
            else Reader.postfixed inner)
          (do
            if (← Reader.at? "infer") &&
                frontIsWord ((← Reader.ahead).drop 1) then
              Reader.advance
              Reader.advance
              Reader.inferredConstraint inner'
              return .sealed (← Reader.spanFrom first') .inference
            else Reader.postfixed inner') tokens others := by
        refine Follows.at?
          h.frontText _ (Follows.onAhead
            (Follows.choose ?_ (fun hinfer => ?_) fun _ => hpostfixed))
        · exact h.and_later _ frontIsWord
            (fun hinfer => .of_text (of_decide_eq_true hinfer) (by decide))
            (·.frontIsWord)
        simp only [Bool.and_eq_true, decide_eq_true_eq] at hinfer
        have hword := h.later (.of_text hinfer.1 (by decide))
        have hconstraint := hword.later (.of_word hinfer.2)
        refine Follows.step
          (Follows.step ((hinner.inferredConstraint (by omega) hconstraint).seq
          (fun _ _ hgone => Leaves.spanned fun _ => hgone)
            fun _ _ _ _ _ hrest => ?_))
        exact Follows.spanFrom fun _ _ =>
          Follows.pure rfl (hrest.mono (by omega))
      refine Follows.here fun first first' => ?_
      refine Follows.textAt 0 ?_
      refine Tracks.operandFollows h fun follows follows' hfollows => ?_
      rw [List.drop_zero, List.drop_zero, h.frontText]
      cases hoperator : typeOperator? (frontText tokens) with
      | none => exact hplain first first'
      | some operator =>
          have hon : Ongoing tokens := .of_typeOperator hoperator (by decide)
          rw [hfollows hon]
          cases follows with
          | false => exact hplain first first'
          | true =>
              refine Follows.step ?_
              refine (ih (by omega) (h.later hon) hbound hbound').seq
                (fun _ _ hgone => Leaves.spanned fun _ => hgone)
                fun inside inside' _ _ hinside hrest => ?_
              refine Follows.spanFrom fun _ _ =>
                Follows.pure ?_ (hrest.mono (Nat.sub_le _ _))
              rw [TypeNode.unplaced, TypeNode.unplaced, hinside]

theorem combination {separator : String} {item item' : Reader TypeNode}
    {form : Span → List TypeNode → TypeNode}
    (hseparator : separator ≠ ";" ∧ "extends" ≠ separator)
    (hinner : NestedTracks lost more limit inner inner')
    (hnil : Leaves item [] fun _ _ => False)
    (hitem : ∀ {k tokens others},
      k ≤ n → Beside more k tokens others →
      Follows lost (Beside more (k - 1)) TypeNode.unplaced item item'
      tokens others)
    (hform : ∀ {parts parts' : List TypeNode} (span span' : Span),
      parts'.map TypeNode.unplaced = parts.map TypeNode.unplaced →
      (form span' parts').unplaced = (form span parts).unplaced)
    (h : Beside more n tokens others) :
    Follows lost (Beside more (n - 1)) TypeNode.unplaced
      (do let first ← Reader.here
          Reader.skip separator
          match ← Reader.separated separator item (← Reader.remaining) with
          | [part] => return part
          | parts => return form (← Reader.spanFrom first) parts)
      (do let first ← Reader.here
          Reader.skip separator
          match ← Reader.separated separator item' (← Reader.remaining) with
          | [part] => return part
          | parts =>
              return form (← Reader.spanFrom first) parts) tokens others := by
  refine Follows.here fun first first' => ?_
  refine (Tracks.skip h separator hseparator.1).bind
    fun _ _ rest later _ hrest => Follows.remaining ?_
  have hle := hrest.length_le
  have hparts :
      Follows lost (Beside more (rest.length - 1)) (List.map TypeNode.unplaced)
      (Reader.separated separator item rest.length)
        (Reader.separated separator item' later.length) rest later := by
    refine Follows.separated hseparator.1 (fun rest hgone => ?_) hnil
      (fun hk => hitem (hk.trans hle))
      hrest.exact (Nat.le_refl _) hrest.length.ge
    rw [hinner.frontText_of_lost hgone]
    exact hseparator.2
  refine hparts.seq (fun parts rest hgone => ?_)
    fun parts parts' rest later hparts hrest => ?_
  · split
    · exact Leaves.pure hgone
    · exact Leaves.spanned fun _ => hgone
  have hrest := hrest.mono (Nat.sub_le_sub_right hle 1)
  rcases parts with _ | ⟨part, _ | ⟨second, parts⟩⟩
  · obtain rfl : parts' = [] := List.map_eq_nil_iff.mp hparts
    exact Follows.spanFrom fun _ _ => Follows.pure (hform _ _ rfl) hrest
  · obtain ⟨part', rfl, hpart⟩ := List.map_eq_singleton_iff.mp hparts
    exact Follows.pure hpart hrest
  · rcases parts' with _ | ⟨part', _ | ⟨second', parts'⟩⟩
    · cases hparts
    · simp at hparts
    · exact Follows.spanFrom fun _ _ => Follows.pure (hform _ _ hparts) hrest

private theorem intersection
    (hinner : NestedTracks lost more limit inner inner') (hn : n ≤ limit + 1)
    (h : Beside more n tokens others) :
    Follows lost (Beside more (n - 1)) TypeNode.unplaced (intersection inner)
      (intersection inner')
      tokens others := by
  refine combination (by decide) hinner
    (Leaves.remaining.look fun _ _ => operand_nil inner _)
    (fun hk h => Follows.remaining ?_) (fun _ _ hparts => ?_) h
  · have hle := h.length_le
    refine (hinner.operand (by omega) h.exact (Nat.le_refl _) h.length.ge).imp
      (fun _ => id) fun _ _ hrest => ?_
    exact hrest.mono (by omega)
  · rw [TypeNode.unplaced, TypeNode.unplaced, nodesUnplaced_eq,
      nodesUnplaced_eq, hparts]

private theorem intersection_nil (inner : Nested → Reader TypeNode) :
    Leaves (Reader.intersection inner) [] fun _ _ => False := by
  rintro ⟨actual, lastStop, stop⟩ value next hahead hrun
  obtain rfl : actual = [] := hahead
  cases hrun

theorem union (hinner : NestedTracks lost more limit inner inner')
    (hn : n ≤ limit + 1) (h : Beside more n tokens others) :
    Follows lost (Beside more (n - 1)) TypeNode.unplaced (union inner)
      (union inner') tokens others := by
  refine combination (by decide) hinner (intersection_nil inner)
    (fun hk h => hinner.intersection (by omega) h) (fun _ _ hparts => ?_) h
  rw [TypeNode.unplaced, TypeNode.unplaced, nodesUnplaced_eq,
    nodesUnplaced_eq, hparts]

private theorem condition (hinner : NestedTracks lost more limit inner inner')
    (hn : n ≤ limit + 1) (first first' : Span)
    (hfront : frontText tokens = "extends") (h : Beside more n tokens others) :
    Tracks more (n - 1) TypeNode.unplaced (condition inner first)
      (condition inner' first') tokens others := by
  have hlater := h.later (.of_text hfront (by decide))
  refine Follows.step ?_
  refine (hinner.union (by omega) hlater).discard.seq (fun _ rest hgone => ?_)
    fun _ _ rest later _ hrest => ?_
  · refine (Leaves.expect _ _).discard.bind fun _ _ hopens => ?_
    exact absurd ((hinner.frontText_of_lost hgone).symm.trans hopens.1)
      (by decide)
  refine (Tracks.expect hrest _ _ (by decide)).discard.bind
    fun _ _ _ _ _ hrest => ?_
  refine (hinner.tracks_type (by omega) hrest).discard.bind
    fun _ _ _ _ _ hrest => ?_
  refine (Tracks.expect hrest _ _ (by decide)).discard.bind
    fun _ _ _ _ _ hrest => ?_
  refine (hinner.tracks_type (by omega) hrest).discard.bind
    fun _ _ _ _ _ hrest => ?_
  exact Tracks.spanned (hrest.mono (by omega)) fun _ _ => rfl

theorem anyType (hinner : NestedTracks lost more limit inner inner')
    (hn : n ≤ limit + 1) (h : Beside more n tokens others) :
    Tracks more (n - 1) TypeNode.unplaced (anyType inner) (anyType inner')
      tokens others := by
  refine Follows.here fun first first' => ?_
  refine (Tracks.opensFunction h).bind
    fun opens opens' rest later hopens h => ?_
  refine Follows.choose hopens (fun _ => ?_) fun _ => ?_
  · exact Tracks.functionType hinner.tracks_type hn first first' h
  have habstract : (frontText rest = "abstract" : Bool) → Ongoing rest :=
    fun habstract => .of_text (of_decide_eq_true habstract) (by decide)
  refine Follows.at?
    h.frontText _ (Follows.at? h.frontText _ (Follows.textAt 1 ?_))
  refine Follows.choose ?_ (fun hnew => ?_) fun _ => ?_
  · rw [h.and_later _ (fun later => frontText later = "new") habstract
      fun hlater => by simp only [hlater.frontText]]
  · simp only [Bool.and_eq_true, Bool.or_eq_true, decide_eq_true_eq] at hnew
    have hconstructor {k : Nat} {tokens others : List Token} (hk : k ≤ n)
        (hfront : frontText tokens = "new")
        (h : Beside more k tokens others) :
          Tracks more (n - 1) TypeNode.unplaced
          (do Reader.advance
              discard (Reader.functionType inner first)
              return .sealed (← Reader.spanFrom first) .constructor)
          (do Reader.advance
              discard (Reader.functionType inner' first')
              return .sealed (← Reader.spanFrom first') .constructor) tokens
                others := by
      have hlater := h.later (.of_text hfront (by decide))
      refine Follows.step ?_
      refine (Tracks.functionType hinner.tracks_type (by omega) first first'
        hlater).discard.bind fun _ _ _ _ _ hrest => ?_
      exact Tracks.spanned (hrest.mono (by omega)) fun _ _ => rfl
    refine Follows.skipThen h "abstract" (fun habstract => ?_)
      fun habstract => ?_
    · have hnew := (hnew.resolve_left (by rw [habstract]; decide)).2
      exact hconstructor (Nat.sub_le n 1) hnew
        (h.later (.of_text habstract (by decide)))
    · exact hconstructor (Nat.le_refl n)
        (hnew.resolve_right fun h => habstract h.1) h
  · have hshort :=
      (show Takes (Reader.union inner) rest from Takes.union hinner.takes).imp
      fun _ _ hrest => hrest.length_le
    refine ((hinner.union hn h).and_leaves hshort).seq
      (fun checked rest hgone => ?_)
      fun checked checked' rest later hchecked hrest => ?_
    · refine Leaves.atFront "extends" (fun _ => ?_) fun hfront => ?_
      · refine Leaves.advance.bind ?_
        rintro _ _ rfl
        refine (Leaves.discard ?_).bind fun _ _ => False.elim
        exact hinner.unread_of_lost hgone.1
          (hgone.2.trans (h.length_le.trans hn))
      · exact absurd (hinner.frontText_of_lost hgone.1) hfront
    · refine Follows.atFront hrest "extends" (fun hfront => ?_) fun _ =>
        Follows.pure hchecked hrest
      exact (hinner.condition (by omega) first first' hfront hrest).mono
        (by omega)

end NestedTracks

/-! ## Types of any depth -/

section

variable {more tokens others : List Token} {n depth depth' : Nat}

theorem nested_nil (depth : Nat) (kind : Nested) :
    Leaves (nested depth kind) [] fun _ _ => False := by
  rintro ⟨actual, lastStop, stop⟩ value next hahead hrun
  obtain rfl : actual = [] := hahead
  cases depth <;> cases kind <;> cases hrun

/-- With nothing behind, one depth is as good as another.  By induction on the
number of tokens, for both runs in either order: a constraint is given up in one
of them if it is in the other. -/
private theorem nested_same (kind : Nested) (h : Beside [] n tokens others)
    (hdepth : n ≤ depth) (hdepth' : n ≤ depth') :
    Tracks [] (n - 1) TypeNode.unplaced (nested depth kind) (nested depth' kind)
      tokens others := by
  suffices hall : ∀ {n k tokens others depth depth'} kind,
      n ≤ depth → n ≤ depth' → k ≤ n → Beside [] k tokens others →
      Tracks [] (k - 1) TypeNode.unplaced (nested depth kind)
        (nested depth' kind) tokens others from
    hall kind hdepth hdepth' (Nat.le_refl n) h
  intro n
  induction n with
  | zero =>
      intro k tokens others depth depth' kind _ _ hk h
      obtain rfl : k = 0 := Nat.le_zero.mp hk
      obtain ⟨rfl, -⟩ := h.of_zero
      exact Follows.of_lost (nested_nil depth kind)
  | succ n ih =>
      intro k tokens others depth depth' kind hdepth hdepth' hk h
      obtain ⟨depth, depth', rfl, rfl, hdepth, hdepth'⟩ :=
        @exists_bounds n 0 _ _ hdepth hdepth'
      have hinner :
          NestedTracks (fun _ => False) [] n (nested depth) (nested depth') := {
        takes := Takes.nested depth
        tracks_type := ih .type hdepth hdepth'
        follows_union := ih .union hdepth hdepth'
        given_up := by
          intro k tokens others start other error hk h hfront hstart hother hrun
          cases hread : (nested depth' .union).run other with
          | error error' => exact .inr ⟨error', rfl⟩
          | ok result =>
              have hlater := (h.later (.of_text hfront (by decide))).symm
              obtain ⟨type, rest, hread', -⟩ :=
                (ih .union hdepth' hdepth (by omega) hlater other
                  start _ _ hother hstart hread).resolve_left id
              rw [hread'] at hrun
              cases hrun
        frontText_of_lost := False.elim
        unread_of_lost := False.elim }
      cases kind with
      | type => exact hinner.anyType hk h
      | union => exact hinner.union hk h

def Stuck (tokens : List Token) : Prop :=
  frontText tokens = "extends" ∧ ∀ depth, (tokens.drop 1).length ≤ depth →
    Leaves (nested depth .union) (tokens.drop 1) fun _ _ => False

private theorem Stuck.of_error {start : Cursor} {error : SyntaxError}
    (hfront : frontText tokens = "extends")
    (hstart : start.ahead = tokens.drop 1)
    (hdepth : (tokens.drop 1).length ≤ depth)
    (hrun : (nested depth .union).run start = .error error) : Stuck tokens := by
  refine ⟨hfront, fun other hother cursor value next hahead hread => ?_⟩
  obtain ⟨type, rest, hread', -⟩ :=
    (nested_same .union (.refl _) hother hdepth cursor start value next hahead
      hstart hread).resolve_left id
  rw [hread'] at hrun
  cases hrun

private theorem NestedTracks.of_nested (hdepth : n ≤ depth)
    (htype : ∀ {k tokens others},
      k ≤ n → Beside more k tokens others →
      Tracks more (k - 1) TypeNode.unplaced (nested depth .type)
      (nested depth' .type) tokens others)
    (hunion : ∀ {k tokens others},
      k ≤ n → Beside more k tokens others →
      Follows Stuck (Beside more (k - 1)) TypeNode.unplaced
      (nested depth .union) (nested depth' .union) tokens others) :
    NestedTracks Stuck more n (nested depth) (nested depth') where
  takes := Takes.nested depth
  tracks_type := htype
  follows_union := hunion
  given_up := by
    intro k tokens others start other error hk h hfront hstart hother hrun
    have hle := h.length_le
    exact .inl
      (Stuck.of_error hfront hstart (by rw [List.length_drop]; omega) hrun)
  frontText_of_lost := And.left
  unread_of_lost :=
    fun hstuck hle => hstuck.2 (depth + 1) (by rw [List.length_drop]; omega)

theorem nestedTracks (hdepth : n ≤ depth) (hdepth' : n + more.length ≤ depth') :
    NestedTracks Stuck more n (nested depth) (nested depth') := by
  induction n generalizing depth depth' with
  | zero =>
      have hnil {kind : Nested} {k : Nat} {tokens others : List Token}
          (hk : k ≤ 0) (h : Beside more k tokens others) :
          Leaves (nested depth kind) tokens fun _ _ => False := by
        obtain rfl : k = 0 := Nat.le_zero.mp hk
        rw [h.of_zero.1]
        exact nested_nil depth kind
      refine .of_nested hdepth (fun hk h => Follows.of_lost (hnil hk h))
        fun hk h => ?_
      refine Follows.of_lost ?_
      exact (hnil hk h).imp fun _ _ => False.elim
  | succ n ih =>
      obtain ⟨depth, depth', rfl, rfl, hless, hless'⟩ :=
        exists_bounds hdepth hdepth'
      have hinner := ih hless hless'
      exact .of_nested hdepth hinner.anyType hinner.union

theorem Tracks.type (h : Beside more n tokens others) :
    Tracks more (n - 1) TypeNode.unplaced type type tokens others := by
  have hle := h.length_le
  refine Follows.remaining
    (((nestedTracks (Nat.le_succ _) ?_).tracks_type (Nat.le_refl _)
      h.exact).mono (by omega))
  have := h.length
  omega

end

end ShapeMend.Script
