import Mathlib.Data.List.DropRight
import ShapeMend.Proofs.Script.Lengths
import ShapeMend.Text.Source

/-!
# Tokens tile the text

A text that splits into tokens is cut into gaps and lexemes, with nothing lost
or read twice.  What stands in a gap is said here by the forms of white space
and comments and not by how the scan finds their ends, and the place of a token
is counted over the whole text before it.
-/

namespace ShapeMend

/-! ## Places in a text -/

namespace Text.Position

/-- The place behind a text: its lines, the characters of its last line, and its
bytes. -/
def behind (before : List Char) : Position where
  line := before.count '\n' + 1
  column := (before.rtakeWhile (· ≠ '\n')).length + 1
  offset := (String.ofList before).utf8ByteSize

theorem step_behind (before : List Char) (c : Char) :
    (behind before).step c = behind (before ++ [c]) := by
  have hoffset : (behind (before ++ [c])).offset = (behind before).offset +
      c.utf8Size := by
    simp [behind]
  by_cases hc : c = '\n'
  · rw [step, if_pos hc, ← hoffset]
    simp [behind, hc]
  · rw [step, if_neg hc, ← hoffset]
    simp [behind, hc]

theorem after_behind (before text : List Char) :
    (behind before).after text = behind (before ++ text) := by
  induction text generalizing before with
  | nil => simp
  | cons c rest ih =>
      rw [after_cons, step_behind, ih, List.append_assoc, List.singleton_append]

private theorem offset_behind_append (before text : List Char) :
    (behind (before ++ text)).offset = (behind before).offset +
      (String.ofList text).utf8ByteSize := by
  simp [behind]

theorem offset_le_after (position : Position) (text : List Char) :
    position.offset ≤ (position.after text).offset := by
  induction text generalizing position with
  | nil => exact Nat.le_refl _
  | cons c text ih =>
      have hstep : (position.step c).offset = position.offset + c.utf8Size := by
        unfold step
        split <;> rfl
      have hrest := ih (position.step c)
      rw [after_cons]
      omega

end Text.Position

namespace Script

open Text

/-! ## What stands in a gap -/

namespace Gap

def EndsLine (line behind : List Char) : Prop :=
  '\n' ∉ line ∧ ∀ c ∈ behind.head?, c = '\n'

def EndsFirst (comment : List Char) : Prop :=
  ¬['*', '/'] <:+: comment ++ ['*']

inductive Fills (after : List Char) : List Char → Prop
  | nil : Fills after []
  | blank {c : Char} {rest : List Char} (hblank : isBlank c)
      (hrest : Fills after rest) :
      Fills after (c :: rest)
  | line {comment rest : List Char} (hline : EndsLine comment (rest ++ after))
      (hrest : Fills after rest) : Fills after ('/' :: '/' :: (comment ++ rest))
  | block {comment rest : List Char} (hblock : EndsFirst comment)
      (hrest : Fills after rest) :
      Fills after ('/' :: '*' :: (comment ++ '*' :: '/' :: rest))

/-- A gap between two texts.  The whole text may begin with an interpreter line.
-/
inductive Separates (before after : List Char) : List Char → Prop
  | plain {gap : List Char} (h : Fills after gap) : Separates before after gap
  | interpreter {line rest : List Char} (hbefore : before = [])
      (hline : EndsLine line (rest ++ after)) (hrest : Fills after rest) :
      Separates before after ('#' :: '!' :: (line ++ rest))

def Ends (after : List Char) : Place → List Char → Prop
  | .blank, gap => Fills after gap
  | .line, gap =>
      ∃ comment rest, gap = comment ++ rest ∧ EndsLine comment (rest ++ after) ∧
      Fills after rest
  | .block, gap =>
      ∃ comment rest, gap = comment ++ '*' :: '/' :: rest ∧ EndsFirst comment ∧
      Fills after rest

theorem EndsFirst.cons {c : Char} {comment : List Char}
    (hopen : c = '*' → comment.head? ≠ some '/') (h : EndsFirst comment) :
    EndsFirst (c :: comment) := by
  intro hinfix
  rcases List.infix_cons_iff.mp hinfix with hfront | hlater
  · cases comment with
    | nil => simp at hfront
    | cons d comment =>
        obtain ⟨hc, hbehind⟩ := List.cons_prefix_cons.mp hfront
        obtain ⟨hd, -⟩ := List.cons_prefix_cons.mp hbehind
        exact hopen hc.symm (congrArg some hd.symm)
  · exact h hlater

theorem closes_of_closes_cons {c : Char} {rest : List Char}
    (hend : ∀ later, c = '*' → rest = '/' :: later → False)
    (h : closes (c :: rest)) : closes rest := by
  rw [closes] at h
  · exact h
  · rintro rfl rfl
    simp [closes] at h
  · exact fun later hstar hslash => hend later hstar hslash

theorem exists_ends (place : Place) (s : List Char)
    (hcloses : place = .block → closes s) :
    ∃ gap after, s = gap ++ after ∧ gap.length = length place s ∧
      Ends after place gap := by
  fun_induction length place s with
  | case1 place =>
      cases place with
      | blank => exact ⟨[], [], rfl, rfl, .nil⟩
      | line => exact ⟨[], [], rfl, rfl, [], [], rfl, by simp [EndsLine], .nil⟩
      | block => exact absurd (hcloses rfl) (by simp [closes])
  | case2 rest ih =>
      obtain ⟨_, after, rfl, hlength, comment, gap, rfl, hline, hgap⟩ :=
        ih (by simp)
      exact ⟨'/' :: '/' :: (comment ++ gap), after, by
        simp, by simpa using hlength,
        .line hline hgap⟩
  | case3 rest hend ih =>
      obtain ⟨_, after, rfl, hlength, comment, gap, rfl, hblock, hgap⟩ :=
        ih fun _ => hend
      exact ⟨'/' :: '*' :: (comment ++ '*' :: '/' :: gap), after, by
        simp, by simpa using hlength,
        .block hblock hgap⟩
  | case4 rest => exact ⟨[], _, rfl, rfl, .nil⟩
  | case5 c rest _ _ hblank ih =>
      obtain ⟨gap, after, rfl, hlength, hgap⟩ := ih (by simp)
      exact ⟨c :: gap, after, rfl, by simpa using hlength, .blank hblank hgap⟩
  | case6 c rest => exact ⟨[], _, rfl, rfl, .nil⟩
  | case7 rest ih =>
      obtain ⟨gap, after, rfl, hlength, hgap⟩ := ih (by simp)
      exact ⟨'\n' :: gap, after, rfl, by
        simpa using hlength, [], '\n' :: gap, rfl,
        by simp [EndsLine], .blank (by decide) hgap⟩
  | case8 c rest hc ih =>
      obtain ⟨_, after, rfl, hlength, comment, gap, rfl, ⟨hline, hend⟩, hgap⟩ :=
        ih (by simp)
      refine ⟨c :: (comment ++ gap), after, rfl, by
        simpa using hlength, c :: comment, gap, rfl,
        ⟨?_, hend⟩, hgap⟩
      simp [hline, Ne.symm hc]
  | case9 rest ih =>
      obtain ⟨gap, after, rfl, hlength, hgap⟩ := ih (by simp)
      exact ⟨'*' :: '/' :: gap, after, rfl, by
        simpa using hlength, [], gap, rfl,
        by simp [EndsFirst, List.infix_cons_iff], hgap⟩
  | case10 c rest hopen ih =>
      have hrest := closes_of_closes_cons hopen (hcloses rfl)
      obtain ⟨_, after, rfl, hlength, comment, gap, rfl, hblock, hgap⟩ :=
        ih fun _ => hrest
      refine ⟨c :: (comment ++ '*' :: '/' :: gap), after, rfl, by
        simpa using hlength,
        c :: comment, gap, rfl, ?_, hgap⟩
      apply hblock.cons
      intro hc hhead
      obtain ⟨comment, rfl⟩ := List.head?_eq_some_iff.mp hhead
      exact hopen _ hc rfl

theorem exists_fills (s : List Char) :
    ∃ gap after, s = gap ++ after ∧ s.take (length .blank s) = gap ∧
      Fills after gap := by
  obtain ⟨gap, after, rfl, hlength, hgap⟩ := exists_ends .blank s (by simp)
  exact ⟨gap, after, rfl, by rw [← hlength, List.take_left], hgap⟩

theorem exists_separates (s : List Char) :
    ∃ gap after, s = gap ++ after ∧ s.take (openingLength s) = gap ∧
      Separates [] after gap := by
  fun_cases openingLength s with
  | case1 rest =>
      obtain ⟨_, after, rfl, hlength, line, gap, rfl, hline, hgap⟩ :=
        exists_ends .line rest (by simp)
      refine ⟨'#' :: '!' :: (line ++ gap), after, by
        simp, ?_, .interpreter rfl hline hgap⟩
      rw [← hlength, List.take_succ_cons, List.take_succ_cons, List.take_left]
  | case2 =>
      obtain ⟨gap, after, hs, htake, hgap⟩ := exists_fills s
      exact ⟨gap, after, hs, htake, .plain hgap⟩

end Gap

/-! ## The cut of a text -/

namespace TokenStream

/-- The tokens are the lexemes of `text`, which stands behind `before` and the
previous token: each one with the characters that the scan takes for it, and
with its place in the whole text. -/
inductive Tiles : Option Token → List Char → List Char → TokenStream → Prop
  | stop {previous : Option Token} {before gap : List Char}
      (hgap : Gap.Separates before [] gap) :
      Tiles previous before gap ⟨[], .behind (before ++ gap), gap.contains '\n'⟩
  | token {previous : Option Token} {before gap tail after : List Char}
      {c : Char}
      {kind : Token.Kind} {token : Token} {stream : TokenStream}
      (hgap : Gap.Separates before (c :: tail ++ after) gap)
      (hmeasure : Token.measure previous c (tail ++ after) =
      .ok (kind, tail.length + 1))
      (htoken : token =
      ⟨kind, String.ofList (c :: tail), ⟨.behind (before ++ gap),
        (Position.behind (before ++ gap ++ c :: tail)).offset⟩,
        gap.contains '\n'⟩)
      (hrest : Tiles (some token) (before ++ gap ++ c :: tail) after stream) :
      Tiles previous before (gap ++ (c :: tail ++ after))
        { stream with tokens := token :: stream.tokens }

private theorem tiles_scanAfter {previous : Option Token}
    {before gap text : List Char} {stream : TokenStream}
    (hgap : Gap.Separates before text gap)
    (h : scanAfter previous (gap.contains '\n') (.behind (before ++ gap)) text =
      .ok stream) : stream.Tiles previous before (gap ++ text) := by
  generalize hlength : text.length = length
  induction length using Nat.strong_induction_on
    generalizing previous before gap text stream with
  | _ length ih =>
  cases text with
  | nil =>
      rw [scanAfter] at h
      obtain rfl := Except.ok.inj h
      rw [List.append_nil]
      exact .stop hgap
  | cons c rest =>
      rw [scanAfter] at h
      rcases hmeasure : Token.measure previous c rest with fault | ⟨kind, n⟩
      · simp [hmeasure] at h
      have hn := Token.length_measure hmeasure
      obtain ⟨tail, after, rfl, rfl⟩ : ∃ tail after,
          rest = tail ++ after ∧ n = tail.length + 1 :=
        ⟨rest.take (n - 1), rest.drop (n - 1),
          (List.take_append_drop _ _).symm, by simp; omega⟩
      obtain ⟨inner, behind, rfl, htake, hinner⟩ := Gap.exists_fills after
      simp only [hmeasure, Nat.add_sub_cancel, List.take_left, List.drop_left,
        htake, Position.after_behind] at h
      split at h
      · cases h
      · next scanned hscan =>
          obtain rfl := Except.ok.inj h
          refine .token hgap hmeasure rfl (ih _ ?_ (.plain hinner) hscan rfl)
          simp only [← hlength, List.length_cons, List.length_append]
          omega

namespace Tiles

variable {previous : Option Token} {before text : List Char}
  {stream : TokenStream}

theorem stop_eq (h : stream.Tiles previous before text) :
    stream.stop = .behind (before ++ text) := by
  induction h with
  | stop hgap => rfl
  | token hgap hmeasure htoken hrest ih => simpa using ih

/-- Every token has a piece of the text to itself, and its place is that of the
piece. -/
theorem exists_piece (h : stream.Tiles previous before text) {token : Token}
    (htoken : token ∈ stream.tokens) :
    ∃ front lexeme rest,
      before ++ text = front ++ lexeme ++ rest ∧ before <+: front ∧
      lexeme ≠ [] ∧ token.text = String.ofList lexeme ∧
      token.span =
        ⟨.behind front, (Position.behind (front ++ lexeme)).offset⟩ := by
  induction h with
  | stop hgap => simp at htoken
  | @token previous before gap tail after c kind first stream hgap hmeasure
      hfirst hrest ih =>
      rcases List.mem_cons.mp htoken with rfl | hlater
      · refine ⟨before ++ gap, c :: tail, after, by
          simp, List.prefix_append _ _,
          List.cons_ne_nil _ _, ?_⟩
        simp [hfirst]
      · obtain ⟨front, lexeme, rest, htext, hfront, hpiece⟩ := ih hlater
        refine ⟨front, lexeme, rest, by simpa using htext, ?_, hpiece⟩
        exact (List.prefix_append before (gap ++ c :: tail)).trans
          (by simpa using hfront)

theorem bounds (h : stream.Tiles previous before text) {token : Token}
    (htoken : token ∈ stream.tokens) :
    (Position.behind before).offset ≤ token.span.start.offset ∧
      token.span.start.offset < token.span.stop ∧
        token.span.stop ≤ stream.stop.offset := by
  obtain ⟨front, lexeme, rest, htext, ⟨more, rfl⟩, hlexeme, -, hspan⟩ :=
    h.exists_piece htoken
  rw [h.stop_eq, htext, hspan]
  have hbytes : 0 < (String.ofList lexeme).utf8ByteSize := by
    rw [Nat.pos_iff_ne_zero]
    simpa [String.utf8ByteSize_eq_zero_iff] using hlexeme
  simp only [Position.offset_behind_append]
  omega

private theorem pairwise (h : stream.Tiles previous before text) :
    stream.tokens.Pairwise fun first later =>
      first.span.stop ≤ later.span.start.offset := by
  induction h with
  | stop hgap => exact .nil
  | token hgap hmeasure htoken hrest ih =>
      refine .cons (fun later hlater => ?_) ih
      rw [htoken]
      exact (hrest.bounds hlater).1

end Tiles

theorem tiles_ofText {text : List Char} {stream : TokenStream}
    (h : ofText text = .ok stream) : stream.Tiles none [] text := by
  obtain ⟨gap, after, rfl, htake, hgap⟩ := Gap.exists_separates text
  have horigin : Position.origin = .behind [] := rfl
  simp only [ofText, htake, List.drop_left, horigin, Position.after_behind] at h
  exact tiles_scanAfter hgap h

/-- The tokens tile the text: their spans lie in it one behind the other, each
around the characters of a lexeme, and what is left over are gaps. -/
structure Tiling (text : List Char) (stream : TokenStream) : Prop where
  tiles : stream.Tiles none [] text
  stop_eq : stream.stop = .behind text
  bounds : ∀ token ∈ stream.tokens,
    token.span.start.offset < token.span.stop ∧
      token.span.stop ≤ stream.stop.offset
  pieces : ∀ token ∈ stream.tokens, ∃ before lexeme after,
    text = before ++ lexeme ++ after ∧
    token.text = String.ofList lexeme ∧
    token.span = ⟨.behind before, (Position.behind (before ++ lexeme)).offset⟩
  ordered : stream.tokens.Pairwise fun first later =>
    first.span.stop ≤ later.span.start.offset

theorem tiling_ofText {text : List Char} {stream : TokenStream}
    (h : ofText text = .ok stream) :
    stream.Tiling text where
  tiles := tiles_ofText h
  stop_eq := (tiles_ofText h).stop_eq
  bounds token htoken := ((tiles_ofText h).bounds htoken).2
  pieces token htoken := by
    obtain ⟨before, lexeme, after, htext, -, -, hpiece⟩ :=
      (tiles_ofText h).exists_piece htoken
    exact ⟨before, lexeme, after, htext, hpiece⟩
  ordered := (tiles_ofText h).pairwise

end TokenStream

end Script

/-! ## Slices -/

namespace Text.Source

theorem bytes_cons (c : Char) (rest : List Char) :
    (String.ofList (c :: rest)).utf8ByteSize =
    c.utf8Size + (String.ofList rest).utf8ByteSize := by
  simp

private theorem slice_go_left {start offset : Nat} (hstart : start ≤ offset)
    (lexeme after : List Char) :
    slice.go start (offset + (String.ofList lexeme).utf8ByteSize) offset
      (lexeme ++ after) =
      lexeme := by
  induction lexeme generalizing offset with
  | nil => cases after <;> simp [slice.go]
  | cons c rest ih =>
      have hlater :=
        ih (Nat.le_trans hstart (Nat.le_add_right offset c.utf8Size))
      have hpos := c.utf8Size_pos
      rw [bytes_cons, ← Nat.add_assoc, List.cons_append, slice.go,
        if_neg (by omega), if_pos hstart, hlater]

private theorem slice_go_middle (offset : Nat)
    (before lexeme after : List Char) :
    slice.go (offset + (String.ofList before).utf8ByteSize)
      (offset + (String.ofList (before ++ lexeme)).utf8ByteSize) offset
      (before ++ lexeme ++ after) = lexeme := by
  induction before generalizing offset with
  | nil => simpa using slice_go_left (Nat.le_refl offset) lexeme after
  | cons c rest ih =>
      have hlater := ih (offset + c.utf8Size)
      have hpos := c.utf8Size_pos
      rw [List.cons_append, List.cons_append, bytes_cons, bytes_cons,
        ← Nat.add_assoc, ← Nat.add_assoc, slice.go, if_neg (by omega),
        if_neg (by omega), hlater]

theorem slice_behind {source : Source} {before lexeme after : List Char}
    (h : source.chars = before ++ lexeme ++ after) :
    source.slice (Position.behind before).offset
      (Position.behind (before ++ lexeme)).offset =
      String.ofList lexeme := by
  have hgo := slice_go_middle 0 before lexeme after
  rw [Nat.zero_add, Nat.zero_add] at hgo
  rw [slice, h]
  exact congrArg String.ofList hgo

end Text.Source

end ShapeMend
