import Mathlib.Data.List.Forall2
import ShapeMend.Proofs.Json.Bytes
import ShapeMend.Schema.Descriptor.Read

/-!
# What scans read

One statement says of a scan and a text that the scan reads exactly the text
where the text fits, and that it fails where it does not.  There is one rule for
every way in which scans are put together.
-/

namespace ShapeMend.Json.Scan

variable {α β : Type}

/-- In front of what may stand behind the text, the scan reads the text to its
end, with an answer as stated, or else the text does not fit and the scan fails.
-/
def Reads (scan : Scan α) (text : List UInt8) (behind : List UInt8 → Prop)
    (fits : Prop) (post : α → Prop) : Prop :=
  ∀ rest place, behind rest →
    (fits ∧ ∃ value stop,
      scan ⟨text ++ rest, place⟩ = .ok (value, ⟨rest, stop⟩) ∧ post value) ∨
      (¬ fits ∧ ∃ failure, scan ⟨text ++ rest, place⟩ = .error failure)

def Starts (byte : UInt8) (rest : List UInt8) : Prop := rest.head? = some byte

def Closed (rest : List UInt8) : Prop :=
  ∀ byte ∈ rest.head?, isDigit byte = false ∧ byte ≠ 0x2E ∧ byte ≠ 0x65 ∧
    byte ≠ 0x45

def Any (_ : List UInt8) : Prop := True

def Blank (blanks : List UInt8) : Prop := ∀ byte ∈ blanks, isSpace byte

theorem Blank.nil : Blank [] := List.forall_mem_nil _

variable {scan : Scan α} {text more blanks : List UInt8}
  {behind closing : List UInt8 → Prop}
  {fits fit : Prop} {post : α → Prop} {after : β → Prop} {byte : UInt8}
  {path : Path}

/-! ## Scans one after the other -/

theorem bind_of_ok {next : α → Scan β} {mark middle : Mark} {value : α}
    (h : scan mark = .ok (value, middle)) :
    (scan >>= next) mark = next value middle := by
  change (scan >>= next).run mark = _
  rw [StateT.run_bind, show scan.run mark = scan mark from rfl, h]
  rfl

private theorem bind_of_error {next : α → Scan β} {mark : Mark}
    {failure : Failure} (h : scan mark = .error failure) :
    (scan >>= next) mark = .error failure := by
  change (scan >>= next).run mark = _
  rw [StateT.run_bind, show scan.run mark = scan mark from rfl, h]
  rfl

namespace Reads

theorem pure {value : α} (h : post value) :
    Reads (pure value) [] behind True post :=
  fun _ place _ => .inl ⟨trivial, value, place, rfl, h⟩

theorem bind {next : α → Scan β} (h : Reads scan text behind fits post)
    (hnext : ∀ value, post value → Reads (next value) more closing fit after)
    (hbehind : ∀ rest, closing rest → behind (more ++ rest)) :
    Reads (scan >>= next) (text ++ more) closing (fits ∧ fit) after := by
  intro rest place hrest
  rw [List.append_assoc]
  rcases h (more ++ rest) place (hbehind rest hrest) with
    ⟨hfits, value, middle, hscan, hpost⟩ | ⟨hfits, failure, hscan⟩
  · rw [bind_of_ok hscan]
    rcases hnext value hpost rest middle hrest
      with ⟨hfit, hread⟩ | ⟨hfit, hread⟩
    · exact .inl ⟨⟨hfits, hfit⟩, hread⟩
    · exact .inr ⟨fun h => hfit h.2, hread⟩
  · exact .inr ⟨fun h => hfits h.1, failure, bind_of_error hscan⟩

theorem andThen {next : α → Scan β} (h : Reads scan text behind True post)
    (hnext : ∀ value, post value → Reads (next value) more closing fit after)
    (hbehind : ∀ rest, closing rest → behind (more ++ rest)) :
    Reads (scan >>= next) (text ++ more) closing fit after := by
  simpa using h.bind hnext hbehind

theorem last {next : α → Scan β} (h : Reads scan text behind True post)
    (hnext : ∀ value, post value → Reads (next value) [] closing fit after)
    (hbehind : ∀ rest, closing rest → behind rest) :
    Reads (scan >>= next) text closing fit after := by
  have hread := h.andThen hnext hbehind
  rwa [List.append_nil] at hread

theorem refuse {cause : ReadCause} (h : ¬ fits) :
    Reads (Scan.failNext path cause : Scan α) text behind fits post :=
  fun _ _ _ => .inr ⟨h, _, rfl⟩

theorem imp {strict : List UInt8 → Prop} {weak : α → Prop}
    (h : Reads scan text behind fits post) (hfits : fits ↔ fit)
    (hpost : ∀ value, post value → weak value)
    (hbehind : ∀ rest, strict rest → behind rest) :
    Reads scan text strict fit weak := by
  intro rest place hrest
  rw [← hfits]
  rcases h rest place (hbehind rest hrest)
    with ⟨hfits, value, stop, hscan, hvalue⟩ | hfails
  · exact .inl ⟨hfits, value, stop, hscan, hpost value hvalue⟩
  · exact .inr hfails

theorem finish {next : α → Scan β} (h : Reads scan text behind fits post)
    (hnext : ∀ value, post value → Reads (next value) [] closing True after)
    (hbehind : ∀ rest, closing rest → behind rest) :
    Reads (scan >>= next) text closing fits after := by
  have hread := h.bind hnext hbehind
  rwa [List.append_nil, and_true] at hread

theorem map {f : α → β} (h : Reads scan text behind fits post)
    (hpost : ∀ value, post value → after (f value)) :
    Reads (do return f (← scan)) text behind fits after :=
  h.finish (fun value hvalue => pure (hpost value hvalue)) fun _ hrest => hrest

theorem within (h : Reads scan text behind fits post) (place : Mark → Place) :
    Reads (within place scan) text behind fits post := by
  intro rest start hrest
  unfold Scan.within
  rcases h rest start hrest
    with ⟨hfits, value, stop, hscan, hvalue⟩ | ⟨hfits, failure, hscan⟩
  · exact .inl ⟨hfits, value, stop, by rw [hscan], hvalue⟩
  · rw [hscan]
    cases hstanding : failure.standing with
    | inl stopped => exact .inr ⟨hfits, failure, by simp only [hstanding]⟩
    | inr stopped => exact .inr ⟨hfits, _, by simp only [hstanding]; rfl⟩

/-- A bound that is taken from the bytes ahead is no less than the bytes of the
text. -/
theorem remaining {next : Nat → Scan β}
    (h : ∀ count,
      text.length ≤ count → Reads (next count) text behind fits after) :
    Reads (do next (← remaining)) text behind fits after := by
  intro rest place hrest
  have hlength : text.length ≤ (text ++ rest).length := by simp
  exact h _ hlength rest place hrest

/-! ## Single bytes -/

theorem advance (byte : UInt8) : Reads advance [byte] Any True fun _ => True :=
  fun _ _ _ => .inl ⟨trivial, (), _, rfl, trivial⟩

theorem next : Reads next [byte] Any True (· = some byte) :=
  fun _ _ _ => .inl ⟨trivial, some byte, _, rfl, rfl⟩

theorem word (path : Path) (expected : List UInt8) :
    Reads (word path expected) expected Any True fun _ => True := by
  induction expected with
  | nil => exact Reads.pure trivial
  | cons byte expected ih =>
      refine next.andThen (fun found hfound => ?_) fun _ _ => trivial
      rw [hfound]
      dsimp only
      rw [if_pos rfl]
      exact ih

theorem peek {next : Option UInt8 → Scan β}
    (h : Reads (next (some byte)) (byte :: text) behind fits after) :
    Reads (do next (← peek)) (byte :: text) behind fits after :=
  fun rest place hrest => h rest place hrest

theorem peek_behind {next : Option UInt8 → Scan β}
    (h : Reads (next (some byte)) [] behind fits after)
    (hbehind : ∀ rest, behind rest → Starts byte rest) :
    Reads (do next (← Scan.peek)) [] behind fits after := by
  intro rest place hrest
  have hpeek :
      Scan.peek ⟨[] ++ rest, place⟩ = .ok (some byte, ⟨[] ++ rest, place⟩) := by
    rw [← hbehind rest hrest]
    rfl
  rw [bind_of_ok hpeek]
  exact h rest place hrest

theorem skip {count : Nat} (h : text.length = count) :
    Reads (skip count) text Any True fun _ => True := by
  induction text generalizing count with
  | nil => exact h ▸ Reads.pure trivial
  | cons byte text ih =>
      rw [← h]
      exact (advance byte).andThen (fun _ _ => ih rfl) fun _ _ => trivial

theorem takeWhile_append {test : UInt8 → Bool}
    (htext : ∀ byte ∈ text, test byte) {rest : List UInt8}
    (hrest : ∀ byte ∈ rest.head?, test byte = false) :
    (text ++ rest).takeWhile test = text ∧ (text ++ rest).dropWhile test =
      rest := by
  rw [List.takeWhile_append_of_pos htext, List.dropWhile_append_of_pos htext]
  cases rest with
  | nil => simp
  | cons byte rest => simp [hrest byte rfl]

theorem run {test : UInt8 → Bool} {next : List UInt8 → Scan β}
    (htext : ∀ byte ∈ text, test byte)
    (hbehind : ∀ rest, behind rest → ∀ byte ∈ rest.head?, test byte = false)
    (h : Reads (next text) text behind fits after) :
    Reads (do next ((← get).ahead.takeWhile test)) text behind fits after := by
  intro rest place hrest
  have hrun :
      (do next ((← get).ahead.takeWhile test) : Scan β) ⟨text ++ rest, place⟩ =
      next ((text ++ rest).takeWhile test) ⟨text ++ rest, place⟩ := rfl
  rw [hrun, (takeWhile_append htext (hbehind rest hrest)).1]
  exact h rest place hrest

theorem takeWhile {test : UInt8 → Bool} (htext : ∀ byte ∈ text, test byte)
    (hbehind : ∀ rest, behind rest → ∀ byte ∈ rest.head?, test byte = false) :
    Reads (takeWhile test) text behind True (· = text) := by
  intro rest place hrest
  refine .inl ⟨trivial, text, text.foldl Mark.stepPlace place, ?_, rfl⟩
  obtain ⟨htake, hdrop⟩ := takeWhile_append htext (hbehind rest hrest)
  change Except.ok
    ((text ++ rest).takeWhile test, (⟨(text ++ rest).dropWhile test,
    ((text ++ rest).takeWhile test).foldl Mark.stepPlace place⟩ : Mark)) = _
  rw [htake, hdrop]

theorem skipBlanks (hblanks : Blank blanks) (hbyte : isSpace byte = false)
    (hbehind : ∀ rest, behind rest → Starts byte rest) :
    Reads (discard (Scan.takeWhile isSpace)) blanks behind True fun _ =>
      True := by
  have hstops (rest : List UInt8) (hrest : behind rest) :
      ∀ other ∈ rest.head?, isSpace other = false := by
    intro other hother
    rw [hbehind rest hrest] at hother
    exact Option.some.inj hother ▸ hbyte
  exact (takeWhile hblanks hstops).map fun _ _ => trivial

/-- Blanks before a token are passed over, and the first byte of the token is
answered. -/
theorem token {next : Option UInt8 → Scan β} (hblanks : Blank blanks)
    (hbyte : isSpace byte = false)
    (h : Reads (next (some byte)) (byte :: text) behind fits after) :
    Reads (do next (← peekToken)) (blanks ++ byte :: text) behind fits
      after := by
  have hskip : Reads (discard (Scan.takeWhile isSpace)) blanks (Starts byte)
      True fun _ => True :=
    skipBlanks hblanks hbyte fun _ h => h
  exact hskip.andThen (fun _ _ => peek h) fun _ _ => rfl

theorem token_front {next : Option UInt8 → Scan β}
    (hbyte : isSpace byte = false)
    (h : Reads (next (some byte)) (byte :: text) behind fits after) :
    Reads (do next (← peekToken)) (byte :: text) behind fits after :=
  token Blank.nil hbyte h

theorem token_behind {next : Option UInt8 → Scan β} (hblanks : Blank blanks)
    (hbyte : isSpace byte = false)
    (h : Reads (next (some byte)) [] behind fits after)
    (hbehind : ∀ rest, behind rest → Starts byte rest) :
    Reads (do next (← peekToken)) blanks behind fits after := by
  exact (skipBlanks hblanks hbyte hbehind).last
    (fun _ _ => peek_behind h hbehind) fun _ hrest => hrest

end Reads

end ShapeMend.Json.Scan
