import ShapeMend.Script.Reader.Cursor

/-!
# What readers leave

Where a reader succeeds, what can be said about its value and about the tokens
that are left.  Such statements say nothing of readers that fail, and they are
put together the way that readers are.
-/

namespace ShapeMend.Script

open ShapeMend.Text

theorem SyntaxError.bind_eq_ok {α β : Type} {first : Except SyntaxError α}
    {next : α → Except SyntaxError β} {result : β} :
    (first >>= next) = .ok result ↔ ∃ value,
      first = .ok value ∧ next value = .ok result := by
  cases first with
  | error error => simp [bind, Except.bind]
  | ok value => simp [bind, Except.bind]

def Leaves {α : Type} (reader : Reader α) (tokens : List Token)
    (post : α → List Token → Prop) : Prop :=
  ∀ cursor value next,
    cursor.ahead = tokens → reader.run cursor = .ok (value, next) →
    post value next.ahead

abbrev Looks {α : Type} (reader : Reader α) (tokens : List Token)
    (mid : α → Prop) : Prop :=
  Leaves reader tokens fun value rest => rest = tokens ∧ mid value

namespace Leaves

open Reader

variable {α β : Type} {token : Token} {tokens : List Token} {reader : Reader α}
  {next : α → Reader β}

theorem pure {value : α} {post : α → List Token → Prop}
    (h : post value tokens) : Leaves (Pure.pure value) tokens post := by
  rintro cursor value' after rfl hrun
  obtain ⟨rfl, rfl⟩ := Prod.mk.inj (Except.ok.inj hrun)
  exact h

theorem bind {mid : α → List Token → Prop} {post : β → List Token → Prop}
    (hfirst : Leaves reader tokens mid)
    (hnext : ∀ value rest, mid value rest → Leaves (next value) rest post) :
    Leaves (reader >>= next) tokens post := by
  intro cursor value after hahead hrun
  rw [StateT.run_bind] at hrun
  obtain ⟨⟨first, middle⟩, hfirstRun, hnextRun⟩ :=
    SyntaxError.bind_eq_ok.mp hrun
  exact hnext first middle.ahead (hfirst cursor first middle hahead hfirstRun)
    middle value after rfl
    hnextRun

theorem imp {mid post : α → List Token → Prop} (h : Leaves reader tokens mid)
    (himp : ∀ value rest, mid value rest → post value rest) :
    Leaves reader tokens post :=
  fun cursor value after hahead hrun =>
    himp _ _ (h cursor value after hahead hrun)

theorem fail {flaw : SyntaxFlaw} {post : α → List Token → Prop} :
    Leaves (fail flaw) tokens post := by
  intro cursor value after hahead hrun
  obtain ⟨actual, lastStop, stop⟩ := cursor
  cases actual <;> cases hrun

theorem throw {error : SyntaxError} {post : α → List Token → Prop} :
    Leaves (throw error : Reader α) tokens post := by
  rintro cursor value after hahead ⟨⟩

theorem look {mid : α → Prop} {post : β → List Token → Prop}
    (hfirst : Looks reader tokens mid)
    (hnext : ∀ value, mid value → Leaves (next value) tokens post) :
    Leaves (reader >>= next) tokens post := by
  refine hfirst.bind ?_
  rintro value _ ⟨rfl, hvalue⟩
  exact hnext value hvalue

private theorem ahead : Looks ahead tokens (· = tokens) := by
  rintro cursor value after rfl hrun
  obtain ⟨rfl, rfl⟩ := Prod.mk.inj (Except.ok.inj hrun)
  exact ⟨rfl, rfl⟩

theorem remaining : Looks remaining tokens (· = tokens.length) := by
  rintro cursor value after rfl hrun
  obtain ⟨rfl, rfl⟩ := Prod.mk.inj (Except.ok.inj hrun)
  exact ⟨rfl, rfl⟩

theorem textAt (n : Nat) :
    Looks (textAt n) tokens (· = frontText (tokens.drop n)) := by
  rintro cursor value after rfl hrun
  obtain ⟨rfl, rfl⟩ := Prod.mk.inj (Except.ok.inj hrun)
  exact ⟨rfl, rfl⟩

theorem here : Looks here tokens (fun _ => True) := by
  rintro ⟨actual, lastStop, stop⟩ value after rfl hrun
  cases actual with
  | nil =>
      obtain ⟨rfl, rfl⟩ := Prod.mk.inj (Except.ok.inj hrun)
      exact ⟨rfl, trivial⟩
  | cons token later =>
      obtain ⟨rfl, rfl⟩ := Prod.mk.inj (Except.ok.inj hrun)
      exact ⟨rfl, trivial⟩

theorem spanFrom (first : Span) :
    Looks (spanFrom first) tokens (fun _ => True) := by
  rintro cursor value after rfl hrun
  obtain ⟨rfl, rfl⟩ := Prod.mk.inj (Except.ok.inj hrun)
  exact ⟨rfl, trivial⟩

theorem at? (text : String) :
    Looks (at? text) tokens (· = decide (frontText tokens = text)) :=
  (textAt 0).look fun _ hvalue => pure ⟨rfl, by rw [hvalue]; rfl⟩

theorem advance :
    Leaves advance tokens (fun _ rest => rest = tokens.drop 1) := by
  rintro ⟨actual, lastStop, stop⟩ value after rfl hrun
  cases actual with
  | nil =>
      obtain ⟨rfl, rfl⟩ := Prod.mk.inj (Except.ok.inj hrun)
      rfl
  | cons token later =>
      obtain ⟨rfl, rfl⟩ := Prod.mk.inj (Except.ok.inj hrun)
      rfl

theorem advanceBy (n : Nat) :
    Leaves (advanceBy n) tokens (fun _ rest => rest = tokens.drop n) := by
  induction n generalizing tokens with
  | zero => exact pure rfl
  | succ n ih =>
      refine advance.bind ?_
      rintro _ _ rfl
      exact ih.imp fun _ rest hrest => by
        rw [hrest, List.drop_drop, Nat.add_comm]

section

variable {post : β → List Token → Prop}

theorem atFront (text : String) {next : Bool → Reader β}
    (hyes : frontText tokens = text → Leaves (next true) tokens post)
    (hno : frontText tokens ≠ text → Leaves (next false) tokens post) :
    Leaves (Reader.at? text >>= next) tokens post := by
  refine (at? text).look ?_
  rintro _ rfl
  by_cases hfront : frontText tokens = text
  · simpa [hfront] using hyes hfront
  · simpa [hfront] using hno hfront

theorem onAhead {next : List Token → Reader β}
    (h : Leaves (next tokens) tokens post) :
    Leaves (Reader.ahead >>= next) tokens post :=
  ahead.look fun _ hvalue => hvalue ▸ h

theorem lift (first : Except SyntaxError α) :
    Looks (liftM first : Reader α) tokens (fun value => first = .ok value) := by
  rintro cursor value after rfl hrun
  cases first with
  | error error => cases hrun
  | ok found =>
      obtain ⟨rfl, rfl⟩ := Prod.mk.inj (Except.ok.inj hrun)
      exact ⟨rfl, rfl⟩

theorem get :
    Looks (MonadState.get : Reader Cursor) tokens (·.ahead = tokens) := by
  rintro cursor value after rfl hrun
  obtain ⟨rfl, rfl⟩ := Prod.mk.inj (Except.ok.inj hrun)
  exact ⟨rfl, rfl⟩

theorem set (cursor : Cursor) :
    Leaves (MonadStateOf.set cursor : Reader Unit) tokens
      (fun _ rest => rest = cursor.ahead) := by
  rintro _ value after rfl hrun
  obtain ⟨rfl, rfl⟩ := Prod.mk.inj (Except.ok.inj hrun)
  rfl

theorem expect (text : String) (place : Place) :
    Leaves (Reader.expect text place) tokens
      (fun _ rest => frontText tokens = text ∧ rest = tokens.drop 1) := by
  refine here.look fun span _ => ?_
  refine atFront text (fun hfront => ?_) fun _ => fail
  refine advance.bind ?_
  rintro _ _ rfl
  exact pure ⟨hfront, rfl⟩

theorem skip (text : String) :
    Leaves (Reader.skip text) tokens (fun _ rest =>
      frontText tokens = text ∧ rest = tokens.drop 1 ∨ frontText tokens ≠ text ∧
        rest = tokens) :=
  atFront text (fun hfront => advance.imp fun _ _ hrest => .inl ⟨hfront, hrest⟩)
    fun hfront => pure (.inr ⟨hfront, rfl⟩)

theorem failed {flaw : SyntaxFlaw} {next : α → Reader β} :
    Leaves (Reader.fail flaw >>= next) tokens post :=
  fail.bind fun _ _ => False.elim

theorem spanned {first : Span} {value : Span → β}
    (h : ∀ span, post (value span) tokens) :
    Leaves (Reader.spanFrom first >>= fun span => Pure.pure (value span))
      tokens post :=
  (spanFrom first).look fun span _ => pure (h span)

theorem discard {reader : Reader α} {post : List Token → Prop}
    (h : Leaves reader tokens fun _ rest => post rest) :
    Leaves (discard reader) tokens fun _ rest => post rest :=
  h.bind fun _ _ hrest => pure hrest

end

theorem exists_of_run' {cursor : Cursor} {value : α}
    {post : α → List Token → Prop} (h : Leaves reader tokens post)
    (hahead : cursor.ahead = tokens) (hrun' : reader.run' cursor = .ok value) :
    ∃ rest, post value rest := by
  rw [StateT.run'_eq] at hrun'
  cases hrun : reader.run cursor with
  | error error =>
      rw [hrun] at hrun'
      cases hrun'
  | ok result =>
      obtain ⟨found, next⟩ := result
      rw [hrun] at hrun'
      obtain rfl : found = value := Except.ok.inj hrun'
      exact ⟨next.ahead, h cursor found next hahead hrun⟩

end Leaves

end ShapeMend.Script
