import ShapeMend.Proofs.Script.BalancedScripts
import ShapeMend.Proofs.Script.CoupledReaders
import ShapeMend.Proofs.Script.ItemTracks
import ShapeMend.Proofs.Script.Tiling

/-!
# The tokens of items

The items of a script cut its tokens into runs.  Each item has at least one
token, its span goes from the first of them to the last, and between the runs
there are semicolons and nothing else.
-/

namespace ShapeMend.Script

open ShapeMend.Text Reader

def Item.span : Item → Span
  | interface item => item.span
  | typeAlias item => item.span
  | other span => span

/-- The tokens are cut into one run for each item, around which its span lies,
with semicolons between them. -/
inductive ItemRuns : List Token → List Item → Prop
  | nil : ItemRuns [] []
  | semicolon {token : Token} {tokens : List Token} {items : List Item}
      (htext : token.syntacticText = ";")
      (hrest : ItemRuns tokens items) : ItemRuns (token :: tokens) items
  | item {run tokens : List Token} {first last : Token} {item : Item}
      {items : List Item}
      (hfirst : run.head? = some first) (hlast : run.getLast? = some last)
      (hspan : item.span = ⟨first.span.start, last.span.stop⟩)
      (hrest : ItemRuns tokens items) :
      ItemRuns (run ++ tokens) (item :: items)

structure Ordered (tokens : List Token) : Prop where
  nonempty : ∀ token ∈ tokens, token.span.start.offset < token.span.stop
  apart : tokens.Pairwise fun first later =>
    first.span.stop ≤ later.span.start.offset

namespace Ordered

variable {run tokens : List Token} {first last : Token}

theorem left (h : Ordered (run ++ tokens)) : Ordered run :=
  ⟨fun token htoken => h.nonempty token (List.mem_append_left _ htoken),
    (List.pairwise_append.mp h.apart).1⟩

theorem right (h : Ordered (run ++ tokens)) : Ordered tokens :=
  ⟨fun token htoken => h.nonempty token (List.mem_append_right _ htoken),
    (List.pairwise_append.mp h.apart).2.1⟩

theorem tail {token : Token} (h : Ordered (token :: tokens)) : Ordered tokens :=
  ⟨fun other hother => h.nonempty other (List.mem_cons_of_mem _ hother),
    (List.pairwise_cons.mp h.apart).2⟩

theorem stop_le_stop (h : Ordered run) (hfirst : run.head? = some first)
    (hlast : run.getLast? = some last) : first.span.stop ≤ last.span.stop := by
  obtain ⟨rest, rfl⟩ := List.head?_eq_some_iff.mp hfirst
  have hmem := List.mem_of_getLast? hlast
  rcases List.mem_cons.mp hmem with rfl | hbehind
  · exact Nat.le_refl _
  · have hapart := (List.pairwise_cons.mp h.apart).1 last hbehind
    have hnonempty := h.nonempty last hmem
    omega

end Ordered

namespace ItemRuns

variable {tokens : List Token} {items : List Item}

theorem exists_span (h : ItemRuns tokens items) (hordered : Ordered tokens)
    {item : Item} (hitem : item ∈ items) :
    ∃ first ∈ tokens, ∃ last ∈ tokens,
      item.span = ⟨first.span.start, last.span.stop⟩ ∧
      first.span.start.offset < last.span.stop := by
  induction h with
  | nil => cases hitem
  | @semicolon token tokens items htext hrest ih =>
      obtain ⟨first, hfirst, last, hlast, hspan⟩ := ih hordered.tail hitem
      exact ⟨first, List.mem_cons_of_mem _ hfirst, last,
        List.mem_cons_of_mem _ hlast, hspan⟩
  | @item run tokens first last found items hfirst hlast hspan hrest ih =>
      rcases List.mem_cons.mp hitem with rfl | hlater
      · have hmem := List.mem_of_head? hfirst
        have hnonempty := hordered.left.nonempty first hmem
        have hstop := hordered.left.stop_le_stop hfirst hlast
        exact ⟨first, List.mem_append_left _ hmem, last,
          List.mem_append_left _ (List.mem_of_getLast? hlast), hspan,
          by omega⟩
      · obtain ⟨first, hfirst, last, hlast, hspan⟩ := ih hordered.right hlater
        exact ⟨first, List.mem_append_right _ hfirst, last,
          List.mem_append_right _ hlast, hspan⟩

theorem pairwise (h : ItemRuns tokens items) (hordered : Ordered tokens) :
    items.Pairwise fun first later =>
      first.span.stop ≤ later.span.start.offset := by
  induction h with
  | nil => exact .nil
  | semicolon htext hrest ih => exact ih hordered.tail
  | @item run tokens first last found items hfirst hlast hspan hrest ih =>
      refine .cons (fun later hlater => ?_) (ih hordered.right)
      obtain ⟨next, hnext, _, _, hlaterSpan, -⟩ :=
        hrest.exists_span hordered.right hlater
      rw [hspan, hlaterSpan]
      exact (List.pairwise_append.mp hordered.apart).2.2 last
        (List.mem_of_getLast? hlast) next hnext

end ItemRuns

/-! ## Walks over tokens -/

def Cursor.Within (tokens : List Token) (cursor : Cursor) : Prop :=
  ∃ run, tokens = run ++ cursor.ahead ∧ ∀ last ∈ run.getLast?,
    cursor.lastStop = last.span.stop

private theorem Cursor.Within.advanced {tokens : List Token} {cursor : Cursor}
    (h : cursor.Within tokens) : cursor.advanced.Within tokens := by
  obtain ⟨run, htokens, hstop⟩ := h
  obtain ⟨ahead, lastStop, stop⟩ := cursor
  cases ahead with
  | nil => exact ⟨run, htokens, hstop⟩
  | cons token rest =>
      refine ⟨run ++ [token], by
        rw [htokens, List.append_assoc]; rfl, fun last hlast => ?_⟩
      rw [List.getLast?_concat, Option.mem_some_iff] at hlast
      rw [← hlast]
      rfl

def Coupling.walk (tokens : List Token) : Coupling where
  related start other := other = start ∧ start.Within tokens
  ahead := by
    rintro start _ ⟨rfl, -⟩
    rfl
  advanced := by
    rintro start _ ⟨rfl, hwithin⟩
    exact ⟨rfl, hwithin.advanced⟩

theorem Alike.within {α : Type} {same : α → α → Prop} {reader : Reader α}
    {start next : Cursor} {value : α}
    (h : Alike (.walk start.ahead) same reader reader)
    (hrun : reader.run start = .ok (value, next)) :
    next.Within start.ahead := by
  have hstart : start.Within start.ahead := ⟨[], rfl, by simp⟩
  have hresult := h start start ⟨rfl, hstart⟩
  rw [hrun] at hresult
  exact hresult.2.2

/-! ## Spans of items -/

def Ends {α : Type} (reader : Reader α) (post : α → Cursor → Prop) : Prop :=
  ∀ cursor value next, reader.run cursor = .ok (value, next) → post value next

namespace Ends

variable {α β : Type} {reader : Reader α} {next : α → Reader β}
  {post : β → Cursor → Prop}

theorem bind (h : ∀ value, Ends (next value) post) :
    Ends (reader >>= next) post := by
  intro cursor value after hrun
  rw [StateT.run_bind] at hrun
  obtain ⟨⟨first, middle⟩, -, hnext⟩ := SyntaxError.bind_eq_ok.mp hrun
  exact h first middle value after hnext

theorem spanned {first : Span} {value : Span → β}
    (h : ∀ cursor : Cursor,
      post (value { first with stop := max cursor.lastStop first.stop })
      cursor) :
    Ends (spanFrom first >>= fun span => pure (value span)) post := by
  intro cursor _ _ hrun
  obtain ⟨rfl, rfl⟩ := Prod.mk.inj (Except.ok.inj hrun)
  exact h cursor

private theorem map {mid : α → Cursor → Prop} {value : α → β}
    (h : Ends reader mid)
    (himp : ∀ found cursor, mid found cursor → post (value found) cursor) :
    Ends (reader >>= fun found => pure (value found)) post := by
  intro cursor _ after hrun
  rw [StateT.run_bind] at hrun
  obtain ⟨⟨found, middle⟩, hfound, hnext⟩ := SyntaxError.bind_eq_ok.mp hrun
  obtain ⟨rfl, rfl⟩ := Prod.mk.inj (Except.ok.inj hnext)
  exact himp _ _ (h _ _ _ hfound)

abbrev Spanned (first span : Span) (cursor : Cursor) : Prop :=
  span = { first with stop := max cursor.lastStop first.stop }

private theorem interface (first : Span) (exported : Bool) :
    Ends (interface first exported) fun item => Spanned first item.span := by
  refine bind fun _ => ?_
  refine bind fun _ => ?_
  refine bind fun _ => ?_
  refine bind fun _ => ?_
  refine bind fun _ => ?_
  refine bind fun _ => ?_
  exact spanned fun _ => rfl

private theorem aliasItem (first : Span) (exported : Bool) :
    Ends (aliasItem first exported) fun item => Spanned first item.span := by
  refine bind fun _ => ?_
  refine bind fun _ => ?_
  refine bind fun _ => ?_
  refine bind fun _ => ?_
  refine bind fun _ => ?_
  refine bind fun _ => ?_
  exact spanned fun _ => rfl

private theorem opaqueItem (first : Span) :
    Ends (opaqueItem first) fun item => Spanned first item.span := by
  refine bind fun _ => ?_
  refine bind fun _ => ?_
  refine bind fun _ => ?_
  exact spanned fun _ => rfl

end Ends

/-- An item spans from the token in front of its reader through the last one
that it consumes. -/
theorem spanned_of_run_item {start next : Cursor} {first : Token}
    {rest : List Token} {found : Item} (hahead : start.ahead = first :: rest)
    (hrun : item.run start = .ok (found, next)) :
    Ends.Spanned first.span found.span next := by
  obtain ⟨ahead, lastStop, stop⟩ := start
  obtain rfl : ahead = first :: rest := hahead
  rw [item, StateT.run_bind] at hrun
  obtain ⟨⟨span, middle⟩, hhere, hnext⟩ := SyntaxError.bind_eq_ok.mp hrun
  obtain ⟨rfl, rfl⟩ := Prod.mk.inj (Except.ok.inj hhere)
  refine (?_ : Ends _ fun item => Ends.Spanned first.span item.span) _ _ _ hnext
  refine Ends.bind fun tokens => ?_
  obtain ⟨exported, n⟩ := itemModifiers false tokens
  simp only
  split
  · refine Ends.bind fun _ => ?_
    exact (Ends.interface _ exported).map fun _ _ => id
  split
  · refine Ends.bind fun _ => ?_
    exact (Ends.aliasItem _ exported).map fun _ _ => id
  · exact Ends.opaqueItem _

theorem exists_run_of_item {start next : Cursor} {found : Item}
    (hne : start.ahead ≠ []) (hrun : item.run start = .ok (found, next)) :
    ∃ run, run ≠ [] ∧ start.ahead = run ++ next.ahead ∧ ∀ last ∈ run.getLast?,
      next.lastStop = last.span.stop := by
  obtain ⟨run, hahead, hstop⟩ := Alike.item.within hrun
  have hshorter := (Consumes.item hne start found next rfl hrun).2
  refine ⟨run, ?_, hahead, hstop⟩
  rintro rfl
  rw [hahead] at hshorter
  exact absurd hshorter (Nat.lt_irrefl _)

/-! ## Items up to the end -/

private theorem ItemRuns.of_run_item {start next : Cursor} {found : Item}
    {items : List Item} (hordered : Ordered start.ahead)
    (hne : start.ahead ≠ []) (hrun : Reader.item.run start = .ok (found, next))
    (hmore : ItemRuns next.ahead items) :
    ItemRuns start.ahead (found :: items) := by
  obtain ⟨run, hnonempty, hahead, hstop⟩ := exists_run_of_item hne hrun
  obtain ⟨first, rest, rfl⟩ := List.exists_cons_of_ne_nil hnonempty
  have hlast := List.getLast?_eq_getLast_of_ne_nil hnonempty
  have hspan := spanned_of_run_item hahead hrun
  rw [hahead] at hordered ⊢
  have hle := hordered.left.stop_le_stop rfl hlast
  rw [Ends.Spanned, hstop _ hlast, Nat.max_eq_left hle] at hspan
  exact .item rfl hlast hspan hmore

theorem itemRuns_of_run_items {bound : Nat} {start next : Cursor}
    {found : List Item} (hordered : Ordered start.ahead)
    (hbound : start.ahead.length < bound)
    (hrun : (items bound).run start = .ok (found, next)) :
    ItemRuns start.ahead found := by
  induction bound generalizing start found with
  | zero => omega
  | succ bound ih =>
      by_cases hnil : start.ahead = []
      · rw [run_items_nil hnil] at hrun
        obtain ⟨rfl, -⟩ := Prod.mk.inj (Except.ok.inj hrun)
        rw [hnil]
        exact .nil
      obtain ⟨first, rest, hahead⟩ := List.exists_cons_of_ne_nil hnil
      rcases run_items_cases hnil hrun with
        ⟨hsemicolon, middle, hadvance, hitems⟩ |
          ⟨-, item, middle, later, hitem, hlater, rfl⟩
      · have hmiddle : middle.ahead = rest := by
          rw [Leaves.advance start _ middle rfl hadvance, hahead, List.drop_one,
            List.tail_cons]
        rw [hahead] at hordered hbound hsemicolon ⊢
        refine .semicolon hsemicolon ?_
        rw [← hmiddle] at hordered hbound ⊢
        exact ih hordered.tail (by simpa using hbound) hitems
      · obtain ⟨run, hne, hrest, -⟩ := exists_run_of_item hnil hitem
        have hshorter : middle.ahead.length < start.ahead.length := by
          have hlength := List.length_pos_iff.mpr hne
          rw [hrest, List.length_append]
          omega
        refine .of_run_item hordered hnil hitem (ih ?_ (by omega) hlater)
        rw [hrest] at hordered
        exact hordered.right

end ShapeMend.Script
