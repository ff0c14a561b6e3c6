import ShapeMend.Proofs.Module.Bindings

/-!
# How bindings are allocated

A declaration is bound to the first candidate that no declaration before it
has.  Reserved words have no underscore in them, and a candidate that is not the
name itself has one, so no binding is a reserved word.
-/

namespace ShapeMend.Binding

/-- The first candidate of an identifier that is not taken. -/
def FirstFree (taken : List String) (identifier binding : String) : Prop :=
  binding ∉ taken ∧ ∃ number,
    0 < number ∧ binding = candidate identifier number ∧
    ∀ earlier,
      0 < earlier → earlier < number → candidate identifier earlier ∈ taken

/-- Every name has a binding, which is the first one left for it, and no two
have the same one. -/
structure Allocates (names : List String) (bindings : List (String × String)) :
    Prop where
  keys_eq : Keyed.keys bindings = names
  firstFree : ∀ before name binding after,
    bindings = before ++ (name, binding) :: after →
    FirstFree (before.map (·.2)) (sanitized name) binding
  distinct : (bindings.map (·.2)).Nodup
  unreserved : ∀ entry ∈ bindings, entry.2 ∉ reserved

/-! ## The search -/

private theorem exists_firstFree_eq (taken : List String) (identifier : String)
    (bound number : Nat) :
    ∃ count, firstFree taken identifier bound number =
      candidate identifier (number + count) ∧
      ∀ earlier < count, candidate identifier (number + earlier) ∈ taken := by
  induction bound generalizing number with
  | zero => exact ⟨0, rfl, fun _ h => absurd h (Nat.not_lt_zero _)⟩
  | succ bound ih =>
      rw [firstFree]
      split
      · next htaken =>
          obtain ⟨count, heq, hbefore⟩ := ih (number + 1)
          refine ⟨count + 1, by
            rw [heq, Nat.add_right_comm, Nat.add_assoc],
              fun earlier hearlier => ?_⟩
          cases earlier with
          | zero => simpa using htaken
          | succ earlier =>
              have hmem := hbefore earlier (by omega)
              rwa [Nat.add_right_comm, Nat.add_assoc] at hmem
      · exact ⟨0, rfl, fun _ h => absurd h (Nat.not_lt_zero _)⟩

private theorem firstFree_allocate (taken : List String) (name : String) :
    FirstFree taken (sanitized name) (allocate taken name) := by
  obtain ⟨count, heq, hbefore⟩ :=
    exists_firstFree_eq taken (sanitized name) taken.length 1
  refine ⟨allocate_not_mem taken name, 1 + count, by
    omega, heq, fun earlier hpos hearlier => ?_⟩
  have hmem := hbefore (earlier - 1) (by omega)
  rwa [Nat.add_sub_cancel' hpos] at hmem

private theorem FirstFree.congr {taken others : List String}
    {identifier binding : String} (hsame : ∀ text, text ∈ taken ↔ text ∈ others)
    (h : FirstFree taken identifier binding) :
    FirstFree others identifier binding := by
  simpa only [FirstFree, hsame] using h

private theorem firstFree_allocateAll {taken names : List String}
    {before after : List (String × String)} {name binding : String}
    (h : allocateAll taken names = before ++ (name, binding) :: after) :
    FirstFree (before.map (·.2) ++ taken) (sanitized name) binding := by
  induction before generalizing taken names with
  | nil =>
      cases names with
      | nil => simp [allocateAll] at h
      | cons first names =>
          simp only [allocateAll, List.nil_append, List.cons.injEq,
            Prod.mk.injEq] at h
          obtain ⟨⟨rfl, rfl⟩, -⟩ := h
          exact firstFree_allocate taken first
  | cons entry before ih =>
      cases names with
      | nil => simp [allocateAll] at h
      | cons first names =>
          simp only [allocateAll, List.cons_append, List.cons.injEq] at h
          obtain ⟨rfl, hrest⟩ := h
          refine (ih hrest).congr fun text => ?_
          simp only [List.map_cons, List.cons_append, List.mem_append,
            List.mem_cons]
          exact or_left_comm

/-! ## Words without underscores -/

/-- A candidate without an underscore is the name itself, which can be bound as
it is. -/
theorem eq_of_candidate_eq {name word : String} {number : Nat}
    (hword : '_' ∉ word.toList) (h : candidate (sanitized name) number = word) :
    name = word ∧ isIdentifier word ∧ word ∉ reserved := by
  have hidentifier : sanitized name = word := by
    unfold candidate at h
    split at h
    · exact h
    · exact absurd (by simp [← h]) hword
  simp only [sanitized] at hidentifier
  split at hidentifier
  · exact absurd (by simp [← hidentifier]) hword
  · next hbindable =>
      have hname : name = word := by
        rw [← hidentifier, ← String.toList_inj, String.toList_ofList]
        refine (List.map_id _).symm.trans (List.map_congr_left fun c hc => ?_)
        have hkept : isKept c := by
          refine Decidable.byContradiction fun hdropped => hword ?_
          rw [← hidentifier, String.toList_ofList]
          exact List.mem_map.mpr ⟨c, hc, if_neg hdropped⟩
        exact (if_pos hkept).symm
      rw [hidentifier] at hbindable
      simpa [hname] using hbindable

private theorem not_mem_reserved_of_underscore {word : String}
    (h : word ∈ reserved) : '_' ∉ word.toList := by
  have htable : reserved.all fun word => decide ('_' ∉ word.toList) := by
    decide +kernel
  exact of_decide_eq_true (List.all_eq_true.mp htable word h)

private theorem FirstFree.not_mem_reserved {taken : List String}
    {name binding : String} (h : FirstFree taken (sanitized name) binding) :
    binding ∉ reserved := by
  obtain ⟨-, number, -, heq, -⟩ := h
  intro hreserved
  exact (eq_of_candidate_eq (not_mem_reserved_of_underscore hreserved)
    heq.symm).2.2 hreserved

theorem allocates_allocateAll (names : List String) :
    Allocates names (allocateAll [] names) where
  keys_eq := keys_allocateAll [] names
  firstFree before name binding after h := by
    rw [← List.append_nil (before.map (·.2))]
    exact firstFree_allocateAll h
  distinct := (nodup_allocateAll [] names).1
  unreserved entry hentry := by
    obtain ⟨before, after, hsplit⟩ := List.append_of_mem hentry
    exact (firstFree_allocateAll hsplit).not_mem_reserved

end ShapeMend.Binding
