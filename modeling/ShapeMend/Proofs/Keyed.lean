import ShapeMend.Keyed

/-!
# Laws of keyed lists

Putting keeps the place of a key, and where the keys are distinct, looking up is
membership.  The laws of a list do not depend on what its values are.
-/

namespace ShapeMend.Keyed

variable {α : Type} {key : String} {value : α} {entries : List (String × α)}

@[simp] theorem keys_nil : keys ([] : List (String × α)) = [] := rfl

@[simp] theorem keys_cons (entry : String × α) (entries : List (String × α)) :
    keys (entry :: entries) = entry.1 :: keys entries := rfl

theorem put_of_lookup (h : lookup key entries = some value) :
    put key value entries = entries := by
  induction entries with
  | nil => simp [lookup] at h
  | cons entry entries ih =>
      obtain ⟨name, old⟩ := entry
      simp only [lookup] at h
      simp only [put]
      split at h
      · next hname => simp_all
      · next hname => simp [hname, ih h]

theorem mem_of_lookup (h : lookup key entries = some value) :
    (key, value) ∈ entries := by
  induction entries with
  | nil => simp [lookup] at h
  | cons entry entries ih =>
      obtain ⟨name, old⟩ := entry
      simp only [lookup] at h
      split at h
      · next hname => simp_all
      · exact List.mem_cons_of_mem _ (ih h)

theorem lookup_of_mem (hdistinct : (keys entries).Nodup)
    (h : (key, value) ∈ entries) : lookup key entries = some value := by
  induction entries with
  | nil => simp at h
  | cons entry entries ih =>
      obtain ⟨name, old⟩ := entry
      rw [keys_cons, List.nodup_cons] at hdistinct
      rcases List.mem_cons.mp h with hhead | htail
      · obtain ⟨rfl, rfl⟩ := Prod.mk.inj hhead
        simp [lookup]
      · have hname : name ≠ key := by
          rintro rfl
          exact hdistinct.1 (List.mem_map.mpr ⟨_, htail, rfl⟩)
        simp only [lookup, if_neg hname]
        exact ih hdistinct.2 htail

theorem isSome_lookup_iff :
    (lookup key entries).isSome ↔ key ∈ keys entries := by
  induction entries with
  | nil => simp [lookup]
  | cons entry entries ih =>
      obtain ⟨name, old⟩ := entry
      by_cases hname : name = key
      · simp [lookup, hname]
      · simp only [lookup, if_neg hname, ih]
        simp [Ne.symm hname]

/-- Keyed lists with the same distinct keys and the same value under each are
the same. -/
theorem ext_lookup {others : List (String × α)}
    (hkeys : keys entries = keys others) (hdistinct : (keys entries).Nodup)
    (hvalues : ∀ key, lookup key entries = lookup key others) :
    entries = others := by
  induction entries generalizing others with
  | nil => exact (List.map_eq_nil_iff.mp hkeys.symm).symm
  | cons entry entries ih =>
      cases others with
      | nil => simp at hkeys
      | cons other others =>
          obtain ⟨name, value⟩ := entry
          obtain ⟨otherName, otherValue⟩ := other
          simp only [keys_cons, List.cons.injEq] at hkeys
          obtain ⟨rfl, hrest⟩ := hkeys
          rw [keys_cons, List.nodup_cons] at hdistinct
          have hvalue : value = otherValue := by
            simpa [lookup] using hvalues name
          have htail : entries = others := by
            apply ih hrest hdistinct.2
            intro key
            by_cases hname : name = key
            · subst hname
              have hnone : ∀ held : List (String × α),
                  name ∉ keys held → lookup name held = none := by
                intro held hheld
                rwa [← isSome_lookup_iff, Bool.not_eq_true,
                  Option.isSome_eq_false_iff, Option.isNone_iff_eq_none]
                  at hheld
              rw [hnone entries hdistinct.1, hnone others (hrest ▸ hdistinct.1)]
            · simpa [lookup, hname] using hvalues key
          rw [hvalue, htail]

theorem keys_put (key : String) (value : α) (entries : List (String × α)) :
    keys (put key value entries) =
      if key ∈ keys entries then keys entries else keys entries ++ [key] := by
  induction entries with
  | nil => simp [put]
  | cons entry entries ih =>
      obtain ⟨name, old⟩ := entry
      by_cases hname : name = key
      · simp [put, hname]
      · simp only [put, if_neg hname, keys_cons, List.mem_cons, Ne.symm hname,
          false_or, ih]
        split
        · rfl
        · rfl

theorem nodup_keys_put (key : String) (value : α) (h : (keys entries).Nodup) :
    (keys (put key value entries)).Nodup := by
  rw [keys_put]
  split
  · exact h
  · next hfresh =>
      rw [List.nodup_append]
      refine ⟨h, by simp, ?_⟩
      intro name hname other hother hsame
      obtain rfl := List.mem_singleton.mp hother
      exact hfresh (hsame ▸ hname)

theorem put_of_not_mem (value : α) (h : key ∉ keys entries) :
    put key value entries = entries ++ [(key, value)] := by
  induction entries with
  | nil => rfl
  | cons entry entries ih =>
      obtain ⟨name, old⟩ := entry
      rw [keys_cons, List.mem_cons, not_or] at h
      simp only [put, if_neg (Ne.symm h.1), ih h.2, List.cons_append]

theorem eq_or_mem_of_mem_put {entry : String × α}
    (h : entry ∈ put key value entries) :
    entry = (key, value) ∨ entry ∈ entries := by
  induction entries with
  | nil => exact .inl (List.mem_singleton.mp h)
  | cons first entries ih =>
      obtain ⟨name, old⟩ := first
      rw [put] at h
      split at h
      · next hname =>
          rcases List.mem_cons.mp h with rfl | hlater
          · exact .inl (hname ▸ rfl)
          · exact .inr (List.mem_cons_of_mem _ hlater)
      · rcases List.mem_cons.mp h with rfl | hlater
        · exact .inr List.mem_cons_self
        · exact (ih hlater).imp_right (List.mem_cons_of_mem _)

theorem mem_of_mem_ofEntries {entry : String × α}
    (h : entry ∈ ofEntries entries) : entry ∈ entries := by
  refine List.foldlRecOn (motive := fun kept => ∀ entry ∈ kept,
    entry ∈ entries) _ _
    (List.forall_mem_nil _) (fun kept hkept put hput => ?_) entry h
  intro other hother
  rcases eq_or_mem_of_mem_put hother with rfl | hold
  · exact hput
  · exact hkept other hold

theorem nodup_keys_ofEntries (entries : List (String × α)) :
    (keys (ofEntries entries)).Nodup := by
  refine List.foldlRecOn (motive := fun kept => (keys kept).Nodup) _ _
    List.nodup_nil ?_
  intro kept hkept entry _
  exact nodup_keys_put entry.1 entry.2 hkept

theorem mem_of_mem_erase {entry : String × α} (h : entry ∈ erase key entries) :
    entry ∈ entries := by
  induction entries with
  | nil => exact h
  | cons first entries ih =>
      obtain ⟨name, old⟩ := first
      rw [erase] at h
      split at h
      · exact List.mem_cons_of_mem _ h
      · rcases List.mem_cons.mp h with rfl | hlater
        · exact List.mem_cons_self
        · exact List.mem_cons_of_mem _ (ih hlater)

theorem keys_erase_sublist (key : String) (entries : List (String × α)) :
    (keys (erase key entries)).Sublist (keys entries) := by
  induction entries with
  | nil => exact .slnil
  | cons first entries ih =>
      obtain ⟨name, old⟩ := first
      rw [erase]
      split
      · exact List.sublist_cons_self _ _
      · exact ih.cons_cons name

theorem ofEntries_of_nodup (h : (keys entries).Nodup) :
    ofEntries entries = entries := by
  have hfold : ∀ kept : List (String × α), (keys (kept ++ entries)).Nodup →
      entries.foldl (fun kept entry => put entry.1 entry.2 kept) kept =
        kept ++ entries := by
    clear h
    intro kept hkept
    induction entries generalizing kept with
    | nil => simp
    | cons entry entries ih =>
        obtain ⟨name, value⟩ := entry
        have hfresh : name ∉ keys kept := by
          intro hmem
          rw [keys, List.map_append, List.nodup_append] at hkept
          exact hkept.2.2 name hmem name (by simp) rfl
        rw [List.foldl_cons, put_of_not_mem value hfresh, ih]
        · simp
        · simpa using hkept
  exact hfold [] (by simpa using h)

/-! ## Changing the values -/

section MapValues

variable {β : Type} (f : String → α → β)

def mapValues (entries : List (String × α)) : List (String × β) :=
  entries.map fun entry => (entry.1, f entry.1 entry.2)

theorem keys_mapValues (entries : List (String × α)) :
    keys (mapValues f entries) = keys entries := by
  simp [keys, mapValues]

theorem lookup_mapValues (key : String) (entries : List (String × α)) :
    lookup key (mapValues f entries) = (lookup key entries).map (f key) := by
  induction entries with
  | nil => rfl
  | cons entry entries ih =>
      obtain ⟨name, old⟩ := entry
      simp only [mapValues, List.map_cons, lookup] at ih ⊢
      by_cases hname : name = key
      · simp [hname]
      · rw [if_neg hname, if_neg hname, ih]

theorem put_mapValues (key : String) (value : α) (entries : List (String × α)) :
    put key (f key value) (mapValues f entries) =
      mapValues f (put key value entries) := by
  induction entries with
  | nil => rfl
  | cons entry entries ih =>
      obtain ⟨name, old⟩ := entry
      simp only [mapValues, List.map_cons, put] at ih ⊢
      by_cases hname : name = key
      · simp [hname]
      · simp only [if_neg hname, List.map_cons, ih]

theorem erase_mapValues (key : String) (entries : List (String × α)) :
    erase key (mapValues f entries) = mapValues f (erase key entries) := by
  induction entries with
  | nil => rfl
  | cons entry entries ih =>
      obtain ⟨name, old⟩ := entry
      simp only [mapValues, List.map_cons, erase] at ih ⊢
      by_cases hname : name = key
      · simp [hname]
      · simp only [if_neg hname, List.map_cons, ih]

end MapValues

end ShapeMend.Keyed
