import ShapeMend.Proofs.Keyed
import ShapeMend.Workspace

/-!
# What a workspace should hold

A workspace should hold the last text that could be read under each id.  The
operations are given twice: as they work on a workspace, and as they should work
on the texts, which are read afresh whenever something is asked about them.
-/

namespace ShapeMend

/-- The last text that was read under each id, in the order in which the ids
came. -/
abbrev Texts := List (String × String)

inductive Operation where
  | load (id text : String)
  | loadMany (sources : List (String × String))
  | invalidate (id : String)

inductive Outcome where
  | loaded (result : Except SourceError Bool)
  | loadedMany (result : Except SourceError Nat)
  | invalidated (present : Bool)

namespace Operation

/-- The sources that are handed over. -/
def sources : Operation → List (String × String)
  | load id text => [(id, text)]
  | loadMany sources => sources
  | invalidate _ => []

/-- No id is given twice at once. -/
def DistinctIds (operation : Operation) : Prop :=
  (Keyed.keys operation.sources).Nodup

instance (operation : Operation) : Decidable operation.DistinctIds :=
  inferInstanceAs (Decidable (Keyed.keys operation.sources).Nodup)

end Operation

/-! ## On workspaces -/

namespace Workspace

def perform (workspace : Workspace) : Operation → Outcome × Workspace
  | .load id text =>
    match workspace.load id text with
    | .ok result => (.loaded (.ok result.value.1), result.value.2)
    | .error error => (.loaded (.error error), workspace)
  | .loadMany sources =>
    let result := workspace.loadMany sources
    (.loadedMany result.outcome, result.workspace)
  | .invalidate id =>
    let (present, workspace) := workspace.invalidate id
    (.invalidated present, workspace)

def run (workspace : Workspace) : List Operation → List Outcome × Workspace
  | [] => ([], workspace)
  | operation :: operations =>
    let (outcome, next) := workspace.perform operation
    let (outcomes, last) := run next operations
    (outcome :: outcomes, last)

end Workspace

/-! ## On texts -/

def failure? (exportAll : Bool) (source : String × String) :
    Option SourceError :=
  match schemaOfSource ⟨source.1, source.2⟩ exportAll with
  | .ok _ => none
  | .error error => some error

namespace Texts

def record (texts : Texts) (source : String × String) : Texts :=
  if source.1 ∈ Keyed.keys texts then
    texts.map fun entry => if entry.1 = source.1 then source else entry
  else texts ++ [source]

def forget (texts : Texts) (id : String) : Texts := texts.filter (·.1 ≠ id)

def perform (exportAll : Bool) (texts : Texts) : Operation → Outcome × Texts
  | .load id text =>
    match failure? exportAll (id, text) with
    | some error => (.loaded (.error error), texts)
    | none => (.loaded (.ok ((id, text) ∉ texts)), texts.record (id, text))
  | .loadMany sources =>
    let outcome :=
      match sources.findSome? (failure? exportAll) with
      | some error => .error error
      | none => .ok (sources.filter (· ∉ texts)).length
    (.loadedMany outcome,
      (sources.filter fun source => (failure? exportAll source).isNone).foldl
        record texts)
  | .invalidate id => (.invalidated (id ∈ Keyed.keys texts), texts.forget id)

def run (exportAll : Bool) (texts : Texts) :
    List Operation → List Outcome × Texts
  | [] => ([], texts)
  | operation :: operations =>
    let (outcome, next) := perform exportAll texts operation
    let (outcomes, last) := run exportAll next operations
    (outcome :: outcomes, last)

/-! ## As keyed lists -/

private theorem map_eq_self_of_not_mem {texts : Texts}
    {source : String × String} (h : source.1 ∉ Keyed.keys texts) :
    (texts.map fun entry => if entry.1 = source.1 then source else entry) =
      texts := by
  induction texts with
  | nil => rfl
  | cons entry texts ih =>
      rw [Keyed.keys_cons, List.mem_cons, not_or] at h
      rw [List.map_cons, if_neg (Ne.symm h.1), ih h.2]

theorem record_eq_put {texts : Texts} (hdistinct : (Keyed.keys texts).Nodup)
    (source : String × String) :
    texts.record source = Keyed.put source.1 source.2 texts := by
  induction texts with
  | nil => rfl
  | cons entry texts ih =>
      obtain ⟨name, old⟩ := entry
      rw [Keyed.keys_cons, List.nodup_cons] at hdistinct
      have htail := ih hdistinct.2
      by_cases hname : name = source.1
      · have hfresh : source.1 ∉ Keyed.keys texts := hname ▸ hdistinct.1
        simp [record, Keyed.put, hname, map_eq_self_of_not_mem hfresh]
      · unfold record at htail ⊢
        simp only [Keyed.keys_cons, List.mem_cons, Ne.symm hname, false_or,
          List.map_cons, hname, if_false, Keyed.put, List.cons_append]
        rw [← htail]
        split
        · rfl
        · rfl

theorem forget_eq_erase {texts : Texts} (hdistinct : (Keyed.keys texts).Nodup)
    (id : String) : texts.forget id = Keyed.erase id texts := by
  induction texts with
  | nil => rfl
  | cons entry texts ih =>
      obtain ⟨name, old⟩ := entry
      rw [Keyed.keys_cons, List.nodup_cons] at hdistinct
      have htail := ih hdistinct.2
      by_cases hname : name = id
      · have hrest : texts.filter (·.1 ≠ id) = texts := by
          rw [List.filter_eq_self]
          intro other hother
          have hne : other.1 ≠ id := by
            rintro rfl
            exact hdistinct.1 (hname ▸ List.mem_map.mpr ⟨other, hother, rfl⟩)
          simpa using hne
        simp [forget, Keyed.erase, hname] at hrest ⊢
        exact hrest
      · simp only [forget, Keyed.erase, if_neg hname] at htail ⊢
        rw [List.filter_cons_of_pos (by simpa using hname), htail]

/-! ## Members -/

theorem eq_or_mem_of_mem_record {texts : Texts} {new source : String × String}
    (h : source ∈ texts.record new) : source = new ∨ source ∈ texts := by
  unfold record at h
  split at h
  · obtain ⟨entry, hentry, rfl⟩ := List.mem_map.mp h
    split
    · exact .inl rfl
    · exact .inr hentry
  · rcases List.mem_append.mp h with hold | hnew
    · exact .inr hold
    · exact .inl (List.mem_singleton.mp hnew)

theorem mem_of_mem_foldl_record {texts : Texts}
    {sources : List (String × String)} {source : String × String}
    (h : source ∈ sources.foldl record texts) :
    source ∈ texts ∨ source ∈ sources := by
  induction sources generalizing texts with
  | nil => exact .inl h
  | cons new sources ih =>
      rcases ih h with hrecorded | htail
      · rcases eq_or_mem_of_mem_record hrecorded with rfl | hold
        · exact .inr (by simp)
        · exact .inl hold
      · exact .inr (by simp [htail])

private theorem mem_record_of_ne {texts : Texts} {new source : String × String}
    (h : source ∈ texts) (hne : source.1 ≠ new.1) :
    source ∈ texts.record new := by
  unfold record
  split
  · exact List.mem_map.mpr ⟨source, h, if_neg hne⟩
  · exact List.mem_append_left _ h

theorem nodup_record {texts : Texts} (h : (Keyed.keys texts).Nodup)
    (source : String × String) : (Keyed.keys (texts.record source)).Nodup := by
  rw [record_eq_put h]
  exact Keyed.nodup_keys_put _ _ h

theorem record_of_mem {texts : Texts} (hdistinct : (Keyed.keys texts).Nodup)
    {source : String × String} (h : source ∈ texts) :
    texts.record source = texts := by
  rw [record_eq_put hdistinct]
  exact Keyed.put_of_lookup (Keyed.lookup_of_mem hdistinct h)

/-- Among sources with distinct ids, those that are held already need not be
recorded. -/
theorem foldl_record_eq {held texts : Texts} {sources : List (String × String)}
    (hids : (Keyed.keys sources).Nodup) (hdistinct : (Keyed.keys texts).Nodup)
    (hheld : ∀ source ∈ sources, source ∈ held → source ∈ texts) :
    sources.foldl record texts =
      (sources.filter (· ∉ held)).foldl record texts := by
  induction sources generalizing texts with
  | nil => rfl
  | cons source sources ih =>
      rw [Keyed.keys_cons, List.nodup_cons] at hids
      by_cases hsource : source ∈ held
      · have hmem := hheld source (by simp) hsource
        rw [List.filter_cons_of_neg (by simpa using hsource), List.foldl_cons,
          record_of_mem hdistinct hmem]
        apply ih hids.2 hdistinct
        intro other hother
        exact hheld other (by simp [hother])
      · rw [List.filter_cons_of_pos (by simpa using hsource), List.foldl_cons,
          List.foldl_cons]
        apply ih hids.2 (nodup_record hdistinct source)
        intro other hother hkept
        apply mem_record_of_ne (hheld other (by simp [hother]) hkept)
        intro hsame
        exact hids.1 (hsame ▸ List.mem_map.mpr ⟨other, hother, rfl⟩)

end Texts

end ShapeMend
