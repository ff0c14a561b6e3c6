import ShapeMend.Proofs.Workspace.Coherence

/-!
# Batches and single loads

A batch decides which texts are stale by what was held before it, a single load
by what is held when its turn comes.  The two part when the texts of an id lead
away from the one that is held and back to it: loaded one by one, it is held
again in the end, while the batch has left it out and keeps the other one.
-/

namespace ShapeMend.Workspace

/-- The ids with the fingerprints that are held under them. -/
def fingerprints (workspace : Workspace) : List (String × UInt64) :=
  Keyed.mapValues (fun _ source => source.fingerprint) workspace.sources

/-- The texts of an id that can be read, in order. -/
def readable (exportAll : Bool) (id : String)
    (sources : List (String × String)) : List String :=
  (sources.filter fun source =>
    (failure? exportAll source).isNone && source.1 = id).map (·.2)

/-- The texts of some id end with one that passes for the text held before,
after one that does not. -/
def Returns (workspace : Workspace) (sources : List (String × String)) : Prop :=
  ∃ id ∈ Keyed.keys sources,
    (∃ last ∈ (readable workspace.exportAll id sources).getLast?,
      workspace.isCurrent id last) ∧
      ∃ text ∈ readable workspace.exportAll id sources,
        ¬ workspace.isCurrent id text

instance (workspace : Workspace) (sources : List (String × String)) :
    Decidable (workspace.Returns sources) :=
  inferInstanceAs (Decidable (∃ id ∈ Keyed.keys sources, _))

/-- Texts of one id are told apart by their fingerprints. -/
def ToldApartById (sources : List (String × String)) : Prop :=
  ∀ first ∈ sources, ∀ second ∈ sources, first.1 = second.1 →
    Text.fingerprint first.2 = Text.fingerprint second.2 → first.2 = second.2

instance (sources : List (String × String)) :
    Decidable (ToldApartById sources) :=
  inferInstanceAs (Decidable (∀ first ∈ sources, _))

/-- The operations that load the sources one by one. -/
def singly (sources : List (String × String)) : List Operation :=
  sources.map fun source => .load source.1 source.2

variable {workspace : Workspace} {sources : List (String × String)}
  {exportAll : Bool} {id : String}

private theorem readable_cons (source : String × String) :
    readable exportAll id (source :: sources) =
      readable exportAll id [source] ++ readable exportAll id sources := by
  rw [readable, readable, readable, ← List.map_append, ← List.filter_append]
  rfl

theorem mem_readable {text : String} :
    text ∈ readable exportAll id sources ↔
      (id, text) ∈ sources ∧ failure? exportAll (id, text) = none := by
  simp only [readable, List.mem_map, List.mem_filter, Bool.and_eq_true,
    decide_eq_true_iff, Option.isNone_iff_eq_none, Prod.exists]
  constructor
  · rintro ⟨_, _, ⟨hmem, hreadable, rfl⟩, rfl⟩
    exact ⟨hmem, hreadable⟩
  · rintro ⟨hmem, hreadable⟩
    exact ⟨id, text, ⟨hmem, hreadable, rfl⟩, rfl⟩

/-! ## What is held under one id -/

def passesFor (held : Option LoadedSource) (text : String) : Bool :=
  held.any (·.fingerprint = Text.fingerprint text)

def settle (exportAll : Bool) (id : String) (held : Option LoadedSource)
    (text : String) : Option LoadedSource :=
  if passesFor held text then held else some (freshSource exportAll id text)

section Settle

variable {held : Option LoadedSource} {texts : List String} {last : String}

theorem passesFor_iff (text : String) :
    passesFor held text ↔
      held.map (·.fingerprint) = some (Text.fingerprint text) := by
  cases held with
  | none => simp [passesFor]
  | some source => simp [passesFor]

theorem foldl_settle_of_passesFor (h : ∀ text ∈ texts, passesFor held text) :
    texts.foldl (settle exportAll id) held = held := by
  induction texts with
  | nil => rfl
  | cons text texts ih =>
      rw [List.foldl_cons, settle, if_pos (h text (by simp))]
      exact ih fun other hother => h other (by simp [hother])

private theorem foldl_settle_eq_or_fresh (exportAll : Bool) (id : String)
    (held : Option LoadedSource) (texts : List String) :
    texts.foldl (settle exportAll id) held = held ∨
      ∃ text ∈ texts, texts.foldl (settle exportAll id) held =
        some (freshSource exportAll id text) := by
  induction texts generalizing held with
  | nil => exact .inl rfl
  | cons text texts ih =>
      rw [List.foldl_cons]
      rcases ih (settle exportAll id held text)
        with hsame | ⟨later, hlater, hfresh⟩
      · rw [hsame, settle]
        split
        · exact .inl rfl
        · exact .inr ⟨text, by simp, rfl⟩
      · exact .inr ⟨later, by simp [hlater], hfresh⟩

/-- Loaded one by one, the last text wins, if not by itself then by one with its
fingerprint. -/
theorem fingerprint_foldl_settle (exportAll : Bool) (id : String)
    (held : Option LoadedSource) (hlast : last ∈ texts.getLast?) :
    (texts.foldl (settle exportAll id) held).map (·.fingerprint) =
      some (Text.fingerprint last) := by
  obtain ⟨before, rfl⟩ := List.getLast?_eq_some_iff.mp hlast
  rw [List.foldl_append, List.foldl_cons, List.foldl_nil, settle]
  split
  · next hpasses => exact (passesFor_iff last).mp hpasses
  · rfl

private theorem foldl_settle_of_told_apart (hlast : last ∈ texts.getLast?)
    (hstale : ¬ passesFor held last)
    (happart : ∀ text ∈ texts,
      Text.fingerprint text = Text.fingerprint last → text = last) :
    texts.foldl (settle exportAll id) held =
      some (freshSource exportAll id last) := by
  have hfingerprint := fingerprint_foldl_settle exportAll id held hlast
  rcases foldl_settle_eq_or_fresh exportAll id held texts
    with hsame | ⟨text, htext, hfresh⟩
  · rw [hsame] at hfingerprint
    exact absurd ((passesFor_iff last).mpr hfingerprint) hstale
  · rw [hfresh] at hfingerprint ⊢
    rw [happart text htext (Option.some.inj hfingerprint)]

end Settle

/-! ## What is held after the loads -/

theorem isCurrent_eq_passesFor (workspace : Workspace) (id text : String) :
    workspace.isCurrent id text =
      passesFor (Keyed.lookup id workspace.sources) text :=
  rfl

theorem workspace_load (workspace : Workspace) (source : String × String) :
    (workspace.perform (.load source.1 source.2)).2 =
      if (failure? workspace.exportAll source).isNone &&
        !workspace.isCurrent source.1 source.2 then
        workspace.put source.1
          (freshSource workspace.exportAll source.1 source.2)
      else workspace := by
  simp only [perform, load]
  by_cases hcurrent : workspace.isCurrent source.1 source.2
  · simp [hcurrent]
  · cases hfailure : failure? workspace.exportAll source with
    | some error => simp [hcurrent, read_of_failure hfailure, Except.map]
    | none =>
        obtain ⟨events, hread⟩ := read_of_readable hfailure
        simp [hcurrent, hread, Except.map]

private theorem lookup_load (workspace : Workspace) (id : String)
    (source : String × String) :
    Keyed.lookup id (workspace.perform (.load source.1 source.2)).2.sources =
      (readable workspace.exportAll id [source]).foldl
        (settle workspace.exportAll id)
        (Keyed.lookup id workspace.sources) := by
  rw [workspace_load]
  cases hfailure : failure? workspace.exportAll source with
  | some error => simp [readable, hfailure]
  | none =>
      by_cases hid : source.1 = id
      · subst hid
        simp only [readable, isCurrent_eq_passesFor, hfailure, List.filter_cons,
          Option.isNone_none, Bool.true_and, decide_true, if_true,
          List.filter_nil, List.map_cons, List.map_nil, List.foldl_cons,
          List.foldl_nil, settle]
        by_cases hpasses :
          passesFor (Keyed.lookup source.1 workspace.sources) source.2
        · simp [hpasses]
        · simp [hpasses, put, Keyed.lookup_put_self]
      · have hnone : readable workspace.exportAll id [source] = [] := by
          simp [readable, hid]
        rw [hnone, List.foldl_nil]
        split
        · exact Keyed.lookup_put_of_ne (Ne.symm hid) _ _
        · rfl

theorem lookup_singly (workspace : Workspace) (id : String)
    (sources : List (String × String)) :
    Keyed.lookup id (workspace.run (singly sources)).2.sources =
      (readable workspace.exportAll id sources).foldl
        (settle workspace.exportAll id)
        (Keyed.lookup id workspace.sources) := by
  induction sources generalizing workspace with
  | nil => rfl
  | cons source sources ih =>
      have htail := ih (workspace.perform (.load source.1 source.2)).2
      rw [exportAll_perform, lookup_load] at htail
      rw [readable_cons, List.foldl_append, ← htail]
      rfl

private theorem lookup_putAll (workspace : Workspace) (id : String)
    (sources : List (String × String)) :
    Keyed.lookup id (workspace.putAll sources).sources =
      ((((sources.filter (·.1 = id)).map (·.2)).getLast?.map
        (freshSource workspace.exportAll id)).or
          (Keyed.lookup id workspace.sources)) := by
  induction sources generalizing workspace with
  | nil => rfl
  | cons source sources ih =>
      have htail := ih (workspace.put source.1
        (freshSource workspace.exportAll source.1 source.2))
      by_cases hid : source.1 = id
      · subst hid
        rw [List.filter_cons_of_pos (by simp), List.map_cons,
          List.getLast?_cons]
        refine htail.trans ?_
        simp only [put, Keyed.lookup_put_self]
        cases ((sources.filter (·.1 = source.1)).map (·.2)).getLast? with
        | none => rfl
        | some text => rfl
      · rw [List.filter_cons_of_neg (by simpa using hid)]
        refine htail.trans ?_
        rw [put, Keyed.lookup_put_of_ne (Ne.symm hid)]

theorem lookup_loadMany (workspace : Workspace) (id : String)
    (sources : List (String × String)) :
    Keyed.lookup id (workspace.perform (.loadMany sources)).2.sources =
      ((((readable workspace.exportAll id sources).filter
          (!passesFor (Keyed.lookup id workspace.sources) ·)).getLast?.map
        (freshSource workspace.exportAll id)).or
          (Keyed.lookup id workspace.sources)) := by
  simp only [perform, loadMany]
  rw [(foldl_step workspace _ ⟨workspace, .ok 0, []⟩ rfl).1, lookup_putAll,
    readable, List.filter_map, List.filter_filter, List.filter_filter,
    List.filter_filter]
  congr 5
  funext source
  by_cases hid : source.1 = id
  · subst hid
    simp [isCurrent_eq_passesFor, Bool.and_comm]
  · simp [hid]

/-! ## Which ids are held -/

def withId (ids : List String) (id : String) : List String :=
  if id ∈ ids then ids else ids ++ [id]

theorem ids_put (workspace : Workspace) (id : String) (source : LoadedSource) :
    (workspace.put id source).ids = withId workspace.ids id :=
  Keyed.keys_put id source workspace.sources

theorem mem_ids_of_isCurrent {text : String} (h : workspace.isCurrent id text) :
    id ∈ workspace.ids := by
  rw [isCurrent] at h
  refine Keyed.isSome_lookup_iff.mp ?_
  cases hfound : Keyed.lookup id workspace.sources with
  | none => simp [hfound] at h
  | some source => rfl

private theorem foldl_withId_filter (sources : List (String × String))
    (keep : String × String → Bool) (ids : List String)
    (h : ∀ source ∈ sources, ¬ keep source → source.1 ∈ ids) :
    ((sources.filter keep).map (·.1)).foldl withId ids =
      (sources.map (·.1)).foldl withId ids := by
  induction sources generalizing ids with
  | nil => rfl
  | cons source sources ih =>
      have htail : ∀ other ∈ sources,
          ¬ keep other → other.1 ∈ withId ids source.1 := by
        intro other hother hleft
        have hknown := h other (by simp [hother]) hleft
        unfold withId
        split
        · exact hknown
        · exact List.mem_append_left _ hknown
      rw [List.map_cons, List.foldl_cons, ← ih _ htail]
      by_cases hkeep : keep source
      · rw [List.filter_cons_of_pos hkeep]
        rfl
      · rw [List.filter_cons_of_neg hkeep, withId,
          if_pos (h source (by simp) hkeep)]

private theorem ids_singly (workspace : Workspace)
    (sources : List (String × String)) :
    (workspace.run (singly sources)).2.ids =
      ((sources.filter fun source =>
        (failure? workspace.exportAll source).isNone).map (·.1)).foldl
        withId workspace.ids := by
  induction sources generalizing workspace with
  | nil => rfl
  | cons source sources ih =>
      have htail := ih (workspace.perform (.load source.1 source.2)).2
      rw [exportAll_perform] at htail
      refine htail.trans ?_
      rw [workspace_load]
      cases hfailure : failure? workspace.exportAll source with
      | some error => simp [hfailure]
      | none =>
          rw [List.filter_cons_of_pos (by simp [hfailure]), List.map_cons,
            List.foldl_cons]
          by_cases hcurrent : workspace.isCurrent source.1 source.2
          · simp [hcurrent, withId, mem_ids_of_isCurrent hcurrent]
          · simp [hcurrent, ids_put]

private theorem ids_putAll (workspace : Workspace)
    (sources : List (String × String)) :
    (workspace.putAll sources).ids =
      (sources.map (·.1)).foldl withId workspace.ids := by
  induction sources generalizing workspace with
  | nil => rfl
  | cons source sources ih => exact (ih _).trans (by rw [ids_put]; rfl)

theorem ids_loadMany (workspace : Workspace)
    (sources : List (String × String)) :
    (workspace.perform (.loadMany sources)).2.ids =
      (workspace.run (singly sources)).2.ids := by
  rw [ids_singly]
  simp only [perform, loadMany]
  rw [(foldl_step workspace _ ⟨workspace, .ok 0, []⟩ rfl).1, ids_putAll,
    List.filter_filter,
    ← foldl_withId_filter (sources.filter fun source =>
        (failure? workspace.exportAll source).isNone)
      (fun source => !workspace.isCurrent source.1 source.2),
    List.filter_filter]
  · simp only [Bool.and_comm]
  · intro source _ hcurrent
    exact mem_ids_of_isCurrent (by simpa using hcurrent)

theorem nodup_ids_load (h : workspace.ids.Nodup) (source : String × String) :
    (workspace.perform (.load source.1 source.2)).2.ids.Nodup := by
  rw [workspace_load]
  split
  · exact Keyed.nodup_keys_put _ _ h
  · exact h

private theorem nodup_ids_singly (h : workspace.ids.Nodup)
    (sources : List (String × String)) :
    (workspace.run (singly sources)).2.ids.Nodup := by
  induction sources generalizing workspace with
  | nil => exact h
  | cons source sources ih => exact ih (nodup_ids_load h source)

theorem nodup_ids_perform (h : workspace.ids.Nodup) (operation : Operation) :
    (workspace.perform operation).2.ids.Nodup := by
  cases operation with
  | load id text => exact nodup_ids_load h (id, text)
  | loadMany sources =>
      rw [ids_loadMany]
      exact nodup_ids_singly h sources
  | invalidate id =>
      exact h.sublist (Keyed.keys_erase_sublist id workspace.sources)

theorem nodup_ids_run (h : workspace.ids.Nodup) (operations : List Operation) :
    (workspace.run operations).2.ids.Nodup := by
  induction operations generalizing workspace with
  | nil => exact h
  | cons operation operations ih => exact ih (nodup_ids_perform h operation)

/-! ## Where they part -/

private theorem mem_ids_of_mem_readable {text : String}
    (h : text ∈ readable exportAll id sources) : id ∈ Keyed.keys sources :=
  List.mem_map.mpr ⟨(id, text), (mem_readable.mp h).1, rfl⟩

/-- Where nothing returns, either all texts of an id pass for what is held, or
the last does not. -/
theorem forall_passesFor_or_last_stale (h : ¬ workspace.Returns sources)
    (id : String) :
    (∀ text ∈ readable workspace.exportAll id sources,
        passesFor (Keyed.lookup id workspace.sources) text) ∨
      ∃ last ∈ (readable workspace.exportAll id sources).getLast?,
        ¬ passesFor (Keyed.lookup id workspace.sources) last := by
  cases hfound : (readable workspace.exportAll id sources).getLast? with
  | none =>
      left
      simp [List.getLast?_eq_none_iff.mp hfound]
  | some last =>
      by_cases hlast : passesFor (Keyed.lookup id workspace.sources) last
      · left
        intro text htext
        refine Decidable.byContradiction fun hstale => h ?_
        exact ⟨id, mem_ids_of_mem_readable htext, ⟨last, hfound, hlast⟩, text,
          htext, hstale⟩
      · exact .inr ⟨last, rfl, hlast⟩

private theorem getLast?_filter_of_last {texts : List String} {last : String}
    {keep : String → Bool} (hlast : last ∈ texts.getLast?) (hkeep : keep last) :
    (texts.filter keep).getLast? = some last := by
  obtain ⟨before, rfl⟩ := List.getLast?_eq_some_iff.mp hlast
  rw [List.filter_append, List.filter_cons_of_pos hkeep]
  simp

theorem lookup_loadMany_of_passesFor
    (h : ∀ text ∈ readable workspace.exportAll id sources,
      passesFor (Keyed.lookup id workspace.sources) text) :
    Keyed.lookup id (workspace.perform (.loadMany sources)).2.sources =
      Keyed.lookup id workspace.sources := by
  have hnone : (readable workspace.exportAll id sources).filter
      (!passesFor (Keyed.lookup id workspace.sources) ·) = [] := by
    simpa [List.filter_eq_nil_iff] using h
  rw [lookup_loadMany, hnone]
  rfl

theorem lookup_loadMany_of_last_stale {last : String}
    (hlast : last ∈ (readable workspace.exportAll id sources).getLast?)
    (hstale : ¬ passesFor (Keyed.lookup id workspace.sources) last) :
    Keyed.lookup id (workspace.perform (.loadMany sources)).2.sources =
      some (freshSource workspace.exportAll id last) := by
  rw [lookup_loadMany, getLast?_filter_of_last hlast (by simpa using hstale)]
  rfl

theorem lookup_fingerprints (workspace : Workspace) (id : String) :
    Keyed.lookup id workspace.fingerprints =
      (Keyed.lookup id workspace.sources).map (·.fingerprint) :=
  Keyed.lookup_mapValues _ id workspace.sources

private theorem fingerprints_loadMany_of_not_returns
    (hids : workspace.ids.Nodup) (h : ¬ workspace.Returns sources) :
    (workspace.perform (.loadMany sources)).2.fingerprints =
      (workspace.run (singly sources)).2.fingerprints := by
  apply Keyed.ext_lookup
  · simp only [fingerprints, Keyed.keys_mapValues]
    exact ids_loadMany workspace sources
  · simp only [fingerprints, Keyed.keys_mapValues]
    exact nodup_ids_perform hids _
  · intro id
    rw [lookup_fingerprints, lookup_fingerprints, lookup_singly]
    rcases forall_passesFor_or_last_stale h id with hall | ⟨last, hlast, hstale⟩
    · rw [lookup_loadMany_of_passesFor hall, foldl_settle_of_passesFor hall]
    · rw [lookup_loadMany_of_last_stale hlast hstale,
        fingerprint_foldl_settle _ _ _ hlast]
      rfl

private theorem loadMany_eq_singly_of_not_returns (hids : workspace.ids.Nodup)
    (happart : ToldApartById sources) (h : ¬ workspace.Returns sources) :
    (workspace.perform (.loadMany sources)).2 =
      (workspace.run (singly sources)).2 := by
  have hsources : (workspace.perform (.loadMany sources)).2.sources =
      (workspace.run (singly sources)).2.sources := by
    apply Keyed.ext_lookup (ids_loadMany workspace sources)
      (nodup_ids_perform hids _)
    intro id
    rw [lookup_singly]
    rcases forall_passesFor_or_last_stale h id with hall | ⟨last, hlast, hstale⟩
    · rw [lookup_loadMany_of_passesFor hall, foldl_settle_of_passesFor hall]
    · rw [lookup_loadMany_of_last_stale hlast hstale,
        foldl_settle_of_told_apart hlast hstale]
      intro text htext hsame
      exact happart _ (mem_readable.mp htext).1 _
        (mem_readable.mp (List.mem_of_getLast? hlast)).1 rfl hsame
  have hexport : (workspace.perform (.loadMany sources)).2.exportAll =
      (workspace.run (singly sources)).2.exportAll := by
    rw [exportAll_perform, exportAll_run]
  exact congr (congrArg Workspace.mk hexport) hsources

theorem fingerprints_loadMany_ne_of_returns (h : workspace.Returns sources) :
    (workspace.perform (.loadMany sources)).2.fingerprints ≠
      (workspace.run (singly sources)).2.fingerprints := by
  obtain ⟨id, -, ⟨last, hlast, hcurrent⟩, text, htext, hstale⟩ := h
  intro hsame
  have hkept : text ∈ (readable workspace.exportAll id sources).filter
      (!passesFor (Keyed.lookup id workspace.sources) ·) := by
    rw [List.mem_filter]
    exact ⟨htext, by simpa [isCurrent_eq_passesFor] using hstale⟩
  obtain ⟨kept, hwins⟩ := Option.isSome_iff_exists.mp
    (List.getLast?_isSome.mpr (List.ne_nil_of_mem hkept))
  have hbatch :
      Keyed.lookup id (workspace.perform (.loadMany sources)).2.fingerprints =
      some (Text.fingerprint kept) := by
    rw [lookup_fingerprints, lookup_loadMany, hwins]
    rfl
  have hsingle :
      Keyed.lookup id (workspace.run (singly sources)).2.fingerprints =
      some (Text.fingerprint last) := by
    rw [lookup_fingerprints, lookup_singly,
      fingerprint_foldl_settle _ _ _ hlast]
  have hpasses : passesFor (Keyed.lookup id workspace.sources) kept := by
    rw [passesFor_iff, ← hbatch, hsame, hsingle]
    exact (passesFor_iff last).mp hcurrent
  have hleft := (List.mem_filter.mp (List.mem_of_getLast? hwins)).2
  simp [hpasses] at hleft

/-- A batch holds the ids that the single loads hold.  Under each, the single
loads hold the last text that can be read, and so does the batch unless it
returns to a text that was held before. -/
theorem loadMany_eq_singly_iff (exportAll : Bool) (operations : List Operation)
    (sources : List (String × String)) :
    let workspace := ((new exportAll).run operations).2
    let batch := (workspace.perform (.loadMany sources)).2
    let single := (workspace.run (singly sources)).2
    batch.ids = single.ids ∧
      (∀ id, ∀ last ∈ (readable exportAll id sources).getLast?,
        (Keyed.lookup id single.sources).map (·.fingerprint) =
          some (Text.fingerprint last)) ∧
      (batch.fingerprints = single.fingerprints ↔ ¬ workspace.Returns sources) ∧
      (ToldApartById sources →
        (batch = single ↔ ¬ workspace.Returns sources)) := by
  intro workspace batch single
  have hnew : (new exportAll).ids.Nodup := List.nodup_nil
  have hids : workspace.ids.Nodup := nodup_ids_run hnew operations
  refine ⟨ids_loadMany workspace sources, ?_,
    ⟨?_, fingerprints_loadMany_of_not_returns hids⟩, ?_⟩
  · intro id last hlast
    have hexport : workspace.exportAll = exportAll := exportAll_run _ operations
    rw [lookup_singly]
    exact fingerprint_foldl_settle _ _ _ (hexport ▸ hlast)
  · exact fun hsame hreturns =>
      fingerprints_loadMany_ne_of_returns hreturns hsame
  · intro happart
    refine ⟨?_, loadMany_eq_singly_of_not_returns hids happart⟩
    exact fun hsame hreturns =>
      fingerprints_loadMany_ne_of_returns hreturns (congrArg fingerprints hsame)

/-- A source whose texts lead away from the one that is held, with a text on the
way that cannot be read. -/
def visiting : List (String × String) := [
  ("a", "interface A \x7b x: string \x7d"),
  ("a", "interface A \x7b"),
  ("b", "type B = 1"),
  ("a", "interface A \x7b y: number \x7d")]

theorem loadMany_eq_singly_visiting :
    let workspace :=
  ((new true).run [.load "a" "interface A \x7b x: string \x7d"]).2
    (workspace.perform (.loadMany visiting)).2 =
      (workspace.run (singly visiting)).2 := by
  have happart : ToldApartById visiting := by decide +kernel
  have hstays :
      ¬ ((new true).run [.load "a" "interface A \x7b x: string \x7d"]).2.Returns
      visiting := by decide +kernel
  exact
    ((loadMany_eq_singly_iff true [.load "a" "interface A \x7b x: string \x7d"]
    visiting).2.2.2 happart).mpr hstays

/-- The same source, led back to the text that is held. -/
def returning : List (String × String) :=
  visiting ++ [("a", "interface A \x7b x: string \x7d")]

theorem loadMany_ne_singly_returning :
    let workspace :=
  ((new true).run [.load "a" "interface A \x7b x: string \x7d"]).2
    (workspace.perform (.loadMany returning)).2 ≠
      (workspace.run (singly returning)).2 := by
  have hreturns :
      ((new true).run [.load "a" "interface A \x7b x: string \x7d"]).2.Returns
      returning := by decide +kernel
  intro workspace hsame
  exact fingerprints_loadMany_ne_of_returns hreturns
    (congrArg fingerprints hsame)

end ShapeMend.Workspace
