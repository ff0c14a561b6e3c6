import ShapeMend.Proofs.Schema.Merge
import ShapeMend.Proofs.Workspace.Texts

/-!
# Workspaces hold what they should

As long as no two texts in use have one fingerprint, every operation answers as
it should, and what a workspace holds are the declarations of the texts that it
should hold, as if each had just been read.
-/

namespace ShapeMend

def freshSource (exportAll : Bool) (id text : String) : LoadedSource where
  fingerprint := Text.fingerprint text
  declarations :=
    match schemaOfSource ⟨id, text⟩ exportAll with
    | .ok parsed => parsed.value.declarations
    | .error _ => []

structure Workspace.Coherent (workspace : Workspace) (texts : Texts) :
    Prop where
  distinct : (Keyed.keys texts).Nodup
  readable : ∀ source ∈ texts, failure? workspace.exportAll source = none
  sources_eq :
    workspace.sources = Keyed.mapValues (freshSource workspace.exportAll) texts

/-- Texts in use are told apart by their fingerprints. -/
def ToldApart (used : List String) : Prop :=
  ∀ first ∈ used, ∀ second ∈ used,
    Text.fingerprint first = Text.fingerprint second → first = second

instance (used : List String) : Decidable (ToldApart used) :=
  inferInstanceAs (Decidable (∀ first ∈ used, _))

namespace Workspace

variable {workspace : Workspace} {texts : Texts}

private theorem coherent_new (exportAll : Bool) :
    (new exportAll).Coherent [] where
  distinct := List.nodup_nil
  readable := by simp
  sources_eq := rfl

/-! ## Reading -/

theorem read_of_failure {id text : String} {error : SourceError}
    (h : failure? workspace.exportAll (id, text) = some error) :
    workspace.read id text = .error error := by
  unfold failure? at h
  unfold read
  split at h
  · simp at h
  · next hsource =>
      rw [hsource, ← Option.some.inj h]
      rfl

theorem read_of_readable {id text : String}
    (h : failure? workspace.exportAll (id, text) = none) :
    ∃ events, workspace.read id text =
      .ok ⟨freshSource workspace.exportAll id text, events⟩ := by
  unfold failure? at h
  unfold read freshSource
  split at h
  · next parsed hsource =>
      refine ⟨parsed.events, ?_⟩
      rw [hsource]
      rfl
  · simp at h

theorem Coherent.isCurrent_iff (h : workspace.Coherent texts)
    {used : List String} (hused : ToldApart used)
    (htexts : ∀ source ∈ texts, source.2 ∈ used) {id text : String}
    (htext : text ∈ used) :
    workspace.isCurrent id text ↔ (id, text) ∈ texts := by
  unfold isCurrent
  rw [h.sources_eq, Keyed.lookup_mapValues]
  constructor
  · intro hcurrent
    cases hfound : Keyed.lookup id texts with
    | none => simp [hfound] at hcurrent
    | some held =>
        have hmem := Keyed.mem_of_lookup hfound
        have hsame : Text.fingerprint held = Text.fingerprint text := by
          simpa [hfound, freshSource] using hcurrent
        exact hused held (htexts _ hmem) text htext hsame ▸ hmem
  · intro hmem
    rw [Keyed.lookup_of_mem h.distinct hmem]
    simp [freshSource]

theorem Coherent.put (h : workspace.Coherent texts) {id text : String}
    (hreadable : failure? workspace.exportAll (id, text) = none) :
    (workspace.put id (freshSource workspace.exportAll id text)).Coherent
      (texts.record (id, text)) where
  distinct := Texts.nodup_record h.distinct (id, text)
  readable := by
    intro source hsource
    rcases Texts.eq_or_mem_of_mem_record hsource with rfl | hold
    · exact hreadable
    · exact h.readable source hold
  sources_eq := by
    rw [Texts.record_eq_put h.distinct]
    simp only [Workspace.put, h.sources_eq]
    exact Keyed.put_mapValues _ id text texts

private theorem Coherent.forget (h : workspace.Coherent texts) (id : String) :
    (workspace.invalidate id).2.Coherent (texts.forget id) where
  distinct := h.distinct.sublist (List.Sublist.map _ List.filter_sublist)
  readable := by
    intro source hsource
    exact h.readable source (List.mem_filter.mp hsource).1
  sources_eq := by
    rw [Texts.forget_eq_erase h.distinct]
    simp only [invalidate, h.sources_eq]
    exact Keyed.erase_mapValues _ id texts

/-! ## Batches -/

def putAll (workspace : Workspace)
    (sources : List (String × String)) : Workspace :=
  sources.foldl (fun workspace source =>
    workspace.put source.1 (freshSource workspace.exportAll source.1 source.2))
      workspace

private theorem Coherent.putAll {sources : List (String × String)}
    (h : workspace.Coherent texts)
    (hreadable : ∀ source ∈ sources,
      failure? workspace.exportAll source = none) :
    (workspace.putAll sources).Coherent (sources.foldl Texts.record texts) := by
  induction sources generalizing workspace texts with
  | nil => exact h
  | cons source sources ih =>
      apply ih (h.put (hreadable source (by simp)))
      intro other hother
      exact hreadable other (by simp [hother])

private theorem step_of_failure {start : Workspace} {source : String × String}
    {error : SourceError} (h : failure? start.exportAll source = some error)
    (result : BatchResult) :
    (BatchResult.step start result source).workspace = result.workspace ∧
      (BatchResult.step start result source).outcome =
        result.outcome.bind fun _ => .error error := by
  have hread := read_of_failure h
  unfold BatchResult.step
  rw [hread]
  cases houtcome : result.outcome with
  | error earlier => simp [houtcome, Except.bind]
  | ok count => simp [Except.bind]

private theorem step_of_readable {start : Workspace} {source : String × String}
    (h : failure? start.exportAll source = none) (result : BatchResult) :
    (BatchResult.step start result source).workspace =
        result.workspace.put source.1
          (freshSource start.exportAll source.1 source.2) ∧
      (BatchResult.step start result source).outcome =
        result.outcome.map (· + 1) := by
  obtain ⟨events, hread⟩ := read_of_readable h
  unfold BatchResult.step
  rw [hread]
  exact ⟨rfl, rfl⟩

theorem foldl_step (start : Workspace) (sources : List (String × String))
    (result : BatchResult)
    (hexport : result.workspace.exportAll = start.exportAll) :
    (sources.foldl (BatchResult.step start) result).workspace =
      result.workspace.putAll
      (sources.filter fun source => (failure? start.exportAll source).isNone) ∧
    (sources.foldl (BatchResult.step start) result).outcome =
      result.outcome.bind fun count =>
        match sources.findSome? (failure? start.exportAll) with
        | some error => .error error
        | none => .ok (count + sources.length) := by
  induction sources generalizing result with
  | nil =>
      refine ⟨rfl, ?_⟩
      cases houtcome : result.outcome with
      | error error => simp [houtcome, Except.bind]
      | ok count => simp [houtcome, Except.bind]
  | cons source sources ih =>
      rw [List.foldl_cons]
      cases hfailure : failure? start.exportAll source with
      | some error =>
          obtain ⟨hworkspace, houtcome⟩ := step_of_failure hfailure result
          obtain ⟨htail, hlast⟩ := ih (BatchResult.step start result source)
            (by rw [hworkspace, hexport])
          refine ⟨?_, ?_⟩
          · rw [htail, hworkspace, List.filter_cons_of_neg (by simp [hfailure])]
          · rw [hlast, houtcome]
            cases result.outcome <;> simp [Except.bind, hfailure]
      | none =>
          obtain ⟨hworkspace, houtcome⟩ := step_of_readable hfailure result
          obtain ⟨htail, hlast⟩ := ih (BatchResult.step start result source)
            (by rw [hworkspace]; exact hexport)
          refine ⟨?_, ?_⟩
          · rw [htail, hworkspace,
              List.filter_cons_of_pos (by simp [hfailure]), ← hexport]
            rfl
          · rw [hlast, houtcome, List.findSome?_cons, hfailure]
            cases result.outcome with
            | error error => rfl
            | ok count =>
                simp only [Except.map, Except.bind, List.length_cons]
                cases sources.findSome? (failure? start.exportAll) with
                | some error => rfl
                | none => simp [Nat.add_assoc, Nat.add_comm 1]

/-! ## One operation -/

section Perform

variable {used : List String} (hused : ToldApart used)
include hused

private theorem Coherent.load (h : workspace.Coherent texts)
    (htexts : ∀ source ∈ texts, source.2 ∈ used) {id text : String}
    (htext : text ∈ used) :
    (workspace.perform (.load id text)).1 =
        (texts.perform workspace.exportAll (.load id text)).1 ∧
      (workspace.perform (.load id text)).2.Coherent
        (texts.perform workspace.exportAll (.load id text)).2 := by
  have hcurrent : workspace.isCurrent id text ↔ (id, text) ∈ texts :=
    h.isCurrent_iff hused htexts htext
  simp only [perform, Texts.perform, Workspace.load]
  by_cases hmem : (id, text) ∈ texts
  · rw [if_pos (hcurrent.mpr hmem), h.readable _ hmem]
    refine ⟨?_, ?_⟩
    · simp [hmem]
    · rw [Texts.record_of_mem h.distinct hmem]
      exact h
  · rw [if_neg (fun hyes => hmem (hcurrent.mp hyes))]
    cases hfailure : failure? workspace.exportAll (id, text) with
    | some error =>
        rw [read_of_failure hfailure]
        exact ⟨rfl, h⟩
    | none =>
        obtain ⟨events, hread⟩ := read_of_readable hfailure
        rw [hread]
        refine ⟨?_, h.put hfailure⟩
        simp [hmem, Except.map]

omit hused in
private theorem findSome?_filter (h : workspace.Coherent texts)
    (sources : List (String × String)) :
    (sources.filter (· ∉ texts)).findSome? (failure? workspace.exportAll) =
      sources.findSome? (failure? workspace.exportAll) := by
  induction sources with
  | nil => rfl
  | cons source sources ih =>
      by_cases hmem : source ∈ texts
      · rw [List.filter_cons_of_neg (by simpa using hmem), ih,
          List.findSome?_cons, h.readable source hmem]
      · rw [List.filter_cons_of_pos (by simpa using hmem), List.findSome?_cons,
          List.findSome?_cons, ih]

private theorem Coherent.filter_stale (h : workspace.Coherent texts)
    (htexts : ∀ source ∈ texts, source.2 ∈ used)
    {sources : List (String × String)}
    (hsources : ∀ source ∈ sources, source.2 ∈ used) :
    (sources.filter fun source => !workspace.isCurrent source.1 source.2) =
      sources.filter (· ∉ texts) := by
  refine List.filter_congr fun source hsource => ?_
  have hcurrent :
      workspace.isCurrent source.1 source.2 = decide (source ∈ texts) := by
    rw [Bool.eq_iff_iff, decide_eq_true_eq]
    exact h.isCurrent_iff hused htexts (hsources source hsource)
  rw [hcurrent, decide_not]

private theorem Coherent.loadMany (h : workspace.Coherent texts)
    (htexts : ∀ source ∈ texts, source.2 ∈ used)
    {sources : List (String × String)} (hids : (Keyed.keys sources).Nodup)
    (hsources : ∀ source ∈ sources, source.2 ∈ used) :
    (workspace.perform (.loadMany sources)).1 =
        (texts.perform workspace.exportAll (.loadMany sources)).1 ∧
      (workspace.perform (.loadMany sources)).2.Coherent
        (texts.perform workspace.exportAll (.loadMany sources)).2 := by
  obtain ⟨hworkspace, houtcome⟩ :=
    foldl_step workspace (sources.filter (· ∉ texts))
    ⟨workspace, .ok 0, []⟩ rfl
  simp only [perform, Texts.perform, Workspace.loadMany,
    h.filter_stale hused htexts hsources]
  refine ⟨?_, ?_⟩
  · rw [houtcome, findSome?_filter h]
    cases sources.findSome? (failure? workspace.exportAll) with
    | some error => rfl
    | none => simp [Except.bind]
  · have hreadableIds : (Keyed.keys (sources.filter fun source =>
        (failure? workspace.exportAll source).isNone)).Nodup :=
      hids.sublist (List.Sublist.map _ List.filter_sublist)
    have hfilters : (sources.filter fun source =>
        (failure? workspace.exportAll source).isNone).filter (· ∉ texts) =
        (sources.filter (· ∉ texts)).filter fun source =>
          (failure? workspace.exportAll source).isNone := by
      simp only [List.filter_filter, Bool.and_comm]
    rw [hworkspace, Texts.foldl_record_eq hreadableIds h.distinct
      (fun _ _ hheld => hheld), hfilters]
    apply h.putAll
    intro source hsource
    simpa using (List.mem_filter.mp hsource).2

end Perform

/-! ## Runs -/

private theorem exportAll_putAll (workspace : Workspace)
    (sources : List (String × String)) :
    (workspace.putAll sources).exportAll = workspace.exportAll := by
  unfold putAll
  induction sources generalizing workspace with
  | nil => rfl
  | cons source sources ih => exact ih _

theorem exportAll_perform (workspace : Workspace) (operation : Operation) :
    (workspace.perform operation).2.exportAll = workspace.exportAll := by
  cases operation with
  | load id text =>
      simp only [perform, Workspace.load]
      split
      · next result hload =>
          split at hload
          · obtain rfl := Except.ok.inj hload
            rfl
          · cases hread : workspace.read id text with
            | error error => simp [hread, Except.map] at hload
            | ok source =>
                simp only [hread, Except.map, Except.ok.injEq] at hload
                subst hload
                rfl
      · rfl
  | loadMany sources =>
      simp only [perform, Workspace.loadMany]
      rw [(foldl_step workspace _ ⟨workspace, .ok 0, []⟩ rfl).1,
        exportAll_putAll]
  | invalidate id => rfl

theorem exportAll_run (workspace : Workspace) (operations : List Operation) :
    (workspace.run operations).2.exportAll = workspace.exportAll := by
  induction operations generalizing workspace with
  | nil => rfl
  | cons operation operations ih =>
      simp only [run]
      rw [ih, exportAll_perform]

private theorem Coherent.perform (h : workspace.Coherent texts)
    {used : List String} (hused : ToldApart used)
    (htexts : ∀ source ∈ texts, source.2 ∈ used) {operation : Operation}
    (hids : operation.DistinctIds)
    (hsources : ∀ source ∈ operation.sources, source.2 ∈ used) :
    (workspace.perform operation).1 =
      (texts.perform workspace.exportAll operation).1 ∧
      (workspace.perform operation).2.Coherent
        (texts.perform workspace.exportAll operation).2 := by
  cases operation with
  | load id text =>
      exact h.load hused htexts
        (hsources (id, text) (by simp [Operation.sources]))
  | loadMany sources => exact h.loadMany hused htexts hids hsources
  | invalidate id =>
      have hpresent : (Keyed.lookup id workspace.sources).isSome =
          decide (id ∈ Keyed.keys texts) := by
        rw [Bool.eq_iff_iff, Keyed.isSome_lookup_iff, h.sources_eq,
          Keyed.keys_mapValues, decide_eq_true_iff]
      refine ⟨?_, h.forget id⟩
      simp only [Workspace.perform, invalidate, Texts.perform, hpresent]

end Workspace

private theorem Texts.mem_perform {exportAll : Bool} {texts : Texts}
    {operation : Operation} {source : String × String}
    (h : source ∈ (texts.perform exportAll operation).2) :
    source ∈ texts ∨ source ∈ operation.sources := by
  cases operation with
  | load id text =>
      simp only [perform] at h
      split at h
      · exact .inl h
      · rcases eq_or_mem_of_mem_record h with rfl | hold
        · exact .inr (by simp [Operation.sources])
        · exact .inl hold
  | loadMany sources =>
      rcases mem_of_mem_foldl_record h with hold | hnew
      · exact .inl hold
      · exact .inr (List.mem_filter.mp hnew).1
  | invalidate id => exact .inl (List.mem_filter.mp h).1

private theorem Workspace.Coherent.run {used : List String}
    (hused : ToldApart used) {operations : List Operation}
    (hids : ∀ operation ∈ operations, operation.DistinctIds)
    (hsources : ∀ operation ∈ operations, ∀ source ∈ operation.sources,
      source.2 ∈ used)
    {workspace : Workspace} {texts : Texts} (h : workspace.Coherent texts)
    (htexts : ∀ source ∈ texts, source.2 ∈ used) :
    (workspace.run operations).1 =
      (texts.run workspace.exportAll operations).1 ∧
      (workspace.run operations).2.Coherent
        (texts.run workspace.exportAll operations).2 := by
  induction operations generalizing workspace texts with
  | nil => exact ⟨rfl, h⟩
  | cons operation operations ih =>
      have hoperation := hsources operation (by simp)
      obtain ⟨houtcome, hnext⟩ :=
        h.perform hused htexts (hids operation (by simp)) hoperation
      have htail := ih (fun other hother => hids other (by simp [hother]))
        (fun other hother => hsources other (by simp [hother])) hnext (by
          intro source hsource
          rcases Texts.mem_perform hsource with hold | hnew
          · exact htexts source hold
          · exact hoperation source hnew)
      rw [Workspace.exportAll_perform] at htail
      simp only [Workspace.run, Texts.run]
      exact ⟨by rw [houtcome, htail.1], htail.2⟩

/-! ## Schemas -/

namespace Workspace

private theorem value_mergeAll (source : String) (schema : Schema)
    (declarations : List Declaration) :
    (mergeAll source schema declarations).value =
      declarations.foldl
        (fun schema declaration => (schema.merge declaration).2) schema := by
  induction declarations generalizing schema with
  | nil => rfl
  | cons declaration declarations ih =>
      simp only [mergeAll, Logged.value_bind, Schema.value_mergeFrom,
        List.foldl_cons, ih]

private theorem value_mergeSources (schema : Schema)
    (sources : List (String × LoadedSource)) :
    (mergeSources schema sources).value =
      (sources.flatMap (·.2.declarations)).foldl
        (fun schema declaration => (schema.merge declaration).2) schema := by
  induction sources generalizing schema with
  | nil => rfl
  | cons source sources ih =>
      obtain ⟨id, source⟩ := source
      simp only [mergeSources, Logged.value_bind, value_mergeAll, ih,
        List.flatMap_cons, List.foldl_append]

theorem value_schema (workspace : Workspace) :
    workspace.schema.value =
      .ofDeclarations (workspace.sources.flatMap (·.2.declarations)) :=
  value_mergeSources .empty workspace.sources

private theorem Coherent.exists_parsed {workspace : Workspace} {texts : Texts}
    (h : workspace.Coherent texts) :
    ∃ parsed : List Schema,
      texts.mapM (fun source => (schemaOfSource ⟨source.1, source.2⟩
        workspace.exportAll).map (·.value)) = .ok parsed ∧
      workspace.sources = List.zipWith (fun source schema =>
        (source.1, ⟨Text.fingerprint source.2, schema.declarations⟩)) texts
          parsed ∧
      workspace.sources.map (·.2.declarations) =
        parsed.map (·.declarations) := by
  rw [h.sources_eq]
  have hreadable := h.readable
  clear h
  induction texts with
  | nil => exact ⟨[], rfl, rfl, rfl⟩
  | cons source texts ih =>
      obtain ⟨parsed, hparsed, hzip, hheld⟩ := ih fun other hother =>
        hreadable other (by simp [hother])
      have hsource := hreadable source (by simp)
      unfold failure? at hsource
      split at hsource
      · next schema hschema =>
          have hfresh : Keyed.mapValues (freshSource workspace.exportAll)
              (source :: texts) =
              (source.1,
                ⟨Text.fingerprint source.2, schema.value.declarations⟩) ::
                Keyed.mapValues (freshSource workspace.exportAll) texts := by
            simp [Keyed.mapValues, freshSource, hschema]
          refine ⟨schema.value :: parsed, ?_, ?_, ?_⟩
          · rw [List.mapM_cons, hparsed, hschema]
            rfl
          · rw [hfresh, List.zipWith_cons_cons, ← hzip]
          · rw [hfresh, List.map_cons, List.map_cons, hheld]
      · simp at hsource

/-- After any operations every answer is the one that the texts call for, and
the workspace stands as if the texts it should hold had just been read, in their
order. -/
theorem run_new (exportAll : Bool) {operations : List Operation}
    (hids : ∀ operation ∈ operations, operation.DistinctIds)
    (hused : ToldApart (operations.flatMap fun operation =>
      operation.sources.map (·.2))) :
    ((new exportAll).run operations).1 = (Texts.run exportAll [] operations).1 ∧
      ∃ parsed : List Schema,
        (Texts.run exportAll [] operations).2.mapM (fun source =>
          (schemaOfSource ⟨source.1, source.2⟩ exportAll).map (·.value)) =
            .ok parsed ∧
        ((new exportAll).run operations).2.sources =
          List.zipWith (fun source schema =>
            (source.1, ⟨Text.fingerprint source.2, schema.declarations⟩))
            (Texts.run exportAll [] operations).2 parsed ∧
        ((new exportAll).run operations).2.schema.value =
          .ofDeclarations (parsed.flatMap (·.declarations)) := by
  have hsources : ∀ operation ∈ operations, ∀ source ∈ operation.sources,
      source.2 ∈ operations.flatMap fun operation =>
        operation.sources.map (·.2) := by
    intro operation hoperation source hsource
    exact List.mem_flatMap.mpr
      ⟨operation, hoperation, List.mem_map.mpr ⟨source, hsource, rfl⟩⟩
  obtain ⟨houtcomes, hcoherent⟩ :=
    (coherent_new exportAll).run hused hids hsources (by simp)
  obtain ⟨parsed, hparsed, hzip, hheld⟩ := hcoherent.exists_parsed
  rw [exportAll_run (new exportAll) operations] at hparsed
  refine ⟨houtcomes, parsed, hparsed, hzip, ?_⟩
  rw [value_schema, List.flatMap_def, hheld, ← List.flatMap_def]

/-- A text that is loaded, loaded again, replaced in a batch that fails,
forgotten and loaded anew. -/
def reloads : List Operation := [
  .load "a" "interface A \x7b\x7d",
  .load "b" "type B = 1",
  .load "a" "interface A \x7b\x7d",
  .loadMany [("c", "type C ="), ("a", "interface A \x7b x: B \x7d"),
    ("b", "type B = 1")],
  .invalidate "a",
  .load "a" "interface A \x7b\x7d"]

theorem run_new_reloads :
    (∀ operation ∈ reloads, operation.DistinctIds) ∧
      ToldApart (reloads.flatMap fun operation => operation.sources.map (·.2)) ∧
      ((new true).run reloads).1 = (Texts.run true [] reloads).1 ∧
      ∃ parsed : List Schema,
        (Texts.run true [] reloads).2.mapM (fun source =>
          (schemaOfSource ⟨source.1, source.2⟩ true).map (·.value)) =
            .ok parsed ∧
        ((new true).run reloads).2.sources =
          List.zipWith (fun source schema =>
            (source.1, ⟨Text.fingerprint source.2, schema.declarations⟩))
            (Texts.run true [] reloads).2 parsed ∧
        ((new true).run reloads).2.schema.value =
          .ofDeclarations (parsed.flatMap (·.declarations)) := by
  have hids : ∀ operation ∈ reloads, operation.DistinctIds := by decide +kernel
  have hused : ToldApart (reloads.flatMap fun operation =>
      operation.sources.map (·.2)) := by decide +kernel
  exact ⟨hids, hused, run_new true hids hused⟩

end Workspace

end ShapeMend
