import ShapeMend.Proofs.Workspace.Batches

/-!
# What workspaces hold was read

Whatever holds of every source that is read afresh holds of all sources of a
workspace.  Operations that fail and texts that a batch leaves out change
nothing about that, so it stays so through any operations.
-/

namespace ShapeMend

private theorem exists_parsed_of_readable {exportAll : Bool} {id text : String}
    (h : failure? exportAll (id, text) = none) : ∃ parsed,
      schemaOfSource ⟨id, text⟩ exportAll = .ok parsed ∧
        (freshSource exportAll id text).declarations =
          parsed.value.declarations := by
  unfold failure? at h
  unfold freshSource
  split at h
  · next parsed hparsed => exact ⟨parsed, hparsed, by rw [hparsed]⟩
  · cases h

namespace Workspace

def Holds (P : LoadedSource → Prop) (workspace : Workspace) : Prop :=
  ∀ entry ∈ workspace.sources, P entry.2

def ReadsOnly (P : LoadedSource → Prop) (exportAll : Bool) : Prop :=
  ∀ id text,
    failure? exportAll (id, text) = none → P (freshSource exportAll id text)

variable {P : LoadedSource → Prop} {workspace : Workspace}

theorem readsOnly_of_parsed {exportAll : Bool} {Q : List Declaration → Prop}
    (h : ∀ source parsed,
      schemaOfSource source exportAll = .ok parsed →
      Q parsed.value.declarations) :
    ReadsOnly (fun source => Q source.declarations) exportAll := by
  intro id text hreadable
  obtain ⟨parsed, hparsed, hdeclarations⟩ := exists_parsed_of_readable hreadable
  rw [hdeclarations]
  exact h _ parsed hparsed

namespace Holds

theorem put (h : workspace.Holds P) (id : String) {source : LoadedSource}
    (hsource : P source) : (workspace.put id source).Holds P := by
  intro entry hentry
  rcases Keyed.eq_or_mem_of_mem_put hentry with rfl | hold
  · exact hsource
  · exact h entry hold

private theorem putAll (h : workspace.Holds P)
    (hread : ReadsOnly P workspace.exportAll) {sources : List (String × String)}
    (hreadable : ∀ source ∈ sources,
      failure? workspace.exportAll source = none) :
    (workspace.putAll sources).Holds P := by
  induction sources generalizing workspace with
  | nil => exact h
  | cons source sources ih =>
      have hput :=
        h.put source.1 (hread _ _ (hreadable source List.mem_cons_self))
      exact ih hput hread fun other hother =>
        hreadable other (List.mem_cons_of_mem _ hother)

private theorem perform (h : workspace.Holds P)
    (hread : ReadsOnly P workspace.exportAll) (operation : Operation) :
    (workspace.perform operation).2.Holds P := by
  cases operation with
  | load id text =>
      rw [workspace_load workspace (id, text)]
      split
      · next hstale =>
          rw [Bool.and_eq_true, Option.isNone_iff_eq_none] at hstale
          exact h.put id (hread id text hstale.1)
      · exact h
  | loadMany sources =>
      simp only [Workspace.perform, Workspace.loadMany]
      rw [(foldl_step workspace _ ⟨workspace, .ok 0, []⟩ rfl).1]
      refine h.putAll hread fun source hsource => ?_
      simpa using (List.mem_filter.mp hsource).2
  | invalidate id =>
      exact fun entry hentry => h entry (Keyed.mem_of_mem_erase hentry)

theorem run (h : workspace.Holds P) (hread : ReadsOnly P workspace.exportAll)
    (operations : List Operation) : (workspace.run operations).2.Holds P := by
  induction operations generalizing workspace with
  | nil => exact h
  | cons operation operations ih =>
      have hlater : ReadsOnly P (workspace.perform operation).2.exportAll := by
        rw [exportAll_perform]
        exact hread
      exact ih (h.perform hread operation) hlater

end Holds

end Workspace

end ShapeMend
