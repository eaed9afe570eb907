/-
# ReplicaDiff.Proofs.Run.Files — the files after a run

When a run says that it has written all its files, the error keys and the details
read back as what it has found, and so do the keys that differ if their path leads
elsewhere; the candidate keys stay as they were if no path leads to them
(`complete_run_files`).  No valid configuration is refused for the name of its
file: one that leads to another file of the run makes that file take its place
(`diffKeys_replaced`).
-/
import ReplicaDiff.Proofs.Output.Writing
import ReplicaDiff.Proofs.Run.Classified

namespace ReplicaDiff.Run

set_option autoImplicit false

open ReplicaDiff.Output (Artifact ReadsBack Wrote)
open ReplicaDiff.World

section

variable {config : Config} {connector : Connector} {tree : FileTree}
  {log : List (Stage Worker.State WorkerEffect)} {trace : Trace} {summary : Summary}

/-- A run that comes to a summary has written its results into the tree that it was given. -/
theorem Unfolds.writes (unfolds : Unfolds config connector tree log trace)
    (ok : trace.outcome = .ok summary) :
    Output.writeAll tree config.outputLayout summary.results = (trace.tree, summary.output) := by
  cases unfolds with
  | refused fails => cases ok
  | brokenOff begins many => cases ok
  | ended begins ended writes =>
      cases ok
      exact writes

/-- The candidate keys of a run that comes to a summary could be read. -/
theorem Unfolds.reads_candidates (unfolds : Unfolds config connector tree log trace)
    (ok : trace.outcome = .ok summary) : ∃ content, tree.read config.inputKeysPath = .ok content := by
  obtain ⟨setup, said, world, begins, -⟩ := unfolds.ok ok
  obtain ⟨⟨content, listed, reads, -⟩, -⟩ := prepare_eq_ok begins
  exact ⟨content, reads⟩

theorem Unfolds.wrote (unfolds : Unfolds config connector tree log trace)
    (ok : trace.outcome = .ok summary) (complete : summary.output.isComplete = true) :
    Wrote tree config.outputLayout summary.results Artifact.all trace.tree :=
  Output.writeAll_complete (unfolds.writes ok) complete

/-- A run that can be prepared, and whose files can be written, says so. -/
theorem exists_complete {setup : Setup} {said : List Event}
    (begins : prepare config connector tree.read = (.ok setup, said))
    (room : config.numWorkers ≤ mostShares)
    (writable : ∀ s, (Output.writeAll tree config.outputLayout s).2.isComplete = true) :
    ∃ log summary, Unfolds config connector tree log (execute config connector tree) ∧
      (execute config connector tree).outcome = .ok summary ∧
      summary.output.isComplete = true := by
  obtain ⟨log, unfolds, -⟩ := execute_unfolds config connector tree
  obtain ⟨summary, ok⟩ := execute_ok begins room
  refine ⟨log, summary, unfolds, ok, ?_⟩
  rw [← writable summary.results, unfolds.writes ok]

/-- However a run unfolds that says that it has written all its files: the error keys and the
details read back as what the run has found.  So do the keys that differ if their path leads to a
place of its own; if it leads to the place of another file, that file is what is read there.  The
candidate keys are what they were, if no file was written in their place. -/
theorem complete_run_files (unfolds : Unfolds config connector tree log trace)
    (ok : trace.outcome = .ok summary) (complete : summary.output.isComplete = true) :
    ReadsBack trace.tree config.outputLayout summary.results .errorKeys ∧
    ReadsBack trace.tree config.outputLayout summary.results .diffDetails ∧
    ((∀ a ≠ .diffKeys, tree.writable (config.outputLayout.path .diffKeys) ≠
        tree.writable (config.outputLayout.path a)) →
      ReadsBack trace.tree config.outputLayout summary.results .diffKeys) ∧
    (∀ a ≠ .diffKeys, tree.writable (config.outputLayout.path .diffKeys) =
        tree.writable (config.outputLayout.path a) →
      trace.tree.read (config.outputLayout.path .diffKeys) = .ok (a.content summary.results)) ∧
    ((∀ a, tree.writable config.inputKeysPath ≠ tree.writable (config.outputLayout.path a)) →
      trace.tree.read config.inputKeysPath = tree.read config.inputKeysPath) := by
  have wrote := unfolds.wrote ok complete
  obtain ⟨content, reads⟩ := unfolds.reads_candidates ok
  refine ⟨Output.readsBack_of_content (wrote.read_errorKeys rfl),
    Output.readsBack_of_content (wrote.read_diffDetails rfl),
    fun apart => Output.readsBack_of_content (wrote.read_diffKeys apart), ?_,
    fun apart => (wrote.read_other reads apart).trans reads.symm⟩
  intro a ne same
  cases a with
  | diffKeys => exact absurd rfl ne
  | errorKeys => exact wrote.read_errorKeys same
  | diffDetails => exact wrote.read_diffDetails same

end

theorem downSource_opens (files : Files) (endpoint : Endpoint) :
    downSource files .source endpoint = .ok ⟨.failing "down", []⟩ := rfl

theorem downSource_opens' (files : Files) (endpoint : Endpoint) :
    downSource files .target endpoint = .ok ⟨Bucket.empty.store, []⟩ := rfl

/-- A run over three listed keys with file names of their own leaves its three files, and the list. -/
theorem complete_run_files_own_names :
    ∃ summary : Summary, (execute (.inMemory "") downSource threeKeysListed).outcome = .ok summary ∧
      (∀ a, ReadsBack (execute (.inMemory "") downSource threeKeysListed).tree
        (Config.inMemory "").outputLayout summary.results a) ∧
      (execute (.inMemory "") downSource threeKeysListed).tree.read "diffKeys" =
        threeKeysListed.read "diffKeys" := by
  obtain ⟨said, begins⟩ := exists_prepare_ok threeKeysListed_reads threeKeysListed_parses
    (downSource_opens _ _) (downSource_opens' _ _)
  obtain ⟨log, summary, unfolds, ok, complete⟩ := exists_complete begins (by decide) fun _ => rfl
  obtain ⟨errorKeys, diffDetails, diffKeys, -, candidates⟩ := complete_run_files unfolds ok complete
  refine ⟨summary, ok, fun a => ?_, candidates fun a same => ?_⟩
  · cases a with
    | diffKeys =>
        refine diffKeys fun a ne same => ?_
        cases a with
        | diffKeys => exact ne rfl
        | errorKeys => exact absurd (Except.ok.inj same) (by decide)
        | diffDetails => exact absurd (Except.ok.inj same) (by decide)
    | errorKeys => exact errorKeys
    | diffDetails => exact diffDetails
  · cases a <;> exact absurd (Except.ok.inj same) (by decide)

/-- Settings by which the keys that differ go where the details go. -/
def namedAsDetails : Config :=
  { Config.inMemory "" with outputDiffKeysFile := "./mutationDiffDetails" }

theorem namedAsDetails_valid : namedAsDetails.validate = .ok () := Config.inMemory_valid ""

/-- With valid settings a run says that it has written all its files, and the keys that differ are
nowhere to be read. -/
theorem diffKeys_replaced :
    ∃ summary : Summary, namedAsDetails.validate = .ok () ∧
      (execute namedAsDetails downSource threeKeysListed).outcome = .ok summary ∧
      summary.output.isComplete = true ∧
      ¬ReadsBack (execute namedAsDetails downSource threeKeysListed).tree
        namedAsDetails.outputLayout summary.results .diffKeys := by
  have reads : threeKeysListed.read namedAsDetails.inputKeysPath = _ := threeKeysListed_reads
  obtain ⟨said, begins⟩ := exists_prepare_ok reads threeKeysListed_parses
    (downSource_opens _ _) (downSource_opens' _ _)
  obtain ⟨log, summary, unfolds, ok, complete⟩ := exists_complete begins (by decide) fun _ => rfl
  refine ⟨summary, namedAsDetails_valid, ok, complete, ?_⟩
  rintro ⟨bytes, reads, parses⟩
  have place : threeKeysListed.writable (namedAsDetails.outputLayout.path .diffKeys) =
    .ok ["mutationDiffDetails"] := rfl
  have place' : threeKeysListed.writable (namedAsDetails.outputLayout.path .diffDetails) =
    .ok ["mutationDiffDetails"] := rfl
  have replaced : (execute namedAsDetails downSource threeKeysListed).tree.read
      (namedAsDetails.outputLayout.path .diffKeys) =
        .ok (Artifact.diffDetails.content summary.results) :=
    (unfolds.wrote ok complete).read_diffDetails (place.trans place'.symm)
  obtain rfl : bytes = Artifact.diffDetails.content summary.results :=
    Except.ok.inj (reads.symm.trans replaced)
  have refused := Output.parse_diffDetails summary.results
  exact absurd (refused.symm.trans parses) nofun

end ReplicaDiff.Run
