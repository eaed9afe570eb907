/-
# ReplicaDiff.Proofs.Output.Independence — each file is attempted as if it were the only one

The files of a layout keep apart in a tree when no path leads to, or through, a
place that another one can be written at (`Layout.Apart`).  Then each path is
writable or not, and for the same reason, whatever has become of the files before
it (`Layout.Apart.writeOne`), so that the report tells for each file in turn what
the tree before any attempt says of its path, each written file holds its own
content, and nothing else has changed (`writeAll_independent`).

Files of one directory keep apart in every tree if their names differ
(`Layout.apart_of_isName`).
-/
import ReplicaDiff.Proofs.FileTree.Stations
import ReplicaDiff.Proofs.Output.Writing

namespace ReplicaDiff.Output

set_option autoImplicit false

open ReplicaDiff.FileTree (SameDirectories SameAlong)

/-- No path of the layout leads to, or through, a place that another one can be written at. -/
def Layout.Apart (layout : Layout) (tree : FileTree) : Prop :=
  ∀ a b, a ≠ b → ∀ l, tree.writable (layout.path a) = .ok l →
    l ∉ tree.stations (layout.path b)

/-- The file name of an artifact. -/
def Layout.name (layout : Layout) : Artifact → String
  | .diffKeys => layout.diffKeysFile
  | .errorKeys => "diffKeysWithError"
  | .diffDetails => "mutationDiffDetails"

theorem Layout.path_eq (layout : Layout) (a : Artifact) :
    layout.path a = Path.join layout.dir (layout.name a) := by
  cases a <;> rfl

/-- Files of one directory keep apart in every tree if they have different names. -/
theorem Layout.apart_of_isName {layout : Layout} (isName : Path.IsName layout.diffKeysFile)
    (errorKeys : layout.diffKeysFile ≠ "diffKeysWithError")
    (diffDetails : layout.diffKeysFile ≠ "mutationDiffDetails") (tree : FileTree) :
    layout.Apart tree := by
  have names : ∀ a, Path.IsName (layout.name a) := by
    intro a
    cases a with
    | diffKeys => exact isName
    | errorKeys => exact isName_errorKeys
    | diffDetails => exact isName_diffDetails
  have fixed : "diffKeysWithError" ≠ "mutationDiffDetails" := by decide
  have different : ∀ a b, a ≠ b → layout.name a ≠ layout.name b := by
    intro a b ne
    cases a <;> cases b <;> first
      | exact absurd rfl ne
      | exact errorKeys
      | exact diffDetails
      | exact fixed
      | exact errorKeys.symm
      | exact diffDetails.symm
      | exact fixed.symm
  intro a b ne l writes
  rw [layout.path_eq] at writes ⊢
  exact FileTree.not_mem_stations_join (names a) (names b) (different a b ne) writes

/-- Why an artifact cannot be written, if it cannot. -/
def failure? (tree : FileTree) (layout : Layout) (artifact : Artifact) : Option IoError :=
  match tree.writable (layout.path artifact) with
  | .ok _ => none
  | .error cause => some cause

variable {tree tree' : FileTree} {layout : Layout} {s : Snapshot} {artifact : Artifact}

theorem failure?_eq_none :
    failure? tree layout artifact = none ↔
      ∃ l, tree.writable (layout.path artifact) = .ok l := by
  unfold failure?
  cases tree.writable (layout.path artifact) <;> simp

theorem writeOne_of_leads {l : Location} (leads : tree.writable (layout.path artifact) = .ok l) :
    writeOne tree layout s artifact = (tree.put l (.file (artifact.content s)), none) := by
  unfold writeOne FileTree.write
  rw [leads]
  rfl

theorem writeOne_of_refused {cause : IoError}
    (refused : tree.writable (layout.path artifact) = .error cause) :
    writeOne tree layout s artifact = (tree, some cause) := by
  unfold writeOne FileTree.write
  rw [refused]
  rfl

theorem writeOne_failure : (writeOne tree layout s artifact).2 = failure? tree layout artifact := by
  unfold failure?
  split
  · rw [writeOne_of_leads ‹_›]
  · rw [writeOne_of_refused ‹_›]

/-- For the paths of a layout nothing has changed. -/
structure Undisturbed (layout : Layout) (tree tree' : FileTree) : Prop where
  same : SameDirectories tree tree'
  writable : ∀ a, tree'.writable (layout.path a) = tree.writable (layout.path a)

namespace Undisturbed

theorem refl (layout : Layout) (tree : FileTree) : Undisturbed layout tree tree :=
  ⟨.refl tree, fun _ => rfl⟩

variable (h : Undisturbed layout tree tree')

include h

theorem trans {tree'' : FileTree} (h' : Undisturbed layout tree' tree'') :
    Undisturbed layout tree tree'' :=
  ⟨h.same.trans h'.same, fun a => (h'.writable a).trans (h.writable a)⟩

theorem failure?_eq (artifact : Artifact) :
    failure? tree' layout artifact = failure? tree layout artifact := by
  unfold failure?
  rw [h.writable]

theorem apart (apart : layout.Apart tree) : layout.Apart tree' := by
  intro a b ne l writes
  rw [h.writable] at writes
  unfold FileTree.stations
  rw [← h.same.current]
  exact apart a b ne l writes

end Undisturbed

/-- An attempt at one file changes nothing for the paths of a layout whose files keep apart. -/
theorem Layout.Apart.undisturbed (apart : layout.Apart tree) (s : Snapshot)
    (artifact : Artifact) : Undisturbed layout tree (writeOne tree layout s artifact).1 := by
  cases leads : tree.writable (layout.path artifact) with
  | error cause =>
      rw [writeOne_of_refused leads]
      exact .refl layout tree
  | ok l =>
      have free := (FileTree.writable_eq_ok.1 leads).2.1
      have same := FileTree.sameDirectories_put free (artifact.content s)
      rw [writeOne_of_leads leads]
      refine ⟨same, fun b => ?_⟩
      by_cases own : artifact = b
      · subst own
        rw [FileTree.writable_of_same same leads, leads]
      · exact (FileTree.sameAlong_put (apart artifact b own l leads) _).writable_eq.symm

/-! ## Several attempts -/

theorem writeEach_cons (layout : Layout) (s : Snapshot) (tree : FileTree) (artifact : Artifact)
    (rest : List Artifact) :
    writeEach layout s tree (artifact :: rest) =
      ((writeEach layout s (writeOne tree layout s artifact).1 rest).1,
        (artifact, (writeOne tree layout s artifact).2) ::
          (writeEach layout s (writeOne tree layout s artifact).1 rest).2) := rfl

theorem Layout.Apart.undisturbed_each (apart : layout.Apart tree) (s : Snapshot)
    (artifacts : List Artifact) :
    Undisturbed layout tree (writeEach layout s tree artifacts).1 := by
  induction artifacts generalizing tree with
  | nil => exact .refl layout tree
  | cons a artifacts ih =>
      have onward := apart.undisturbed s a
      exact onward.trans (ih (onward.apart apart))

/-- Each attempt ends as if it were the only one. -/
theorem Layout.Apart.attempts_eq (apart : layout.Apart tree) (s : Snapshot)
    (artifacts : List Artifact) :
    (writeEach layout s tree artifacts).2 = artifacts.map fun a => (a, failure? tree layout a) := by
  induction artifacts generalizing tree with
  | nil => rfl
  | cons a artifacts ih =>
      have onward := apart.undisturbed s a
      rw [writeEach_cons, List.map_cons, writeOne_failure, ih (onward.apart apart)]
      simp only [onward.failure?_eq]

/-- What has been written stays, as the files keep apart. -/
theorem Layout.Apart.written (apart : layout.Apart tree) {artifacts : List Artifact}
    (once : artifacts.Nodup) {a : Artifact} (mem : a ∈ artifacts) {l : Location}
    (leads : tree.writable (layout.path a) = .ok l) :
    (writeEach layout s tree artifacts).1.entry l = some (.file (a.content s)) := by
  induction artifacts generalizing tree with
  | nil => cases mem
  | cons first artifacts ih =>
      obtain ⟨absent, once⟩ := List.nodup_cons.1 once
      have onward := apart.undisturbed s first
      rw [writeEach_cons]
      rcases List.mem_cons.1 mem with rfl | later
      · have elsewhere : ∀ b ∈ artifacts,
            (writeOne tree layout s a).1.writable (layout.path b) ≠ .ok l := by
          intro b mem writes
          rw [onward.writable] at writes
          have ne : a ≠ b := fun same => absent (same ▸ mem)
          exact apart a b ne l leads (FileTree.mem_stations_of_writable writes)
        rw [(writeEach_keeps rfl elsewhere).2, writeOne_of_leads leads]
        exact if_pos rfl
      · exact ih (onward.apart apart) once later ((onward.writable a).trans leads)

theorem written_foldl_record (attempts : List (Artifact × Option IoError)) (r : Report) :
    (attempts.foldl (fun r a => r.record layout a.1 a.2) r).written =
      r.written ++ (attempts.filter (·.2.isNone)).map fun a => layout.path a.1 := by
  induction attempts generalizing r with
  | nil => simp
  | cons a attempts ih =>
      rw [List.foldl_cons, ih]
      obtain ⟨artifact, failure⟩ := a
      cases failure with
      | none => simp [Report.record]
      | some cause => simp [Report.record]

/-- The report of all attempts says of each file what the tree before them says of its path. -/
theorem Layout.Apart.report_eq (apart : layout.Apart tree) (s : Snapshot) :
    (writeAll tree layout s).2 =
      .ofAttempts layout (Artifact.all.map fun a => (a, failure? tree layout a)) := by
  rw [← apart.attempts_eq s]
  rfl

theorem Artifact.mem_all (a : Artifact) : a ∈ Artifact.all := by
  cases a <;> decide

theorem Artifact.nodup_all : Artifact.all.Nodup := by decide

/-- What lies where no file could be written is as it was. -/
theorem entry_writeAll {l : Location}
    (elsewhere : ∀ a, tree.writable (layout.path a) ≠ .ok l) :
    (writeAll tree layout s).1.entry l = tree.entry l := by
  have all : ∀ a ∈ Artifact.all, tree.writable (layout.path a) ≠ .ok l := fun a _ => elsewhere a
  exact (writeEach_keeps rfl all).2

/-- A path that passes by all places where a file could be written leads to what it led to. -/
theorem Layout.Apart.find_writeAll (apart : layout.Apart tree) (s : Snapshot) {path : String}
    (beside : ∀ a l, tree.writable (layout.path a) = .ok l → l ∉ tree.stations path) :
    (writeAll tree layout s).1.find path = tree.find path := by
  have same := (apart.undisturbed_each s Artifact.all).same
  have along : SameAlong tree (writeAll tree layout s).1 path :=
    ⟨fun l mem => (entry_writeAll fun a leads => beside a l leads mem).symm, same.current,
      same.refusal⟩
  exact along.find_eq.symm

/-- Whatever can be written of three files that keep apart is written and holds its own content;
the others are reported in turn, for the reasons that the tree before gives; and nothing else
changes. -/
theorem writeAll_independent (tree : FileTree) (layout : Layout) (s : Snapshot)
    (apart : layout.Apart tree) :
    let tree' := (writeAll tree layout s).1
    let report := (writeAll tree layout s).2
    report.written =
      (Artifact.all.filter fun a => (failure? tree layout a).isNone).map layout.path ∧
    report.failures = (Artifact.all.filterMap fun a =>
      (failure? tree layout a).map fun cause => (a, ⟨layout.path a, cause⟩)) ∧
    report.events = report.failures.map (fun f => .writeFailed f.1 f.2) ∧
    (report.isComplete = true ↔ ∀ a, failure? tree layout a = none) ∧
    (∀ a l, tree.writable (layout.path a) = .ok l →
      tree'.entry l = some (.file (a.content s)) ∧
        tree'.read (layout.path a) = .ok (a.content s) ∧ ReadsBack tree' layout s a) ∧
    (∀ a, failure? tree layout a ≠ none →
      tree'.find (layout.path a) = tree.find (layout.path a)) ∧
    (∀ l, (∀ a, tree.writable (layout.path a) ≠ .ok l) → tree'.entry l = tree.entry l) := by
  intro tree' report
  have reported : report = _ := apart.report_eq s
  refine ⟨?_, ?_, rfl, ?_, ?_, ?_, ?_⟩
  · rw [reported, Report.ofAttempts, written_foldl_record]
    simp [List.filter_map, Function.comp_def]
  · rw [reported, Report.ofAttempts, failures_foldl_record]
    simp [List.filterMap_map]
  · rw [reported, isComplete_ofAttempts]
    simp [Artifact.mem_all]
  · intro a l leads
    have held : tree'.entry l = some (.file (a.content s)) :=
      apart.written Artifact.nodup_all a.mem_all leads
    have reads : tree'.read (layout.path a) = .ok (a.content s) :=
      FileTree.read_of_entry (apart.undisturbed_each s Artifact.all).same leads held
    exact ⟨held, reads, readsBack_of_content reads⟩
  · intro a refused
    refine apart.find_writeAll s fun b l leads => ?_
    refine apart b a (fun own => refused ?_) l leads
    exact failure?_eq_none.2 ⟨l, own ▸ leads⟩
  · exact fun l elsewhere => entry_writeAll elsewhere

/-- A tree in which one file must not be written, a directory lies in the place of the second, and
the third holds something longer than it is to hold. -/
def obstructed : FileTree where
  entry l :=
    if l = ["diffKeysWithError"] then some .directory
    else if l = ["mutationDiffKeys"] ∨ l = ["mutationDiffDetails"] then
      some (.file (List.replicate 100 0))
    else none
  current := []
  refusal l := if l = ["mutationDiffKeys"] then some (.system 13) else none

/-- The three files in the current directory. -/
def plainLayout : Layout := ⟨"", "mutationDiffKeys"⟩

/-- What a run has found that could not check its only key. -/
def uncheckedKey : Snapshot := ⟨.empty, ["k"]⟩

/-- Only the third file is written, and holds nothing but its own content. -/
theorem obstructed_details_written :
    let tree' := (writeAll obstructed plainLayout uncheckedKey).1
    let report := (writeAll obstructed plainLayout uncheckedKey).2
    report.written = ["mutationDiffDetails"] ∧
    report.failures = [
      (.diffKeys, ⟨"mutationDiffKeys", .system 13⟩),
      (.errorKeys, ⟨"diffKeysWithError", .isADirectory⟩)] ∧
    tree'.read (plainLayout.path .diffDetails) = .ok (Artifact.diffDetails.content uncheckedKey) ∧
    tree'.find (plainLayout.path .diffKeys) = .ok (.file (List.replicate 100 0)) := by
  intro tree' report
  have isName : Path.IsName "mutationDiffKeys" := ⟨by decide, by decide, by decide, by decide⟩
  have apart : plainLayout.Apart obstructed :=
    Layout.apart_of_isName isName (by decide) (by decide) obstructed
  obtain ⟨written, failures, -, -, holds, kept, -⟩ :=
    writeAll_independent obstructed plainLayout uncheckedKey apart
  have leads : obstructed.writable (plainLayout.path .diffDetails) = .ok ["mutationDiffDetails"] :=
    by decide +kernel
  have refused : failure? obstructed plainLayout .diffKeys ≠ none := by decide +kernel
  have found : obstructed.find (plainLayout.path .diffKeys) = .ok (.file (List.replicate 100 0)) :=
    by decide +kernel
  exact ⟨written.trans (by decide +kernel), failures.trans (by decide +kernel),
    (holds .diffDetails _ leads).2.1, (kept .diffKeys refused).trans found⟩

end ReplicaDiff.Output
