/-
# ReplicaDiff.Proofs.Output.Writing — what the files of a run hold afterwards

If no write failed, the tree after writing is the tree before with each artifact put
where its path leads, one after the other (`writeAll_complete`).  The details and
the error keys, which have names of their own, are then read where their paths lead
(`Wrote.read_diffDetails`, `Wrote.read_errorKeys`).  The keys that differ are read
at their path if it leads elsewhere than theirs (`Wrote.read_diffKeys`), and every
other file is as it was (`Wrote.read_other`).
-/
import ReplicaDiff.Output
import ReplicaDiff.Proofs.FileTree
import ReplicaDiff.Proofs.Output.Artifact

namespace ReplicaDiff.Output

set_option autoImplicit false

open ReplicaDiff.FileTree (SameDirectories)
open ReplicaDiff.Text (Bytes)
open ReplicaDiff.Json (readAll)

variable {tree tree' : FileTree} {layout : Layout} {s : Snapshot}

/-! ## Reports -/

theorem failures_foldl_record (attempts : List (Artifact × Option IoError)) (r : Report) :
    (attempts.foldl (fun r a => r.record layout a.1 a.2) r).failures =
      r.failures ++ attempts.filterMap fun a =>
        a.2.map fun cause => (a.1, ⟨layout.path a.1, cause⟩) := by
  induction attempts generalizing r with
  | nil => simp
  | cons a attempts ih =>
      rw [List.foldl_cons, ih]
      obtain ⟨artifact, failure⟩ := a
      cases failure with
      | none => rfl
      | some cause =>
          rw [List.filterMap_cons_some (by rfl)]
          simp [Report.record]

/-- A report is complete when no attempt has failed. -/
theorem isComplete_ofAttempts {attempts : List (Artifact × Option IoError)} :
    (Report.ofAttempts layout attempts).isComplete = true ↔ ∀ a ∈ attempts, a.2 = none := by
  unfold Report.isComplete Report.ofAttempts
  rw [failures_foldl_record, List.isEmpty_iff]
  simp

/-! ## Writing -/

/-- One artifact put where its path leads. -/
structure Put (tree : FileTree) (layout : Layout) (s : Snapshot) (artifact : Artifact)
    (l : Location) (tree' : FileTree) : Prop where
  leads : tree.writable (layout.path artifact) = .ok l
  puts : tree' = tree.put l (.file (artifact.content s))

theorem writeOne_eq_none {artifact : Artifact}
    (writes : writeOne tree layout s artifact = (tree', none)) :
    ∃ l, Put tree layout s artifact l tree' := by
  unfold writeOne at writes
  split at writes
  · rename_i written
    cases writes
    obtain ⟨l, leads, puts⟩ := FileTree.write_eq_ok.1 written
    exact ⟨l, leads, puts⟩
  · cases writes

theorem Put.same {artifact : Artifact} {l : Location} (h : Put tree layout s artifact l tree') :
    SameDirectories tree tree' :=
  h.puts ▸ FileTree.sameDirectories_put (FileTree.writable_eq_ok.1 h.leads).2.1 _

/-- Where a path leads that a file can be written at. -/
def place (tree : FileTree) (layout : Layout) (artifact : Artifact) : Location :=
  (tree.writable (layout.path artifact)).toOption.getD []

theorem place_eq {artifact : Artifact} {l : Location}
    (leads : tree.writable (layout.path artifact) = .ok l) : place tree layout artifact = l := by
  unfold place
  rw [leads]
  rfl

/-- The tree in which artifacts have been put where their paths lead, one after the other. -/
structure Wrote (tree : FileTree) (layout : Layout) (s : Snapshot) (artifacts : List Artifact)
    (tree' : FileTree) : Prop where
  leads : ∀ a ∈ artifacts, tree.writable (layout.path a) = .ok (place tree layout a)
  same : SameDirectories tree tree'
  puts : tree' =
    artifacts.foldl (fun t a => t.put (place tree layout a) (.file (a.content s))) tree

theorem writeEach_complete {artifacts : List Artifact}
    {attempts : List (Artifact × Option IoError)}
    (writes : writeEach layout s tree artifacts = (tree', attempts))
    (all : ∀ a ∈ attempts, a.2 = none) : Wrote tree layout s artifacts tree' := by
  induction artifacts generalizing tree attempts with
  | nil =>
      cases writes
      exact ⟨by simp, .refl _, rfl⟩
  | cons a artifacts ih =>
      cases first : writeOne tree layout s a with
      | mk tree₁ failure =>
          cases rest : writeEach layout s tree₁ artifacts with
          | mk tree₂ attempts' =>
              simp only [writeEach, first, rest] at writes
              cases writes
              obtain rfl : failure = none := all _ List.mem_cons_self
              obtain ⟨l, put⟩ := writeOne_eq_none first
              have onward := ih rest fun a mem => all a (List.mem_cons_of_mem _ mem)
              -- A path leads to the same place before and after the first artifact has been put.
              have leads : ∀ b ∈ artifacts,
                  tree.writable (layout.path b) = .ok (place tree₁ layout b) := fun b mem =>
                FileTree.writable_of_same put.same.symm (onward.leads b mem)
              have equal : ∀ b ∈ artifacts, place tree layout b = place tree₁ layout b :=
                fun b mem => place_eq (leads b mem)
              refine ⟨?_, put.same.trans onward.same, ?_⟩
              · intro b mem
                rcases List.mem_cons.1 mem with rfl | mem
                · rw [place_eq put.leads]
                  exact put.leads
                · rw [equal b mem]
                  exact leads b mem
              · rw [List.foldl_cons, place_eq put.leads, ← put.puts, onward.puts]
                exact List.foldl_ext _ _ _ fun t b mem => by rw [equal b mem]

/-- After a complete report, each artifact has been put where its path leads. -/
theorem writeAll_complete {report : Report} (writes : writeAll tree layout s = (tree', report))
    (complete : report.isComplete = true) : Wrote tree layout s Artifact.all tree' := by
  unfold writeAll at writes
  cases each : writeEach layout s tree Artifact.all with
  | mk tree₁ attempts =>
      simp only [each] at writes
      cases writes
      exact writeEach_complete each (isComplete_ofAttempts.1 complete)

/-- A place is left alone by the artifacts whose paths lead elsewhere, whether or not they could be
written. -/
theorem writeEach_keeps {artifacts : List Artifact} {attempts : List (Artifact × Option IoError)}
    {l : Location} (writes : writeEach layout s tree artifacts = (tree', attempts))
    (apart : ∀ a ∈ artifacts, tree.writable (layout.path a) ≠ .ok l) :
    SameDirectories tree tree' ∧ tree'.entry l = tree.entry l := by
  induction artifacts generalizing tree attempts with
  | nil =>
      cases writes
      exact ⟨.refl _, rfl⟩
  | cons a artifacts ih =>
      cases first : writeOne tree layout s a with
      | mk tree₁ failure =>
          cases rest : writeEach layout s tree₁ artifacts with
          | mk tree₂ attempts' =>
              simp only [writeEach, first, rest] at writes
              cases writes
              have own := apart a List.mem_cons_self
              have others := fun b mem => apart b (List.mem_cons_of_mem a mem)
              cases failure with
              | some cause =>
                  have same : tree₁ = tree := by
                    unfold writeOne at first
                    split at first <;> cases first
                    rfl
                  subst same
                  exact ih rest others
              | none =>
                  obtain ⟨l', put⟩ := writeOne_eq_none first
                  have elsewhere : l ≠ l' := fun same => own (same ▸ put.leads)
                  obtain ⟨same, kept⟩ := ih rest fun b mem leads =>
                    others b mem (FileTree.writable_of_same put.same.symm leads)
                  refine ⟨put.same.trans same, kept.trans ?_⟩
                  rw [put.puts]
                  exact if_neg elsewhere

/-! ## Reading -/

/-- The file of an artifact reads back as what the artifact is to tell. -/
def ReadsBack (tree : FileTree) (layout : Layout) (s : Snapshot) (artifact : Artifact) : Prop :=
  ∃ bytes, tree.read (layout.path artifact) = .ok bytes ∧
    match artifact with
    | .diffKeys => KeyList.parse bytes = .ok s.diffKeys
    | .errorKeys => KeyList.parse bytes = .ok s.keysWithError
    | .diffDetails => readAll DiffSet.read bytes = .ok s.diffs

theorem readsBack_of_content {artifact : Artifact}
    (reads : tree.read (layout.path artifact) = .ok (artifact.content s)) :
    ReadsBack tree layout s artifact := by
  refine ⟨_, reads, ?_⟩
  cases artifact with
  | diffKeys => exact parse_writeKeys _
  | errorKeys => exact parse_writeKeys _
  | diffDetails => exact (DiffSet.reads_listed s.diffs.listed_write).readAll

theorem isName_errorKeys : Path.IsName "diffKeysWithError" :=
  ⟨by decide, by decide, by decide, by decide⟩

theorem isName_diffDetails : Path.IsName "mutationDiffDetails" :=
  ⟨by decide, by decide, by decide, by decide⟩

theorem path_errorKeys_ne_diffDetails {l : Location}
    (leads : tree.writable (layout.path .errorKeys) = .ok l) :
    tree.writable (layout.path .errorKeys) ≠ tree.writable (layout.path .diffDetails) :=
  FileTree.writable_join_ne isName_errorKeys isName_diffDetails (by decide) leads

/-- The keys that differ have been written, at a path that leads to the place of no other file. -/
structure KeepsDiffKeys (tree : FileTree) (layout : Layout) (report : Report) : Prop where
  written : ∀ error, (.diffKeys, error) ∉ report.failures
  apart : ∀ a ≠ .diffKeys, tree.writable (layout.path .diffKeys) ≠ tree.writable (layout.path a)

/-- The keys that differ are then read at their path, whatever became of the other files. -/
theorem KeepsDiffKeys.read {report : Report} (h : KeepsDiffKeys tree layout report)
    (writes : writeAll tree layout s = (tree', report)) :
    tree'.read (layout.path .diffKeys) = .ok (Artifact.diffKeys.content s) := by
  cases first : writeOne tree layout s .diffKeys with
  | mk tree₁ failure =>
      cases rest : writeEach layout s tree₁ [.errorKeys, .diffDetails] with
      | mk tree₂ attempts =>
          have all : writeAll tree layout s =
              (tree₂, .ofAttempts layout ((.diffKeys, failure) :: attempts)) := by
            unfold writeAll Artifact.all
            rw [writeEach]
            simp only [first, rest]
          obtain ⟨rfl, rfl⟩ := Prod.mk.inj (all.symm.trans writes)
          cases failure with
          | some cause =>
              refine absurd ?_ (h.written ⟨layout.path .diffKeys, cause⟩)
              unfold Report.ofAttempts
              rw [failures_foldl_record]
              simp
          | none =>
              obtain ⟨l, put⟩ := writeOne_eq_none first
              obtain ⟨same, kept⟩ := writeEach_keeps rest fun a mem leads => by
                refine h.apart a (by rintro rfl; simp at mem) (put.leads.trans ?_)
                exact (FileTree.writable_of_same put.same.symm leads).symm
              refine FileTree.read_of_entry (put.same.trans same) put.leads (kept.trans ?_)
              rw [put.puts]
              exact if_pos rfl

namespace Wrote

variable (h : Wrote tree layout s Artifact.all tree')

include h

theorem leads_all (a : Artifact) :
    tree.writable (layout.path a) = .ok (place tree layout a) :=
  h.leads a (by cases a <;> decide)

/-- What lies at a location is the last artifact whose path leads there, or what lay there before. -/
theorem entry (l : Location) :
    tree'.entry l =
      if l = place tree layout .diffDetails then some (.file (Artifact.diffDetails.content s))
      else if l = place tree layout .errorKeys then some (.file (Artifact.errorKeys.content s))
      else if l = place tree layout .diffKeys then some (.file (Artifact.diffKeys.content s))
      else tree.entry l := by
  rw [h.puts]
  rfl

theorem place_ne {a b : Artifact}
    (apart : tree.writable (layout.path a) ≠ tree.writable (layout.path b)) :
    place tree layout a ≠ place tree layout b := by
  rw [h.leads_all a, h.leads_all b] at apart
  exact fun same => apart (congrArg _ same)

theorem read_artifact {path : String} {a : Artifact}
    (leads : tree.writable path = tree.writable (layout.path a))
    (held : tree'.entry (place tree layout a) = some (.file (a.content s))) :
    tree'.read path = .ok (a.content s) :=
  FileTree.read_of_entry h.same (leads.trans (h.leads_all a)) held

/-- Wherever a path leads to the place of the details, they are read there. -/
theorem read_diffDetails {path : String}
    (leads : tree.writable path = tree.writable (layout.path .diffDetails)) :
    tree'.read path = .ok (Artifact.diffDetails.content s) := by
  refine h.read_artifact leads ?_
  rw [h.entry, if_pos rfl]

/-- Wherever a path leads to the place of the error keys, they are read there. -/
theorem read_errorKeys {path : String}
    (leads : tree.writable path = tree.writable (layout.path .errorKeys)) :
    tree'.read path = .ok (Artifact.errorKeys.content s) := by
  have apart := h.place_ne (path_errorKeys_ne_diffDetails (h.leads_all .errorKeys))
  refine h.read_artifact leads ?_
  rw [h.entry, if_neg apart, if_pos rfl]

/-- The keys that differ are read at their path if no other artifact has been put there. -/
theorem read_diffKeys
    (apart : ∀ a ≠ .diffKeys,
      tree.writable (layout.path .diffKeys) ≠ tree.writable (layout.path a)) :
    tree'.read (layout.path .diffKeys) = .ok (Artifact.diffKeys.content s) := by
  refine h.read_artifact rfl ?_
  rw [h.entry, if_neg (h.place_ne (apart .diffDetails (by decide))),
    if_neg (h.place_ne (apart .errorKeys (by decide))), if_pos rfl]

/-- A file stays as it was if no artifact has been put in its place. -/
theorem read_other {path : String} {content : Bytes} (reads : tree.read path = .ok content)
    (apart : ∀ a, tree.writable path ≠ tree.writable (layout.path a)) :
    tree'.read path = .ok content := by
  obtain ⟨l, leads, held⟩ := FileTree.read_eq_ok.1 reads
  have ne : ∀ a, l ≠ place tree layout a := by
    intro a same
    have put := h.leads_all a
    rw [← same] at put
    exact apart a ((FileTree.writable_eq_ok.2 ⟨leads, (FileTree.writable_eq_ok.1 put).2⟩).trans put.symm)
  refine FileTree.read_eq_ok.2 ⟨l, leads.of_same h.same, ?_⟩
  rw [h.entry, if_neg (ne _), if_neg (ne _), if_neg (ne _), held]

end Wrote

end ReplicaDiff.Output
