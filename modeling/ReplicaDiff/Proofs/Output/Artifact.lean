/-
# ReplicaDiff.Proofs.Output.Artifact — the files of a run are read back

A written list of keys is read back key by key (`parse_writeKeys`), and it is a list
of candidate keys again (`load_writeKeys`).  `results_read_back` says it of the
files of a run, with what comes from maps listed in any order.
-/
import ReplicaDiff.Output.Artifact
import ReplicaDiff.Proofs.DiffSet.Json
import ReplicaDiff.Proofs.KeyList

namespace ReplicaDiff.Output

set_option autoImplicit false

open ReplicaDiff.Json

theorem parse_writeKeys (keys : List String) : KeyList.parse (writeKeys keys) = .ok keys := by
  have each : List.Forall₂ (Reads readText) (keys.map writeText) keys :=
    List.forall₂_map_left_iff.2 (List.forall₂_same.2 fun key _ => reads_text key)
  exact (Reads.list each).readAll

/-- A written list of keys is a list of candidate keys, of which the first of equal ones count. -/
theorem load_writeKeys {files : Files} {path : String} {keys : List String}
    (held : files path = .ok (writeKeys keys)) :
    KeyList.load files path =
      .ok (keys.eraseDups, KeyList.warnings path keys keys.eraseDups) := by
  unfold KeyList.load
  rw [held]
  simp only
  rw [parse_writeKeys]
  simp only
  rw [KeyList.firsts_eq_eraseDups]

/-- The details are an object, so that no list of keys can be read from them. -/
theorem parse_diffDetails (s : Snapshot) :
    KeyList.parse (Artifact.diffDetails.content s) = .error .mistyped := rfl

/-- What a run leaves is read back as it was, in whatever order the keys of its maps are listed, and
each of its lists of keys can be the candidate keys of another run. -/
theorem results_read_back (s : Snapshot) :
    (readAll DiffSet.read (Artifact.diffDetails.content s) = .ok s.diffs ∧
      KeyList.parse (Artifact.diffKeys.content s) = .ok s.diffKeys ∧
      KeyList.parse (Artifact.errorKeys.content s) = .ok s.keysWithError) ∧
    (∀ bytes, s.diffs.Listed bytes → readAll DiffSet.read bytes = .ok s.diffs) ∧
    ∀ keys, keys.Perm s.diffKeys ∨ keys = s.keysWithError →
      KeyList.parse (writeKeys keys) = .ok keys ∧
      ∀ files path, files path = .ok (writeKeys keys) →
        KeyList.load files path =
          .ok (keys.eraseDups, KeyList.warnings path keys keys.eraseDups) := by
  have details : ∀ bytes, s.diffs.Listed bytes → readAll DiffSet.read bytes = .ok s.diffs :=
    fun _ listed => (DiffSet.reads_listed listed).readAll
  refine ⟨⟨details _ s.diffs.listed_write, parse_writeKeys _, parse_writeKeys _⟩, details, ?_⟩
  intro keys _
  exact ⟨parse_writeKeys keys, fun _ _ held => load_writeKeys held⟩

/-- A key with a quotation mark, a backslash and a line feed that differs, and one with a control
character that could not be checked twice. -/
def oddKeys : Snapshot where
  diffs :=
    { DiffSet.empty with
      missingFromSource := .ofList [("a\"\\\n", ⟨[255], 1, 2, 3⟩), ("é", ⟨[], 0, 0, 0⟩)] }
  keysWithError := ["b\x01", "", "b\x01"]

theorem results_read_back_odd_keys :
    (∃ bytes, oddKeys.diffs.Listed bytes ∧ bytes ≠ Artifact.diffDetails.content oddKeys ∧
      readAll DiffSet.read bytes = .ok oddKeys.diffs) ∧
    KeyList.load (fun _ => .ok (Artifact.errorKeys.content oddKeys)) "errors" =
      .ok (["b\x01", ""], [.repeatedKeysDropped "errors" 1]) := by
  have turned : oddKeys.diffs.Listed _ :=
    ⟨_, _, _, ⟨_, .refl _, rfl⟩, ⟨_, (List.reverse_perm _), rfl⟩, ⟨_, .refl _, rfl⟩, rfl⟩
  obtain ⟨-, details, lists⟩ := results_read_back oddKeys
  refine ⟨⟨_, turned, by decide +kernel, details _ turned⟩, ?_⟩
  exact (lists _ (.inr rfl)).2 _ _ rfl

end ReplicaDiff.Output
