/-
# ReplicaDiff.Proofs.Connector — what a snapshot file makes of a bucket

The members of an object can be read as the list of entries that it is
(`readEntries`), or straight into a map; the map is made of the entries
(`readMap_eq`), so that of several members with one key the last counts.  The
snapshot connector opens the bucket of the entries of the file that the url of
an endpoint names (`Serves.opens`).
-/
import ReplicaDiff.Connector
import ReplicaDiff.Proofs.KeyMap

namespace ReplicaDiff

set_option autoImplicit false

open ReplicaDiff.Text (Bytes)

namespace Json

/-- What is gathered from the members of an object may be changed before or after they are read. -/
theorem readMembers_map {α β : Type} {read : String → α → Reader α} {read' : String → β → Reader β}
    (f : α → β)
    (step : ∀ name gathered input,
      read' name (f gathered) input = (read name gathered input).map (Prod.map f id))
    (fuel : Nat) (first : Bool) (gathered : α) (input : Bytes) :
    readMembers read' fuel first (f gathered) input =
      (readMembers read fuel first gathered input).map (Prod.map f id) := by
  induction fuel generalizing first gathered input with
  | zero => rfl
  | succ fuel ih =>
      unfold readMembers
      cases skipBlank input with
      | nil => rfl
      | cons b rest =>
          dsimp only
          by_cases close : b = 125
          · simp only [if_pos close]
            rfl
          · simp only [if_neg close]
            split
            · rfl
            · rfl
            · rename_i q input key
              by_cases quote : q = quoteByte
              · simp only [if_pos quote]
                cases quotedText input with
                | error fault => rfl
                | ok named =>
                    simp only [bind, Except.bind, step]
                    cases read named.1 gathered named.2 with
                    | error fault => rfl
                    | ok gathered => exact ih false gathered.1 gathered.2
              · simp only [if_neg quote]
                rfl

/-- Read the members of an object as entries, in their order. -/
def readEntries {α : Type} (read : Reader α) : Reader (List (String × α)) := fun input =>
  match skipBlank input with
  | [] => .error .truncated
  | b :: rest =>
      if b = 123 then
        readMembers
          (fun key entries input => do
            let input ← afterColon input
            let (value, rest) ← read input
            .ok (entries ++ [(key, value)], rest))
          (rest.length + 1) true [] rest
      else .error (refuse (b :: rest))

/-- A map is read as the map of the entries. -/
theorem readMap_eq {α : Type} (read : Reader α) (input : Bytes) :
    readMap read input = (readEntries read input).map (Prod.map KeyMap.ofList id) := by
  unfold readMap readEntries
  cases skipBlank input with
  | nil => rfl
  | cons b rest =>
      dsimp only
      by_cases opens : b = 123
      · rw [if_pos opens, if_pos opens]
        refine readMembers_map KeyMap.ofList (fun key entries input => ?_) _ true [] rest
        cases afterColon input with
        | error fault => rfl
        | ok input =>
            simp only [bind, Except.bind]
            cases read input with
            | error fault => rfl
            | ok value =>
                show _ = Except.ok (KeyMap.ofList (entries ++ [(key, value.1)]), value.2)
                rw [KeyMap.ofList_snoc]
      · rw [if_neg opens, if_neg opens]
        rfl

/-- A whole text is read as a map when it is read as entries. -/
theorem readAll_readMap {α : Type} {read : Reader α} {content : Bytes} {entries : List (String × α)}
    (reads : readAll (readEntries read) content = .ok entries) :
    readAll (readMap read) content = .ok (KeyMap.ofList entries) := by
  unfold readAll at reads ⊢
  rw [readMap_eq]
  cases members : readEntries read content with
  | error fault =>
      rw [members] at reads
      cases reads
  | ok result =>
      rw [members] at reads
      simp only [bind, Except.bind, atEnd, Except.map, Prod.map, id] at reads ⊢
      split at reads
      · cases reads
        rfl
      · cases reads

end Json

namespace Connector

theorem snapshotDirectory?_append (dir : String) :
    snapshotDirectory? (fileScheme ++ dir) = some dir := by
  have begins : fileScheme.toList.isPrefixOf (fileScheme ++ dir).toList = true := by
    rw [String.toList_append]
    exact List.isPrefixOf_iff_prefix.2 (List.prefix_append _ _)
  unfold snapshotDirectory?
  rw [if_pos begins, String.toList_append, List.drop_left' String.length_toList,
    String.ofList_toList]

/-- The file that the url of an endpoint names for its bucket holds an object of these keys and
documents. -/
inductive Serves (files : Files) (endpoint : Endpoint) (entries : List (String × Document)) : Prop
  | intro {dir : String} {content : Bytes} (url : endpoint.url = fileScheme ++ dir)
      (reads : files (snapshotPath dir endpoint.bucket) = .ok content)
      (parses : Json.readAll (Json.readEntries Document.read) content = .ok entries)

/-- Of a bucket that is served, each key has the document of its last entry. -/
theorem Serves.opens {files : Files} {endpoint : Endpoint} {entries : List (String × Document)}
    (h : Serves files endpoint entries) (side : Side) :
    ∃ said, snapshots files side endpoint =
      .ok ⟨Bucket.store ⟨KeyMap.ofList entries⟩, said⟩ := by
  obtain @⟨dir, content, url, reads, parses⟩ := h
  have file : snapshotFile? endpoint = some (snapshotPath dir endpoint.bucket) := by
    unfold snapshotFile?
    rw [url, snapshotDirectory?_append]
    rfl
  simp [snapshots, file, reads, parseSnapshot, Json.readAll_readMap parses]

end Connector

end ReplicaDiff
