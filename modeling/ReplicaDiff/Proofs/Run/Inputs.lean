/-
# ReplicaDiff.Proofs.Run.Inputs — input files that are cut off

A run reads a list of keys and two snapshots.  A file of either kind that has lost
some of its end, at whatever byte, is refused, and not taken for a list of fewer
keys or a bucket of fewer documents (`truncated_inputs_refused`).  For the
snapshots this needs that a document cannot be cut off without being noticed
(`Document.wants_document`): its numbers may end early, but the brace after them
is missed.
-/
import ReplicaDiff.Connector
import ReplicaDiff.Output.Artifact
import ReplicaDiff.Proofs.DiffSet.Json
import ReplicaDiff.Proofs.Json.Truncated
import ReplicaDiff.Proofs.KeyList

namespace ReplicaDiff

set_option autoImplicit false

open ReplicaDiff.Text (Bytes ascii)
open ReplicaDiff.Json

namespace Document

theorem wants_value (d : Document) : Wants readValue d.valueText := by
  intro cut isCut
  rw [valueText_eq_writeText] at isCut
  unfold readValue
  rw [wants_text _ cut isCut]
  rfl

theorem wants_document (d : Document) : Wants Document.read d.write := by
  have small : d.flags.toNat ≤ 4294967295 := Nat.le_of_lt_succ d.flags.toNat_lt
  have tiny : d.datatype.toNat ≤ 255 := Nat.le_of_lt_succ d.datatype.toNat_lt
  have word : d.cas.toNat ≤ maxWord := Nat.le_of_lt_succ d.cas.toNat_lt
  exact wants_record <|
    .cons (readMember_field d.reads_value (fun d value => { d with value }) rfl (by decide))
      (drains_field d.wants_value.drains (fun d value => { d with value }) rfl (by decide)) <|
    .cons
      (readMember_field (reads_unsigned small (by decide)) (fun d n => { d with flags := .ofNat n })
        rfl (by decide))
      (drains_field (drains_unsigned small (by decide)) (fun d n => { d with flags := .ofNat n })
        rfl (by decide)) <|
    .cons
      (readMember_field (reads_unsigned tiny (by decide))
        (fun d n => { d with datatype := .ofNat n }) rfl (by decide))
      (drains_field (drains_unsigned tiny (by decide)) (fun d n => { d with datatype := .ofNat n })
        rfl (by decide)) <|
    .cons
      (readMember_field (reads_unsigned word (Nat.le_refl _)) (fun d n => { d with cas := .ofNat n })
        rfl (by decide))
      (drains_field (drains_unsigned word (Nat.le_refl _)) (fun d n => { d with cas := .ofNat n })
        rfl (by decide)) <|
    .nil _

end Document

/-- A list of keys is not taken for a shorter one, wherever it is cut off. -/
theorem KeyList.parse_cut {keys : List String} {cut : Bytes}
    (isCut : Cut cut (Output.writeKeys keys)) : KeyList.parse cut = .error .truncated := by
  have each : List.Forall₂ (Reads readText) (keys.map writeText) keys :=
    List.forall₂_map_left_iff.2 (List.forall₂_same.2 fun key _ => reads_text key)
  have drains : ∀ part ∈ keys.map writeText, Drains readText part := by
    intro part mem
    obtain ⟨key, -, rfl⟩ := List.mem_map.1 mem
    exact (wants_text key).drains
  exact (Wants.list each drains).readAll isCut

/-- The compact JSON of a bucket whose keys are listed in this order. -/
def Bucket.written (entries : List (String × Document)) : Bytes :=
  writeObject (entries.map fun e => (e.1, e.2.write))

/-- A bucket is not taken for a smaller one, wherever its snapshot is cut off. -/
theorem Connector.parseSnapshot_cut {entries : List (String × Document)} {cut : Bytes}
    (isCut : Cut cut (Bucket.written entries)) : parseSnapshot cut = .error .truncated :=
  (wants_map entries (fun e _ => e.2.reads_document)
    fun e _ => e.2.wants_document.drains).readAll isCut

namespace Run

/-- A file of keys, and a snapshot with its keys in any order, are refused when anything is missing
at their end. -/
theorem truncated_inputs_refused (files : Files) {cut : Bytes} :
    (∀ (keys : List String) (path : String), files path = .ok cut →
      cut <+: Output.writeKeys keys → cut ≠ Output.writeKeys keys →
      KeyList.load files path = .error (.keyListParse path .truncated)) ∧
    ∀ (entries : List (String × Document)) (side : Side) (endpoint : Endpoint) (path : String),
      Connector.snapshotFile? endpoint = some path → files path = .ok cut →
      cut <+: Bucket.written entries → cut ≠ Bucket.written entries →
      Connector.snapshots files side endpoint =
        .error (.connect side endpoint.url
          ("bad snapshot " ++ path ++ ": " ++ Fault.truncated.message)) := by
  refine ⟨fun keys path holds begins shorter => ?_,
    fun entries side endpoint path named holds begins shorter => ?_⟩
  · simp only [KeyList.load, holds, KeyList.parse_cut ⟨begins, shorter⟩]
  · simp only [Connector.snapshots, named, holds, Connector.parseSnapshot_cut ⟨begins, shorter⟩]

/-- A list that ends within a character of two bytes, and a snapshot that ends within a number. -/
theorem truncated_inputs_refused_within_parts :
    KeyList.load (fun _ => .ok [91, 34, 195]) "keys" = .error (.keyListParse "keys" .truncated) ∧
      Connector.snapshots
          (fun _ => .ok (Text.utf8 "\x7b\"k\":\x7b\"Value\":\"\",\"Flags\":12")) .target
          { url := "file://snapshots", bucket := "b" } =
        .error (.connect .target "file://snapshots"
          "bad snapshot snapshots/b.json: unexpected end of JSON") := by
  refine ⟨?_, ?_⟩
  · exact (truncated_inputs_refused fun _ => .ok [91, 34, 195]).1 ["é"] "keys" rfl
      (by decide +kernel) (by decide +kernel)
  · exact (truncated_inputs_refused fun _ => .ok _).2 [("k", ⟨[], 123, 0, 0⟩)] .target
      { url := "file://snapshots", bucket := "b" } "snapshots/b.json" (by decide +kernel) rfl
      (by decide +kernel) (by decide +kernel)

end Run

end ReplicaDiff
