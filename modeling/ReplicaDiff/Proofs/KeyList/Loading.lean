/-
# ReplicaDiff.Proofs.KeyList.Loading — the candidate keys of a file

However a list of strings is written as JSON, loading it gives its keys without
repetitions, each where it is listed first, and says something exactly if a key is
listed again (`repeated_keys_dropped`).  Loading takes no other text
(`parse_eq_ok_iff`), and what it gives is a list that can be loaded again.
-/
import ReplicaDiff.Proofs.Json.Spelling
import ReplicaDiff.Proofs.Output.Artifact

namespace ReplicaDiff.KeyList

set_option autoImplicit false

open ReplicaDiff.Json
open ReplicaDiff.Text (Bytes)

/-- A text is read as a list of keys exactly if it is one way to write it. -/
theorem parse_eq_ok_iff {content : Bytes} {listed : List String} :
    parse content = .ok listed ↔ SpellsList content listed := readAll_readList_eq_ok_iff

/-- The compact form is one way to write a list of keys. -/
theorem spellsList_writeKeys (keys : List String) : SpellsList (Output.writeKeys keys) keys :=
  parse_eq_ok_iff.1 (Output.parse_writeKeys keys)

theorem load_of_spells {files : Files} {path : String} {content : Bytes} {listed : List String}
    (held : files path = .ok content) (spells : SpellsList content listed) :
    load files path = .ok (firsts listed,
      if listed.Nodup then []
      else [.repeatedKeysDropped path (listed.length - (firsts listed).length)]) := by
  unfold load
  rw [held]
  simp only [parse_eq_ok_iff.2 spells, warnings_firsts]

/-- A list without repetitions is loaded as it is, and nothing is said. -/
theorem load_of_nodup {files : Files} {path : String} {content : Bytes} {listed : List String}
    (held : files path = .ok content) (spells : SpellsList content listed)
    (nodup : listed.Nodup) : load files path = .ok (listed, []) := by
  rw [load_of_spells held spells, if_pos nodup, firsts_eq_self_iff.2 nodup]

/-- Loading a list, however it is written, keeps the first of equal keys and the order of the list,
and tells how many keys were dropped, if there were any.  The keys that it gives, written in
whatever way, are loaded again as they are. -/
theorem repeated_keys_dropped {files : Files} {path : String} {content : Bytes}
    {listed : List String} (held : files path = .ok content) (spells : SpellsList content listed) :
    ∃ kept said, load files path = .ok (kept, said) ∧
      (kept.Nodup ∧ (∀ key, key ∈ kept ↔ key ∈ listed) ∧ kept.Sublist listed ∧
        ∀ x y, kept.idxOf x < kept.idxOf y ↔ listed.idxOf x < listed.idxOf y) ∧
      said = (if listed.Nodup then []
        else [.repeatedKeysDropped path (listed.length - kept.length)]) ∧
      SpellsList (Output.writeKeys kept) kept ∧
      ∀ files' path' content', files' path' = .ok content' → SpellsList content' kept →
        load files' path' = .ok (kept, []) := by
  have nodup := nodup_firsts listed
  refine ⟨firsts listed, _, load_of_spells held spells, ⟨nodup, fun key => mem_firsts,
    firsts_sublist listed, idxOf_firsts_lt_iff listed⟩, rfl, spellsList_writeKeys _, ?_⟩
  intro files' path' content' held' spells'
  exact load_of_nodup held' spells' nodup

/-- A list with blanks of every kind, in which one key is listed again by a code unit, one by its
other spelling, and one is written as a surrogate pair. -/
def spelledOut : Bytes :=
  Text.utf8 " [ \"b\" , \"a\",\n\"\\u0061\"\t,\"é\",\"\\u00E9\" ,\"\\ud83d\\uDE00\" ]\r\n"

theorem spelledOut_spells : SpellsList spelledOut ["b", "a", "a", "é", "é", "😀"] :=
  parse_eq_ok_iff.1 (by decide +kernel)

theorem repeated_keys_dropped_spelled_out :
    load (fun _ => .ok spelledOut) "keys" =
      .ok (["b", "a", "é", "😀"], [.repeatedKeysDropped "keys" 2]) ∧
    ∀ files path content, files path = .ok content → SpellsList content ["b", "a", "é", "😀"] →
      load files path = .ok (["b", "a", "é", "😀"], []) := by
  let files : Files := fun _ => .ok spelledOut
  have held : files "keys" = .ok spelledOut := rfl
  obtain ⟨kept, said, loaded, -, rfl, -, again⟩ := repeated_keys_dropped held spelledOut_spells
  obtain rfl : kept = ["b", "a", "é", "😀"] := by
    rw [load_of_spells held spelledOut_spells] at loaded
    exact (congrArg Prod.fst (Except.ok.inj loaded)).symm.trans (by decide)
  exact ⟨loaded.trans (by decide), again⟩

end ReplicaDiff.KeyList
