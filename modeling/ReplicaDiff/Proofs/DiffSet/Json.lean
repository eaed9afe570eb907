/-
# ReplicaDiff.Proofs.DiffSet.Json — differences are read back

A written document is read back (`reads_document`): its value by way of its
letters, its numbers in full.  `DiffSet.Listed set bytes` says that the bytes list
the entries of a set of differences, those of each map in some order; whatever the
order, the set is read back from them (`reads_listed`).  `DiffSet.write` chooses
the order of the keys (`listed_write`).
-/
import ReplicaDiff.DiffSet.Json
import ReplicaDiff.Proofs.Base64
import ReplicaDiff.Proofs.Json.Shape
import ReplicaDiff.Proofs.KeyMap

namespace ReplicaDiff

set_option autoImplicit false

open ReplicaDiff.Text (Bytes utf8 ascii)
open ReplicaDiff.Json

/-! ## Documents -/

namespace Document

/-- A letter is a character of its own and needs no escape. -/
theorem letter_plain :
    ∀ n < 64, (Base64.letter n).toNat < 128 ∧ escapeByte (Base64.letter n) = [Base64.letter n] := by
  decide

theorem encode_plain {value : Bytes} {x : UInt8} (mem : x ∈ Base64.encode value) :
    x.toNat < 128 ∧ escapeByte x = [x] := by
  rcases Base64.mem_encode mem with rfl | ⟨n, small, rfl⟩
  · decide
  · exact letter_plain n small

theorem utf8_letters (value : Bytes) : utf8 (ascii (Base64.encode value)) = Base64.encode value :=
  Text.utf8_ascii fun _ mem => (encode_plain mem).1

/-- The value of a document is written as the text of its letters. -/
theorem valueText_eq_writeText (d : Document) :
    d.valueText = writeText (ascii (Base64.encode d.value)) := by
  have plain : (Base64.encode d.value).flatMap escapeByte = Base64.encode d.value := by
    rw [List.flatMap_congr fun _ mem => (encode_plain mem).2]
    exact List.flatMap_singleton' _
  unfold valueText writeText
  rw [utf8_letters, plain]

/-- A text is read as the bytes that its letters stand for. -/
theorem reads_letters {text : String} {value : Bytes}
    (decodes : Base64.decode? (utf8 text) = some value) :
    Reads readValue (writeText text) value where
  solid := (reads_text text).solid
  reads rest follows := by
    unfold readValue
    rw [(reads_text text).reads rest follows]
    simp only [bind, Except.bind]
    rw [decodes]

theorem reads_value (d : Document) : Reads readValue d.valueText d.value := by
  rw [valueText_eq_writeText]
  exact reads_letters (by rw [utf8_letters, Base64.decode?_encode])

theorem reads_document (d : Document) : Reads Document.read d.write d := by
  have flags : Reads (readUnsigned 4294967295) (writeNat d.flags.toNat) d.flags.toNat :=
    reads_unsigned (Nat.le_of_lt_succ d.flags.toNat_lt) (by decide)
  have datatype : Reads (readUnsigned 255) (writeNat d.datatype.toNat) d.datatype.toNat :=
    reads_unsigned (Nat.le_of_lt_succ d.datatype.toNat_lt) (by decide)
  have cas : Reads (readUnsigned maxWord) (writeNat d.cas.toNat) d.cas.toNat :=
    reads_unsigned (Nat.le_of_lt_succ d.cas.toNat_lt) (Nat.le_refl _)
  have gathers : Gathers (readMember Document.fields) ([], ⟨[], 0, 0, 0⟩)
      [("Value", d.valueText), ("Flags", writeNat d.flags.toNat),
        ("Datatype", writeNat d.datatype.toNat), ("Cas", writeNat d.cas.toNat)]
      (["Cas", "Datatype", "Flags", "Value"],
        ⟨d.value, .ofNat d.flags.toNat, .ofNat d.datatype.toNat, .ofNat d.cas.toNat⟩) :=
    .cons (readMember_field d.reads_value (fun d value => { d with value }) rfl (by decide)) <|
    .cons (readMember_field flags (fun d n => { d with flags := .ofNat n }) rfl (by decide)) <|
    .cons (readMember_field datatype (fun d n => { d with datatype := .ofNat n }) rfl
      (by decide)) <|
    .cons (readMember_field cas (fun d n => { d with cas := .ofNat n }) rfl (by decide)) <| .nil _
  have same : (⟨d.value, .ofNat d.flags.toNat, .ofNat d.datatype.toNat, .ofNat d.cas.toNat⟩ :
      Document) = d := by simp
  rw [same] at gathers
  exact reads_record gathers fun _ => by decide

end Document

/-! ## Sets of differences -/

namespace DiffSet

/-- The bytes list the entries of a map, in some order. -/
def MapListed {V : Type} (write : V → Bytes) (m : KeyMap V) (bytes : Bytes) : Prop :=
  ∃ entries : List (String × V), entries.Perm m.entries ∧
    bytes = writeObject (entries.map fun e => (e.1, write e.2))

theorem reads_mapListed {V : Type} {read : Reader V} {write : V → Bytes} {m : KeyMap V}
    {bytes : Bytes} (each : ∀ v, Reads read (write v) v) (listed : MapListed write m bytes) :
    Reads (readMap read) bytes m := by
  obtain ⟨entries, perm, rfl⟩ := listed
  rw [← KeyMap.ofList_of_perm perm]
  exact reads_map entries fun e _ => each e.2

/-- The two documents of a mismatch, the one of the source first. -/
def writePair (p : Document × Document) : Bytes := writeList [p.1.write, p.2.write]

theorem reads_pair (p : Document × Document) : Reads (readPair Document.read) (writePair p) p :=
  Reads.pair p.1.reads_document p.2.reads_document

/-- The bytes list the entries of a set of differences, those of each map in some order. -/
def Listed (set : DiffSet) (bytes : Bytes) : Prop :=
  ∃ mismatch source target, MapListed writePair set.mismatch mismatch ∧
    MapListed Document.write set.missingFromSource source ∧
    MapListed Document.write set.missingFromTarget target ∧
    bytes = writeObject
      [("Mismatch", mismatch), ("MissingFromSource", source), ("MissingFromTarget", target)]

theorem listed_write (set : DiffSet) : set.Listed set.write :=
  ⟨_, _, _, ⟨_, .refl _, rfl⟩, ⟨_, .refl _, rfl⟩, ⟨_, .refl _, rfl⟩, rfl⟩

/-- A set of differences is read back from its entries, in whatever order they are listed. -/
theorem reads_listed {set : DiffSet} {bytes : Bytes} (listed : set.Listed bytes) :
    Reads DiffSet.read bytes set := by
  obtain ⟨mismatch, source, target, hm, hs, ht, rfl⟩ := listed
  have readsMismatch := reads_mapListed reads_pair hm
  have readsSource := reads_mapListed Document.reads_document hs
  have readsTarget := reads_mapListed Document.reads_document ht
  have gathers : Gathers (readMember DiffSet.fields) ([], DiffSet.empty)
      [("Mismatch", mismatch), ("MissingFromSource", source), ("MissingFromTarget", target)]
      (["MissingFromTarget", "MissingFromSource", "Mismatch"], set) :=
    .cons (readMember_field readsMismatch (fun set mismatch => { set with mismatch }) rfl
      (by decide)) <|
    .cons (readMember_field readsSource (fun set missingFromSource => { set with missingFromSource })
      rfl (by decide)) <|
    .cons (readMember_field readsTarget (fun set missingFromTarget => { set with missingFromTarget })
      rfl (by decide)) <| .nil _
  exact reads_record gathers fun _ => by decide

end DiffSet

end ReplicaDiff
