/-
# ReplicaDiff.Proofs.Document.Json — one document, one value text, exact numbers

A document is given in JSON by a text for its value and by three integers, whatever
order they come in and whatever else is in the object.  It is accepted if and only if
the text is the letters of some bytes and each integer is in the range of its field
(`InRange`), and then every part of it is kept as it is (`codec_exact`).
-/
import ReplicaDiff.Proofs.DiffSet.Json
import ReplicaDiff.Proofs.Json.Members

namespace ReplicaDiff.Document

set_option autoImplicit false

open ReplicaDiff.Text (Bytes utf8)
open ReplicaDiff.Json

/-- The members that give a document: a text for its value, and three integers. -/
def given (value : String) (flags datatype cas : Int) : List (String × Value) := [
  ("Value", .text value),
  ("Flags", .integer flags),
  ("Datatype", .integer datatype),
  ("Cas", .integer cas)]

/-- The text is the letters of some bytes, and the numbers are in the ranges of their fields. -/
structure InRange (value : String) (flags datatype cas : Int) : Prop where
  value : ∃ bytes, utf8 value = Base64.encode bytes
  flags : 0 ≤ flags ∧ flags < UInt32.size
  datatype : 0 ≤ datatype ∧ datatype < UInt8.size
  cas : 0 ≤ cas ∧ cas < UInt64.size

/-- The document of the members that give it, as far as they are in range. -/
def meant (value : String) (flags datatype cas : Int) : Document where
  value := (Base64.decode? (utf8 value)).getD []
  flags := .ofNat flags.toNat
  datatype := .ofNat datatype.toNat
  cas := .ofNat cas.toNat

/-- What is known of a document when the members of some names have been read. -/
def partly (d : Document) (seen : List String) : Document where
  value := if "Value" ∈ seen then d.value else []
  flags := if "Flags" ∈ seen then d.flags else 0
  datatype := if "Datatype" ∈ seen then d.datatype else 0
  cas := if "Cas" ∈ seen then d.cas else 0

theorem partly_all (d : Document) {seen : List String}
    (all : ∀ name ∈ ["Value", "Flags", "Datatype", "Cas"], name ∈ seen) : d.partly seen = d := by
  simp only [List.forall_mem_cons] at all
  obtain ⟨value, flags, datatype, cas, -⟩ := all
  simp [partly, value, flags, datatype, cas]

variable {value : String} {flags datatype cas : Int} {members : List (String × Value)}

theorem refuses_letters (other : ¬∃ bytes, utf8 value = Base64.encode bytes) :
    Refuses readValue (writeText value) := by
  have undecodable : Base64.decode? (utf8 value) = none := by
    refine Option.eq_none_iff_forall_ne_some.2 fun bytes decodes => other ⟨bytes, ?_⟩
    exact Base64.decode?_eq_some_iff.1 decodes
  intro rest follows
  refine ⟨.mistyped, ?_⟩
  unfold readValue
  rw [(reads_text value).reads rest follows]
  simp only [bind, Except.bind]
  rw [undecodable]

/-! ## The members one by one -/

theorem decides_value (value : String) (flags datatype cas : Int) :
    Decides Document.fields (meant value flags datatype cas).partly
      (∃ bytes, utf8 value = Base64.encode bytes) ("Value", .text value) := by
  by_cases letters : ∃ bytes, utf8 value = Base64.encode bytes
  · obtain ⟨bytes, eq⟩ := letters
    have decodes := Base64.decode?_eq_some_iff.2 eq
    refine .inl ⟨⟨bytes, eq⟩, takes_field (reads_letters decodes)
      (fun d value => { d with value }) rfl fun seen => ?_⟩
    simp [partly, meant, decodes]
  · exact .inr ⟨letters, spoils_field (refuses_letters letters) (fun d value => { d with value }) rfl⟩

theorem decides_flags (value : String) (flags datatype cas : Int) :
    Decides Document.fields (meant value flags datatype cas).partly (0 ≤ flags ∧ flags < UInt32.size)
      ("Flags", .integer flags) :=
  .integer 4294967295 (by decide) (fun d n => { d with flags := .ofNat n }) rfl
    (fun seen => by simp [partly, meant]) (by unfold UInt32.size; omega)

theorem decides_datatype (value : String) (flags datatype cas : Int) :
    Decides Document.fields (meant value flags datatype cas).partly (0 ≤ datatype ∧ datatype < UInt8.size)
      ("Datatype", .integer datatype) :=
  .integer 255 (by decide) (fun d n => { d with datatype := .ofNat n }) rfl
    (fun seen => by simp [partly, meant]) (by unfold UInt8.size; omega)

theorem decides_cas (value : String) (flags datatype cas : Int) :
    Decides Document.fields (meant value flags datatype cas).partly (0 ≤ cas ∧ cas < UInt64.size)
      ("Cas", .integer cas) :=
  .integer maxWord (Nat.le_refl _) (fun d n => { d with cas := .ofNat n }) rfl
    (fun seen => by simp [partly, meant]) (by unfold maxWord UInt64.size; omega)

/-! ## Whole documents -/

/-- The members that give a document name its fields. -/
theorem given_names (value : String) (flags datatype cas : Int) :
    (given value flags datatype cas).map Prod.fst = Document.fields.map RecordField.name := rfl

theorem named_given : ∀ m ∈ given value flags datatype cas,
    m.1 ∈ Document.fields.map RecordField.name := by
  intro m mem
  rw [← given_names value flags datatype cas]
  exact List.mem_map_of_mem mem

theorem reads_given (range : InRange value flags datatype cas)
    (among : Among (Document.fields.map RecordField.name) (given value flags datatype cas) members) :
    Reads Document.read (Value.object members).write (meant value flags datatype cas) := by
  have takes : ∀ m ∈ given value flags datatype cas,
      Takes Document.fields (meant value flags datatype cas).partly m := by
    simp only [given, List.forall_mem_cons, List.not_mem_nil, false_imp_iff, implies_true, and_true]
    exact ⟨(decides_value value flags datatype cas).takes range.value,
      (decides_flags value flags datatype cas).takes range.flags,
      (decides_datatype value flags datatype cas).takes range.datatype,
      (decides_cas value flags datatype cas).takes range.cas⟩
  obtain ⟨seen, same, reads⟩ := reads_among true _ (by rw [given_names]; decide)
    named_given takes
    (fun _ f mem => by rw [given_names]; exact List.mem_map_of_mem mem) among
  rwa [partly_all _ fun name mem => (same name).2 mem] at reads

theorem refuses_given (out : ¬InRange value flags datatype cas)
    (among : Among (Document.fields.map RecordField.name) (given value flags datatype cas) members) :
    Refuses Document.read (Value.object members).write := by
  have value' := decides_value value flags datatype cas
  have flags' := decides_flags value flags datatype cas
  have datatype' := decides_datatype value flags datatype cas
  have cas' := decides_cas value flags datatype cas
  refine refuses_among true (meant value flags datatype cas).partly
    (by rw [given_names]; decide) named_given ?_ ?_ among
  · simp only [given, List.forall_mem_cons, List.not_mem_nil, false_imp_iff, implies_true, and_true]
    exact ⟨value'.takes_or_spoils, flags'.takes_or_spoils, datatype'.takes_or_spoils,
      cas'.takes_or_spoils⟩
  · by_contra none
    simp only [given, not_exists, not_and, List.forall_mem_cons, List.not_mem_nil, false_imp_iff,
      implies_true, and_true] at none
    obtain ⟨value'', flags'', datatype'', cas''⟩ := none
    exact out ⟨value'.of_not_spoils value'', flags'.of_not_spoils flags'',
      datatype'.of_not_spoils datatype'', cas'.of_not_spoils cas''⟩

/-- A document that is in range is kept as it was given. -/
theorem meant_exact (range : InRange value flags datatype cas) :
    Base64.encode (meant value flags datatype cas).value = utf8 value ∧
      ((meant value flags datatype cas).flags.toNat : Int) = flags ∧
      ((meant value flags datatype cas).datatype.toNat : Int) = datatype ∧
      ((meant value flags datatype cas).cas.toNat : Int) = cas := by
  obtain ⟨⟨bytes, eq⟩, flags', datatype', cas'⟩ := range
  unfold UInt32.size at flags'
  unfold UInt8.size at datatype'
  unfold UInt64.size at cas'
  refine ⟨?_, ?_, ?_, ?_⟩
  · simp [meant, eq, Base64.decode?_encode]
  · simp only [meant, UInt32.toNat_ofNat']
    omega
  · simp only [meant, UInt8.toNat_ofNat']
    omega
  · simp only [meant, UInt64.toNat_ofNat']
    omega

/-- A document is read back from its JSON; there is one text for each value; and of the members that
give a document, those in range are accepted and no others, and what is accepted is kept as it is. -/
theorem codec_exact (d : Document) {value : String} {flags datatype cas : Int}
    {members : List (String × Value)}
    (among : Among (Document.fields.map RecordField.name) (given value flags datatype cas) members) :
    readAll Document.read d.write = .ok d ∧
      (∀ bytes text, Base64.decode? text = some bytes ↔ text = Base64.encode bytes) ∧
      ((∃ d', readAll Document.read (Value.object members).write = .ok d') ↔
        InRange value flags datatype cas) ∧
      ∀ d', readAll Document.read (Value.object members).write = .ok d' →
        Base64.encode d'.value = utf8 value ∧ (d'.flags.toNat : Int) = flags ∧
          (d'.datatype.toNat : Int) = datatype ∧ (d'.cas.toNat : Int) = cas := by
  refine ⟨d.reads_document.readAll, fun _ _ => Base64.decode?_eq_some_iff, ?_⟩
  by_cases range : InRange value flags datatype cas
  · have reads := (reads_given range among).readAll
    refine ⟨⟨fun _ => range, fun _ => ⟨_, reads⟩⟩, fun d' accepted => ?_⟩
    obtain rfl := Except.ok.inj (reads.symm.trans accepted)
    exact meant_exact range
  · obtain ⟨fault, refused⟩ := (refuses_given range among).readAll
    have rejected (d' : Document) : readAll Document.read (Value.object members).write ≠ .ok d' := by
      rw [refused]
      exact nofun
    exact ⟨⟨fun ⟨d', accepted⟩ => absurd accepted (rejected d'), fun holds => absurd holds range⟩,
      fun d' accepted => absurd accepted (rejected d')⟩

/-- The largest numbers are kept, from members in reverse order behind one of another name; one more
in a number is refused. -/
theorem largest_numbers_kept :
    let object (cas : Int) := Value.object
      (("Note", .list [.null, .truth true]) :: (given "/wA=" 4294967295 255 cas).reverse)
    readAll Document.read (object 18446744073709551615).write =
        .ok ⟨[255, 0], 4294967295, 255, 18446744073709551615⟩ ∧
      ¬∃ d, readAll Document.read (object 18446744073709551616).write = .ok d := by
  intro object
  have among (cas : Int) : Among (Document.fields.map RecordField.name)
      (given "/wA=" 4294967295 255 cas)
      (("Note", .list [.null, .truth true]) :: (given "/wA=" 4294967295 255 cas).reverse) :=
    ⟨[("Note", .list [.null, .truth true])], by simp [Document.fields],
      ((List.reverse_perm _).cons _).trans (List.perm_append_singleton _ _).symm⟩
  have letters : utf8 "/wA=" = Base64.encode [255, 0] := by decide
  obtain ⟨-, decodes, accepted, exact⟩ := codec_exact default (among 18446744073709551615)
  obtain ⟨-, -, refused, -⟩ := codec_exact default (among 18446744073709551616)
  obtain ⟨d, reads⟩ := accepted.2 ⟨⟨_, letters⟩, by decide, by decide, by decide⟩
  obtain ⟨same, flags, datatype, cas⟩ := exact d reads
  have value : d.value = [255, 0] :=
    Option.some.inj (((decodes _ _).2 same.symm).symm.trans ((decodes _ _).2 letters))
  have flags' : d.flags = 4294967295 := UInt32.toNat_inj.1 (Int.ofNat_inj.1 flags)
  have datatype' : d.datatype = 255 := UInt8.toNat_inj.1 (Int.ofNat_inj.1 datatype)
  have cas' : d.cas = 18446744073709551615 := UInt64.toNat_inj.1 (Int.ofNat_inj.1 cas)
  have whole : d = ⟨[255, 0], 4294967295, 255, 18446744073709551615⟩ := by
    rw [← value, ← flags', ← datatype', ← cas']
  refine ⟨whole ▸ reads, fun read => ?_⟩
  obtain ⟨-, -, -, -, large⟩ := refused.1 read
  exact absurd large (by decide)

end ReplicaDiff.Document
