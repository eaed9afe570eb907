/-
# ReplicaDiff.Proofs.Json.Shape — written values are read back

`Reads read written value` says that a reader finds a value in its written form,
whatever may come after it, and `Refuses read written` that it meets a fault there.  Strings and integers are read so (`reads_text`,
`reads_unsigned`), and with their parts lists, pairs, maps and records
(`Reads.list`, `Reads.pair`, `reads_map`, `reads_record`).

The members of an object change what has been gathered one after the other
(`Gathers`).  A map is gathered entry by entry, so that of several entries for one
key the last counts.
-/
import Mathlib.Data.List.Forall2
import ReplicaDiff.Proofs.Json.Number
import ReplicaDiff.Proofs.Json.Quoted

namespace ReplicaDiff.Json

set_option autoImplicit false

open ReplicaDiff.Text (Bytes utf8)

variable {α : Type}

/-- A reader finds a value in its written form, whatever may come after it.  A written form begins
with a byte that is neither blank nor the end of a list. -/
structure Reads (read : Reader α) (written : Bytes) (value : α) : Prop where
  solid : ∃ b tail, written = b :: tail ∧ isBlankByte b = false ∧ b ≠ 93
  reads : ∀ rest, Follows rest → read (written ++ rest) = .ok (value, rest)

theorem skipBlank_of_solid {b : UInt8} (solid : isBlankByte b = false) (rest : Bytes) :
    skipBlank (b :: rest) = b :: rest :=
  List.dropWhile_cons_of_neg (by simp [solid])

theorem afterColon_colon (rest : Bytes) : afterColon (58 :: rest) = .ok rest := rfl

/-- The value of a whole text. -/
theorem Reads.readAll {read : Reader α} {written : Bytes} {value : α}
    (h : Reads read written value) : readAll read written = .ok value := by
  have whole := h.reads [] follows_nil
  rw [List.append_nil] at whole
  unfold Json.readAll
  rw [whole]
  rfl

/-- A reader meets a fault in a written form, whatever may come after it. -/
def Refuses (read : Reader α) (written : Bytes) : Prop :=
  ∀ rest, Follows rest → ∃ fault, read (written ++ rest) = .error fault

/-- The fault of a whole text. -/
theorem Refuses.readAll {read : Reader α} {written : Bytes} (h : Refuses read written) :
    ∃ fault, readAll read written = .error fault := by
  obtain ⟨fault, refused⟩ := h [] follows_nil
  rw [List.append_nil] at refused
  exact ⟨fault, by rw [Json.readAll, refused]; rfl⟩

/-- Where a reader finds a value, one that goes on to compute something from the value finds what is
computed. -/
theorem Reads.map {β : Type} {read : Reader α} {written : Bytes} {value : α}
    (h : Reads read written value) (f : α → β) :
    Reads (fun input => do
      let (value, rest) ← read input
      .ok (f value, rest)) written (f value) where
  solid := h.solid
  reads rest follows := by
    rw [h.reads rest follows]
    rfl

theorem reads_text (s : String) : Reads readText (writeText s) s where
  solid := ⟨_, _, rfl, rfl, by decide⟩
  reads rest _ := by
    unfold writeText readText
    rw [List.cons_append, List.append_assoc, skipBlank_of_solid (by decide)]
    simp only [↓reduceIte]
    exact quotedText_escaped s rest

theorem reads_unsigned {n bound : Nat} (le : n ≤ bound) (fits : bound ≤ maxWord) :
    Reads (readUnsigned bound) (writeNat n) n where
  solid := by
    obtain ⟨b, tail, eq, digit, -⟩ := writeNat_eq_cons n
    exact ⟨b, tail, eq, isBlankByte_of_isDigit digit, fun close => by cases close ▸ digit⟩
  reads _ follows := readUnsigned_writeNat le fits follows

/-! ## Parts of a list or an object -/

/-- A part with what separates it from the part before it. -/
def separated (first : Bool) (part : Bytes) : Bytes := if first then part else 44 :: part

/-- Parts one after the other, each with what separates it from the part before it. -/
def listed : Bool → List Bytes → Bytes
  | _, [] => []
  | first, part :: parts => separated first part ++ listed false parts

theorem commaSeparated_eq_listed : ∀ parts : List Bytes, commaSeparated parts = listed true parts
  | [] => rfl
  | [part] => by simp [commaSeparated, listed, separated]
  | part :: next :: parts => by
      rw [commaSeparated, commaSeparated_eq_listed (next :: parts)]
      · simp [listed, separated]
      · exact List.cons_ne_nil next parts

/-- After a part comes the next one, or the end. -/
theorem follows_listed {parts : List Bytes} {rest : Bytes} (follows : Follows rest) :
    Follows (listed false parts ++ rest) := by
  cases parts with
  | nil => exact follows
  | cons part parts => exact follows_comma _

theorem length_le_separated (first : Bool) (part : Bytes) :
    part.length ≤ (separated first part).length := by
  cases first <;> simp [separated]

theorem length_le_listed {parts : List Bytes} (solid : ∀ part ∈ parts, part ≠ []) (first : Bool) :
    parts.length ≤ (listed first parts).length := by
  induction parts generalizing first with
  | nil => exact Nat.zero_le _
  | cons part parts ih =>
      have some : 0 < part.length := List.length_pos_iff.2 (solid part List.mem_cons_self)
      have rest := ih (fun p mem => solid p (List.mem_cons_of_mem _ mem)) false
      have own := length_le_separated first part
      rw [listed, List.length_append, List.length_cons]
      omega

/-! ## Lists -/

theorem nextElement_close (first : Bool) (rest : Bytes) :
    nextElement first (93 :: rest) = .ok (.close rest) := by
  cases first <;> rfl

theorem nextElement_separated {b : UInt8} (solid : isBlankByte b = false) (more : b ≠ 93)
    (first : Bool) (tail : Bytes) :
    nextElement first (separated first (b :: tail)) = .ok (.element (b :: tail)) := by
  have start := skipBlank_of_solid solid tail
  cases first with
  | true => simp [nextElement, separated, start, more]
  | false =>
      have comma : skipBlank (44 :: b :: tail) = 44 :: b :: tail := skipBlank_of_solid rfl _
      simp [nextElement, separated, start, comma, more]

theorem separated_append (first : Bool) (part rest : Bytes) :
    separated first part ++ rest = separated first (part ++ rest) := by
  cases first <;> rfl

theorem Reads.nextElement {read : Reader α} {written : Bytes} {value : α}
    (h : Reads read written value) (first : Bool) (rest : Bytes) :
    nextElement first (separated first written ++ rest) = .ok (.element (written ++ rest)) := by
  obtain ⟨b, tail, rfl, solid, more⟩ := h.solid
  rw [separated_append, List.cons_append]
  exact nextElement_separated solid more first (tail ++ rest)

theorem readElements_listed {read : Reader α} {written : List Bytes} {values : List α}
    (each : List.Forall₂ (Reads read) written values) {fuel : Nat} (enough : written.length < fuel)
    (first : Bool) (rest : Bytes) :
    readElements read fuel first (listed first written ++ 93 :: rest) = .ok (values, rest) := by
  induction each generalizing fuel first with
  | nil =>
      obtain ⟨fuel, rfl⟩ := Nat.exists_eq_succ_of_ne_zero (Nat.ne_of_gt enough)
      rw [listed, List.nil_append, readElements, nextElement_close]
      rfl
  | @cons part value written values own _ ih =>
      obtain ⟨fuel, rfl⟩ := Nat.exists_eq_succ_of_ne_zero (Nat.ne_of_gt (Nat.zero_lt_of_lt enough))
      have onward := ih (Nat.lt_of_succ_lt_succ enough) false
      rw [listed, List.append_assoc, readElements, own.nextElement]
      simp only [bind, Except.bind]
      rw [own.reads _ (follows_listed (follows_bracket rest))]
      simp only
      rw [onward]

theorem ne_nil_of_solid {read : Reader α} {written : Bytes} {value : α}
    (h : Reads read written value) : written ≠ [] := by
  obtain ⟨b, tail, rfl, -⟩ := h.solid
  exact List.cons_ne_nil _ _

/-- A list is read from the written forms of its elements. -/
theorem Reads.list {read : Reader α} {written : List Bytes} {values : List α}
    (each : List.Forall₂ (Reads read) written values) :
    Reads (readList read) (writeList written) values where
  solid := ⟨_, _, rfl, rfl, by decide⟩
  reads rest _ := by
    have parts : ∀ part ∈ written, part ≠ [] := by
      intro part mem
      obtain ⟨i, bound, rfl⟩ := List.mem_iff_getElem.1 mem
      exact ne_nil_of_solid (each.get bound (each.length_eq ▸ bound))
    have enough := length_le_listed parts true
    unfold writeList readList
    rw [List.cons_append, List.append_assoc, skipBlank_of_solid (by decide),
      commaSeparated_eq_listed]
    simp only [↓reduceIte]
    exact readElements_listed each (by simp; omega) true rest

/-- A pair is read from the written forms of its two parts. -/
theorem Reads.pair {read : Reader α} {first second : Bytes} {a b : α} (ha : Reads read first a)
    (hb : Reads read second b) : Reads (readPair read) (writeList [first, second]) (a, b) where
  solid := ⟨_, _, rfl, rfl, by decide⟩
  reads rest _ := by
    have next := ha.nextElement true (listed false [second] ++ 93 :: rest)
    have next' := hb.nextElement false (93 :: rest)
    have onward : Follows (listed false [second] ++ 93 :: rest) :=
      follows_listed (follows_bracket rest)
    have own := ha.reads _ onward
    have own' := hb.reads _ (follows_bracket rest)
    unfold writeList readPair
    rw [List.cons_append, List.append_assoc, skipBlank_of_solid (by decide),
      commaSeparated_eq_listed, listed, List.append_assoc]
    simp only [↓reduceIte]
    rw [show [93] ++ rest = 93 :: rest from rfl, next]
    simp only [bind, Except.bind]
    rw [own]
    simp only [listed, List.append_nil] at next' ⊢
    rw [next']
    simp only
    rw [own']
    rfl

/-! ## Objects -/

/-- Reading members one after the other leads from what was gathered before them to what is gathered
with them. -/
inductive Gathers (read : String → α → Reader α) : α → List (String × Bytes) → α → Prop where
  | nil (a : α) : Gathers read a [] a
  | cons {a b c : α} {key : String} {value : Bytes} {members : List (String × Bytes)}
      (step : ∀ rest, Follows rest → read key a (58 :: (value ++ rest)) = .ok (b, rest))
      (onward : Gathers read b members c) : Gathers read a ((key, value) :: members) c

/-- The written members of an object. -/
def writtenMembers (members : List (String × Bytes)) : List Bytes :=
  members.map fun m => writeMember m.1 m.2

theorem listed_writtenMembers_cons (first : Bool) (key : String) (value : Bytes)
    (members : List (String × Bytes)) :
    listed first (writtenMembers ((key, value) :: members)) =
      separated first (writeMember key value) ++ listed false (writtenMembers members) := rfl

/-- After the opening quotation mark of a key come the key, its value and the other members. -/
theorem readMembers_quote (read : String → α → Reader α) (fuel : Nat) (first : Bool) (a : α)
    (input : Bytes) :
    readMembers read (fuel + 1) first a (separated first (quoteByte :: input)) = (do
      let (name, rest) ← quotedText input
      let (gathered, rest) ← read name a rest
      readMembers read fuel false gathered rest) := by
  have quote : ∀ tail, skipBlank (quoteByte :: tail) = quoteByte :: tail :=
    skipBlank_of_solid (by decide)
  have brace : quoteByte ≠ 125 := by decide
  cases first with
  | true =>
      rw [separated, if_pos rfl, readMembers, quote]
      simp only [brace, ↓reduceIte]
  | false =>
      rw [separated, if_neg (by decide), readMembers, skipBlank_of_solid (by decide)]
      simp only [quote, show (44 : UInt8) ≠ 125 by decide, Bool.false_eq_true, ↓reduceIte]

/-- After a member, with what was read for it, come the other members. -/
theorem readMembers_writeMember (read : String → α → Reader α) (fuel : Nat) (first : Bool) (a : α)
    (key : String) (value rest : Bytes) :
    readMembers read (fuel + 1) first a (separated first (writeMember key value) ++ rest) = (do
      let (gathered, rest) ← read key a (58 :: (value ++ rest))
      readMembers read fuel false gathered rest) := by
  have whole : writeMember key value ++ rest =
      quoteByte :: ((utf8 key).flatMap escapeByte ++ quoteByte :: 58 :: (value ++ rest)) := by
    simp [writeMember, writeText]
  rw [separated_append, whole, readMembers_quote, quotedText_escaped]
  rfl

/-- One member is read as far as it goes. -/
theorem readMembers_member {read : String → α → Reader α} {a b : α} {key : String}
    {value rest : Bytes} (step : read key a (58 :: (value ++ rest)) = .ok (b, rest)) (fuel : Nat)
    (first : Bool) :
    readMembers read (fuel + 1) first a (separated first (writeMember key value) ++ rest) =
      readMembers read fuel false b rest := by
  rw [readMembers_writeMember, step]
  rfl

theorem readMembers_listed {read : String → α → Reader α} {a c : α}
    {members : List (String × Bytes)} (gathers : Gathers read a members c) {fuel : Nat}
    (enough : members.length < fuel) (first : Bool) (rest : Bytes) :
    readMembers read fuel first a (listed first (writtenMembers members) ++ 125 :: rest) =
      .ok (c, rest) := by
  induction gathers generalizing fuel first with
  | nil a =>
      obtain ⟨fuel, rfl⟩ := Nat.exists_eq_succ_of_ne_zero (Nat.ne_of_gt enough)
      rfl
  | @cons a b c key value members step onward ih =>
      obtain ⟨fuel, rfl⟩ := Nat.exists_eq_succ_of_ne_zero (Nat.ne_of_gt (Nat.zero_lt_of_lt enough))
      have follows : Follows (listed false (writtenMembers members) ++ 125 :: rest) :=
        follows_listed (follows_brace rest)
      rw [listed_writtenMembers_cons, List.append_assoc, readMembers_member (step _ follows)]
      exact ih (Nat.lt_of_succ_lt_succ enough) false

/-- The members of a written object are gathered up to its end. -/
theorem readMembers_written {read : String → α → Reader α} {a c : α}
    {members : List (String × Bytes)} (gathers : Gathers read a members c) (rest : Bytes) :
    readMembers read ((commaSeparated (writtenMembers members) ++ 125 :: rest).length + 1) true a
      (commaSeparated (writtenMembers members) ++ 125 :: rest) = .ok (c, rest) := by
  have parts : ∀ part ∈ writtenMembers members, part ≠ [] := by
    intro part mem
    obtain ⟨m, -, rfl⟩ := List.mem_map.1 mem
    simp [writeMember, writeText]
  have enough := length_le_listed parts true
  have same : (writtenMembers members).length = members.length := List.length_map _
  rw [commaSeparated_eq_listed]
  exact readMembers_listed gathers (by simp; omega) true rest

/-! ## Maps -/

/-- Read the value of a member of a map, and put it into the map. -/
def readEntry (read : Reader α) (key : String) (m : KeyMap α) : Reader (KeyMap α) := fun input => do
  let input ← afterColon input
  let (value, rest) ← read input
  .ok (m.insert key value, rest)

theorem readEntry_written {read : Reader α} {written : Bytes} {value : α}
    (h : Reads read written value) (key : String) (m : KeyMap α) (rest : Bytes)
    (follows : Follows rest) :
    readEntry read key m (58 :: (written ++ rest)) = .ok (m.insert key value, rest) := by
  unfold readEntry
  rw [afterColon_colon]
  simp only [bind, Except.bind]
  rw [h.reads rest follows]

/-- The entries of a map are put in one after the other. -/
theorem gathers_entries {read : Reader α} {write : α → Bytes} (entries : List (String × α))
    (each : ∀ e ∈ entries, Reads read (write e.2) e.2) (m : KeyMap α) :
    Gathers (readEntry read) m (entries.map fun e => (e.1, write e.2))
      (entries.foldl (fun acc e => acc.insert e.1 e.2) m) := by
  induction entries generalizing m with
  | nil => exact .nil m
  | cons e entries ih =>
      exact .cons (readEntry_written (each e List.mem_cons_self) e.1 m)
        (ih (fun e' mem => each e' (List.mem_cons_of_mem _ mem)) (m.insert e.1 e.2))

/-- A map is read from its written entries: of several for one key the last counts. -/
theorem reads_map {read : Reader α} {write : α → Bytes} (entries : List (String × α))
    (each : ∀ e ∈ entries, Reads read (write e.2) e.2) :
    Reads (readMap read) (writeObject (entries.map fun e => (e.1, write e.2)))
      (KeyMap.ofList entries) where
  solid := ⟨_, _, rfl, rfl, by decide⟩
  reads rest _ := by
    have gathered := readMembers_written (gathers_entries entries each .empty) rest
    unfold writeObject readMap
    rw [List.cons_append, List.append_assoc, skipBlank_of_solid (by decide)]
    simp only [↓reduceIte]
    exact gathered

/-! ## Records -/

/-- A member that is a field of a record, and comes for the first time, is taken over into the
record. -/
theorem readMember_field {β : Type} {read : Reader β} {written : Bytes} {value : β}
    (h : Reads read written value) {fields : List (RecordField α)} {name : String}
    (take : α → β → α) {seen : List String} {record : α}
    (found : fields.find? (fun f => f.name = name) =
      some ⟨name, fun record input => do
        let (value, rest) ← read input
        .ok (take record value, rest)⟩)
    (new : name ∉ seen) (rest : Bytes) (follows : Follows rest) :
    readMember fields name (seen, record) (58 :: (written ++ rest)) =
      .ok ((name :: seen, take record value), rest) := by
  unfold readMember
  rw [found]
  simp only [new, ↓reduceIte]
  rw [afterColon_colon]
  simp only [bind, Except.bind]
  rw [h.reads rest follows]

/-- A record is read from an object in which its fields come once each, all of them if they are
required. -/
theorem reads_record {fields : List (RecordField α)} {required : Bool} {start record : α}
    {members : List (String × Bytes)} {seen : List String}
    (gathers : Gathers (readMember fields) ([], start) members (seen, record))
    (complete : required → ∀ f ∈ fields, f.name ∈ seen) :
    Reads (readRecord fields required start) (writeObject members) record where
  solid := ⟨_, _, rfl, rfl, by decide⟩
  reads rest _ := by
    have gathered := readMembers_written gathers rest
    have all : ¬(required ∧ ¬(fields.all fun f => decide (f.name ∈ seen)) = true) := by
      rintro ⟨all, missing⟩
      exact missing (List.all_eq_true.2 fun f mem => decide_eq_true (complete all f mem))
    unfold writeObject readRecord
    rw [List.cons_append, List.append_assoc, skipBlank_of_solid (by decide)]
    simp only [show (123 : UInt8) ≠ 91 by decide, ↓reduceIte, bind, Except.bind]
    erw [gathered]
    simp only [if_neg all]

end ReplicaDiff.Json
