/-
# ReplicaDiff.Proofs.Json.Members — records in objects with members of any names

The object of a record may hold other members than its fields, and its members may
come in any order (`Among`).  A record is described by what it is when the members
of certain names have been read; if each known member leads from there to what the
record is with its own name (`Takes`), then the record is the one of all known names
(`reads_among`).  If one of them does not fit its field instead (`Spoils`), the
whole record is refused, wherever that member stands (`refuses_among`).
-/
import Mathlib.Data.List.Nodup
import ReplicaDiff.Proofs.Json.Value

namespace ReplicaDiff.Json

set_option autoImplicit false

open ReplicaDiff.Text (Bytes)

variable {α : Type}

/-- An object has the known members, and others whose names are none of these, in any order. -/
def Among (names : List String) (known members : List (String × Value)) : Prop :=
  ∃ others : List (String × Value),
    (∀ o ∈ others, o.1 ∉ names) ∧ members.Perm (known ++ others)

/-- There may be no others, and the members may be in order. -/
theorem Among.refl (names : List String) (known : List (String × Value)) :
    Among names known known :=
  ⟨[], nofun, .of_eq (List.append_nil known).symm⟩

/-! ## Faults -/

/-- Reading members one after the other comes to one that is refused. -/
inductive Stumbles (read : String → α → Reader α) : α → List (String × Bytes) → Prop where
  | here {a : α} {key : String} {value : Bytes} {members : List (String × Bytes)}
      (refused : ∀ rest, Follows rest → ∃ fault, read key a (58 :: (value ++ rest)) = .error fault) :
      Stumbles read a ((key, value) :: members)
  | later {a b : α} {key : String} {value : Bytes} {members : List (String × Bytes)}
      (step : ∀ rest, Follows rest → read key a (58 :: (value ++ rest)) = .ok (b, rest))
      (onward : Stumbles read b members) : Stumbles read a ((key, value) :: members)

theorem readMembers_stumbles {read : String → α → Reader α} {a : α}
    {members : List (String × Bytes)} (stumbles : Stumbles read a members) (fuel : Nat)
    (first : Bool) (rest : Bytes) :
    ∃ fault, readMembers read fuel first a (listed first (writtenMembers members) ++ 125 :: rest) =
      .error fault := by
  have follows (members : List (String × Bytes)) :
      Follows (listed false (writtenMembers members) ++ 125 :: rest) :=
    follows_listed (follows_brace rest)
  induction stumbles generalizing fuel first with
  | @here a key value members refused =>
      cases fuel with
      | zero => exact ⟨_, rfl⟩
      | succ fuel =>
          obtain ⟨fault, refused⟩ := refused _ (follows members)
          rw [listed_writtenMembers_cons, List.append_assoc, readMembers_writeMember, refused]
          exact ⟨fault, rfl⟩
  | @later a b key value members step onward ih =>
      cases fuel with
      | zero => exact ⟨_, rfl⟩
      | succ fuel =>
          rw [listed_writtenMembers_cons, List.append_assoc,
            readMembers_member (step _ (follows members))]
          exact ih fuel false

theorem refuses_record {fields : List (RecordField α)} {required : Bool} {start : α}
    {members : List (String × Bytes)} (stumbles : Stumbles (readMember fields) ([], start) members) :
    Refuses (readRecord fields required start) (writeObject members) := by
  intro rest _
  have inside : commaSeparated (members.map fun m => writeMember m.1 m.2) ++ ([125] ++ rest) =
      listed true (writtenMembers members) ++ 125 :: rest := by
    rw [commaSeparated_eq_listed]
    rfl
  unfold writeObject readRecord
  rw [List.cons_append, List.append_assoc, skipBlank_of_solid (by decide), inside]
  simp only [show (123 : UInt8) ≠ 91 by decide, ↓reduceIte, bind, Except.bind]
  obtain ⟨fault, refused⟩ := readMembers_stumbles stumbles
    ((listed true (writtenMembers members) ++ 125 :: rest).length + 1) true rest
  exact ⟨fault, by rw [refused]⟩

/-! ## One member -/

section Members

variable {fields : List (RecordField α)} {built : List String → α}

/-- A member that is not a field of the record is passed over. -/
theorem readMember_other {name : String} (other : name ∉ fields.map (·.name))
    (state : List String × α) (v : Value) {rest : Bytes} (follows : Follows rest) :
    readMember fields name state (58 :: (v.write ++ rest)) = .ok (state, rest) := by
  have unknown : fields.find? (fun f => f.name = name) = none := by
    rw [List.find?_eq_none]
    intro f mem same
    exact other (List.mem_map.2 ⟨f, mem, of_decide_eq_true same⟩)
  unfold readMember
  rw [unknown]
  simp only [afterColon_colon, bind, Except.bind]
  rw [skipValue_write v follows]

/-- A member leads from the record of the names before it to the record with its own. -/
def Takes (fields : List (RecordField α)) (built : List String → α) (m : String × Value) : Prop :=
  ∀ seen, m.1 ∉ seen → ∀ rest, Follows rest →
    readMember fields m.1 (seen, built seen) (58 :: (m.2.write ++ rest)) =
      .ok ((m.1 :: seen, built (m.1 :: seen)), rest)

/-- A member is refused. -/
def Spoils (fields : List (RecordField α)) (built : List String → α) (m : String × Value) : Prop :=
  ∀ seen, m.1 ∉ seen → ∀ rest, Follows rest →
    ∃ fault, readMember fields m.1 (seen, built seen) (58 :: (m.2.write ++ rest)) = .error fault

theorem takes_field {β : Type} {read : Reader β} {name : String} {v : Value} {x : β}
    (reads : Reads read v.write x) (take : α → β → α)
    (found : fields.find? (fun f => f.name = name) =
      some ⟨name, fun record input => do
        let (value, rest) ← read input
        .ok (take record value, rest)⟩)
    (leads : ∀ seen, take (built seen) x = built (name :: seen)) : Takes fields built (name, v) := by
  intro seen new rest follows
  rw [← leads seen]
  exact readMember_field reads take found new rest follows

theorem spoils_field {β : Type} {read : Reader β} {name : String} {v : Value}
    (refuses : Refuses read v.write) (take : α → β → α)
    (found : fields.find? (fun f => f.name = name) =
      some ⟨name, fun record input => do
        let (value, rest) ← read input
        .ok (take record value, rest)⟩) : Spoils fields built (name, v) := by
  intro seen new rest follows
  obtain ⟨fault, refused⟩ := refuses rest follows
  refine ⟨fault, ?_⟩
  unfold readMember
  rw [found]
  simp only [new, ↓reduceIte, afterColon_colon, bind, Except.bind]
  rw [refused]

/-- A member is taken where a condition holds, and refused where it does not. -/
def Decides (fields : List (RecordField α)) (built : List String → α) (fits : Prop)
    (m : String × Value) : Prop :=
  fits ∧ Takes fields built m ∨ ¬fits ∧ Spoils fields built m

namespace Decides

variable {fits : Prop} {m : String × Value}

theorem takes (h : Decides fields built fits m) (holds : fits) : Takes fields built m := by
  rcases h with ⟨-, takes⟩ | ⟨not, -⟩
  · exact takes
  · exact absurd holds not

theorem takes_or_spoils (h : Decides fields built fits m) :
    Takes fields built m ∨ Spoils fields built m :=
  h.imp And.right And.right

theorem of_not_spoils (h : Decides fields built fits m) (sound : ¬Spoils fields built m) : fits := by
  rcases h with ⟨holds, -⟩ | ⟨-, spoils⟩
  · exact holds
  · exact absurd spoils sound

/-- An integer for a number of the record is taken if it is in the range, and refused if not. -/
theorem integer {name : String} {n : Int} (bound : Nat) (small : bound ≤ maxWord)
    (take : α → Nat → α)
    (found : fields.find? (fun f => f.name = name) =
      some ⟨name, fun record input => do
        let (n, rest) ← readUnsigned bound input
        .ok (take record n, rest)⟩)
    (leads : ∀ seen, take (built seen) n.toNat = built (name :: seen))
    (range : fits ↔ 0 ≤ n ∧ n ≤ bound) : Decides fields built fits (name, .integer n) := by
  by_cases holds : fits
  · obtain ⟨nonneg, le⟩ := range.1 holds
    obtain ⟨m, rfl⟩ := Int.eq_ofNat_of_zero_le nonneg
    exact .inl ⟨holds, takes_field (reads_integer (Int.ofNat_le.1 le) small) take found leads⟩
  · have out : n < 0 ∨ (bound : Int) < n := by
      rw [range] at holds
      omega
    exact .inr ⟨holds, spoils_field (refuses_integer out) take found⟩

end Decides

/-! ## All members -/

/-- The names of the members that are fields of a record. -/
def takenNames (fields : List (RecordField α)) (members : List (String × Value)) : List String :=
  (members.map Prod.fst).filter (· ∈ fields.map (·.name))

theorem takenNames_cons_of_mem {m : String × Value} (mem : m.1 ∈ fields.map (·.name))
    (members : List (String × Value)) :
    takenNames fields (m :: members) = m.1 :: takenNames fields members :=
  List.filter_cons_of_pos (decide_eq_true mem)

theorem takenNames_cons_of_notMem {m : String × Value} (other : m.1 ∉ fields.map (·.name))
    (members : List (String × Value)) :
    takenNames fields (m :: members) = takenNames fields members :=
  List.filter_cons_of_neg (by simpa using other)

/-- Names of which none has been seen are still new when the first of them has been, and no other is
the same. -/
theorem fresh_of_cons {name : String} {names seen : List String} (nodup : (name :: names).Nodup)
    (new : ∀ n ∈ name :: names, n ∉ seen) : ∀ n ∈ names, n ∉ name :: seen := by
  intro n mem old
  rcases List.mem_cons.1 old with rfl | old
  · exact (List.nodup_cons.1 nodup).1 mem
  · exact new n (List.mem_cons_of_mem _ mem) old

/-- The written forms of the values of members. -/
def writtenValues (members : List (String × Value)) : List (String × Bytes) :=
  members.map fun m => (m.1, m.2.write)

/-- Members that are all taken over or passed over lead to the record of the names that were
taken. -/
theorem gathers_taken {members : List (String × Value)} (seen : List String)
    (takes : ∀ m ∈ members, m.1 ∈ fields.map (·.name) → Takes fields built m)
    (new : ∀ name ∈ takenNames fields members, name ∉ seen)
    (nodup : (takenNames fields members).Nodup) :
    Gathers (readMember fields) (seen, built seen) (writtenValues members)
      ((takenNames fields members).reverse ++ seen,
        built ((takenNames fields members).reverse ++ seen)) := by
  induction members generalizing seen with
  | nil => exact .nil _
  | cons m members ih =>
      have onward := fun m' mem => takes m' (List.mem_cons_of_mem _ mem)
      by_cases own : m.1 ∈ fields.map (·.name)
      · rw [takenNames_cons_of_mem own] at new nodup ⊢
        rw [List.reverse_cons, List.append_assoc]
        exact .cons (takes m List.mem_cons_self own seen (new m.1 List.mem_cons_self))
          (ih _ onward (fresh_of_cons nodup new) nodup.of_cons)
      · rw [takenNames_cons_of_notMem own] at new nodup ⊢
        exact .cons (fun rest follows => readMember_other own _ m.2 follows) (ih seen onward new nodup)

/-- Members of which one is refused. -/
theorem stumbles_spoilt {members : List (String × Value)} (seen : List String)
    (each : ∀ m ∈ members, m.1 ∈ fields.map (·.name) → Takes fields built m ∨ Spoils fields built m)
    (spoilt : ∃ m ∈ members, m.1 ∈ fields.map (·.name) ∧ Spoils fields built m)
    (new : ∀ name ∈ takenNames fields members, name ∉ seen)
    (nodup : (takenNames fields members).Nodup) :
    Stumbles (readMember fields) (seen, built seen) (writtenValues members) := by
  induction members generalizing seen with
  | nil =>
      obtain ⟨m, mem, -⟩ := spoilt
      exact absurd mem List.not_mem_nil
  | cons m members ih =>
      have onward := fun m' mem => each m' (List.mem_cons_of_mem _ mem)
      obtain ⟨bad, mem, known, spoils⟩ := spoilt
      by_cases own : m.1 ∈ fields.map (·.name)
      · rw [takenNames_cons_of_mem own] at new nodup
        have fresh := new m.1 List.mem_cons_self
        rcases List.mem_cons.1 mem with rfl | mem
        · exact .here (spoils seen fresh)
        rcases each m List.mem_cons_self own with takes | spoils'
        · exact .later (takes seen fresh) (ih _ onward ⟨bad, mem, known, spoils⟩
            (fresh_of_cons nodup new) nodup.of_cons)
        · exact .here (spoils' seen fresh)
      · rw [takenNames_cons_of_notMem own] at new nodup
        rcases List.mem_cons.1 mem with rfl | mem
        · exact absurd known own
        · exact .later (fun rest follows => readMember_other own _ m.2 follows)
            (ih seen onward ⟨bad, mem, known, spoils⟩ new nodup)

/-! ## Known members among others -/

variable {known members : List (String × Value)}

/-- The names that are taken are the known ones. -/
theorem takenNames_among (named : ∀ m ∈ known, m.1 ∈ fields.map (·.name))
    (among : Among (fields.map (·.name)) known members) :
    (takenNames fields members).Perm (known.map Prod.fst) := by
  obtain ⟨others, unknown, perm⟩ := among
  have all : (known.map Prod.fst).filter (· ∈ fields.map (·.name)) = known.map Prod.fst := by
    refine List.filter_eq_self.2 fun name mem => decide_eq_true ?_
    obtain ⟨m, there, rfl⟩ := List.mem_map.1 mem
    exact named m there
  have none : (others.map Prod.fst).filter (· ∈ fields.map (·.name)) = [] := by
    refine List.filter_eq_nil_iff.2 fun name mem => ?_
    obtain ⟨o, there, rfl⟩ := List.mem_map.1 mem
    exact fun own => unknown o there (of_decide_eq_true own)
  have perm := (perm.map Prod.fst).filter (· ∈ fields.map (·.name))
  rwa [List.map_append, List.filter_append, all, none, List.append_nil] at perm

/-- A member that is a field of the record is a known one. -/
theorem mem_known {m : String × Value} (among : Among (fields.map (·.name)) known members)
    (mem : m ∈ members) (own : m.1 ∈ fields.map (·.name)) : m ∈ known := by
  obtain ⟨others, unknown, perm⟩ := among
  rcases List.mem_append.1 (perm.mem_iff.1 mem) with mem | mem
  · exact mem
  · exact absurd own (unknown m mem)

/-- A record is read from its known members, whatever order they come in and whatever other members
come among them. -/
theorem reads_among (required : Bool) (built : List String → α)
    (nodup : (known.map Prod.fst).Nodup)
    (named : ∀ m ∈ known, m.1 ∈ fields.map (·.name)) (takes : ∀ m ∈ known, Takes fields built m)
    (complete : required → ∀ f ∈ fields, f.name ∈ known.map Prod.fst)
    (among : Among (fields.map (·.name)) known members) :
    ∃ seen, (∀ name, name ∈ seen ↔ name ∈ known.map Prod.fst) ∧
      Reads (readRecord fields required (built [])) (Value.object members).write (built seen) := by
  have perm := takenNames_among named among
  have gathers := gathers_taken [] (fun m mem own => takes m (mem_known among mem own))
    (fun _ _ => List.not_mem_nil) (perm.nodup_iff.2 nodup)
  have seen (name : String) : name ∈ (takenNames fields members).reverse ++ [] ↔
      name ∈ known.map Prod.fst := by
    rw [List.append_nil, List.mem_reverse, perm.mem_iff]
  refine ⟨_, seen, ?_⟩
  rw [Value.write_object]
  exact reads_record gathers fun all f mem => (seen f.name).2 (complete all f mem)

/-- A record is refused where one of its known members is. -/
theorem refuses_among (required : Bool) (built : List String → α)
    (nodup : (known.map Prod.fst).Nodup)
    (named : ∀ m ∈ known, m.1 ∈ fields.map (·.name))
    (each : ∀ m ∈ known, Takes fields built m ∨ Spoils fields built m)
    (spoilt : ∃ m ∈ known, Spoils fields built m)
    (among : Among (fields.map (·.name)) known members) :
    Refuses (readRecord fields required (built [])) (Value.object members).write := by
  have perm := takenNames_among named among
  obtain ⟨bad, mem, spoils⟩ := spoilt
  have there : bad ∈ members := by
    obtain ⟨others, -, perm⟩ := among
    exact perm.mem_iff.2 (List.mem_append_left _ mem)
  have stumbles := stumbles_spoilt []
    (fun m mem own => each m (mem_known among mem own)) ⟨bad, there, named bad mem, spoils⟩
    (fun _ _ => List.not_mem_nil) (perm.nodup_iff.2 nodup)
  rw [Value.write_object]
  exact refuses_record stumbles

end Members

end ReplicaDiff.Json
