/-
# ReplicaDiff.Proofs.Json.Truncated — a written value that is cut off

`Cut cut whole` says that a text has lost some of its end.  A reader whose written
value has been cut off gets to the end of what is left: either it wants more there
(`Fault.truncated`), or it has a value and nothing is left (`Drained`).  The latter
happens to numbers only, whose first digits are a number too (`drains_unsigned`).
Strings, lists, objects and records are closed by a byte of their own, so that
their readers always want more (`Wants`): in a string every byte but the last of
an escape leaves it open (`scanQuoted_cut`), and in a list or an object a part that
ends with the bytes leaves it open too (`Wants.list`, `wants_map`, `wants_record`).

`GathersWanting` is the chain of states of `Gathers` in which, besides, no member
can be cut off without being noticed.
-/
import ReplicaDiff.Proofs.Json.Shape

namespace ReplicaDiff.Json

set_option autoImplicit false

open ReplicaDiff.Text (Bytes utf8)

variable {α β : Type}

/-! ## What is left of a text -/

/-- A text has lost some of its end. -/
structure Cut (cut whole : Bytes) : Prop where
  begins : cut <+: whole
  shorter : cut ≠ whole

namespace Cut

variable {cut whole front back : Bytes} {b : UInt8}

theorem not_nil : ¬Cut cut [] := fun h => h.shorter (List.prefix_nil.1 h.begins)

/-- A text in two parts is cut in its first part or in its second. -/
theorem cases_append (h : Cut cut (front ++ back)) :
    Cut cut front ∨ ∃ cut', cut = front ++ cut' ∧ Cut cut' back := by
  rcases List.prefix_or_prefix_of_prefix h.begins (List.prefix_append front back) with
    inside | ⟨cut', rfl⟩
  · by_cases whole : cut = front
    · subst whole
      refine .inr ⟨[], (List.append_nil _).symm, List.nil_prefix, fun empty => h.shorter ?_⟩
      rw [← empty, List.append_nil]
    · exact .inl ⟨inside, whole⟩
  · refine .inr ⟨cut', rfl, (List.prefix_append_right_inj front).1 h.begins, fun same => ?_⟩
    exact h.shorter (congrArg (front ++ ·) same)

/-- Of a text nothing is left, or its first byte and something of the rest. -/
theorem cases_cons (h : Cut cut (b :: whole)) :
    cut = [] ∨ ∃ cut', cut = b :: cut' ∧ Cut cut' whole := by
  have parts : Cut cut ([b] ++ whole) := h
  rcases parts.cases_append with inside | beyond
  · refine .inl ?_
    rcases List.prefix_cons_iff.1 inside.begins with empty | ⟨rest, rfl, nothing⟩
    · exact empty
    · exact absurd (congrArg (b :: ·) (List.prefix_nil.1 nothing)) inside.shorter
  · exact .inr beyond

theorem eq_nil (h : Cut cut [b]) : cut = [] :=
  h.cases_cons.resolve_right fun ⟨_, _, nothing⟩ => not_nil nothing

/-- What follows a value may be cut off too. -/
theorem follows (h : Cut cut whole) (all : Follows whole) : Follows cut := by
  obtain ⟨lost, rfl⟩ := h.begins
  cases cut with
  | nil => exact follows_nil
  | cons b cut => exact all

/-- A part is cut off with what separates it from the part before it. -/
theorem cases_separated {first : Bool} (h : Cut cut (separated first whole)) :
    cut = [] ∨ ∃ cut', cut = separated first cut' ∧ Cut cut' whole := by
  cases first with
  | true => exact .inr ⟨cut, rfl, h⟩
  | false => exact h.cases_cons

end Cut

/-! ## What becomes of its reader -/

/-- Reading has come to the end of the bytes, with a value or without. -/
def Drained (result : Except Fault (α × Bytes)) : Prop :=
  result = .error .truncated ∨ ∃ value, result = .ok (value, [])

/-- Wherever the written form is cut off, its reader comes to the end of what is left. -/
def Drains (read : Reader α) (written : Bytes) : Prop :=
  ∀ cut, Cut cut written → Drained (read cut)

/-- Wherever the written form is cut off, its reader wants more. -/
def Wants (read : Reader α) (written : Bytes) : Prop :=
  ∀ cut, Cut cut written → read cut = .error .truncated

theorem Wants.drains {read : Reader α} {written : Bytes} (h : Wants read written) :
    Drains read written := fun cut isCut => .inl (h cut isCut)

/-- A whole text that has been cut off is not taken for another one. -/
theorem Wants.readAll {read : Reader α} {written cut : Bytes} (h : Wants read written)
    (isCut : Cut cut written) : readAll read cut = .error .truncated := by
  unfold Json.readAll
  rw [h cut isCut]
  rfl

/-- A value may be changed after it has been read. -/
theorem Drained.map {result : Except Fault (α × Bytes)} (h : Drained result) (f : α → β) :
    Drained (result >>= fun p => .ok (f p.1, p.2)) := by
  rcases h with rfl | ⟨value, rfl⟩
  · exact .inl rfl
  · exact .inr ⟨f value, rfl⟩

/-! ## Strings -/

/-- No escape is complete before its last byte. -/
theorem scanQuoted_cut_escape {b : UInt8} {cut : Bytes} (h : Cut cut (escapeByte b)) :
    scanQuoted cut = .error .truncated := by
  have short : ∀ e : UInt8, Cut cut [backslashByte, e] → scanQuoted cut = .error .truncated := by
    intro e h
    rcases h.cases_cons with rfl | ⟨left, rfl, onward⟩
    · rfl
    · rw [onward.eq_nil]
      rfl
  rcases escapeByte_cases b with ⟨e, eq, -⟩ | ⟨_, _, _, _, eq, -⟩ | ⟨eq, -⟩
  · exact short e (eq ▸ h)
  · -- Of the six bytes of a code unit up to five are left.
    rw [eq] at h
    rcases h.cases_cons with rfl | ⟨_, rfl, h₁⟩
    · rfl
    rcases h₁.cases_cons with rfl | ⟨_, rfl, h₂⟩
    · rfl
    rcases h₂.cases_cons with rfl | ⟨_, rfl, h₃⟩
    · rfl
    rcases h₃.cases_cons with rfl | ⟨_, rfl, h₄⟩
    · rfl
    rcases h₄.cases_cons with rfl | ⟨_, rfl, h₅⟩
    · rfl
    rw [h₅.eq_nil]
    rfl
  · rw [eq] at h
    rw [h.eq_nil]
    rfl

theorem scanQuoted_cut {bytes cut : Bytes} (h : Cut cut (bytes.flatMap escapeByte ++ [quoteByte])) :
    scanQuoted cut = .error .truncated := by
  induction bytes generalizing cut with
  | nil =>
      rw [h.eq_nil]
      rfl
  | cons b bytes ih =>
      rw [List.flatMap_cons, List.append_assoc] at h
      rcases h.cases_append with inside | ⟨left, rfl, beyond⟩
      · exact scanQuoted_cut_escape inside
      · rw [scanQuoted_escapeByte, ih beyond]
        rfl

/-- A string is not taken for a shorter one, wherever it is cut off. -/
theorem quotedText_cut {s : String} {cut : Bytes}
    (h : Cut cut ((utf8 s).flatMap escapeByte ++ [quoteByte])) :
    quotedText cut = .error .truncated := by
  unfold quotedText
  rw [scanQuoted_cut h]
  rfl

theorem wants_text (s : String) : Wants readText (writeText s) := by
  intro cut h
  rcases h.cases_cons with rfl | ⟨left, rfl, quoted⟩
  · rfl
  · exact quotedText_cut quoted

/-! ## Numbers -/

/-- The first digits of a number are those of a smaller one. -/
theorem Cut.exists_writeNat {n : Nat} {cut : Bytes} (h : Cut cut (writeNat n)) :
    cut = [] ∨ ∃ m ≤ n, cut = writeNat m := by
  induction n using Nat.strongRecOn generalizing cut with
  | _ n ih =>
      by_cases small : n < 10
      · rw [writeNat_of_lt n small] at h
        exact .inl h.eq_nil
      · have below : n / 10 < n := by omega
        rw [writeNat_of_ge (by omega)] at h
        rcases h.cases_append with inside | ⟨left, rfl, beyond⟩
        · exact (ih _ below inside).imp_right fun ⟨m, le, eq⟩ => ⟨m, by omega, eq⟩
        · rw [beyond.eq_nil, List.append_nil]
          exact .inr ⟨n / 10, Nat.le_of_lt below, rfl⟩

theorem drains_unsigned {n bound : Nat} (le : n ≤ bound) (fits : bound ≤ maxWord) :
    Drains (readUnsigned bound) (writeNat n) := by
  intro cut h
  rcases h.exists_writeNat with rfl | ⟨m, smaller, rfl⟩
  · exact .inl rfl
  · have read := readUnsigned_writeNat (Nat.le_trans smaller le) fits follows_nil
    rw [List.append_nil] at read
    exact .inr ⟨m, read⟩

/-! ## Lists -/

theorem readElements_nil (read : Reader α) (fuel : Nat) (first : Bool) :
    readElements read fuel first [] = .error .truncated := by
  cases fuel <;> rfl

theorem readElements_comma (read : Reader α) (fuel : Nat) (first : Bool) :
    readElements read fuel first (separated first []) = .error .truncated := by
  cases fuel <;> cases first <;> rfl

/-- What is left of a part begins as the part does. -/
theorem Reads.head_of_prefix {read : Reader α} {written : Bytes} {value : α}
    (h : Reads read written value) {b : UInt8} {left : Bytes} (begins : b :: left <+: written) :
    isBlankByte b = false ∧ b ≠ 93 := by
  obtain ⟨_, _, rfl, solid, more⟩ := h.solid
  obtain ⟨rfl, -⟩ := List.cons_prefix_cons.1 begins
  exact ⟨solid, more⟩

theorem readElements_cut {read : Reader α} {written : List Bytes} {values : List α}
    (each : List.Forall₂ (Reads read) written values) (drains : ∀ part ∈ written, Drains read part)
    (fuel : Nat) (first : Bool) {cut : Bytes} (h : Cut cut (listed first written ++ [93])) :
    readElements read fuel first cut = .error .truncated := by
  induction each generalizing fuel first cut with
  | nil =>
      rw [h.eq_nil]
      exact readElements_nil read fuel first
  | @cons part value written values own _ ih =>
      cases fuel with
      | zero => rfl
      | succ fuel =>
        rw [listed, List.append_assoc] at h
        rcases h.cases_append with inside | ⟨left, rfl, beyond⟩
        · rcases inside.cases_separated with rfl | ⟨left, rfl, inPart⟩
          · exact readElements_nil read _ first
          · -- The element itself is cut off: its reader wants more, or leaves nothing.
            cases left with
            | nil => exact readElements_comma read _ first
            | cons b left =>
              obtain ⟨solid, more⟩ := own.head_of_prefix inPart.begins
              rw [readElements, nextElement_separated solid more]
              simp only [bind, Except.bind]
              rcases drains _ List.mem_cons_self _ inPart with fault | ⟨value, nothing⟩
              · rw [fault]
              · rw [nothing]
                simp only
                rw [readElements_nil]
        · have onward :=
            ih (fun part mem => drains part (List.mem_cons_of_mem _ mem)) fuel false beyond
          rw [readElements, own.nextElement]
          simp only [bind, Except.bind]
          rw [own.reads _ (beyond.follows (follows_listed (follows_bracket [])))]
          simp only
          rw [onward]

theorem Wants.list {read : Reader α} {written : List Bytes} {values : List α}
    (each : List.Forall₂ (Reads read) written values)
    (drains : ∀ part ∈ written, Drains read part) : Wants (readList read) (writeList written) := by
  intro cut h
  rcases h.cases_cons with rfl | ⟨left, rfl, inside⟩
  · rfl
  · rw [commaSeparated_eq_listed] at inside
    exact readElements_cut each drains _ true inside

/-! ## Objects -/

/-- Reading members one after the other, none of which can be cut off without being noticed. -/
inductive GathersWanting (read : String → α → Reader α) : α → List (String × Bytes) → α → Prop where
  | nil (a : α) : GathersWanting read a [] a
  | cons {a b c : α} {key : String} {value : Bytes} {members : List (String × Bytes)}
      (step : ∀ rest, Follows rest → read key a (58 :: (value ++ rest)) = .ok (b, rest))
      (drains : Drains (read key a) (58 :: value))
      (onward : GathersWanting read b members c) : GathersWanting read a ((key, value) :: members) c

theorem readMembers_nil (read : String → α → Reader α) (fuel : Nat) (first : Bool) (a : α) :
    readMembers read fuel first a [] = .error .truncated := by
  cases fuel <;> rfl

theorem readMembers_comma (read : String → α → Reader α) (fuel : Nat) (first : Bool) (a : α) :
    readMembers read fuel first a (separated first []) = .error .truncated := by
  cases fuel <;> cases first <;> rfl

/-- A member is cut off before its key ends, or after it. -/
theorem Cut.cases_member {key : String} {value cut : Bytes} (h : Cut cut (writeMember key value)) :
    cut = [] ∨
      (∃ cut', cut = quoteByte :: cut' ∧
        Cut cut' ((utf8 key).flatMap escapeByte ++ [quoteByte])) ∨
      ∃ cut', cut = quoteByte :: ((utf8 key).flatMap escapeByte ++ quoteByte :: cut') ∧
        Cut cut' (58 :: value) := by
  unfold writeMember at h
  rcases h.cases_append with inside | ⟨left, rfl, beyond⟩
  · exact inside.cases_cons.imp_right .inl
  · exact .inr (.inr ⟨left, by simp [writeText], beyond⟩)

theorem readMembers_cut {read : String → α → Reader α} {a c : α} {members : List (String × Bytes)}
    (gathers : GathersWanting read a members c) (fuel : Nat) (first : Bool) {cut : Bytes}
    (h : Cut cut (listed first (writtenMembers members) ++ [125])) :
    readMembers read fuel first a cut = .error .truncated := by
  induction gathers generalizing fuel first cut with
  | nil a =>
      rw [h.eq_nil]
      exact readMembers_nil read fuel first a
  | @cons a b c key value members step drains onward ih =>
      cases fuel with
      | zero => rfl
      | succ fuel =>
        have parts : listed first (writtenMembers ((key, value) :: members)) ++ [125] =
            separated first (writeMember key value) ++
              (listed false (writtenMembers members) ++ [125]) := List.append_assoc _ _ _
        rw [parts] at h
        rcases h.cases_append with inside | ⟨left, rfl, beyond⟩
        · rcases inside.cases_separated with rfl | ⟨left, rfl, inPart⟩
          · exact readMembers_nil read _ first a
          · rcases inPart.cases_member with rfl | ⟨left, rfl, named⟩ | ⟨left, rfl, valued⟩
            · exact readMembers_comma read _ first a
            · rw [readMembers_quote, quotedText_cut named]
              rfl
            · rw [readMembers_quote, quotedText_escaped]
              simp only [bind, Except.bind]
              rcases drains _ valued with fault | ⟨b, nothing⟩
              · rw [fault]
              · rw [nothing]
                simp only
                rw [readMembers_nil]
        · have follows := beyond.follows (follows_listed (follows_brace []))
          rw [readMembers_member (step _ follows)]
          exact ih fuel false beyond

theorem Cut.cases_object {members : List (String × Bytes)} {cut : Bytes}
    (h : Cut cut (writeObject members)) :
    cut = [] ∨ ∃ cut', cut = 123 :: cut' ∧ Cut cut' (listed true (writtenMembers members) ++ [125]) := by
  rw [← commaSeparated_eq_listed]
  exact h.cases_cons

/-- The value of a member is what its reader wants after the colon. -/
theorem Drains.afterColon {read : Reader α} {written : Bytes} (h : Drains read written) :
    Drains (fun input => Json.afterColon input >>= read) (58 :: written) := by
  intro cut isCut
  rcases isCut.cases_cons with rfl | ⟨left, rfl, inValue⟩
  · exact .inl rfl
  · exact h left inValue

/-! ## Maps -/

theorem drains_entry {read : Reader α} {written : Bytes} (h : Drains read written) (key : String)
    (m : KeyMap α) : Drains (readEntry read key m) (58 :: written) := by
  intro cut isCut
  have drained := (h.afterColon cut isCut).map fun value => m.insert key value
  rwa [bind_assoc] at drained

theorem gathersWanting_entries {read : Reader α} {write : α → Bytes} (entries : List (String × α))
    (each : ∀ e ∈ entries, Reads read (write e.2) e.2)
    (drains : ∀ e ∈ entries, Drains read (write e.2)) (m : KeyMap α) :
    GathersWanting (readEntry read) m (entries.map fun e => (e.1, write e.2))
      (entries.foldl (fun acc e => acc.insert e.1 e.2) m) := by
  induction entries generalizing m with
  | nil => exact .nil m
  | cons e entries ih =>
      have own := each e List.mem_cons_self
      refine .cons (readEntry_written own e.1 m) (drains_entry (drains e List.mem_cons_self) e.1 m) ?_
      exact ih (fun e' mem => each e' (List.mem_cons_of_mem _ mem))
        (fun e' mem => drains e' (List.mem_cons_of_mem _ mem)) _

/-- A map is not taken for a smaller one, wherever it is cut off. -/
theorem wants_map {read : Reader α} {write : α → Bytes} (entries : List (String × α))
    (each : ∀ e ∈ entries, Reads read (write e.2) e.2)
    (drains : ∀ e ∈ entries, Drains read (write e.2)) :
    Wants (readMap read) (writeObject (entries.map fun e => (e.1, write e.2))) := by
  intro cut h
  rcases h.cases_object with rfl | ⟨left, rfl, inside⟩
  · rfl
  · exact readMembers_cut (gathersWanting_entries entries each drains .empty) _ true inside

/-! ## Records -/

theorem drains_field {read : Reader β} {written : Bytes} (h : Drains read written)
    {fields : List (RecordField α)} {name : String} (take : α → β → α) {seen : List String}
    {record : α}
    (found : fields.find? (fun f => f.name = name) =
      some ⟨name, fun record input => do
        let (value, rest) ← read input
        .ok (take record value, rest)⟩)
    (new : name ∉ seen) : Drains (readMember fields name (seen, record)) (58 :: written) := by
  intro cut isCut
  have drained := (h.afterColon cut isCut).map fun value => (name :: seen, take record value)
  unfold readMember
  rw [found]
  simp only [new, ↓reduceIte, bind_assoc] at drained ⊢
  exact drained

/-- A record is not taken for another one, wherever it is cut off. -/
theorem wants_record {fields : List (RecordField α)} {required : Bool} {start record : α}
    {members : List (String × Bytes)} {seen : List String}
    (gathers : GathersWanting (readMember fields) ([], start) members (seen, record)) :
    Wants (readRecord fields required start) (writeObject members) := by
  intro cut h
  rcases h.cases_object with rfl | ⟨left, rfl, inside⟩
  · rfl
  · have wants := readMembers_cut gathers (left.length + 1) true inside
    unfold readRecord
    rw [skipBlank_of_solid (by decide)]
    simp only [show (123 : UInt8) ≠ 91 by decide, ↓reduceIte, bind, Except.bind]
    rw [wants]

end ReplicaDiff.Json
