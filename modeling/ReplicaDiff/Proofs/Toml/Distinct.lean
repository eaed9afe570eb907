/-
# ReplicaDiff.Proofs.Toml.Distinct — a document has one value for a key

Whatever a document does to a table, by a dotted key, a header or a line, it puts
a value only under a key that has none, or replaces a table by what has become of
it (`changeAt`).  So in every table that has been read a key stands once
(`distinct_of_parse`), at any depth (`Entries.Distinct`).
-/
import Mathlib.Data.List.Nodup
import ReplicaDiff.Toml.Reader

namespace ReplicaDiff.Toml

set_option autoImplicit false

mutual

/-- In every table of a value a key stands once. -/
inductive Value.Distinct : Value → Prop where
  | text (s : String) : Value.Distinct (.text s)
  | integer (n : Int) : Value.Distinct (.integer n)
  | float : Value.Distinct .float
  | boolean (b : Bool) : Value.Distinct (.boolean b)
  | moment : Value.Distinct .moment
  | list {items : List Value} (each : ∀ v ∈ items, Value.Distinct v) : Value.Distinct (.list items)
  | table {origin : Origin} {entries : Entries} (inner : Entries.Distinct entries) :
      Value.Distinct (.table origin entries)
  | tables {items : List Entries} (each : ∀ entries ∈ items, Entries.Distinct entries) :
      Value.Distinct (.tables items)

/-- A key stands once in a table, and in every table inside it. -/
inductive Entries.Distinct : Entries → Prop where
  | intro {entries : Entries} (keys : (entries.map Prod.fst).Nodup)
      (each : ∀ e ∈ entries, Value.Distinct e.2) : Entries.Distinct entries

end

/-! ## Changing a table -/

namespace Entries

variable {key : String} {v : Value} {entries entries' : Entries}

theorem Distinct.keys (h : entries.Distinct) : (entries.map Prod.fst).Nodup := by
  cases h with
  | intro keys each => exact keys

theorem Distinct.each (h : entries.Distinct) : ∀ e ∈ entries, e.2.Distinct := by
  cases h with
  | intro keys each => exact each

theorem distinct_nil : Entries.Distinct [] := ⟨List.nodup_nil, nofun⟩

theorem mem_of_find (found : find? key entries = some v) : (key, v) ∈ entries := by
  induction entries with
  | nil => cases found
  | cons e entries ih =>
      obtain ⟨k, w⟩ := e
      rw [find?] at found
      split at found
      · rename_i same
        cases found
        exact same ▸ List.mem_cons_self
      · exact List.mem_cons_of_mem _ (ih found)

theorem find_eq_none_iff : find? key entries = none ↔ key ∉ entries.map Prod.fst := by
  induction entries with
  | nil => simp [find?]
  | cons e entries ih =>
      obtain ⟨k, w⟩ := e
      rw [find?, List.map_cons, List.mem_cons, not_or, ← ih]
      split
      · rename_i same
        simp [same]
      · rename_i other
        simp [Ne.symm other]

theorem Distinct.of_find (h : entries.Distinct) (found : find? key entries = some v) : v.Distinct :=
  h.each _ (mem_of_find found)

theorem Distinct.add (h : entries.Distinct) (new : find? key entries = none) (value : v.Distinct) :
    (add key v entries).Distinct := by
  refine ⟨?_, fun e mem => ?_⟩
  · rw [Entries.add, List.map_append, List.nodup_append]
    refine ⟨h.keys, List.nodup_singleton key, ?_⟩
    intro k known k' mem same
    rw [same, List.mem_singleton.1 mem] at known
    exact find_eq_none_iff.1 new known
  · rcases List.mem_append.1 mem with mem | mem
    · exact h.each e mem
    · exact List.mem_singleton.1 mem ▸ value

theorem keys_replace (key : String) (v : Value) (entries : Entries) :
    (replace key v entries).map Prod.fst = entries.map Prod.fst := by
  induction entries with
  | nil => rfl
  | cons e entries ih =>
      obtain ⟨k, w⟩ := e
      rw [replace]
      split
      · rfl
      · rw [List.map_cons, ih, List.map_cons]

theorem mem_replace {e : String × Value} (mem : e ∈ replace key v entries) :
    e ∈ entries ∨ e.2 = v := by
  induction entries with
  | nil => cases mem
  | cons e' entries ih =>
      obtain ⟨k, w⟩ := e'
      rw [replace] at mem
      split at mem
      · rcases List.mem_cons.1 mem with rfl | mem
        · exact .inr rfl
        · exact .inl (List.mem_cons_of_mem _ mem)
      · rcases List.mem_cons.1 mem with rfl | mem
        · exact .inl List.mem_cons_self
        · exact (ih mem).imp_left (List.mem_cons_of_mem _)

theorem Distinct.replace (h : entries.Distinct) (value : v.Distinct) :
    (replace key v entries).Distinct := by
  refine ⟨by rw [keys_replace]; exact h.keys, fun e mem => ?_⟩
  rcases mem_replace mem with mem | same
  · exact h.each e mem
  · exact same ▸ value

/-- A change of the table that a path leads to keeps keys distinct, if it does so in that table. -/
theorem Distinct.changeAt {change : Origin → Entries → Option Entries} {dotted : Bool}
    (keeps : ∀ origin inner inner', Entries.Distinct inner → change origin inner = some inner' →
      Entries.Distinct inner')
    {path : List String} {origin : Origin} (h : entries.Distinct)
    (changes : Entries.changeAt change dotted path origin entries = some entries') :
    entries'.Distinct := by
  induction path generalizing origin entries entries' with
  | nil => exact keeps origin _ _ h changes
  | cons key path ih =>
      rw [Entries.changeAt] at changes
      split at changes
      · rename_i new
        obtain ⟨inner, changed, made⟩ := Option.bind_eq_some_iff.1 changes
        cases made
        exact h.add new (.table (ih distinct_nil changed))
      · rename_i inner found
        split at changes
        · cases changes
        · obtain ⟨inner', changed, made⟩ := Option.bind_eq_some_iff.1 changes
          cases made
          have distinct : Entries.Distinct inner := by
            cases h.of_find found with
            | table inner => exact inner
          exact h.replace (.table (ih distinct changed))
      · rename_i items found
        split at changes
        · cases changes
        · rename_i last known
          obtain ⟨last', changed, made⟩ := Option.bind_eq_some_iff.1 changes
          cases made
          have each : ∀ es ∈ items, Entries.Distinct es := by
            cases h.of_find found with
            | tables each => exact each
          refine h.replace (.tables fun es mem => ?_)
          rcases List.mem_append.1 mem with mem | mem
          · exact each es (List.dropLast_subset items mem)
          · rw [List.mem_singleton.1 mem]
            exact ih (each last (List.mem_of_getLast? known)) changed
      · cases changes

theorem Distinct.putDotted {path : List String} {origin : Origin} (h : entries.Distinct)
    (value : v.Distinct) (puts : Entries.putDotted path key v origin entries = some entries') :
    entries'.Distinct := by
  refine h.changeAt (fun origin inner inner' distinct change => ?_) puts
  split at change
  · cases change
  · split at change
    · cases change
    · rename_i new
      cases change
      exact distinct.add (Option.not_isSome_iff_eq_none.1 new) value

theorem Distinct.putBelow {header path : List String} (h : entries.Distinct) (value : v.Distinct)
    (puts : Entries.putBelow header path key v entries = some entries') : entries'.Distinct :=
  h.changeAt (fun _ _ _ distinct change => distinct.putDotted value change) puts

theorem Distinct.openTable {path : List String} (h : entries.Distinct)
    (opens : Entries.openTable path key entries = some entries') : entries'.Distinct := by
  refine h.changeAt (fun origin inner inner' distinct change => ?_) opens
  split at change
  · rename_i new
    cases change
    exact distinct.add new (.table distinct_nil)
  · rename_i found
    cases change
    cases distinct.of_find found with
    | table own => exact distinct.replace (.table own)
  · cases change

theorem Distinct.openTables {path : List String} (h : entries.Distinct)
    (opens : Entries.openTables path key entries = some entries') : entries'.Distinct := by
  refine h.changeAt (fun origin inner inner' distinct change => ?_) opens
  split at change
  · rename_i new
    cases change
    refine distinct.add new (.tables fun es mem => ?_)
    exact List.mem_singleton.1 mem ▸ distinct_nil
  · rename_i found
    cases change
    cases distinct.of_find found with
    | tables each =>
        refine distinct.replace (.tables fun es mem => ?_)
        rcases List.mem_append.1 mem with mem | mem
        · exact each es mem
        · exact List.mem_singleton.1 mem ▸ distinct_nil
  · cases change

end Entries

/-! ## Reading values and lines -/

theorem distinct_integer {n : Int} {v : Value} (reads : integer? n = some v) : v.Distinct := by
  unfold integer? at reads
  split at reads
  · cases reads
    exact .integer n
  · cases reads

theorem distinct_float {negative : Bool} {ds : List Nat} {e : Int} {v : Value}
    (reads : float? negative ds e = some v) : v.Distinct := by
  unfold float? at reads
  split at reads
  · cases reads
  · cases reads
    exact .float

theorem distinct_afterWhole {negative : Bool} {ds : List Nat} {input rest : List Char} {v : Value}
    (reads : afterWhole negative ds input = some (v, rest)) : v.Distinct := by
  unfold afterWhole at reads
  dsimp only at reads
  split at reads
  · obtain ⟨⟨fs, onward⟩, -, reads⟩ := Option.bind_eq_some_iff.1 reads
    dsimp only at reads
    split at reads
    · split_ifs at reads
      · obtain ⟨_, -, reads⟩ := Option.bind_eq_some_iff.1 reads
        obtain ⟨w, float, made⟩ := Option.bind_eq_some_iff.1 reads
        cases made
        exact distinct_float float
      · obtain ⟨w, float, made⟩ := Option.bind_eq_some_iff.1 reads
        cases made
        exact distinct_float float
    · obtain ⟨w, float, made⟩ := Option.map_eq_some_iff.1 reads
      cases made
      exact distinct_float float
  · obtain ⟨_, -, reads⟩ := Option.bind_eq_some_iff.1 reads
    obtain ⟨w, float, made⟩ := Option.bind_eq_some_iff.1 reads
    cases made
    exact distinct_float float
  · obtain ⟨_, -, reads⟩ := Option.bind_eq_some_iff.1 reads
    obtain ⟨w, float, made⟩ := Option.bind_eq_some_iff.1 reads
    cases made
    exact distinct_float float
  · obtain ⟨w, integer, made⟩ := Option.bind_eq_some_iff.1 reads
    cases made
    exact distinct_integer integer

theorem distinct_afterSign {negative : Bool} {input rest : List Char} {v : Value}
    (reads : afterSign negative input = some (v, rest)) : v.Distinct := by
  unfold afterSign at reads
  split at reads
  · cases reads
    exact .float
  · cases reads
    exact .float
  · obtain ⟨⟨ds, onward⟩, -, reads⟩ := Option.bind_eq_some_iff.1 reads
    exact distinct_afterWhole reads

theorem distinct_inBase {base : Nat} {input rest : List Char} {v : Value}
    (reads : inBase base input = some (v, rest)) : v.Distinct := by
  obtain ⟨⟨ds, onward⟩, -, reads⟩ := Option.bind_eq_some_iff.1 reads
  obtain ⟨w, integer, made⟩ := Option.bind_eq_some_iff.1 reads
  cases made
  exact distinct_integer integer

theorem distinct_numberOrMoment {input rest : List Char} {v : Value}
    (reads : numberOrMoment input = some (v, rest)) : v.Distinct := by
  unfold numberOrMoment at reads
  split at reads
  · obtain ⟨_, -, made⟩ := Option.map_eq_some_iff.1 reads
    cases made
    exact .moment
  · split at reads
    · obtain ⟨_, -, made⟩ := Option.map_eq_some_iff.1 reads
      cases made
      exact .moment
    · unfold number at reads
      split at reads
      · exact distinct_inBase reads
      · exact distinct_inBase reads
      · exact distinct_inBase reads
      · exact distinct_afterSign reads
      · exact distinct_afterSign reads
      · exact distinct_afterSign reads

mutual

/-- A value that has been read. -/
theorem distinct_readValue : ∀ {fuel depth : Nat} {input rest : List Char} {v : Value},
    readValue fuel depth input = some (v, rest) → v.Distinct
  | 0, _, _, _, _, reads => nomatch reads
  | fuel + 1, depth, input, rest, v, reads => by
      unfold readValue at reads
      split at reads
      · cases reads
      · split_ifs at reads
        · obtain ⟨_, -, made⟩ := Option.map_eq_some_iff.1 reads
          cases made
          exact .text _
        · obtain ⟨⟨vs, _⟩, items, made⟩ := Option.map_eq_some_iff.1 reads
          cases made
          exact .list (distinct_readItems items)
        · obtain ⟨⟨es, _⟩, pairs, made⟩ := Option.map_eq_some_iff.1 reads
          cases made
          exact .table (distinct_readPairs pairs Entries.distinct_nil)
        · split at reads
          · cases reads
            exact .boolean true
          · cases reads
        · split at reads
          · cases reads
            exact .boolean false
          · cases reads
        · exact distinct_numberOrMoment reads

/-- The values of a list that has been read. -/
theorem distinct_readItems : ∀ {fuel depth : Nat} {input rest : List Char} {vs : List Value},
    readItems fuel depth input = some (vs, rest) → ∀ v ∈ vs, v.Distinct
  | 0, _, _, _, _, reads => nomatch reads
  | fuel + 1, depth, input, rest, vs, reads => by
      unfold readItems at reads
      split at reads
      · cases reads
        exact nofun
      · obtain ⟨⟨v, onward⟩, first, reads⟩ := Option.bind_eq_some_iff.1 reads
        have own : v.Distinct := distinct_readValue first
        dsimp only at reads
        split at reads
        · cases reads
          intro w mem
          exact List.mem_singleton.1 mem ▸ own
        · obtain ⟨⟨ws, _⟩, others, made⟩ := Option.bind_eq_some_iff.1 reads
          cases made
          exact List.forall_mem_cons.2 ⟨own, distinct_readItems others⟩
        · cases reads

/-- The entries of a table in one piece that has been read. -/
theorem distinct_readPairs : ∀ {fuel depth : Nat} {first : Bool} {entries : Entries}
    {input rest : List Char} {es : Entries},
    readPairs fuel depth first entries input = some (es, rest) → entries.Distinct → es.Distinct
  | 0, _, _, _, _, _, _, reads, _ => nomatch reads
  | fuel + 1, depth, first, entries, input, rest, es, reads, distinct => by
      unfold readPairs at reads
      split at reads
      · cases reads
        exact distinct
      · obtain ⟨⟨k, _⟩, -, reads⟩ := Option.bind_eq_some_iff.1 reads
        obtain ⟨_, -, reads⟩ := Option.bind_eq_some_iff.1 reads
        obtain ⟨⟨v, _⟩, value, reads⟩ := Option.bind_eq_some_iff.1 reads
        obtain ⟨entries', puts, reads⟩ := Option.bind_eq_some_iff.1 reads
        have distinct' : entries'.Distinct := distinct.putDotted (distinct_readValue value) puts
        split at reads
        · cases reads
          exact distinct'
        · exact distinct_readPairs reads distinct'
        · cases reads

end

theorem State.distinct_readHeader {s s' : State} {input rest : List Char}
    (distinct : s.entries.Distinct) (reads : readHeader s input = some (s', rest)) :
    s'.entries.Distinct := by
  unfold readHeader at reads
  split at reads
  · obtain ⟨⟨k, _⟩, -, reads⟩ := Option.bind_eq_some_iff.1 reads
    obtain ⟨_, -, reads⟩ := Option.bind_eq_some_iff.1 reads
    obtain ⟨_, -, reads⟩ := Option.bind_eq_some_iff.1 reads
    obtain ⟨entries, opens, reads⟩ := Option.bind_eq_some_iff.1 reads
    obtain ⟨_, -, made⟩ := Option.bind_eq_some_iff.1 reads
    cases made
    exact distinct.openTables opens
  · obtain ⟨⟨k, _⟩, -, reads⟩ := Option.bind_eq_some_iff.1 reads
    obtain ⟨_, -, reads⟩ := Option.bind_eq_some_iff.1 reads
    obtain ⟨entries, opens, reads⟩ := Option.bind_eq_some_iff.1 reads
    obtain ⟨_, -, made⟩ := Option.bind_eq_some_iff.1 reads
    cases made
    exact distinct.openTable opens

theorem State.distinct_readEntry {s s' : State} {input rest : List Char}
    (distinct : s.entries.Distinct) (reads : readEntry s input = some (s', rest)) :
    s'.entries.Distinct := by
  obtain ⟨⟨k, _⟩, -, reads⟩ := Option.bind_eq_some_iff.1 reads
  obtain ⟨_, -, reads⟩ := Option.bind_eq_some_iff.1 reads
  obtain ⟨⟨v, _⟩, value, reads⟩ := Option.bind_eq_some_iff.1 reads
  obtain ⟨entries, puts, reads⟩ := Option.bind_eq_some_iff.1 reads
  obtain ⟨_, -, made⟩ := Option.bind_eq_some_iff.1 reads
  cases made
  exact distinct.putBelow (distinct_readValue value) puts

theorem State.distinct_readLines {fuel : Nat} {s s' : State} {input : List Char}
    (distinct : s.entries.Distinct) (reads : readLines fuel s input = some s') :
    s'.entries.Distinct := by
  induction fuel generalizing s input with
  | zero => cases reads
  | succ fuel ih =>
      unfold readLines at reads
      split at reads
      · cases reads
        exact distinct
      · split_ifs at reads
        · obtain ⟨⟨next, _⟩, line, onward⟩ := Option.bind_eq_some_iff.1 reads
          exact ih (distinct_readHeader distinct line) onward
        · obtain ⟨_, -, onward⟩ := Option.bind_eq_some_iff.1 reads
          exact ih distinct onward
        · obtain ⟨⟨next, _⟩, line, onward⟩ := Option.bind_eq_some_iff.1 reads
          exact ih (distinct_readEntry distinct line) onward

/-- A document has one value for a key, in every table. -/
theorem distinct_of_parse {text : String} {entries : Entries} (parses : parse? text = some entries) :
    entries.Distinct := by
  obtain ⟨s, reads, rfl⟩ := Option.map_eq_some_iff.1 parses
  exact State.distinct_readLines Entries.distinct_nil reads

end ReplicaDiff.Toml
