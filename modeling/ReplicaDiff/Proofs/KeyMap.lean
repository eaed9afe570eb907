/-
# ReplicaDiff.Proofs.KeyMap — maps from entries and from keys

In a map that is made from entries, the last entry for a key counts
(`find?_ofList`), and the entries of a map make it again in any order
(`ofList_of_perm`).  `tabulate` makes the map of a partial function at some keys.
Merging is associative, with the empty map for its unit, and what is put in last
may as well be put into the second of two maps (`merge_insert`).
-/
import ReplicaDiff.KeyMap

namespace ReplicaDiff.KeyMap

set_option autoImplicit false

variable {V : Type}

/-- The value of the last entry for `key`. -/
def last (entries : List (String × V)) (key : String) : Option V := look key entries.reverse

theorem last_snoc (entries : List (String × V)) (e : String × V) (key : String) :
    last (entries ++ [e]) key = if e.1 = key then some e.2 else last entries key := by
  unfold last
  rw [List.reverse_append]
  rfl

theorem ofList_snoc (entries : List (String × V)) (e : String × V) :
    ofList (entries ++ [e]) = (ofList entries).insert e.1 e.2 := by
  unfold ofList
  rw [List.foldl_append]
  rfl

theorem find?_ofList (entries : List (String × V)) (key : String) :
    (ofList entries).find? key = last entries key := by
  -- The last entry is put in last, so that the induction takes entries off the end.
  generalize back : entries.reverse = reversed
  induction reversed generalizing entries with
  | nil =>
      rw [List.reverse_eq_nil_iff.1 back]
      rfl
  | cons e reversed ih =>
      obtain rfl : entries = reversed.reverse ++ [e] := by
        rw [← List.reverse_cons, ← back, List.reverse_reverse]
      rw [ofList_snoc, find?_insert, last_snoc, ih _ (List.reverse_reverse _)]

theorem ne_of_look_none {key : String} :
    ∀ {entries : List (String × V)}, look key entries = none → ∀ e ∈ entries, e.1 ≠ key
  | [], _, _, mem => absurd mem List.not_mem_nil
  | (k, v) :: rest, unheld, e, mem => by
      unfold look at unheld
      split at unheld
      · cases unheld
      · rename_i other
        rcases List.mem_cons.1 mem with rfl | mem
        · exact other
        · exact ne_of_look_none unheld e mem

/-- The entries of a map, in whatever order, make the map. -/
theorem ofList_of_perm {entries : List (String × V)} {m : KeyMap V}
    (perm : entries.Perm m.entries) : ofList entries = m := by
  refine ext fun key => ?_
  have same : ∀ e, e ∈ entries.reverse ↔ e ∈ m.entries := fun e => by
    rw [List.mem_reverse, perm.mem_iff]
  rw [find?_ofList]
  unfold last
  cases found : look key entries.reverse with
  | some value =>
      exact ((find?_eq_some_iff m key value).2 ((same _).1 (mem_of_look found))).symm
  | none =>
      have absent : m.find? key = none :=
        look_eq_none fun e mem => ne_of_look_none found e ((same e).2 mem)
      exact absent.symm

/-- The keys of a map are those for which it holds a value, each listed once. -/
theorem mem_keys (m : KeyMap V) (key : String) : key ∈ m.keys ↔ ∃ value, m.find? key = some value := by
  unfold keys
  rw [List.mem_map]
  constructor
  · rintro ⟨⟨key, value⟩, mem, rfl⟩
    exact ⟨value, (find?_eq_some_iff m key value).2 mem⟩
  · rintro ⟨value, held⟩
    exact ⟨(key, value), (find?_eq_some_iff m key value).1 held, rfl⟩

theorem nodup_keys (m : KeyMap V) : m.keys.Nodup := by
  refine List.pairwise_map.2 (m.ascending.imp ?_)
  intro a b below same
  rw [same] at below
  exact String.lt_irrefl _ below

theorem mem_keys_iff_contains (m : KeyMap V) (key : String) : key ∈ m.keys ↔ m.contains key = true := by
  rw [mem_keys, contains, Option.isSome_iff_exists]

/-- A key is listed once if the map holds it, and not at all otherwise. -/
theorem count_keys (m : KeyMap V) (key : String) : m.keys.count key = (m.contains key).toNat := by
  simp only [m.nodup_keys.count, mem_keys_iff_contains]
  cases m.contains key <;> rfl

/-! ## Two maps together -/

theorem merge_insert (m other : KeyMap V) (key : String) (value : V) :
    m.merge (other.insert key value) = (m.merge other).insert key value := by
  refine ext fun k => ?_
  simp only [find?_merge, find?_insert]
  split <;> rfl

@[simp] theorem merge_empty (m : KeyMap V) : m.merge empty = m := rfl

@[simp] theorem empty_merge (m : KeyMap V) : empty.merge m = m := by
  refine ext fun k => ?_
  rw [find?_merge, find?_empty, Option.or_none]

theorem merge_assoc (a b c : KeyMap V) : (a.merge b).merge c = a.merge (b.merge c) := by
  refine ext fun k => ?_
  simp only [find?_merge, Option.or_assoc]

/-! ## The map of a function -/

/-- The map that holds for each of some keys what a function has for it. -/
def tabulate (keys : List String) (f : String → Option V) : KeyMap V :=
  ofList (keys.filterMap fun key => (f key).map fun value => (key, value))

theorem find?_tabulate (keys : List String) (f : String → Option V) (key : String) :
    (tabulate keys f).find? key = if key ∈ keys then f key else none := by
  have listed : ∀ keys : List String,
      look key (keys.filterMap fun key => (f key).map fun value => (key, value)) =
        if key ∈ keys then f key else none := by
    intro keys
    induction keys with
    | nil => rfl
    | cons k keys ih =>
        by_cases same : k = key
        · subst same
          cases held : f k with
          | none =>
              rw [List.filterMap_cons_none (by rw [held]; rfl), ih, held]
              simp
          | some value =>
              rw [List.filterMap_cons_some (by rw [held]; rfl)]
              simp [look]
        · cases held : f k with
          | none =>
              rw [List.filterMap_cons_none (by rw [held]; rfl), ih]
              simp [Ne.symm same]
          | some value =>
              rw [List.filterMap_cons_some (by rw [held]; rfl)]
              simp [look, same, ih, Ne.symm same]
  unfold tabulate
  rw [find?_ofList, last, ← List.filterMap_reverse, listed]
  simp

end ReplicaDiff.KeyMap
