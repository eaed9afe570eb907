/-
# ReplicaDiff.KeyMap — finite maps from keys to values

A `KeyMap V` is a list of entries in strictly ascending key order, so that a map
has one representation and listing it is listing it sorted.  Keys are compared
by code point, which is the order of their UTF-8 bytes.

`find?` is the view: `find?_insert`, `find?_erase` and `find?_merge` say what
each operation does to it, and `ext` says that nothing else is kept.
-/

namespace ReplicaDiff

set_option autoImplicit false

/-- Entries whose keys ascend strictly. -/
def Ascending {V : Type} (entries : List (String × V)) : Prop :=
  entries.Pairwise fun a b => a.1 < b.1

/-- A finite map from keys to values, in ascending key order. -/
structure KeyMap (V : Type) where
  entries : List (String × V)
  ascending : Ascending entries

namespace KeyMap

variable {V : Type}

theorem eq_of_not_lt {a b : String} (hab : ¬ a < b) (hba : ¬ b < a) : a = b :=
  String.le_antisymm (String.not_lt.1 hba) (String.not_lt.1 hab)

instance [DecidableEq V] : DecidableEq (KeyMap V) := fun a b =>
  if h : a.entries = b.entries then
    isTrue (by cases a; cases b; cases h; rfl)
  else
    isFalse fun e => h (congrArg entries e)

/-- The map without entries. -/
def empty : KeyMap V := ⟨[], List.Pairwise.nil⟩

instance : Inhabited (KeyMap V) := ⟨empty⟩

/-- The value of the first entry for `key`. -/
def look (key : String) : List (String × V) → Option V
  | [] => none
  | (k, v) :: rest => if k = key then some v else look key rest

/-- The value held for `key`. -/
def find? (m : KeyMap V) (key : String) : Option V := look key m.entries

/-- Put an entry at its place, replacing the entry of the same key. -/
def place (key : String) (value : V) : List (String × V) → List (String × V)
  | [] => [(key, value)]
  | (k, v) :: rest =>
      if key < k then (key, value) :: (k, v) :: rest
      else if k < key then (k, v) :: place key value rest
      else (key, value) :: rest

theorem mem_place {key : String} {value : V} {e : String × V} :
    ∀ {entries : List (String × V)}, e ∈ place key value entries →
      e = (key, value) ∨ e ∈ entries
  | [], h => by simpa [place] using h
  | (k, v) :: rest, h => by
      unfold place at h
      split at h
      · simpa using h
      · split at h
        · rcases List.mem_cons.1 h with rfl | h
          · simp
          · rcases mem_place h with rfl | h <;> simp_all
        · rcases List.mem_cons.1 h with rfl | h <;> simp_all

theorem ascending_place (key : String) (value : V) :
    ∀ {entries : List (String × V)}, Ascending entries → Ascending (place key value entries)
  | [], _ => by simp [place, Ascending]
  | (k, v) :: rest, h => by
      obtain ⟨head, tail⟩ := List.pairwise_cons.1 h
      unfold place
      split
      · rename_i hlt
        refine List.pairwise_cons.2 ⟨fun e he => ?_, h⟩
        rcases List.mem_cons.1 he with rfl | he
        · exact hlt
        · exact String.lt_trans hlt (head e he)
      · split
        · rename_i _ hgt
          refine List.pairwise_cons.2 ⟨fun e he => ?_, ascending_place key value tail⟩
          rcases mem_place he with rfl | he
          · exact hgt
          · exact head e he
        · rename_i h1 h2
          cases eq_of_not_lt h1 h2
          exact List.pairwise_cons.2 ⟨head, tail⟩

/-- The map in which `key` holds `value` and all else is as before. -/
def insert (m : KeyMap V) (key : String) (value : V) : KeyMap V :=
  ⟨place key value m.entries, ascending_place key value m.ascending⟩

/-- The map without an entry for `key`. -/
def erase (m : KeyMap V) (key : String) : KeyMap V :=
  ⟨m.entries.filter fun e => e.1 ≠ key, m.ascending.filter _⟩

/-- Every entry of `other` put into `m`, so that `other` wins where both hold a key. -/
def merge (m other : KeyMap V) : KeyMap V :=
  other.entries.foldl (fun acc e => acc.insert e.1 e.2) m

/-- Entries put in one after the other: of two for one key the later counts. -/
def ofList (entries : List (String × V)) : KeyMap V :=
  entries.foldl (fun acc e => acc.insert e.1 e.2) empty

/-- The keys held, in ascending order. -/
def keys (m : KeyMap V) : List String := m.entries.map (·.1)

/-- Number of entries. -/
def size (m : KeyMap V) : Nat := m.entries.length

/-- Whether `key` has an entry. -/
def contains (m : KeyMap V) (key : String) : Bool := (m.find? key).isSome

theorem look_eq_none {key : String} :
    ∀ {entries : List (String × V)}, (∀ e ∈ entries, e.1 ≠ key) → look key entries = none
  | [], _ => rfl
  | (k, v) :: rest, h => by
      have hk : k ≠ key := h (k, v) (by simp)
      have ht : look key rest = none := look_eq_none fun e he => h e (List.mem_cons_of_mem _ he)
      simp [look, hk, ht]

theorem look_place (key : String) (value : V) (k : String) :
    ∀ {entries : List (String × V)}, Ascending entries →
      look k (place key value entries) = if key = k then some value else look k entries
  | [], _ => by simp [place, look]
  | (k', v') :: rest, h => by
      obtain ⟨head, tail⟩ := List.pairwise_cons.1 h
      unfold place
      split
      · simp [look]
      · split
        · rename_i _ hgt
          have hne : k' ≠ key := fun e => String.lt_irrefl _ (e ▸ hgt)
          simp only [look, look_place key value k tail]
          by_cases hk : k' = k
          · subst hk
            simp [hne.symm]
          · simp [hk]
        · rename_i h1 h2
          cases eq_of_not_lt h1 h2
          by_cases hk : key = k <;> simp [look, hk]

@[simp] theorem find?_empty (key : String) : (empty : KeyMap V).find? key = none := rfl

theorem find?_insert (m : KeyMap V) (key : String) (value : V) (k : String) :
    (m.insert key value).find? k = if key = k then some value else m.find? k :=
  look_place key value k m.ascending

theorem look_filter (key k : String) :
    ∀ (entries : List (String × V)),
      look k (entries.filter fun e => e.1 ≠ key) = if key = k then none else look k entries
  | [] => by simp [look]
  | (k', v') :: rest => by
      have ih := look_filter key k rest
      by_cases hk : k' = key
      · subst hk
        by_cases hkk : k' = k <;> simp_all [look]
      · by_cases hkk : k' = k
        · subst hkk
          simp [look, hk, Ne.symm hk]
        · by_cases hkey : key = k <;> simp_all [look]

theorem find?_erase (m : KeyMap V) (key k : String) :
    (m.erase key).find? k = if key = k then none else m.find? k :=
  look_filter key k m.entries

theorem find?_foldl_insert (k : String) :
    ∀ {entries : List (String × V)} (m : KeyMap V), Ascending entries →
      (entries.foldl (fun acc e => acc.insert e.1 e.2) m).find? k =
        (look k entries).or (m.find? k)
  | [], m, _ => by simp [look]
  | (k', v') :: rest, m, h => by
      obtain ⟨head, tail⟩ := List.pairwise_cons.1 h
      rw [List.foldl_cons, find?_foldl_insert k _ tail, find?_insert]
      by_cases hk : k' = k
      · subst hk
        have hnone : look k' rest = none :=
          look_eq_none fun e he => fun heq => String.lt_irrefl _ (heq ▸ head e he)
        simp [look, hnone]
      · simp [look, hk]

theorem find?_merge (m other : KeyMap V) (k : String) :
    (m.merge other).find? k = (other.find? k).or (m.find? k) :=
  find?_foldl_insert k m other.ascending

theorem mem_of_look {k : String} {v : V} :
    ∀ {entries : List (String × V)}, look k entries = some v → (k, v) ∈ entries
  | [], h => by simp [look] at h
  | (k', v') :: rest, h => by
      unfold look at h
      split at h
      · cases h
        simp_all
      · exact List.mem_cons_of_mem _ (mem_of_look h)

theorem look_of_mem {k : String} {v : V} :
    ∀ {entries : List (String × V)}, Ascending entries → (k, v) ∈ entries →
      look k entries = some v
  | (k', v') :: rest, h, hm => by
      obtain ⟨head, tail⟩ := List.pairwise_cons.1 h
      rcases List.mem_cons.1 hm with he | he
      · cases he
        simp [look]
      · have hne : k' ≠ k := fun e => String.lt_irrefl _ (e ▸ head _ he)
        simp [look, hne, look_of_mem tail he]

theorem find?_eq_some_iff (m : KeyMap V) (k : String) (v : V) :
    m.find? k = some v ↔ (k, v) ∈ m.entries :=
  ⟨mem_of_look, look_of_mem m.ascending⟩

theorem entries_ext :
    ∀ {as bs : List (String × V)}, Ascending as → Ascending bs →
      (∀ e, e ∈ as ↔ e ∈ bs) → as = bs
  | [], [], _, _, _ => rfl
  | [], b :: bs, _, _, h => by simpa using (h b).2 (by simp)
  | a :: as, [], _, _, h => by simpa using (h a).1 (by simp)
  | a :: as, b :: bs, ha, hb, h => by
      obtain ⟨ahead, atail⟩ := List.pairwise_cons.1 ha
      obtain ⟨bhead, btail⟩ := List.pairwise_cons.1 hb
      have hab : a = b := by
        rcases List.mem_cons.1 ((h a).1 (by simp)) with e | hin
        · exact e
        · rcases List.mem_cons.1 ((h b).2 (by simp)) with e | hin'
          · exact e.symm
          · exact absurd (bhead a hin) (String.lt_asymm (ahead b hin'))
      subst hab
      congr 1
      refine entries_ext atail btail fun e => ⟨fun he => ?_, fun he => ?_⟩
      · rcases List.mem_cons.1 ((h e).1 (by simp [he])) with rfl | hin
        · exact absurd (ahead _ he) (String.lt_irrefl _)
        · exact hin
      · rcases List.mem_cons.1 ((h e).2 (by simp [he])) with rfl | hin
        · exact absurd (bhead _ he) (String.lt_irrefl _)
        · exact hin

/-- A map is what it holds for each key. -/
theorem ext {a b : KeyMap V} (h : ∀ k, a.find? k = b.find? k) : a = b := by
  have he : a.entries = b.entries := entries_ext a.ascending b.ascending fun e => by
    obtain ⟨k, v⟩ := e
    rw [← find?_eq_some_iff, ← find?_eq_some_iff, h]
  cases a
  cases b
  cases he
  rfl

end KeyMap

end ReplicaDiff
