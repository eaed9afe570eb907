/-
# ReplicaDiff.Proofs.KeyList — dropping repeated keys

Of the keys of a list each stays once (`nodup_firsts`, `mem_firsts`), where it
comes first (`firsts_eq_eraseDups`, `firsts_sublist`, `idxOf_firsts_lt_iff`), so that
as many stay as there are different ones (`length_firsts`), and all of them exactly if
none is listed again (`firsts_eq_self_iff`).
-/
import Mathlib.Data.Finset.Card
import ReplicaDiff.KeyList

namespace ReplicaDiff.KeyList

set_option autoImplicit false

theorem mem_firstsAfter {key : String} {seen keys : List String} :
    key ∈ firstsAfter seen keys ↔ key ∈ keys ∧ key ∉ seen := by
  induction keys generalizing seen with
  | nil => simp [firstsAfter]
  | cons first rest ih =>
      unfold firstsAfter
      split
      · rename_i known
        rw [ih, List.mem_cons]
        constructor
        · rintro ⟨mem, new⟩
          exact ⟨.inr mem, new⟩
        · rintro ⟨rfl | mem, new⟩
          · exact absurd known new
          · exact ⟨mem, new⟩
      · rename_i unknown
        rw [List.mem_cons, ih, List.mem_cons, List.mem_cons]
        constructor
        · rintro (rfl | ⟨mem, new⟩)
          · exact ⟨.inl rfl, unknown⟩
          · exact ⟨.inr mem, fun h => new (.inr h)⟩
        · rintro ⟨rfl | mem, new⟩
          · exact .inl rfl
          · by_cases same : key = first
            · exact .inl same
            · exact .inr ⟨mem, fun h => h.elim same new⟩

theorem nodup_firstsAfter (seen keys : List String) : (firstsAfter seen keys).Nodup := by
  induction keys generalizing seen with
  | nil => exact List.nodup_nil
  | cons first rest ih =>
      unfold firstsAfter
      split
      · exact ih seen
      · refine List.nodup_cons.2 ⟨fun mem => ?_, ih _⟩
        exact (mem_firstsAfter.1 mem).2 List.mem_cons_self

theorem mem_firsts {key : String} {keys : List String} : key ∈ firsts keys ↔ key ∈ keys := by
  unfold firsts
  rw [mem_firstsAfter]
  simp

theorem nodup_firsts (keys : List String) : (firsts keys).Nodup := nodup_firstsAfter [] keys

theorem firstsAfter_eq_eraseDups (seen keys : List String) :
    firstsAfter seen keys = (keys.filter fun key => key ∉ seen).eraseDups := by
  induction keys generalizing seen with
  | nil => rfl
  | cons first rest ih =>
      unfold firstsAfter
      split
      · rename_i known
        rw [ih, List.filter_cons_of_neg (by simpa using known)]
      · rename_i unknown
        rw [ih, List.filter_cons_of_pos (by simpa using unknown), List.eraseDups_cons,
          List.filter_filter]
        congr 3
        funext key
        rw [Bool.eq_iff_iff]
        simp [not_or]

/-- The keys that stay stand in the order of their first appearance. -/
theorem firsts_eq_eraseDups (keys : List String) : firsts keys = keys.eraseDups := by
  unfold firsts
  rw [firstsAfter_eq_eraseDups]
  simp

/-- As many keys stay as there are different ones. -/
theorem length_firsts (keys : List String) : (firsts keys).length = keys.toFinset.card := by
  rw [← List.toFinset_card_of_nodup (nodup_firsts keys)]
  congr 1
  ext key
  simp [mem_firsts]

theorem firstsAfter_sublist (seen keys : List String) : (firstsAfter seen keys).Sublist keys := by
  induction keys generalizing seen with
  | nil => exact .slnil
  | cons first rest ih =>
      unfold firstsAfter
      split
      · exact (ih seen).cons first
      · exact (ih (first :: seen)).cons_cons first

/-- The keys that stay are keys of the list, in its order. -/
theorem firsts_sublist (keys : List String) : (firsts keys).Sublist keys :=
  firstsAfter_sublist [] keys

/-- Of two keys that have not been seen, the one that comes first still does. -/
theorem idxOf_firstsAfter_lt_iff {x y : String} {seen : List String} (keys : List String)
    (newX : x ∉ seen) (newY : y ∉ seen) :
    (firstsAfter seen keys).idxOf x < (firstsAfter seen keys).idxOf y ↔
      keys.idxOf x < keys.idxOf y := by
  induction keys generalizing seen with
  | nil => rfl
  | cons first rest ih =>
      unfold firstsAfter
      split
      · rename_i known
        have notX : first ≠ x := fun same => newX (same ▸ known)
        have notY : first ≠ y := fun same => newY (same ▸ known)
        rw [ih newX newY, List.idxOf_cons_ne _ notX, List.idxOf_cons_ne _ notY]
        omega
      · by_cases isY : first = y
        · simp [isY]
        · by_cases isX : first = x
          · simp [isX, List.idxOf_cons_ne _ (isX ▸ isY)]
          · have onward := ih (List.not_mem_cons_of_ne_of_not_mem (Ne.symm isX) newX)
              (List.not_mem_cons_of_ne_of_not_mem (Ne.symm isY) newY)
            simp only [List.idxOf_cons_ne _ isX, List.idxOf_cons_ne _ isY]
            omega

/-- Of two keys the one that is listed first stays first. -/
theorem idxOf_firsts_lt_iff (keys : List String) (x y : String) :
    (firsts keys).idxOf x < (firsts keys).idxOf y ↔ keys.idxOf x < keys.idxOf y :=
  idxOf_firstsAfter_lt_iff keys List.not_mem_nil List.not_mem_nil

/-- All keys stay exactly if none is listed again. -/
theorem firsts_eq_self_iff {keys : List String} : firsts keys = keys ↔ keys.Nodup := by
  constructor
  · intro same
    exact same ▸ nodup_firsts keys
  · intro nodup
    refine (firsts_sublist keys).eq_of_length ?_
    rw [length_firsts, List.toFinset_card_of_nodup nodup]

/-- Loading a list says something exactly if a key is listed again. -/
theorem warnings_firsts (path : String) (keys : List String) :
    warnings path keys (firsts keys) =
      if keys.Nodup then []
      else [.repeatedKeysDropped path (keys.length - (firsts keys).length)] := by
  have le := (firsts_sublist keys).length_le
  have equal : (firsts keys).length = keys.length ↔ keys.Nodup := by
    rw [← firsts_eq_self_iff]
    exact ⟨(firsts_sublist keys).eq_of_length, fun same => congrArg List.length same⟩
  unfold warnings
  split
  · rename_i fewer
    rw [if_neg fun nodup => Nat.ne_of_lt fewer (equal.2 nodup)]
  · rename_i all
    rw [if_pos (equal.1 (by omega))]

end ReplicaDiff.KeyList
