/-
# ReplicaDiff.Store.Layers — layers that count, stall, delay and follow a script
-/
import ReplicaDiff.Store

namespace ReplicaDiff.Store

set_option autoImplicit false

/-- A call that goes on at once. -/
def Plan.through : Plan := ⟨0, .pass⟩

namespace Layer

/-- Reports the calls that reach it and changes nothing. -/
def counting : Layer := ⟨true, fun _ _ _ => .through, .none⟩

/-- Never answers for some keys. -/
def stalling (keys : List String) : Layer :=
  ⟨false, fun key _ _ => if key ∈ keys then ⟨0, .stall⟩ else .through, .none⟩

/-- Lets the calls for some keys wait. -/
def slow (keys : List String) (delay : Nat) : Layer :=
  ⟨false, fun key _ _ => if key ∈ keys then ⟨delay, .pass⟩ else .through, .none⟩

/-- Never answers its first calls. -/
def flaky (calls : Nat) : Layer :=
  ⟨false, fun _ _ total => if total < calls then ⟨0, .stall⟩ else .through, .none⟩

/-- Does with the calls for a key what its script says, one step for each call; the last step
repeats, and keys without a script pass. -/
def scripted (script : KeyMap (List Plan)) : Layer :=
  ⟨false, fun key earlier _ =>
    match script.find? key with
    | none => .through
    | some steps => (steps[earlier]?).getD (steps.getLast?.getD .through), .none⟩

end Layer

/-- The store with one more layer around it. -/
def wrap (s : Store) (layer : Layer) : Store := { s with layers := layer :: s.layers }

end ReplicaDiff.Store
