/-
# ReplicaDiff.Batch — one round of fetches on its own
-/
import ReplicaDiff.World

namespace ReplicaDiff.Batch

set_option autoImplicit false

/-- A client that sends one round and keeps the verdict on it. -/
structure Sender where
  keys : List String
  timeout : Duration
  verdict : Option (Except Error Results)

/-- How a sender reacts: it stops as soon as its round is settled. -/
def Sender.react (s : Sender) : Signal → Reaction Sender Unit
  | .begun => ⟨s, [], .send s.keys s.timeout⟩
  | .settled verdict => ⟨{ s with verdict := some verdict }, [], .stop⟩
  | .rested => ⟨s, [], .stop⟩

/-- Fetch some keys from both stores under one deadline. -/
def send (source target : Store) (keys : List String) (timeout : Duration) : World Sender Unit :=
  World.run Sender.react (2 + World.roundCost source target keys.length)
    (World.initial source target [⟨keys, timeout, none⟩])

/-- The verdict of the sender in a world. -/
def verdict? (w : World Sender Unit) : Option (Except Error Results) :=
  w.clients.head?.bind (·.state.verdict)

end ReplicaDiff.Batch
