/-
# ReplicaDiff.Store — where documents are fetched from

A store answers each fetch of a key from its base, after the call has passed the
layers that lie around the base.  A layer may delay a call, answer it by itself,
leave it without an answer for ever, or let it end without a word; what it does
may depend on the key, on how many calls for that key have reached it before,
and on how many calls have reached it at all.
-/
import ReplicaDiff.Fetch
import ReplicaDiff.KeyMap

namespace ReplicaDiff

set_option autoImplicit false

/-- How many calls have come in, for each key and in all. -/
structure CallCount where
  total : Nat
  perKey : KeyMap Nat
deriving DecidableEq, Inhabited

namespace CallCount

/-- No calls. -/
def none : CallCount := ⟨0, .empty⟩

/-- The calls for one key. -/
def of (c : CallCount) (key : String) : Nat := (c.perKey.find? key).getD 0

/-- One more call for a key. -/
def add (c : CallCount) (key : String) : CallCount :=
  ⟨c.total + 1, c.perKey.insert key (c.of key + 1)⟩

end CallCount

namespace Store

/-- How a layer ends a call that has reached it. -/
inductive Ending where
  /-- The call goes on to what lies inside. -/
  | pass
  /-- The call is never answered. -/
  | stall
  /-- The fetch ends without an answer. -/
  | vanish
  /-- The layer answers by itself. -/
  | answer (outcome : Outcome)
deriving DecidableEq

/-- What a layer does with one call: it waits, then ends the call. -/
structure Plan where
  delay : Nat
  ending : Ending
deriving DecidableEq

/-- A layer around a store. -/
structure Layer where
  /-- Whether the calls that reach the layer are reported. -/
  counted : Bool
  /-- What happens to a call for a key, given the earlier calls for the key and in all. -/
  plan : String → Nat → Nat → Plan
  /-- The calls that have reached the layer. -/
  seen : CallCount

/-- Take one call into account and decide on it. -/
def Layer.call (l : Layer) (key : String) : Layer × Plan :=
  ({ l with seen := l.seen.add key }, l.plan key (l.seen.of key) l.seen.total)

/-- Where a call stands after it has gone inwards as far as it can without waiting. -/
inductive Halt where
  /-- It waits for some milliseconds; `below` layers lie further inside. -/
  | asleep (delay below : Nat) (ending : Ending)
  /-- It has been answered, or has ended without an answer. -/
  | ended (answer : Option Outcome)
  /-- It is never answered. -/
  | stalled
deriving DecidableEq

end Store

/-- A store: layers, the outermost first, around a base. -/
structure Store where
  layers : List Store.Layer
  base : String → Outcome

namespace Store

/-- Send a call through layers, the outermost first, until it has to wait or ends. -/
def descend (base : String → Outcome) (key : String) : List Layer → List Layer × Halt
  | [] => ([], .ended (some (base key)))
  | layer :: inner =>
      let (layer, plan) := layer.call key
      if plan.delay ≠ 0 then (layer :: inner, .asleep plan.delay inner.length plan.ending)
      else
        match plan.ending with
        | .pass =>
            let (inner, halt) := descend base key inner
            (layer :: inner, halt)
        | .stall => (layer :: inner, .stalled)
        | .vanish => (layer :: inner, .ended none)
        | .answer outcome => (layer :: inner, .ended (some outcome))

/-- A new call for a key. -/
def call (s : Store) (key : String) : Store × Halt :=
  let (layers, halt) := descend s.base key s.layers
  ({ s with layers }, halt)

/-- Go on with a call that waited at a layer with `below` layers inside it. -/
def resume (s : Store) (key : String) (below : Nat) : Ending → Store × Halt
  | .stall => (s, .stalled)
  | .vanish => (s, .ended none)
  | .answer outcome => (s, .ended (some outcome))
  | .pass =>
      let outer := s.layers.take (s.layers.length - below)
      let (inner, halt) := descend s.base key (s.layers.drop (s.layers.length - below))
      ({ s with layers := outer ++ inner }, halt)

/-- The calls that reached each counted layer, the innermost first. -/
def calls (s : Store) : List CallCount :=
  (s.layers.filter (·.counted)).reverse.map (·.seen)

end Store

end ReplicaDiff
