/-
# ReplicaDiff.Worker — one worker over its share of the keys

A worker sends its batches one after the other, each as often as its policy
allows.  The results of a batch that succeeded are kept by key, so that a later
batch with the same key replaces them; the keys of a batch that failed at every
attempt are reported.  When all batches are over the worker compares what it has
kept.

A worker lists its batches before it sends the first.  If it cannot, because a word
does not hold the end of one or because they are too many for a list, it breaks off
at once; and it breaks off where it comes to a batch past the end of the keys.  It
then keeps to itself what it has found, and all that is left of it is that it is gone.
-/
import ReplicaDiff.Config
import ReplicaDiff.Event
import ReplicaDiff.World

namespace ReplicaDiff

set_option autoImplicit false

/-- A worker: its number, the keys of the run, its share of them, and how it works. -/
structure Worker where
  id : Nat
  keys : List String
  span : Span
  settings : WorkerSettings

/-- What a worker does to the outside. -/
inductive WorkerEffect where
  | say (event : Event)
  | contribute (contribution : Contribution)
  /-- The worker of a number is gone without having finished. -/
  | brokeOff (worker : Nat)

/-- The worker that is over with an effect, and whether it is lost. -/
def WorkerEffect.over? : WorkerEffect → Option (Nat × Bool)
  | .say (.workerFinished worker _) => some (worker, false)
  | .brokeOff worker => some (worker, true)
  | _ => none

namespace Worker

/-- The batches of a worker. -/
def batchSpans (w : Worker) : List Span := w.span.batches w.settings.batchSize

/-- Whether every batch can be cut out of the keys; a worker breaks off at one that cannot. -/
def inBounds (w : Worker) : Bool := w.batchSpans.all fun s => s.inBounds w.keys.length

/-- Whether the batches can be listed: there are not too many of them, which is out of the question
if there are as many keys, for a key takes more room; and none goes backwards. -/
def listable (w : Worker) : Bool :=
  w.span.batchCount (max w.settings.batchSize 1) ≤ max mostShares.toNat w.keys.length &&
    w.batchSpans.all fun s => s.start ≤ s.stop

/-- The keys of each batch, up to the first that cannot be cut out of them; none if the batches
cannot be listed. -/
def batchKeys (w : Worker) : List (List String) :=
  if w.listable then
    (w.batchSpans.takeWhile fun s => s.inBounds w.keys.length).map fun s => s.slice w.keys
  else []

/-- Where a worker stands. -/
structure State where
  worker : Worker
  /-- The keys of the batch under way. -/
  current : List String
  /-- The attempt at it. -/
  course : Retry.Course
  /-- The keys of the batches to come. -/
  waiting : List (List String)
  source : KeyMap SideResult
  target : KeyMap SideResult
  /-- What the worker has found, once it has finished. -/
  diff : DiffSet

/-- A worker that has not begun. -/
def State.initial (w : Worker) : State where
  worker := w
  current := []
  course := .first w.settings.retry
  waiting := w.batchKeys
  source := .empty
  target := .empty
  diff := .empty

namespace State

/-- Keep results under their keys. -/
def keep (held : KeyMap SideResult) (keys : List String) (results : List SideResult) :
    KeyMap SideResult :=
  (keys.zip results).foldl (fun m e => m.insert e.1 e.2) held

/-- Compare the results kept for every key of both sides. -/
def findings (source target : KeyMap SideResult) : DiffSet :=
  source.entries.foldl
    (fun set e =>
      match target.find? e.1 with
      | none => set
      | some t =>
          match compare e.2 t with
          | none => set
          | some classification => set.record e.1 classification)
    .empty

/-- Send the batch under way. -/
def send (s : State) (effects : List WorkerEffect) : Reaction State WorkerEffect :=
  ⟨s, effects ++ [.say (.sendingBatch s.worker.id s.course.attempt s.current.length)],
    .send s.current s.worker.settings.batchTimeout⟩

/-- Go on to the next batch; after the last one finish, or break off at one that cannot be cut out of
the keys. -/
def proceed (s : State) (effects : List WorkerEffect) : Reaction State WorkerEffect :=
  match s.waiting with
  | keys :: waiting =>
      State.send
        { s with current := keys, waiting, course := .first s.worker.settings.retry } effects
  | [] =>
      if s.worker.inBounds then
        let diff := findings s.source s.target
        ⟨{ s with diff },
          effects ++ [.say (.workerFinished s.worker.id diff.size), .contribute (.merged diff)],
          .stop⟩
      else ⟨s, effects ++ [.brokeOff s.worker.id], .stop⟩

/-- The batch under way is over. -/
def countBatch (s : State) : WorkerEffect :=
  .contribute (.processed (UInt64.ofNat s.current.length))

/-- How a worker reacts. -/
def react (s : State) : Signal → Reaction State WorkerEffect
  | .begun => s.proceed [.say (.workerStarted s.worker.id s.worker.span)]
  | .rested => s.send []
  | .settled (.ok results) =>
      State.proceed
        { s with
          source := keep s.source s.current results.source
          target := keep s.target s.current results.target }
        [s.countBatch]
  | .settled (.error error) =>
      match s.course.next? s.worker.settings.retry with
      | none =>
          s.proceed [
            .say (.batchSkipped s.worker.id s.current.length
              ⟨"send_batch", s.course.attempt, error⟩),
            .contribute (.unchecked s.current), s.countBatch]
      | some course =>
          let backoff := WorkerEffect.say
            (.backingOff "send_batch" s.course.attempt s.course.delay error.message)
          let pause := s.course.delay.ticks
          let s := { s with course }
          if pause = 0 then s.send [backoff] else ⟨s, [backoff], .pause pause⟩

end State

/-- The most tasks that a worker puts on the agenda. -/
def cost (w : Worker) (source target : Store) : Nat :=
  w.batchKeys.foldr
    (fun keys n =>
      w.settings.retry.totalAttempts.toNat * World.roundCost source target keys.length + n)
    1

/-- Let workers run side by side until all of them have stopped. -/
def runAll (source target : Store) (workers : List Worker) : World State WorkerEffect :=
  World.run State.react (workers.foldr (fun w n => w.cost source target + n) 1)
    (World.initial source target (workers.map State.initial))

end Worker

/-- The events among the effects of workers, with the time of each. -/
def eventsOf (timeline : Array (Nat × WorkerEffect)) : List (Nat × Event) :=
  timeline.toList.filterMap fun e =>
    match e.2 with
    | .say event => some (e.1, event)
    | _ => none

/-- The contributions among the effects of workers, with the time of each. -/
def contributionsOf (timeline : Array (Nat × WorkerEffect)) : List (Nat × Contribution) :=
  timeline.toList.filterMap fun e =>
    match e.2 with
    | .contribute contribution => some (e.1, contribution)
    | _ => none

/-- When the worker of a number was over, and whether it is lost. -/
def overAt? (timeline : Array (Nat × WorkerEffect)) (worker : Nat) : Option (Nat × Bool) :=
  timeline.toList.findSome? fun e =>
    e.2.over?.bind fun (id, lost) => if id = worker then some (e.1, lost) else none

/-- What the workers of a timeline have added up to. -/
def tallyOf (timeline : Array (Nat × WorkerEffect)) : Tally :=
  Tally.empty.addAll ((contributionsOf timeline).map (·.2))

end ReplicaDiff
