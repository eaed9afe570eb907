/-
# ReplicaDiff.World — rounds of fetches on a shared clock

A world holds the two stores of a run, the clients that fetch from them, and an
agenda of tasks with the milliseconds at which they are due.  Firing a task may
put new ones on the agenda; the clock stands at the time of the task fired last.

A client is a state and a `Behaviour`: it is told that it has begun, that its
round of fetches is settled, or that its pause is over, and moves on by sending
a round, pausing or stopping.  What it does to the outside is noted on the
`timeline`.

A round has one fetch for each key and side.  Answers go to the inbox of the
round, and a task to look into it is put on the agenda; the round is settled
when its gate opens, when every fetch has ended, or at its deadline.  Fetches of
a settled round go on, but their answers are for nobody.
-/
import ReplicaDiff.Batch.Error
import ReplicaDiff.Batch.Gate
import ReplicaDiff.Duration
import ReplicaDiff.Store

namespace ReplicaDiff

set_option autoImplicit false

open ReplicaDiff.Batch

/-- What a client is told. -/
inductive Signal where
  | begun
  | settled (verdict : Except Batch.Error Batch.Results)
  | rested

/-- What a client does next. -/
inductive Move where
  /-- Fetch some keys from both sides under one deadline. -/
  | send (keys : List String) (timeout : Duration)
  /-- Wait for some milliseconds. -/
  | pause (ticks : Nat)
  | stop

/-- How a client reacts to a signal: its new state, what it does to the outside, its move. -/
structure Reaction (σ ε : Type) where
  state : σ
  effects : List ε
  move : Move

/-- The rule by which clients react. -/
abbrev Behaviour (σ ε : Type) := σ → Signal → Reaction σ ε

/-- A round of fetches under way. -/
structure Round where
  gate : Gate
  inbox : List Completion
  /-- Fetches that have not ended. -/
  running : Nat
  /-- Whether looking into the inbox is on the agenda. -/
  notified : Bool
  timeout : Duration

/-- A client, the number of rounds that it has sent, and the round under way. -/
structure Client (σ : Type) where
  state : σ
  serial : Nat
  round : Option Round
  stopped : Bool

/-- One fetch of one round. -/
structure Ticket where
  client : Nat
  serial : Nat
  side : Side
  slot : Nat
  key : String
deriving DecidableEq

namespace Round

/-- The round with its inbox emptied into its gate. -/
def emptied (r : Round) : Round :=
  { r with gate := r.gate.recordAll r.inbox, inbox := [], notified := false }

/-- Whether the end of one more fetch puts looking into the inbox on the agenda. -/
def wakes (r : Round) (answer : Option Outcome) : Bool :=
  !r.notified && (answer.isSome || r.running - 1 = 0)

/-- The round in which one more fetch has ended, with an answer or without. -/
def noted (r : Round) (t : Ticket) (answer : Option Outcome) : Round :=
  { r with
    inbox :=
      match answer with
      | some outcome => r.inbox ++ [⟨t.side, t.slot, outcome⟩]
      | none => r.inbox
    running := r.running - 1
    notified := r.notified || r.wakes answer }

end Round

/-- What can be on the agenda. -/
inductive Task where
  | begin (client : Nat)
  | enter (ticket : Ticket)
  | resume (ticket : Ticket) (below : Nat) (ending : Store.Ending)
  | look (client serial : Nat)
  | deadline (client serial : Nat)
  | rested (client : Nat)
deriving DecidableEq

/-- Two stores, the clients that fetch from them, and what is due. -/
structure World (σ ε : Type) where
  now : Nat
  agenda : List (Nat × Task)
  source : Store
  target : Store
  clients : List (Client σ)
  timeline : Array (Nat × ε)

/-- Put a task on an agenda, behind those that are due no later. -/
def enlist (due : Nat) (task : Task) : List (Nat × Task) → List (Nat × Task)
  | [] => [(due, task)]
  | entry :: rest =>
      if entry.1 ≤ due then entry :: enlist due task rest else (due, task) :: entry :: rest

namespace World

variable {σ ε : Type}

/-- Put a task on the agenda. -/
def schedule (w : World σ ε) (due : Nat) (task : Task) : World σ ε :=
  { w with agenda := enlist due task w.agenda }

/-- Put tasks on the agenda that are due now, in order. -/
def scheduleNow (w : World σ ε) (tasks : List Task) : World σ ε :=
  tasks.foldl (fun w task => w.schedule w.now task) w

/-- Change one client. -/
def update (w : World σ ε) (client : Nat) (change : Client σ → Client σ) : World σ ε :=
  { w with clients := w.clients.modify client change }

/-- The fetches of a round, source before target for each key. -/
def fetches (client serial : Nat) (keys : List String) : List Task :=
  keys.zipIdx.flatMap fun (key, slot) =>
    [.enter ⟨client, serial, .source, slot, key⟩, .enter ⟨client, serial, .target, slot, key⟩]

/-- Begin a round of fetches. -/
def openRound (w : World σ ε) (client serial : Nat) (keys : List String) (timeout : Duration) :
    World σ ε :=
  let round : Round := ⟨Gate.ofKeys keys, [], 2 * keys.length, keys.isEmpty, timeout⟩
  let w := w.update client fun c => { c with serial, round := some round }
  if keys.isEmpty then w.scheduleNow [.look client serial]
  else (w.schedule (w.now + timeout.ticks) (.deadline client serial)).scheduleNow
    (fetches client serial keys)

/-- Tell a client something and carry out its reaction. -/
def tell (behave : Behaviour σ ε) (w : World σ ε) (client : Nat) (signal : Signal) : World σ ε :=
  match w.clients[client]? with
  | none => w
  | some c =>
      let reaction := behave c.state signal
      let w := { w.update client fun c => { c with state := reaction.state, round := none } with
        timeline := reaction.effects.foldl (fun t e => t.push (w.now, e)) w.timeline }
      match reaction.move with
      | .send keys timeout => w.openRound client (c.serial + 1) keys timeout
      | .pause ticks => w.schedule (w.now + ticks) (.rested client)
      | .stop => w.update client fun c => { c with stopped := true }

/-- The verdict on a round whose inbox has been emptied, if there is one. -/
def verdict? (round : Round) (expired : Bool) : Option (Except Batch.Error Batch.Results) :=
  if round.gate.isOpen then some (.ok round.gate.results)
  else if round.running = 0 then
    some (.error (.channelClosed (round.gate.pendingSource + round.gate.pendingTarget)))
  else if expired then
    some (.error (.timeout round.gate.source.length round.timeout.secs
      round.gate.pendingSource round.gate.pendingTarget))
  else none

/-- The round that a client has under way, if it has this number. -/
def underWay? (w : World σ ε) (client serial : Nat) : Option Round :=
  match w.clients[client]? with
  | none => none
  | some c => if c.serial = serial then c.round else none

/-- Empty the inbox of a round into its gate, and settle the round if it is decided. -/
def settle (behave : Behaviour σ ε) (w : World σ ε) (client serial : Nat) (expired : Bool) :
    World σ ε :=
  match w.underWay? client serial with
  | none => w
  | some round =>
      match verdict? round.emptied expired with
      | some verdict => w.tell behave client (.settled verdict)
      | none => w.update client fun c => { c with round := some round.emptied }

/-- A fetch has ended, with an answer or without. -/
def report (w : World σ ε) (t : Ticket) (answer : Option Outcome) : World σ ε :=
  match w.underWay? t.client t.serial with
  | none => w
  | some round =>
      let w := w.update t.client fun c => { c with round := some (round.noted t answer) }
      if round.wakes answer then w.scheduleNow [.look t.client t.serial] else w

/-- Carry on with a fetch that stands at `halt`. -/
def advance (w : World σ ε) (t : Ticket) : Store.Halt → World σ ε
  | .asleep delay below ending => w.schedule (w.now + delay) (.resume t below ending)
  | .ended answer => w.report t answer
  | .stalled => w

/-- The store of one side. -/
def store (w : World σ ε) : Side → Store
  | .source => w.source
  | .target => w.target

/-- Replace the store of one side. -/
def setStore (w : World σ ε) (side : Side) (store : Store) : World σ ε :=
  match side with
  | .source => { w with source := store }
  | .target => { w with target := store }

/-- Fire a task that has been taken off the agenda. -/
def fire (behave : Behaviour σ ε) (w : World σ ε) (due : Nat) (task : Task) : World σ ε :=
  let w := { w with now := due }
  match task with
  | .begin client => w.tell behave client .begun
  | .enter t =>
      let (store, halt) := (w.store t.side).call t.key
      (w.setStore t.side store).advance t halt
  | .resume t below ending =>
      let (store, halt) := (w.store t.side).resume t.key below ending
      (w.setStore t.side store).advance t halt
  | .look client serial => w.settle behave client serial false
  | .deadline client serial => w.settle behave client serial true
  | .rested client => w.tell behave client .rested

/-- Whether every client has stopped. -/
def isOver (w : World σ ε) : Bool := w.clients.all (·.stopped)

/-- Fire what is due, the earliest task first and of those due together the one that was put on
the agenda first, until every client has stopped; `fuel` bounds the number of tasks. -/
def run (behave : Behaviour σ ε) : Nat → World σ ε → World σ ε
  | 0, w => w
  | fuel + 1, w =>
      if w.isOver then w
      else
        match w.agenda with
        | [] => w
        | (due, task) :: rest => run behave fuel ({ w with agenda := rest }.fire behave due task)

/-- The world at the beginning: every client is about to begin, in order. -/
def initial (source target : Store) (states : List σ) : World σ ε where
  now := 0
  agenda := (List.range states.length).map fun i => (0, .begin i)
  source := source
  target := target
  clients := states.map fun state => ⟨state, 0, none, false⟩
  timeline := #[]

/-- The most tasks that one round of `keys` keys, with the pause before it, puts on the agenda. -/
def roundCost (source target : Store) (keys : Nat) : Nat :=
  2 + keys * (source.layers.length + target.layers.length + 4)

end World

end ReplicaDiff
