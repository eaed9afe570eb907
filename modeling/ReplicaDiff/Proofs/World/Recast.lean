/-
# ReplicaDiff.Proofs.World.Recast — other stores in the place of those of a world

A world notices of its stores only where its fetches stand: whether they have
ended, and with which answer, whether they hang, and how long they have to wait.
Which layer a fetch waits at is between its store and the task that goes on with
it.  So a `Recasting` puts other stores in the place of those of a world, and
other tasks in the place of those that go on with fetches.

If each fetch stands with the other stores where it stood before
(`Recasting.Follows`), firing a task comes to the same (`Recasting.fire_world`).
An invariant that says so of every stage (`Recasting.Upholds`) makes a schedule
out of each schedule (`Schedule.recast`), and there are no others
(`Schedule.exists_of_recast`); the order of `World.run` stays the same as well
(`run_recast`).
-/
import ReplicaDiff.Proofs.World.Firing

namespace ReplicaDiff.World

set_option autoImplicit false

variable {σ ε : Type} {behave : Behaviour σ ε}

/-- The fetch that ends at a stage, the moment, and the answer, if there is one. -/
def Stage.end? (s : Stage σ ε) : Option (Nat × Ticket × Option Outcome) :=
  match s.taken.reach? s.task with
  | some (t, _, .ended answer) => some (s.moment, t, answer)
  | _ => none

/-- When and how fetches end, one after the other. -/
def ends (log : List (Stage σ ε)) : List (Nat × Ticket × Option Outcome) :=
  log.filterMap Stage.end?

/-- Other stores in the place of those of a world, and other tasks that go on with fetches. -/
structure Recasting where
  store : Side → Store → Store
  task : Task → Task
  others : ∀ other : Task, (∀ t below ending, other ≠ .resume t below ending) → task other = other

namespace Recasting

/-- A world with the other stores and tasks. -/
def world (r : Recasting) (w : World σ ε) : World σ ε :=
  { w with
    agenda := w.agenda.map fun e => (e.1, r.task e.2)
    source := r.store .source w.source
    target := r.store .target w.target }

/-- A stage with the other stores and tasks. -/
def stage (r : Recasting) (s : Stage σ ε) : Stage σ ε :=
  { s with
    world := r.world s.world
    before := s.before.map fun e => (e.1, r.task e.2)
    task := r.task s.task
    after := s.after.map fun e => (e.1, r.task e.2)
    agenda_eq := by simp [world, s.agenda_eq]
    unfinished := s.unfinished
    onward := s.onward }

/-- Where a fetch stands with the first stores and where it stands with the others. -/
inductive Fits (r : Recasting) (t : Ticket) : Store.Halt → Store.Halt → Prop where
  | ended (answer : Option Outcome) : Fits r t (.ended answer) (.ended answer)
  | stalled : Fits r t .stalled .stalled
  | asleep (delay : Nat) {below below' : Nat} {ending ending' : Store.Ending}
      (goesOn : r.task (.resume t below ending) = .resume t below' ending') :
      Fits r t (.asleep delay below ending) (.asleep delay below' ending')

/-- A fetch that a task carries on with stands with the other stores where it stands with the
first, and leaves the others as those that take their place. -/
def Follows (r : Recasting) (w : World σ ε) (task : Task) : Prop :=
  ∀ t store halt, w.reach? task = some (t, store, halt) →
    ∃ halt', (r.world w).reach? (r.task task) = some (t, r.store t.side store, halt') ∧
      r.Fits t halt halt'

variable (r : Recasting)

/-! ## One task -/

theorem enlist_map (f : Task → Task) (due : Nat) (task : Task) (agenda : List (Nat × Task)) :
    enlist due (f task) (agenda.map fun e => (e.1, f e.2)) =
      (enlist due task agenda).map fun e => (e.1, f e.2) := by
  induction agenda with
  | nil => rfl
  | cons e rest ih =>
      rw [List.map_cons, enlist, enlist, ih]
      split <;> rfl

theorem schedule_world (w : World σ ε) (due : Nat) (task : Task) :
    (r.world w).schedule due (r.task task) = r.world (w.schedule due task) := by
  simp only [schedule, world, enlist_map]

theorem scheduleNow_world {tasks : List Task} (same : ∀ task ∈ tasks, r.task task = task)
    (w : World σ ε) : (r.world w).scheduleNow tasks = r.world (w.scheduleNow tasks) := by
  induction tasks generalizing w with
  | nil => rfl
  | cons task tasks ih =>
      obtain ⟨first, rest⟩ := List.forall_mem_cons.1 same
      have scheduled := r.schedule_world w w.now task
      rw [first] at scheduled
      exact (congrArg (·.scheduleNow tasks) scheduled).trans (ih rest (w.schedule w.now task))

theorem task_fetches (client serial : Nat) (keys : List String) :
    ∀ task ∈ fetches client serial keys, r.task task = task := by
  intro task mem
  obtain ⟨side, slot, key, -, rfl⟩ := mem_fetches.1 mem
  exact r.others _ nofun

theorem openRound_world (w : World σ ε) (client serial : Nat) (keys : List String)
    (timeout : Duration) :
    (r.world w).openRound client serial keys timeout =
      r.world (w.openRound client serial keys timeout) := by
  have look : ∀ task ∈ [Task.look client serial], r.task task = task := by
    intro task mem
    rw [List.mem_singleton.1 mem]
    exact r.others _ nofun
  have updated (round : Round) : (r.world w).update client (fun c => { c with serial, round }) =
      r.world (w.update client fun c => { c with serial, round }) := rfl
  unfold openRound
  dsimp only
  rw [updated]
  generalize w.update client _ = w'
  split
  · rw [scheduleNow_world r look]
  · have deadline := r.others (.deadline client serial) nofun
    have scheduled := schedule_world r w' (w'.now + timeout.ticks) (.deadline client serial)
    rw [deadline] at scheduled
    exact (congrArg (·.scheduleNow (fetches client serial keys)) scheduled).trans
      (scheduleNow_world r (task_fetches r client serial keys) _)

theorem tell_world (w : World σ ε) (client : Nat) (signal : Signal) :
    (r.world w).tell behave client signal = r.world (w.tell behave client signal) := by
  have clients : (r.world w).clients = w.clients := rfl
  unfold tell
  rw [clients]
  cases w.clients[client]? with
  | none => rfl
  | some c =>
      dsimp only
      generalize behave c.state signal = reaction
      let w' : World σ ε :=
        { w.update client fun c => { c with state := reaction.state, round := none } with
          timeline := reaction.effects.foldl (fun t e => t.push (w.now, e)) w.timeline }
      cases reaction.move with
      | send keys timeout => exact openRound_world r w' client (c.serial + 1) keys timeout
      | pause ticks =>
          have rested := r.others (.rested client) nofun
          have scheduled := schedule_world r w' (w.now + ticks) (.rested client)
          rw [rested] at scheduled
          exact scheduled
      | stop => rfl

theorem settle_world (w : World σ ε) (client serial : Nat) (expired : Bool) :
    (r.world w).settle behave client serial expired =
      r.world (w.settle behave client serial expired) := by
  have current : (r.world w).underWay? client serial = w.underWay? client serial := rfl
  unfold settle
  rw [current]
  cases w.underWay? client serial with
  | none => rfl
  | some round =>
      dsimp only
      cases verdict? round.emptied expired with
      | none => rfl
      | some verdict => exact tell_world r w client _

theorem report_world (w : World σ ε) (t : Ticket) (answer : Option Outcome) :
    (r.world w).report t answer = r.world (w.report t answer) := by
  have current : (r.world w).underWay? t.client t.serial = w.underWay? t.client t.serial := rfl
  have look : ∀ task ∈ [Task.look t.client t.serial], r.task task = task := by
    intro task mem
    rw [List.mem_singleton.1 mem]
    exact r.others _ nofun
  unfold report
  rw [current]
  cases w.underWay? t.client t.serial with
  | none => rfl
  | some round =>
      dsimp only
      split
      · exact scheduleNow_world r look
          (w.update t.client fun c => { c with round := some (round.noted t answer) })
      · rfl

theorem setStore_world (w : World σ ε) (side : Side) (store : Store) :
    (r.world w).setStore side (r.store side store) = r.world (w.setStore side store) := by
  cases side <;> rfl

theorem advance_world {t : Ticket} {halt halt' : Store.Halt} (fits : r.Fits t halt halt')
    (w : World σ ε) : (r.world w).advance t halt' = r.world (w.advance t halt) := by
  cases fits with
  | ended answer => exact report_world r w t answer
  | stalled => rfl
  | @asleep delay below below' ending ending' goesOn =>
      unfold advance
      dsimp only
      rw [← goesOn]
      exact schedule_world r w (w.now + delay) (.resume t below ending)

/-- Firing a task that carries on with a fetch lets it stand where it stands. -/
theorem fire_of_reach {w : World σ ε} {task : Task} {t : Ticket} {store : Store}
    {halt : Store.Halt} (reach : w.reach? task = some (t, store, halt)) (moment : Nat) :
    w.fire behave moment task =
      (({ w with now := moment } : World σ ε).setStore t.side store).advance t halt := by
  cases task with
  | enter t' => cases reach; rfl
  | resume t' below ending =>
      simp only [reach?, Option.some.injEq, Prod.mk.injEq] at reach
      obtain ⟨rfl, resumed⟩ := reach
      simp only [fire]
      rw [show ({ w with now := moment } : World σ ε).store t'.side = w.store t'.side by
        cases t'.side <;> rfl, resumed]
  | _ => cases reach

theorem task_of_reach_none {w : World σ ε} {task : Task} (idle : w.reach? task = none) :
    r.task task = task := by
  refine r.others task fun t below ending asleep => ?_
  rw [asleep] at idle
  cases idle

/-- Firing a task comes to the same with the other stores. -/
theorem fire_world {w : World σ ε} {task : Task} (follows : r.Follows w task) (moment : Nat) :
    (r.world w).fire behave moment (r.task task) = r.world (w.fire behave moment task) := by
  cases reach : w.reach? task with
  | some reached =>
      obtain ⟨t, store, halt⟩ := reached
      obtain ⟨halt', reach', fits⟩ := follows t store halt reach
      rw [fire_of_reach reach, fire_of_reach reach']
      exact (congrArg (·.advance t halt') (setStore_world r { w with now := moment } t.side store)).trans
        (advance_world r fits _)
  | none =>
      rw [task_of_reach_none r reach]
      cases task with
      | begin client => exact tell_world r { w with now := moment } client _
      | rested client => exact tell_world r { w with now := moment } client _
      | look client serial => exact settle_world r { w with now := moment } client serial false
      | deadline client serial => exact settle_world r { w with now := moment } client serial true
      | enter t => cases reach
      | resume t below ending => cases reach

theorem taken_stage (s : Stage σ ε) : (r.stage s).taken = r.world s.taken := by
  simp only [Stage.taken, Stage.rest, stage, world, List.map_append]

/-- When and how a fetch ends stays the same with the other stores. -/
theorem end?_stage {s : Stage σ ε} (follows : r.Follows s.taken s.task) :
    (r.stage s).end? = s.end? := by
  unfold Stage.end?
  rw [taken_stage]
  cases reach : s.taken.reach? s.task with
  | some reached =>
      obtain ⟨t, store, halt⟩ := reached
      obtain ⟨halt', reach', fits⟩ := follows t store halt reach
      rw [show (r.stage s).task = r.task s.task from rfl, reach']
      cases fits <;> rfl
  | none =>
      have reach' : (r.world s.taken).reach? (r.stage s).task = none := by
        show (r.world s.taken).reach? (r.task s.task) = none
        rw [task_of_reach_none r reach]
        cases task : s.task with
        | enter t => rw [task] at reach; cases reach
        | resume t below ending => rw [task] at reach; cases reach
        | _ => rfl
      rw [reach']

theorem next_stage {s : Stage σ ε} (follows : r.Follows s.taken s.task) :
    (r.stage s).next behave = r.world (s.next behave) := by
  unfold Stage.next
  rw [taken_stage]
  exact fire_world r follows s.moment

/-! ## Whole schedules -/

/-- Under this invariant every fetch stands with the other stores where it stands. -/
structure Upholds (r : Recasting) (behave : Behaviour σ ε) (holds : World σ ε → Prop) : Prop where
  follows : ∀ s : Stage σ ε, holds s.world → r.Follows s.taken s.task
  next : ∀ s : Stage σ ε, holds s.world → holds (s.next behave)

end Recasting

open Recasting

variable {r : Recasting} {holds : World σ ε → Prop} {start w : World σ ε} {log : List (Stage σ ε)}

/-- With other stores a schedule goes on as it did. -/
theorem Schedule.recast (schedule : Schedule behave start log w) (upholds : r.Upholds behave holds)
    (begins : holds start) :
    Schedule behave (r.world start) (log.map r.stage) (r.world w) ∧
      ends (log.map r.stage) = ends log ∧ holds w := by
  induction schedule with
  | refl => exact ⟨.refl, rfl, begins⟩
  | @snoc log s earlier ih =>
      obtain ⟨onward, same, current⟩ := ih
      have follows := upholds.follows s current
      refine ⟨?_, ?_, upholds.next s current⟩
      · rw [List.map_append, ← next_stage r follows]
        exact .snoc (r.stage s) onward
      · unfold ends at same ⊢
        rw [List.map_append, List.filterMap_append, List.filterMap_append, same]
        simp only [List.map_cons, List.map_nil, List.filterMap_cons, end?_stage r follows]

/-- A stage of a world with other stores comes of one of the world itself. -/
theorem exists_stage_of_recast {s' : Stage σ ε} (same : s'.world = r.world w) :
    ∃ s : Stage σ ε, s.world = w ∧ r.stage s = s' := by
  obtain ⟨world, before', due, task', after', moment, agenda_eq, unfinished, ripe, onward⟩ := s'
  subst same
  obtain ⟨before, rest, split, rfl, last⟩ := List.map_eq_append_iff.1 agenda_eq
  obtain ⟨⟨_, task⟩, after, rfl, head, rfl⟩ := List.map_eq_cons_iff.1 last
  cases head
  exact ⟨⟨w, before, _, task, after, moment, split, unfinished, ripe, onward⟩, rfl, rfl⟩

/-- With other stores there are no other schedules. -/
theorem Schedule.exists_of_recast {w' : World σ ε} {log' : List (Stage σ ε)}
    (schedule : Schedule behave (r.world start) log' w') (upholds : r.Upholds behave holds)
    (begins : holds start) :
    ∃ log w, Schedule behave start log w ∧ log.map r.stage = log' ∧ r.world w = w' := by
  induction schedule with
  | refl => exact ⟨[], start, .refl, rfl, rfl⟩
  | @snoc log' s' earlier ih =>
      obtain ⟨log, w, before, rfl, same⟩ := ih
      obtain ⟨s, rfl, rfl⟩ := exists_stage_of_recast same.symm
      have current := (before.recast upholds begins).2.2
      refine ⟨log ++ [s], s.next behave, .snoc s before, by rw [List.map_append]; rfl, ?_⟩
      exact (next_stage r (upholds.follows s current)).symm

/-- The stage of the task that `World.run` fires. -/
def Stage.first {due : Nat} {task : Task} {rest : List (Nat × Task)} (w : World σ ε)
    (orderly : w.Orderly) (unfinished : w.isOver = false)
    (agenda : w.agenda = (due, task) :: rest) : Stage σ ε where
  world := w
  before := []
  due := due
  task := task
  after := rest
  moment := due
  agenda_eq := agenda
  unfinished := unfinished
  ripe := Nat.le_refl _
  onward := orderly.2 (due, task) (by simp [agenda])

/-- With other stores `World.run` goes on as it did. -/
theorem run_recast (upholds : r.Upholds behave holds) (fuel : Nat) (orderly : w.Orderly)
    (begins : holds w) : run behave fuel (r.world w) = r.world (run behave fuel w) := by
  induction fuel generalizing w with
  | zero => rfl
  | succ fuel ih =>
      have ends : (r.world w).isOver = w.isOver := rfl
      rw [run, run, ends]
      cases finished : w.isOver with
      | true => rfl
      | false =>
          simp only [Bool.false_eq_true, ↓reduceIte]
          cases first : w.agenda with
          | nil => simp only [world, first, List.map_nil]
          | cons e rest =>
              obtain ⟨due, task⟩ := e
              let s := Stage.first w orderly finished first
              have follows : r.Follows s.taken s.task := upholds.follows s begins
              have agenda : (r.world w).agenda =
                  (due, r.task task) :: rest.map fun e => (e.1, r.task e.2) := by
                simp [world, first]
              rw [agenda]
              dsimp only
              have fired : (r.stage s).next behave = r.world (s.next behave) := next_stage r follows
              have onward := ih (orderly.fire behave first) (upholds.next s begins)
              rw [← onward]
              exact congrArg (run behave fuel) fired

end ReplicaDiff.World
