/-
# ReplicaDiff.Proofs.World.Schedule — the orders in which tasks may be fired

`World.run` fires the earliest task, and of those due together the one that was
put on the agenda first.  Nothing that is proved about clients rests on that
choice.  A `Stage` fires any task of the agenda at any moment from the one on at
which it is due, so that tasks may overtake each other and may be late; a
`Schedule` is the list of the stages from one world to another, as long as not
every client has stopped.  A stage is `Prompt` when its task is one of the
earliest and is fired when it is due: in a schedule of prompt stages only tasks
that are due together may come in any order.

`exists_prompt_schedule` says that `World.run` is such a schedule.
-/
import ReplicaDiff.World

namespace ReplicaDiff.World

set_option autoImplicit false

variable {σ ε : Type}

/-- What one client is told, and its state when it is told. -/
structure Telling (σ : Type) where
  client : Nat
  state : σ
  signal : Signal

/-- The client of a number is told something, if there is one. -/
def tellTo? (w : World σ ε) (client : Nat) (signal : Signal) : Option (Telling σ) :=
  (w.clients[client]?).map fun c => ⟨client, c.state, signal⟩

/-- What the round of a client is settled by, if it has this number and is decided. -/
def settlement? (w : World σ ε) (client serial : Nat) (expired : Bool) :
    Option (Except Batch.Error Batch.Results) :=
  (w.underWay? client serial).bind fun round => verdict? round.emptied expired

/-- Whom a task tells what. -/
def news? (w : World σ ε) : Task → Option (Telling σ)
  | .begin client => w.tellTo? client .begun
  | .rested client => w.tellTo? client .rested
  | .look client serial =>
      (w.settlement? client serial false).bind fun v => w.tellTo? client (.settled v)
  | .deadline client serial =>
      (w.settlement? client serial true).bind fun v => w.tellTo? client (.settled v)
  | .enter _ => none
  | .resume _ _ _ => none

/-- A task that is taken off the agenda and fired, at a moment at which it is due. -/
structure Stage (σ ε : Type) where
  world : World σ ε
  before : List (Nat × Task)
  due : Nat
  task : Task
  after : List (Nat × Task)
  moment : Nat
  agenda_eq : world.agenda = before ++ (due, task) :: after
  unfinished : world.isOver = false
  ripe : due ≤ moment
  onward : world.now ≤ moment

namespace Stage

/-- The tasks that stay on the agenda. -/
def rest (s : Stage σ ε) : List (Nat × Task) := s.before ++ s.after

/-- The world without the task that is about to be fired. -/
def taken (s : Stage σ ε) : World σ ε := { s.world with agenda := s.rest }

/-- The world after the task has been fired. -/
def next (behave : Behaviour σ ε) (s : Stage σ ε) : World σ ε :=
  s.taken.fire behave s.moment s.task

/-- Whom the stage tells what. -/
def told? (s : Stage σ ε) : Option (Telling σ) := s.world.news? s.task

/-- The task is one of the earliest, and is fired when it is due. -/
def Prompt (s : Stage σ ε) : Prop := s.moment = s.due ∧ ∀ e ∈ s.world.agenda, s.due ≤ e.1

theorem agenda_perm (s : Stage σ ε) : s.world.agenda.Perm ((s.due, s.task) :: s.rest) := by
  rw [s.agenda_eq]
  exact List.perm_middle

theorem mem_agenda (s : Stage σ ε) : (s.due, s.task) ∈ s.world.agenda :=
  s.agenda_perm.mem_iff.2 (by simp)

theorem mem_of_mem_rest (s : Stage σ ε) {e : Nat × Task} (mem : e ∈ s.rest) :
    e ∈ s.world.agenda :=
  s.agenda_perm.mem_iff.2 (List.mem_cons_of_mem _ mem)

end Stage

/-- The stages that lead from one world to another. -/
inductive Schedule (behave : Behaviour σ ε) (start : World σ ε) :
    List (Stage σ ε) → World σ ε → Prop where
  | refl : Schedule behave start [] start
  | snoc {log : List (Stage σ ε)} (s : Stage σ ε) (earlier : Schedule behave start log s.world) :
      Schedule behave start (log ++ [s]) (s.next behave)

/-- What a stage tells one client, and in which state. -/
def Stage.tells (client : Nat) (s : Stage σ ε) : Option (σ × Signal) :=
  s.told?.bind fun t => if t.client = client then some (t.state, t.signal) else none

/-- What the stages of a schedule tell one client, and in which states. -/
def heard (client : Nat) (log : List (Stage σ ε)) : List (σ × Signal) :=
  log.filterMap (Stage.tells client)

theorem heard_snoc (client : Nat) (log : List (Stage σ ε)) (s : Stage σ ε) :
    heard client (log ++ [s]) = heard client log ++ (s.tells client).toList := by
  unfold heard
  rw [List.filterMap_append]
  cases h : s.tells client <;> simp [h]

theorem Schedule.trans {behave : Behaviour σ ε} {a b c : World σ ε}
    {first second : List (Stage σ ε)} (h : Schedule behave a first b)
    (h' : Schedule behave b second c) : Schedule behave a (first ++ second) c := by
  induction h' with
  | refl => simpa using h
  | snoc s _ ih =>
      rw [← List.append_assoc]
      exact .snoc s ih

/-- What comes before one of its stages leads a schedule to the world of the stage. -/
theorem Schedule.before {behave : Behaviour σ ε} {start w : World σ ε}
    {log later : List (Stage σ ε)} {s : Stage σ ε}
    (h : Schedule behave start (log ++ s :: later) w) : Schedule behave start log s.world := by
  generalize whole : log ++ s :: later = stages at h
  induction h generalizing later with
  | refl => simp at whole
  | @snoc stages' s' earlier ih =>
      rcases List.eq_nil_or_concat later with rfl | ⟨later', s'', rfl⟩
      · obtain ⟨rfl, same⟩ := List.append_inj' whole rfl
        cases same
        exact earlier
      · rw [List.concat_eq_append, ← List.cons_append, ← List.append_assoc] at whole
        exact ih (List.append_inj' whole rfl).1

/-! ## The order of `World.run` is a prompt schedule -/

/-- The agenda is sorted, and nothing on it lies in the past. -/
def Orderly (w : World σ ε) : Prop :=
  w.agenda.Pairwise (fun a b => a.1 ≤ b.1) ∧ ∀ e ∈ w.agenda, w.now ≤ e.1

theorem enlist_perm (due : Nat) (task : Task) :
    ∀ agenda : List (Nat × Task), (enlist due task agenda).Perm ((due, task) :: agenda)
  | [] => .refl _
  | entry :: rest => by
      unfold enlist
      split
      · exact ((enlist_perm due task rest).cons entry).trans (.swap _ _ _)
      · exact .refl _

theorem enlist_sorted (due : Nat) (task : Task) :
    ∀ {agenda : List (Nat × Task)}, agenda.Pairwise (fun a b => a.1 ≤ b.1) →
      (enlist due task agenda).Pairwise fun a b => a.1 ≤ b.1
  | [], _ => by simp [enlist]
  | entry :: rest, sorted => by
      obtain ⟨head, tail⟩ := List.pairwise_cons.1 sorted
      unfold enlist
      split
      · rename_i early
        refine List.pairwise_cons.2 ⟨fun e mem => ?_, enlist_sorted due task tail⟩
        rcases List.mem_cons.1 ((enlist_perm due task rest).mem_iff.1 mem) with rfl | mem
        · exact early
        · exact head e mem
      · rename_i late
        refine List.pairwise_cons.2 ⟨fun e mem => ?_, sorted⟩
        rcases List.mem_cons.1 mem with rfl | mem
        · show due ≤ _
          omega
        · have := head e mem
          show due ≤ e.1
          omega

namespace Orderly

variable {w : World σ ε}

theorem schedule (h : w.Orderly) {due : Nat} (later : w.now ≤ due) (task : Task) :
    (w.schedule due task).Orderly := by
  refine ⟨enlist_sorted due task h.1, fun e mem => ?_⟩
  rcases List.mem_cons.1 ((enlist_perm due task w.agenda).mem_iff.1 mem) with rfl | mem
  · exact later
  · exact h.2 e mem

theorem scheduleNow (h : w.Orderly) (tasks : List Task) : (w.scheduleNow tasks).Orderly := by
  induction tasks generalizing w with
  | nil => exact h
  | cons task tasks ih => exact ih (h.schedule (Nat.le_refl _) task)

theorem tell (h : w.Orderly) (behave : Behaviour σ ε) (client : Nat) (signal : Signal) :
    (w.tell behave client signal).Orderly := by
  unfold World.tell
  split
  · exact h
  · dsimp only
    split
    · unfold openRound
      dsimp only
      split
      · refine Orderly.scheduleNow ?_ _
        exact h
      · refine Orderly.scheduleNow (Orderly.schedule ?_ (Nat.le_add_right _ _) _) _
        exact h
    · refine Orderly.schedule ?_ (Nat.le_add_right _ _) _
      exact h
    · exact h

theorem settle (h : w.Orderly) (behave : Behaviour σ ε) (client serial : Nat) (expired : Bool) :
    (w.settle behave client serial expired).Orderly := by
  unfold World.settle
  split
  · exact h
  · split
    · exact h.tell behave client _
    · exact h

theorem report (h : w.Orderly) (t : Ticket) (answer : Option Outcome) :
    (w.report t answer).Orderly := by
  unfold World.report
  split
  · exact h
  · dsimp only
    split
    · refine Orderly.scheduleNow ?_ _
      exact h
    · exact h

theorem setStore (h : w.Orderly) (side : Side) (store : Store) : (w.setStore side store).Orderly := by
  cases side <;> exact h

theorem advance (h : w.Orderly) (t : Ticket) (halt : Store.Halt) : (w.advance t halt).Orderly := by
  cases halt with
  | asleep delay below ending => exact h.schedule (Nat.le_add_right _ _) _
  | ended answer => exact h.report t answer
  | stalled => exact h

/-- Firing the first task of an orderly world leaves it orderly. -/
theorem fire (h : w.Orderly) (behave : Behaviour σ ε) {due : Nat} {task : Task}
    {rest : List (Nat × Task)} (first : w.agenda = (due, task) :: rest) :
    ({ w with agenda := rest }.fire behave due task).Orderly := by
  have moved : ({ w with agenda := rest, now := due } : World σ ε).Orderly := by
    have sorted := h.1
    rw [first] at sorted
    exact ⟨(List.pairwise_cons.1 sorted).2, (List.pairwise_cons.1 sorted).1⟩
  cases task with
  | begin client => exact moved.tell behave client _
  | enter t => exact (moved.setStore _ _).advance t _
  | resume t below ending => exact (moved.setStore _ _).advance t _
  | look client serial => exact moved.settle behave client serial false
  | deadline client serial => exact moved.settle behave client serial true
  | rested client => exact moved.tell behave client _

theorem initial (source target : Store) (states : List σ) :
    (World.initial source target states : World σ ε).Orderly := by
  constructor
  · exact List.pairwise_map.2 (List.pairwise_of_forall fun _ _ => Nat.le_refl 0)
  · intro e _
    exact Nat.zero_le _

end Orderly

/-- The order in which `World.run` fires tasks is a schedule of prompt stages, each of the first
task on the agenda, at the end of which the fuel has been used up, every client has stopped, or
nothing is left to fire. -/
theorem exists_prompt_schedule (behave : Behaviour σ ε) (fuel : Nat) (w : World σ ε)
    (orderly : w.Orderly) :
    ∃ log, Schedule behave w log (run behave fuel w) ∧ (∀ s ∈ log, s.Prompt ∧ s.before = []) ∧
      (log.length = fuel ∨ (run behave fuel w).isOver = true ∨ (run behave fuel w).agenda = []) := by
  induction fuel generalizing w with
  | zero => exact ⟨[], .refl, by simp, .inl rfl⟩
  | succ fuel ih =>
      unfold run
      cases finished : w.isOver with
      | true => exact ⟨[], .refl, by simp, .inr (.inl finished)⟩
      | false =>
          simp only [Bool.false_eq_true, ↓reduceIte]
          split
          · rename_i empty
            exact ⟨[], .refl, by simp, .inr (.inr empty)⟩
          · rename_i due task rest first
            let s : Stage σ ε := {
              world := w, before := [], due, task, after := rest, moment := due
              agenda_eq := first, unfinished := finished, ripe := Nat.le_refl _
              onward := orderly.2 (due, task) (by simp [first]) }
            obtain ⟨log, schedule, prompt, ending⟩ := ih _ (orderly.fire behave first)
            refine ⟨s :: log, ?_, ?_, ?_⟩
            · exact (Schedule.snoc s .refl).trans schedule
            · intro s' mem
              rcases List.mem_cons.1 mem with rfl | mem
              · refine ⟨⟨rfl, fun e mem => ?_⟩, rfl⟩
                have sorted := orderly.1
                rw [first] at sorted
                rw [show s.world.agenda = (due, task) :: rest from first] at mem
                rcases List.mem_cons.1 mem with rfl | mem
                · exact Nat.le_refl _
                · exact (List.pairwise_cons.1 sorted).1 e mem
              · exact prompt s' mem
            · rcases ending with full | ending
              · exact .inl (by simp [full])
              · exact .inr ending

end ReplicaDiff.World
