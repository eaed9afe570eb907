/-
# ReplicaDiff.Proofs.World.Sleeping — the stores of a world, and who waits in them

Only a task that carries on with a fetch touches a store, and only it lets a fetch
go to sleep.  So after a stage the stores are those before, but for the one that
the fetch has been carried on in, and the fetches that are asleep are those
before, but for this one (`next_of_reach`, `next_of_idle`).
-/
import ReplicaDiff.Proofs.World.Firing

namespace ReplicaDiff

set_option autoImplicit false

/-- A fetch that waits at a layer, the number of the layer, and what happens then. -/
structure Sleeper where
  ticket : Ticket
  below : Nat
  ending : Store.Ending

/-- The fetch that a task goes on with when it has waited. -/
def Task.sleeper? : Task → Option Sleeper
  | .resume t below ending => some ⟨t, below, ending⟩
  | _ => none

/-- The fetch that goes to sleep where it halts. -/
def Store.Halt.sleeper? (t : Ticket) : Halt → Option Sleeper
  | .asleep _ below ending => some ⟨t, below, ending⟩
  | _ => none

namespace World

variable {σ ε : Type}

/-- The fetches that are asleep. -/
def sleepers (agenda : List (Nat × Task)) : List Sleeper := agenda.filterMap (·.2.sleeper?)

theorem sleepers_perm {a b : List (Nat × Task)} (perm : a.Perm b) :
    (sleepers a).Perm (sleepers b) := perm.filterMap _

theorem sleepers_cons (due : Nat) (task : Task) (agenda : List (Nat × Task)) :
    sleepers ((due, task) :: agenda) = task.sleeper?.toList ++ sleepers agenda := by
  unfold sleepers
  cases asleep : task.sleeper? <;> simp [asleep]

theorem mem_sleepers {agenda : List (Nat × Task)} {x : Sleeper} :
    x ∈ sleepers agenda ↔ ∃ due, (due, .resume x.ticket x.below x.ending) ∈ agenda := by
  unfold sleepers
  rw [List.mem_filterMap]
  constructor
  · rintro ⟨⟨due, task⟩, mem, asleep⟩
    cases task <;> cases asleep
    exact ⟨due, mem⟩
  · rintro ⟨due, mem⟩
    exact ⟨_, mem, rfl⟩

/-- A client puts no fetch to sleep. -/
theorem sleepers_chores (now client serial : Nat) (move : Move) :
    sleepers (chores now client serial move) = [] := by
  refine List.filterMap_eq_nil_iff.2 fun e mem => ?_
  obtain task | task | task | ⟨side, slot, key, task⟩ := task_of_mem_chores mem <;>
    · rw [task]
      rfl

variable {behave : Behaviour σ ε} {s : Stage σ ε}

theorem sleepers_agenda (s : Stage σ ε) :
    (sleepers s.world.agenda).Perm (s.task.sleeper?.toList ++ sleepers s.rest) := by
  rw [← sleepers_cons s.due]
  exact sleepers_perm s.agenda_perm

/-- A task that carries on with a fetch tells nobody anything. -/
theorem news?_of_reach {w : World σ ε} {task : Task} {reached : Ticket × Store × Store.Halt}
    (reach : w.reach? task = some reached) : w.news? task = none ∧ task.ticket? ≠ none := by
  cases task with
  | enter t => exact ⟨rfl, nofun⟩
  | resume t below ending => exact ⟨rfl, nofun⟩
  | _ => cases reach

/-- A stage that carries on with a fetch changes its store, and lets at most this fetch sleep. -/
theorem next_of_reach (behave : Behaviour σ ε) {t : Ticket} {store : Store} {halt : Store.Halt}
    (reach : s.taken.reach? s.task = some (t, store, halt)) :
    (∀ side, (s.next behave).store side = if t.side = side then store else s.world.store side) ∧
      (sleepers (s.next behave).agenda).Perm ((halt.sleeper? t).toList ++ sleepers s.rest) := by
  have step := fired behave s
  have stores (side : Side) : (s.taken.setStore t.side store).store side =
      if t.side = side then store else s.world.store side := store_setStore _ _ _ _
  have kept : (s.taken.setStore t.side store).agenda = s.rest := agenda_setStore _ _ _
  generalize s.next behave = w' at step ⊢
  generalize s.task = task at step reach
  cases step with
  | told news present perm =>
      rw [(news?_of_reach reach).1] at news
      cases news
  | emptied => cases reach
  | idle silent ticket stale =>
      exact absurd ticket (news?_of_reach reach).2
  | @asleep _ t' store' delay below ending agenda reach' perm =>
      cases reach.symm.trans reach'
      refine ⟨stores, (sleepers_perm perm).trans ?_⟩
      rw [sleepers_cons]
      exact .refl _
  | stalled reach' =>
      cases reach.symm.trans reach'
      exact ⟨stores, .of_eq (congrArg sleepers kept)⟩
  | missed reach' stale =>
      cases reach.symm.trans reach'
      exact ⟨stores, .of_eq (congrArg sleepers kept)⟩
  | noted reach' present number round perm =>
      cases reach.symm.trans reach'
      refine ⟨stores, (sleepers_perm perm).trans ?_⟩
      split <;> exact .refl _

/-- Any other stage leaves the stores and the sleeping fetches as they are. -/
theorem next_of_idle (behave : Behaviour σ ε) (idle : s.taken.reach? s.task = none) :
    (∀ side, (s.next behave).store side = s.world.store side) ∧
      (sleepers (s.next behave).agenda).Perm (sleepers s.rest) := by
  have step := fired behave s
  generalize s.next behave = w' at step ⊢
  generalize s.task = task at step idle
  cases step with
  | told news present perm =>
      refine ⟨store_congr rfl rfl, (sleepers_perm perm).trans ?_⟩
      unfold sleepers
      rw [List.filterMap_append]
      have none := sleepers_chores
      unfold sleepers at none
      rw [none]
      exact .refl _
  | emptied => exact ⟨store_congr rfl rfl, .refl _⟩
  | idle => exact ⟨store_congr rfl rfl, .refl _⟩
  | asleep reach => cases reach.symm.trans idle
  | stalled reach => cases reach.symm.trans idle
  | missed reach => cases reach.symm.trans idle
  | noted reach => cases reach.symm.trans idle

end World

end ReplicaDiff
