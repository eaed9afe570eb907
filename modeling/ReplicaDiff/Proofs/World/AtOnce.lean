/-
# ReplicaDiff.Proofs.World.AtOnce — stores that answer at once

A store may lie under several layers and still answer each fetch at once, and a
key always with the same answer (`Store.AnswersAtOnce`).  Then all that a world
can notice of the store is its answers: with a bare store in its place, which has
the same answers and no layers, every schedule goes on as it did
(`Schedule.bare`).  It rests on no fetch ever being asleep (`AtOnce`), so that a
layer is never asked to go on with one.
-/
import ReplicaDiff.Proofs.World.Recast
import ReplicaDiff.Proofs.World.Sleeping

namespace ReplicaDiff

set_option autoImplicit false

namespace Store

/-- Whatever has been fetched before, a fetch is answered at once, and a key always with the same
answer. -/
def AnswersAtOnce (s : Store) (answer : String → Outcome) : Prop :=
  ∀ (earlier : List String) (key : String),
    ((earlier.foldl (fun s key => (s.call key).1) s).call key).2 = .ended (some (answer key))

/-- The store without layers that has some answers. -/
def bare (answer : String → Outcome) : Store := ⟨[], answer⟩

theorem call_bare (answer : String → Outcome) (key : String) :
    (bare answer).call key = (bare answer, .ended (some (answer key))) := rfl

theorem answersAtOnce_bare (answer : String → Outcome) : (bare answer).AnswersAtOnce answer := by
  intro earlier key
  have same : earlier.foldl (fun s key => (s.call key).1) (bare answer) = bare answer := by
    induction earlier with
    | nil => rfl
    | cons first earlier ih =>
        rw [List.foldl_cons, call_bare]
        exact ih
  rw [same, call_bare]

namespace AnswersAtOnce

variable {s : Store} {answer : String → Outcome}

theorem call (h : s.AnswersAtOnce answer) (key : String) :
    (s.call key).2 = .ended (some (answer key)) := h [] key

/-- A fetch changes nothing of it. -/
theorem after (h : s.AnswersAtOnce answer) (key : String) :
    (s.call key).1.AnswersAtOnce answer := fun earlier => h (key :: earlier)

end AnswersAtOnce

end Store

namespace World

variable {σ ε : Type} {behave : Behaviour σ ε} {answers : Side → String → Outcome}

/-- The world with bare stores that have some answers. -/
def withBare (answers : Side → String → Outcome) (w : World σ ε) : World σ ε :=
  { w with source := .bare (answers .source), target := .bare (answers .target) }

/-- The stage in a world with bare stores. -/
def Stage.bare (answers : Side → String → Outcome) (s : Stage σ ε) : Stage σ ε :=
  { s with
    world := s.world.withBare answers
    agenda_eq := s.agenda_eq
    unfinished := s.unfinished
    onward := s.onward }

/-- The stores of a world have these answers at once, and no fetch is asleep. -/
structure AtOnce (answers : Side → String → Outcome) (w : World σ ε) : Prop where
  stores : ∀ side, (w.store side).AnswersAtOnce (answers side)
  awake : ∀ e ∈ w.agenda, ∀ t below ending, e.2 ≠ .resume t below ending

namespace AtOnce

variable {s : Stage σ ε}

theorem sleepers_eq_nil_iff {agenda : List (Nat × Task)} :
    sleepers agenda = [] ↔ ∀ e ∈ agenda, ∀ t below ending, e.2 ≠ .resume t below ending := by
  constructor
  · intro none e mem t below ending asleep
    have waits : (⟨t, below, ending⟩ : Sleeper) ∈ sleepers agenda :=
      mem_sleepers.2 ⟨e.1, asleep ▸ mem⟩
    rw [none] at waits
    cases waits
  · intro awake
    refine List.eq_nil_iff_forall_not_mem.2 fun x mem => ?_
    obtain ⟨due, mem⟩ := mem_sleepers.1 mem
    exact awake _ mem _ _ _ rfl

theorem awake_rest (h : AtOnce answers s.world) : sleepers s.rest = [] :=
  sleepers_eq_nil_iff.2 fun e mem => h.awake e (s.mem_of_mem_rest mem)

/-- A fetch that is carried on with has just been called, and is answered. -/
theorem reach (h : AtOnce answers s.world) {t : Ticket} {store : Store} {halt : Store.Halt}
    (reach : s.taken.reach? s.task = some (t, store, halt)) :
    s.task = .enter t ∧ halt = .ended (some (answers t.side t.key)) ∧
      store.AnswersAtOnce (answers t.side) := by
  cases task : s.task with
  | enter t' =>
      rw [task] at reach
      simp only [reach?, Option.some.injEq, Prod.mk.injEq] at reach
      obtain ⟨rfl, called⟩ := reach
      have stores : (s.taken.store t'.side).AnswersAtOnce (answers t'.side) := h.stores t'.side
      have answered := stores.call t'.key
      have after := stores.after t'.key
      rw [called] at answered after
      exact ⟨rfl, answered, after⟩
  | resume t' below ending =>
      exact absurd task (h.awake _ s.mem_agenda t' below ending)
  | _ => rw [task] at reach; cases reach

/-- After a stage the stores still answer at once, and no fetch is asleep. -/
theorem next (h : AtOnce answers s.world) : AtOnce answers (s.next behave) := by
  cases reach : s.taken.reach? s.task with
  | none =>
      obtain ⟨stores, asleep⟩ := next_of_idle behave reach
      refine ⟨fun side => stores side ▸ h.stores side, sleepers_eq_nil_iff.1 ?_⟩
      exact List.perm_nil.1 (h.awake_rest ▸ asleep)
  | some reached =>
      obtain ⟨t, store, halt⟩ := reached
      obtain ⟨stores, asleep⟩ := next_of_reach behave reach
      obtain ⟨-, rfl, after⟩ := h.reach reach
      refine ⟨fun side => ?_, sleepers_eq_nil_iff.1 ?_⟩
      · rw [stores]
        split
        · rename_i own
          exact own ▸ after
        · exact h.stores side
      · exact List.perm_nil.1 (h.awake_rest ▸ asleep)

end AtOnce

/-! ## Bare stores in the place of others -/

/-- Bare stores with some answers, and the same tasks. -/
def bareness (answers : Side → String → Outcome) : Recasting where
  store side _ := .bare (answers side)
  task := id
  others _ _ := rfl

theorem bareness_world (answers : Side → String → Outcome) (w : World σ ε) :
    (bareness answers).world w = w.withBare answers := by
  simp [Recasting.world, bareness, withBare]

theorem bareness_stage (answers : Side → String → Outcome) (s : Stage σ ε) :
    (bareness answers).stage s = s.bare answers := by
  simp only [Recasting.stage, Stage.bare, bareness_world]
  simp [bareness]

/-- A call leaves a bare store as it is, and is answered at once. -/
theorem AtOnce.upholds : (bareness answers).Upholds behave (AtOnce answers) where
  next _ h := h.next
  follows s h := by
    intro t store halt reach
    obtain ⟨enters, rfl, -⟩ := h.reach reach
    refine ⟨_, ?_, .ended _⟩
    rw [enters]
    cases side : t.side <;> simp [bareness, reach?, Recasting.world, World.store, side, Store.call_bare]

/-- With bare stores in the place of stores that answer at once a schedule goes on as it did. -/
theorem Schedule.bare {start w : World σ ε} {log : List (Stage σ ε)}
    (schedule : Schedule behave start log w) (h : AtOnce answers start) :
    Schedule behave (start.withBare answers) (log.map (·.bare answers)) (w.withBare answers) ∧
      AtOnce answers w := by
  obtain ⟨onward, -, atOnce⟩ := schedule.recast AtOnce.upholds h
  rw [bareness_world, bareness_world, List.map_congr_left fun s _ => bareness_stage answers s]
    at onward
  exact ⟨onward, atOnce⟩

theorem prompt_bare (answers : Side → String → Outcome) {log : List (Stage σ ε)}
    (prompt : ∀ s ∈ log, s.Prompt) : ∀ s ∈ log.map (·.bare answers), s.Prompt := by
  intro s mem
  obtain ⟨s', mem', rfl⟩ := List.mem_map.1 mem
  exact prompt s' mem'

theorem atOnce_initial {source target : Store} (ofSource : source.AnswersAtOnce (answers .source))
    (ofTarget : target.AnswersAtOnce (answers .target)) (states : List σ) :
    AtOnce answers (World.initial source target states : World σ ε) where
  stores side := by
    cases side
    · exact ofSource
    · exact ofTarget
  awake e mem := by
    obtain ⟨i, -, rfl⟩ := List.mem_map.1 mem
    nofun

end World

end ReplicaDiff
