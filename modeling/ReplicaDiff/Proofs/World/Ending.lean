/-
# ReplicaDiff.Proofs.World.Ending — every schedule comes to an end

Each stage takes one task off the agenda, and puts tasks on it only if a client
is told something or a fetch has to wait at a layer of its store.  A fetch waits
at most once at each layer, so that the number of stages is bounded by what the
moves of the clients cost (`Schedule.length_add_load_le`).  Where a `budget`
covers the cost of every play, the number of stages is bounded from the start.

As long as a client has not stopped, there is something on the agenda
(`Schedule.agenda_ne_nil`), so that `World.run` with enough fuel ends when all
clients have stopped (`isOver_run`), and a prompt schedule in any order can be
carried on to such an end (`Schedule.exists_over`).
-/
import Mathlib.Algebra.BigOperators.Group.Finset.Piecewise
import Mathlib.Algebra.GroupWithZero.Nat
import Mathlib.Algebra.Order.BigOperators.Group.Finset
import ReplicaDiff.Proofs.Store.Passage
import ReplicaDiff.Proofs.World.Timed

namespace ReplicaDiff

set_option autoImplicit false

namespace Store

theorem call_layers (s : Store) (key : String) :
    (s.call key).1.layers.length = s.layers.length ∧
      ∀ delay below ending, (s.call key).2 = .asleep delay below ending → below < s.layers.length :=
  descend_layers s.base key s.layers

theorem resume_layers (s : Store) (key : String) (below : Nat) (ending : Ending) :
    (s.resume key below ending).1.layers.length = s.layers.length ∧
      ∀ delay below' ending', (s.resume key below ending).2 = .asleep delay below' ending' →
        below' < below := by
  cases ending with
  | pass =>
      obtain ⟨length, inside⟩ :=
        descend_layers s.base key (s.layers.drop (s.layers.length - below))
      unfold resume
      dsimp only
      constructor
      · rw [List.length_append, length, List.length_take, List.length_drop]
        omega
      · intro delay below' ending' eq
        have := inside delay below' ending' eq
        rw [List.length_drop] at this
        omega
  | stall => exact ⟨rfl, by simp [resume]⟩
  | vanish => exact ⟨rfl, by simp [resume]⟩
  | answer outcome => exact ⟨rfl, by simp [resume]⟩

end Store

namespace World

variable {σ ε : Type}

/-- How many layers the stores of the two sides have. -/
abbrev Depth := Side → Nat

/-- The number of layers of the stores of a world. -/
def depth (w : World σ ε) : Depth := fun side => (w.store side).layers.length

/-- The most stages that a task leads to, itself included, before a client is told something. -/
def weight (depth : Depth) : Task → Nat
  | .enter t => depth t.side + 2
  | .resume _ below _ => below + 2
  | _ => 1

/-- The weight of an agenda. -/
def load (depth : Depth) (agenda : List (Nat × Task)) : Nat :=
  (agenda.map fun e => weight depth e.2).sum

/-- The weight of what a move puts on the agenda. -/
def cost (depth : Depth) : Move → Nat
  | .send keys _ => 1 + keys.length * (depth .source + depth .target + 4)
  | .pause _ => 1
  | .stop => 0

theorem load_perm {depth : Depth} {a b : List (Nat × Task)} (perm : a.Perm b) :
    load depth a = load depth b := (perm.map _).sum_eq

theorem load_append (depth : Depth) (a b : List (Nat × Task)) :
    load depth (a ++ b) = load depth a + load depth b := by
  simp [load]

theorem weight_pos (depth : Depth) (task : Task) : 0 < weight depth task := by
  cases task <;> simp [weight]

theorem eq_nil_of_load_eq_zero {depth : Depth} {agenda : List (Nat × Task)}
    (zero : load depth agenda = 0) : agenda = [] := by
  cases agenda with
  | nil => rfl
  | cons e rest =>
      have := weight_pos depth e.2
      simp only [load, List.map_cons, List.sum_cons] at zero
      omega

theorem load_fetches (depth : Depth) (now client serial : Nat) (keys : List String) :
    load depth ((fetches client serial keys).map fun task => (now, task)) =
      keys.length * (depth .source + depth .target + 4) := by
  have tail : ∀ (keys : List String) (first : Nat),
      load depth (((keys.zipIdx first).flatMap (fetchesOf client serial)).map
        fun task => (now, task)) = keys.length * (depth .source + depth .target + 4) := by
    intro keys
    induction keys with
    | nil => simp [load]
    | cons key keys ih =>
        intro first
        rw [List.zipIdx_cons, List.flatMap_cons, List.map_append, load_append, ih]
        simp only [load, weight, fetchesOf, List.map_cons, List.map_nil, List.sum_cons, List.sum_nil,
          List.length_cons, Nat.add_mul]
        omega
  exact tail keys 0

theorem load_chores_le (depth : Depth) (now client serial : Nat) (move : Move) :
    load depth (chores now client serial move) ≤ cost depth move := by
  cases move with
  | send keys timeout =>
      unfold chores
      dsimp only
      split
      · simp [load, weight, cost]
      · have fetching := load_fetches depth now client serial keys
        unfold load at fetching ⊢
        rw [List.map_cons, List.sum_cons, fetching]
        exact Nat.le_refl _
  | pause ticks => simp [chores, load, weight, cost]
  | stop => simp [chores, load, cost]

/-- What the move of the client that a stage tells something costs. -/
def Stage.cost (behave : Behaviour σ ε) (depth : Depth) (s : Stage σ ε) : Nat :=
  match s.told? with
  | some t => World.cost depth (behave t.state t.signal).move
  | none => 0

theorem depth_setStore (w : World σ ε) {side : Side} {store : Store}
    (same : store.layers.length = (w.store side).layers.length) :
    (w.setStore side store).depth = w.depth := by
  funext side'
  unfold depth
  cases side <;> cases side' <;> first | rfl | exact same

/-- Carrying on with a fetch keeps the number of layers, and leaves less to do than before. -/
theorem layers_of_reach {w : World σ ε} {task : Task} {t : Ticket} {store : Store}
    {halt : Store.Halt} (reach : w.reach? task = some (t, store, halt)) :
    store.layers.length = (w.store t.side).layers.length ∧ 2 ≤ weight w.depth task ∧
      ∀ delay below ending, halt = .asleep delay below ending → below + 2 < weight w.depth task := by
  cases task with
  | enter t' =>
      cases reach
      obtain ⟨same, inside⟩ := (w.store t.side).call_layers t.key
      refine ⟨same, Nat.le_add_left _ _, fun delay below ending eq => ?_⟩
      exact Nat.add_lt_add_right (inside delay below ending eq) 2
  | resume t' below ending =>
      simp only [reach?, Option.some.injEq, Prod.mk.injEq] at reach
      obtain ⟨rfl, reach⟩ := reach
      obtain ⟨same, inside⟩ := (w.store t'.side).resume_layers t'.key below ending
      rw [reach] at same inside
      refine ⟨same, Nat.le_add_left _ _, fun delay below' ending' eq => ?_⟩
      exact Nat.add_lt_add_right (inside delay below' ending' eq) 2
  | begin client => cases reach
  | look client serial => cases reach
  | deadline client serial => cases reach
  | rested client => cases reach

theorem depth_next (behave : Behaviour σ ε) (s : Stage σ ε) :
    (s.next behave).depth = s.world.depth := by
  have step := fired behave s
  generalize s.next behave = w' at step ⊢
  generalize s.task = task at step
  cases step with
  | told news present perm => rfl
  | emptied present number round undecided => rfl
  | idle silent ticket stale => rfl
  | asleep reach perm => exact depth_setStore s.taken (layers_of_reach reach).1
  | stalled reach => exact depth_setStore s.taken (layers_of_reach reach).1
  | missed reach stale => exact depth_setStore s.taken (layers_of_reach reach).1
  | noted reach present number round perm => exact depth_setStore s.taken (layers_of_reach reach).1

/-- A stage takes more off the agenda than it puts on it, but for what a move costs. -/
theorem load_next (behave : Behaviour σ ε) (s : Stage σ ε) :
    load s.world.depth (s.next behave).agenda + 1 ≤
      load s.world.depth s.world.agenda + s.cost behave s.world.depth := by
  have before : load s.world.depth s.world.agenda =
      weight s.world.depth s.task + load s.world.depth s.taken.agenda := by
    rw [load_perm s.agenda_perm]
    rfl
  -- A task weighs more than the tasks that it leaves behind, unless a client moves.
  have pos := weight_pos s.world.depth s.task
  have step := fired behave s
  generalize s.next behave = w' at step ⊢
  generalize task_eq : s.task = task at step
  cases step with
  | @told task client c signal agenda news present perm =>
      rw [← task_eq, news?_taken] at news
      have cost_eq : s.cost behave s.world.depth =
          World.cost s.world.depth (behave c.state signal).move := by
        simp [Stage.cost, news]
      have added := load_chores_le s.world.depth s.moment client (c.serial + 1)
        (behave c.state signal).move
      rw [load_perm perm, load_append]
      omega
  | emptied present number round undecided =>
      show load s.world.depth s.taken.agenda + 1 ≤ _
      omega
  | idle silent ticket stale =>
      show load s.world.depth s.taken.agenda + 1 ≤ _
      omega
  | @asleep task t store delay below ending agenda reach perm =>
      subst task_eq
      have less : below + 2 < weight s.world.depth s.task :=
        (layers_of_reach reach).2.2 delay below ending rfl
      have after : load s.world.depth agenda = below + 2 + load s.world.depth s.taken.agenda := by
        rw [load_perm perm]
        rfl
      show load s.world.depth agenda + 1 ≤ _
      omega
  | @stalled task t store reach =>
      show load s.world.depth (s.taken.setStore t.side store).agenda + 1 ≤ _
      rw [agenda_setStore]
      omega
  | @missed task t store answer reach stale =>
      show load s.world.depth (s.taken.setStore t.side store).agenda + 1 ≤ _
      rw [agenda_setStore]
      omega
  | @noted task t store answer c r agenda reach present number round perm =>
      subst task_eq
      have heavy : 2 ≤ weight s.world.depth s.task := (layers_of_reach reach).2.1
      have look : load s.world.depth
          (if r.wakes answer then [(s.moment, Task.look t.client t.serial)] else []) ≤ 1 := by
        split <;> simp [load, weight]
      show load s.world.depth agenda + 1 ≤ _
      rw [load_perm perm, load_append]
      omega

/-! ## Whole schedules -/

variable {behave : Behaviour σ ε} {source target : Store} {states : List σ}
  {log : List (Stage σ ε)} {w : World σ ε}

namespace Schedule

theorem depth_eq {start : World σ ε} (h : Schedule behave start log w) : w.depth = start.depth := by
  induction h with
  | refl => rfl
  | snoc s _ ih => rw [depth_next, ih]

/-- The number of stages, with what is still on the agenda, is bounded by what was on it at the
start and by what the moves of the clients cost. -/
theorem length_add_load_le {start : World σ ε} (h : Schedule behave start log w) :
    log.length + load start.depth w.agenda ≤
      load start.depth start.agenda + (log.map (Stage.cost behave start.depth)).sum := by
  induction h with
  | refl => simp
  | snoc s earlier ih =>
      have step := load_next behave s
      rw [earlier.depth_eq] at step
      simp only [List.length_append, List.map_append, List.sum_append, List.length_singleton,
        List.map_cons, List.map_nil, List.sum_cons, List.sum_nil]
      omega

end Schedule

/-- The cost of the moves that a client makes in a play. -/
def spent (behave : Behaviour σ ε) (depth : Depth) (history : List (σ × Signal)) : Nat :=
  (history.map fun h => cost depth (behave h.1 h.2).move).sum

/-- The cost of the moves of all clients is the sum over the clients of the cost of their moves. -/
theorem sum_cost_eq {depth : Depth} {n : Nat} {log : List (Stage σ ε)}
    (bound : ∀ s ∈ log, ∀ t, s.told? = some t → t.client < n) :
    (log.map (Stage.cost behave depth)).sum =
      ∑ i ∈ Finset.range n, spent behave depth (heard i log) := by
  induction log with
  | nil => simp [spent, heard]
  | cons s log ih =>
      have cons : ∀ i, spent behave depth (heard i (s :: log)) =
          spent behave depth (s.tells i).toList + spent behave depth (heard i log) := by
        intro i
        unfold heard
        cases tells : s.tells i <;> simp [spent, tells]
      have one : s.cost behave depth =
          ∑ i ∈ Finset.range n, spent behave depth (s.tells i).toList := by
        unfold Stage.cost Stage.tells
        cases told : s.told? with
        | none => simp [spent]
        | some t =>
            have each : ∀ i, spent behave depth
                ((Option.bind (some t) fun t =>
                  if t.client = i then some (t.state, t.signal) else none).toList) =
                if t.client = i then cost depth (behave t.state t.signal).move else 0 := by
              intro i
              by_cases own : t.client = i <;> simp [spent, own]
            rw [Finset.sum_congr rfl fun i _ => each i, Finset.sum_ite_eq,
              if_pos (Finset.mem_range.2 (bound s (by simp) t told))]
      rw [List.map_cons, List.sum_cons, ih fun s' mem => bound s' (List.mem_cons_of_mem _ mem), one,
        ← Finset.sum_add_distrib]
      exact Finset.sum_congr rfl fun i _ => (cons i).symm

/-- A budget covers the moves of a client in every phase, whatever it is told. -/
def Affordable (behave : Behaviour σ ε) (depth : Depth) (budget : σ → Phase → Nat) : Prop :=
  ∀ s p signal, p.Admits signal →
    cost depth (behave s signal).move + budget (behave s signal).state (.ofMove (behave s signal).move)
      ≤ budget s p

theorem Play.spent_le {depth : Depth} {budget : σ → Phase → Nat}
    (afford : Affordable behave depth budget) {start s : σ} {history : List (σ × Signal)} {p : Phase}
    (play : Play behave start history s p) :
    spent behave depth history + budget s p ≤ budget start .fresh := by
  induction play with
  | fresh => simp [spent]
  | @told history s p signal earlier admits ih =>
      have step := afford s p signal admits
      unfold spent at ih ⊢
      rw [List.map_append, List.sum_append, List.map_singleton, List.sum_singleton]
      dsimp only
      omega

/-- What is on the agenda at the start: one task for each client. -/
theorem load_initial (depth : Depth) (source target : Store) (states : List σ) :
    load depth (initial source target states : World σ ε).agenda = states.length := by
  have each : ∀ i ∈ List.range states.length,
      ((fun e : Nat × Task => weight depth e.2) ∘ fun i => (0, Task.begin i)) i = 1 := fun _ _ => rfl
  unfold load initial
  rw [List.map_map, List.map_congr_left each]
  simp

/-- The most stages that clients with a budget allow. -/
def allowance (budget : σ → Phase → Nat) (states : List σ) : Nat :=
  states.length + ∑ i ∈ Finset.range states.length, (states[i]?).elim 0 fun s => budget s .fresh

/-- Whatever the order, the stages stay within the allowance. -/
theorem Schedule.length_add_load_le_allowance
    (h : Schedule behave (initial source target states) log w) {budget : σ → Phase → Nat}
    (afford : Affordable behave (initial source target states : World σ ε).depth budget) :
    log.length + load (initial source target states : World σ ε).depth w.agenda ≤
      allowance budget states := by
  have bound := h.length_add_load_le
  rw [load_initial, sum_cost_eq fun s mem t told => h.client_lt_of_told mem told] at bound
  refine Nat.le_trans bound (Nat.add_le_add_left (Finset.sum_le_sum fun i mem => ?_) _)
  have bound' := Finset.mem_range.1 mem
  have present : states[i]? = some states[i] := List.getElem?_eq_getElem bound'
  obtain ⟨c, p, -, play, -⟩ := h.plays present
  rw [present]
  exact Nat.le_trans (Nat.le_add_right _ _) (play.spent_le afford)

/-- As long as some client has not stopped, there is something to fire. -/
theorem Schedule.agenda_ne_nil (h : Schedule behave (initial source target states) log w)
    (unfinished : w.isOver = false) : w.agenda ≠ [] := by
  intro empty
  have none : ∀ task, w.pending task = 0 := by simp [pending, empty]
  obtain ⟨c, mem, running⟩ := List.all_eq_false.1 unfinished
  obtain ⟨i, present⟩ := List.getElem?_of_mem mem
  obtain ⟨-, p, -, -, stands⟩ := h.stands present
  cases p with
  | fresh =>
      have := stands.begins
      rw [none] at this
      cases this
  | fetching keys timeout =>
      have := stands.awaited keys timeout rfl
      rw [none] at this
      cases this
  | resting =>
      have := stands.rests
      rw [none] at this
      cases this
  | stopped => exact running (stands.stopped.2 rfl)

/-- With fuel for what its clients are allowed, `World.run` goes on until all of them have
stopped. -/
theorem isOver_run {budget : σ → Phase → Nat}
    (afford : Affordable behave (initial source target states : World σ ε).depth budget)
    {fuel : Nat} (enough : allowance budget states ≤ fuel) :
    (run behave fuel (initial source target states)).isOver = true := by
  obtain ⟨log, schedule, -, ending⟩ :=
    exists_prompt_schedule behave fuel (initial source target states) (.initial source target states)
  -- A schedule that has used up the fuel has nothing left on its agenda, although it is busy.
  by_contra unfinished
  have unfinished := Bool.eq_false_iff.2 unfinished
  have busy := schedule.agenda_ne_nil unfinished
  rcases ending with full | finished | empty
  · have bound := schedule.length_add_load_le_allowance afford
    have nothing : load (initial source target states : World σ ε).depth
        (run behave fuel (initial source target states)).agenda = 0 := by omega
    exact busy (eq_nil_of_load_eq_zero nothing)
  · rw [unfinished] at finished
    cases finished
  · exact busy empty

/-- With more fuel than it takes until every client has stopped nothing more happens. -/
theorem run_eq_of_isOver {fuel fuel' : Nat} (more : fuel ≤ fuel') {w : World σ ε}
    (finished : (run behave fuel w).isOver = true) : run behave fuel' w = run behave fuel w := by
  induction fuel generalizing fuel' w with
  | zero =>
      have ended : w.isOver = true := finished
      cases fuel' with
      | zero => rfl
      | succ fuel' =>
          show run behave (fuel' + 1) w = w
          rw [run]
          exact if_pos ended
  | succ fuel ih =>
      obtain ⟨fuel', rfl⟩ := Nat.exists_eq_add_of_le' (Nat.lt_of_lt_of_le (Nat.succ_pos fuel) more)
      rw [run] at finished ⊢
      rw [run]
      split
      · rfl
      · rename_i busy
        rw [if_neg busy] at finished
        split
        · rfl
        · rename_i due task rest first
          rw [first] at finished
          exact ih (Nat.le_of_succ_le_succ more) finished

/-! ## Prompt schedules in any order -/

theorem exists_first {agenda : List (Nat × Task)} (busy : agenda ≠ []) :
    ∃ before e after, agenda = before ++ e :: after ∧ ∀ e' ∈ agenda, e.1 ≤ e'.1 := by
  induction agenda with
  | nil => exact absurd rfl busy
  | cons e rest ih =>
      by_cases last : rest = []
      · exact ⟨[], e, rest, rfl, by simp [last]⟩
      · obtain ⟨before, e', after, rfl, first⟩ := ih last
        by_cases early : e.1 ≤ e'.1
        · refine ⟨[], e, _, rfl, fun x mem => ?_⟩
          rcases List.mem_cons.1 mem with rfl | mem
          · exact Nat.le_refl _
          · exact Nat.le_trans early (first x mem)
        · refine ⟨e :: before, e', after, rfl, fun x mem => ?_⟩
          rcases List.mem_cons.1 mem with rfl | mem
          · omega
          · exact first x mem

/-- In a prompt schedule nothing on the agenda lies in the past. -/
theorem Schedule.clock (h : Schedule behave (initial source target states) log w)
    (prompt : ∀ s ∈ log, s.Prompt) : ∀ e ∈ w.agenda, w.now ≤ e.1 := by
  cases h with
  | refl => exact fun e _ => Nat.zero_le _
  | snoc s _ =>
      obtain ⟨added, perm, new⟩ := agenda_next behave s
      exact clock_next (prompt s (by simp)) (now_next behave s) perm fun e mem => (new e mem).1

/-- A prompt schedule can be carried on as long as some client has not stopped. -/
theorem Schedule.exists_stage (h : Schedule behave (initial source target states) log w)
    (prompt : ∀ s ∈ log, s.Prompt) (unfinished : w.isOver = false) :
    ∃ s : Stage σ ε, s.world = w ∧ s.Prompt := by
  obtain ⟨before, ⟨due, task⟩, after, split, first⟩ := exists_first (h.agenda_ne_nil unfinished)
  let s : Stage σ ε := {
    world := w, before, due, task, after, moment := due
    agenda_eq := split, unfinished, ripe := Nat.le_refl _
    onward := h.clock prompt (due, task) (by simp [split]) }
  exact ⟨s, rfl, rfl, first⟩

/-- A prompt schedule comes to an end, however it is carried on. -/
theorem Schedule.exists_over {budget : σ → Phase → Nat}
    (h : Schedule behave (initial source target states) log w) (prompt : ∀ s ∈ log, s.Prompt)
    (afford : Affordable behave (initial source target states : World σ ε).depth budget) :
    ∃ more w', Schedule behave (initial source target states) (log ++ more) w' ∧
      (∀ s ∈ log ++ more, s.Prompt) ∧ w'.isOver = true := by
  generalize left : allowance budget states - log.length = n
  induction n generalizing log w with
  | zero =>
      cases unfinished : w.isOver with
      | true => exact ⟨[], w, by rwa [List.append_nil], by rwa [List.append_nil], unfinished⟩
      | false =>
          have bound := h.length_add_load_le_allowance afford
          have nothing : load (initial source target states : World σ ε).depth w.agenda = 0 := by
            omega
          exact absurd (eq_nil_of_load_eq_zero nothing) (h.agenda_ne_nil unfinished)
  | succ n ih =>
      cases unfinished : w.isOver with
      | true => exact ⟨[], w, by rwa [List.append_nil], by rwa [List.append_nil], unfinished⟩
      | false =>
          obtain ⟨s, rfl, next⟩ := h.exists_stage prompt unfinished
          have prompt' : ∀ s' ∈ log ++ [s], s'.Prompt := by
            intro s' mem
            rcases List.mem_append.1 mem with mem | mem
            · exact prompt s' mem
            · rw [List.mem_singleton.1 mem]
              exact next
          obtain ⟨more, w', schedule, prompt'', finished⟩ :=
            ih (.snoc s h) prompt' (by rw [List.length_append]; simp; omega)
          rw [List.append_assoc] at schedule prompt''
          exact ⟨_, w', schedule, prompt'', finished⟩

/-- So does one over stores that deal fates by rules. -/
theorem Fated.exists_over {rules : Side → Rule} {budget : σ → Phase → Nat}
    (h : Fated behave rules source target states log w)
    (afford : Affordable behave (initial source target states : World σ ε).depth budget) :
    ∃ more w', Fated behave rules source target states (log ++ more) w' ∧ w'.isOver = true := by
  obtain ⟨more, w', schedule, prompt, finished⟩ := h.schedule.exists_over h.prompt afford
  exact ⟨more, w', ⟨schedule, prompt, h.source, h.target, h.timely⟩, finished⟩

end World

end ReplicaDiff
