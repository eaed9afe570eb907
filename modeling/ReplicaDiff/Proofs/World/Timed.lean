/-
# ReplicaDiff.Proofs.World.Timed — rounds in prompt schedules

When the stores deal fates by rules and every task is fired as soon as it is due,
each round under way stands where the fates and the clock have it stand
(`Timed`).  `timed_next` carries this through one stage and `Fated.timed` through
a schedule; tasks that are due together may come in any order.

A consequence is what a client can be told about its round: `Timed.settled` says
that the round has been settled by what its fetches have come to, all of which
have been called.
-/
import ReplicaDiff.Proofs.World.Fetching

namespace ReplicaDiff.World

set_option autoImplicit false

open ReplicaDiff.Batch

variable {σ ε : Type}

/-- The fetch that a stage calls. -/
def Stage.call? (s : Stage σ ε) : Option Ticket :=
  match s.task with
  | .enter t => some t
  | _ => none

/-- The fetches that a schedule calls, in order. -/
def callsIn (log : List (Stage σ ε)) : List Ticket := log.filterMap Stage.call?

/-- When a client was last told something. -/
def toldAt (client : Nat) (log : List (Stage σ ε)) : Nat :=
  log.foldl (fun time s => if (s.tells client).isSome then s.moment else time) 0

/-- What is on the agenda about one round. -/
def business (w : World σ ε) (client serial : Nat) : List (Nat × Task) :=
  w.agenda.filter fun e => e.2.round? = some (client, serial)

/-- Every round under way stands where the fates and the clock have it stand. -/
structure Timed (rules : Side → Rule) (log : List (Stage σ ε)) (w : World σ ε) : Prop where
  clock : ∀ e ∈ w.agenda, w.now ≤ e.1
  obeys : ∀ side, (w.store side).Obeys (rules side) (callsFor (callsIn log) side)
    (callsOf (callsIn log) side)
  resumes : ∀ e ∈ w.agenda, ∀ t below ending, e.2 = .resume t below ending →
    ∃ answer, ending = Fate.endingOf answer
  enters : ∀ e ∈ w.agenda, ∀ t, e.2 = .enter t → (w.underWay? t.client t.serial).isSome
  serials : ∀ i c, w.clients[i]? = some c → ∀ e ∈ w.agenda, ∀ n,
    e.2.round? = some (i, n) → n ≤ c.serial
  calls : ∀ i c, w.clients[i]? = some c → ∀ t ∈ callsIn log, t.client = i → t.serial ≤ c.serial
  rounds : ∀ i c r, w.clients[i]? = some c → c.round = some r →
    ∃ keys p, Fetching rules i c.serial (toldAt i log) keys r p (callsIn log) w.now
      (w.business i c.serial)

theorem callsIn_snoc (log : List (Stage σ ε)) (s : Stage σ ε) :
    callsIn (log ++ [s]) = callsIn log ++ s.call?.toList := by
  unfold callsIn
  rw [List.filterMap_append]
  cases h : s.call? <;> simp [h]

theorem toldAt_snoc (client : Nat) (log : List (Stage σ ε)) (s : Stage σ ε) :
    toldAt client (log ++ [s]) = if (s.tells client).isSome then s.moment else toldAt client log := by
  simp [toldAt]

theorem toldAt_eq_zero {client : Nat} {log : List (Stage σ ε)}
    (early : ∀ s ∈ log, (s.tells client).isSome → s.moment = 0) : toldAt client log = 0 := by
  unfold toldAt
  induction log with
  | nil => rfl
  | cons s log ih =>
      have first : (if (s.tells client).isSome then s.moment else 0) = 0 := by
        split
        · exact early s List.mem_cons_self ‹_›
        · rfl
      rw [List.foldl_cons, first]
      exact ih fun s' mem => early s' (List.mem_cons_of_mem _ mem)

theorem call?_of_ticket_none {s : Stage σ ε} (ticket : s.task.ticket? = none) : s.call? = none := by
  unfold Stage.call?
  split
  · rename_i t task
    rw [task] at ticket
    cases ticket
  · rfl

theorem call?_eq_some_iff {s : Stage σ ε} {t : Ticket} : s.call? = some t ↔ s.task = .enter t := by
  unfold Stage.call?
  cases s.task <;> simp

theorem client_of_round {task : Task} {i n : Nat} (round : task.round? = some (i, n)) :
    task.client = i := by
  cases task <;> simp_all [Task.round?, Task.client]

/-! ## The tasks of one round -/

/-- The task of a stage is all that the stage takes off the agenda. -/
theorem business_of_own {s : Stage σ ε} {i n : Nat} (round : s.task.round? = some (i, n)) :
    (s.world.business i n).Perm ((s.due, s.task) :: s.taken.business i n) := by
  have := s.agenda_perm.filter fun e => e.2.round? = some (i, n)
  rwa [List.filter_cons_of_pos (by simp [round])] at this

theorem business_of_other {s : Stage σ ε} {i n : Nat} (round : s.task.round? ≠ some (i, n)) :
    (s.taken.business i n).Perm (s.world.business i n) := by
  have := (s.agenda_perm.filter fun e => e.2.round? = some (i, n)).symm
  rwa [List.filter_cons_of_neg (by simp [round])] at this

theorem business_append {w w' : World σ ε} {added : List (Nat × Task)}
    (perm : w'.agenda.Perm (added ++ w.agenda)) (i n : Nat) :
    (w'.business i n).Perm
      ((added.filter fun e => e.2.round? = some (i, n)) ++ w.business i n) := by
  have := perm.filter fun e => e.2.round? = some (i, n)
  rwa [List.filter_append] at this

theorem business_of_new {w w' : World σ ε} {added : List (Nat × Task)}
    (perm : w'.agenda.Perm (added ++ w.agenda)) {i n : Nat}
    (others : ∀ e ∈ added, e.2.round? ≠ some (i, n)) : (w'.business i n).Perm (w.business i n) := by
  have := business_append perm i n
  rwa [List.filter_eq_nil_iff.2 fun e mem => by simpa using others e mem, List.nil_append] at this

/-- Nothing happens between a change to an inbox and looking into it. -/
theorem Fetching.still {rules : Side → Rule} {s : Stage σ ε} {i n opened : Nat} {keys : List String}
    {r : Round} {p : Places} {calls : List Ticket}
    (h : Fetching rules i n opened keys r p calls s.world.now (s.world.business i n))
    (prompt : s.Prompt) (notified : r.notified = true) : s.moment = s.world.now := by
  have looks := h.looks
  rw [notified] at looks
  have look := (List.mem_filter.1 (looks.mem_iff.2 List.mem_cons_self)).1
  have first := prompt.2 _ (List.mem_filter.1 look).1
  have due := prompt.1
  have onward := s.onward
  dsimp only at first
  omega

/-- A round that the stage does not touch stands where it stood. -/
theorem Fetching.untouched {rules : Side → Rule} {log : List (Stage σ ε)} {s : Stage σ ε}
    {i n opened : Nat} {keys : List String} {r : Round} {p : Places}
    (h : Fetching rules i n opened keys r p (callsIn log) s.world.now (s.world.business i n))
    (prompt : s.Prompt) (other : s.task.round? ≠ some (i, n)) {w' : World σ ε}
    (now : w'.now = s.moment) {added : List (Nat × Task)}
    (perm : w'.agenda.Perm (added ++ s.taken.agenda))
    (others : ∀ e ∈ added, e.2.round? ≠ some (i, n)) :
    Fetching rules i n opened keys r p (callsIn (log ++ [s])) w'.now (w'.business i n) := by
  rw [callsIn_snoc, now]
  refine h.frame ((business_of_new perm others).trans (business_of_other other)) s.onward
    (h.still prompt) fun t mem own => other ?_
  rw [call?_eq_some_iff.1 (Option.mem_toList.1 mem)]
  exact congrArg some (Prod.ext own.1 own.2)

/-! ## Calls -/

theorem callsFor_snoc (calls : List Ticket) (t : Ticket) (side : Side) (key : String) :
    callsFor (calls ++ [t]) side key =
      callsFor calls side key + if t.side = side ∧ t.key = key then 1 else 0 := by
  simp [callsFor, List.countP_append, List.countP_cons]

theorem callsOf_snoc (calls : List Ticket) (t : Ticket) (side : Side) :
    callsOf (calls ++ [t]) side = callsOf calls side + if t.side = side then 1 else 0 := by
  simp [callsOf, List.countP_append, List.countP_cons]

/-- Carrying on with a fetch either calls it, and it meets its fate, or ends it with the answer
for which it has slept. -/
theorem Timed.reach {rules : Side → Rule} {log : List (Stage σ ε)} {s : Stage σ ε}
    (h : Timed rules log s.world) {t : Ticket} {store : Store} {halt : Store.Halt}
    (reach : s.taken.reach? s.task = some (t, store, halt)) :
    (∀ side, ((s.taken.setStore t.side store).store side).Obeys (rules side)
      (callsFor (callsIn (log ++ [s])) side) (callsOf (callsIn (log ++ [s])) side)) ∧
    ((s.task = .enter t ∧ s.call? = some t ∧ halt = (fateOf rules (callsIn log) t).halt) ∨
      ∃ below answer, s.task = .resume t below (Fate.endingOf answer) ∧ s.call? = none ∧
        halt = .ended answer) := by
  have same : ∀ side, s.taken.store side = s.world.store side := by
    intro side
    cases side <;> rfl
  rw [callsIn_snoc]
  cases task : s.task with
  | enter t' =>
      rw [task] at reach
      simp only [reach?, Option.some.injEq, Prod.mk.injEq] at reach
      obtain ⟨rfl, called⟩ := reach
      have call : s.call? = some t' := call?_eq_some_iff.2 task
      obtain ⟨fate, obeys⟩ := (h.obeys t'.side).call t'.key
      rw [← same, called] at fate obeys
      refine ⟨fun side => ?_, .inl ⟨rfl, call, fate⟩⟩
      rw [call, Option.toList_some, store_setStore, callsOf_snoc]
      have each : callsFor (callsIn log ++ [t']) side = fun key =>
          callsFor (callsIn log) side key + if t'.side = side ∧ t'.key = key then 1 else 0 :=
        funext fun key => callsFor_snoc _ _ _ _
      rw [each]
      by_cases own : t'.side = side
      · subst own
        simpa using obeys
      · simpa [own, same] using h.obeys side
  | resume t' below ending =>
      obtain ⟨answer, rfl⟩ := h.resumes _ s.mem_agenda t' below ending task
      rw [task] at reach
      simp only [reach?, Store.Obeys.resume, Option.some.injEq, Prod.mk.injEq] at reach
      obtain ⟨rfl, rfl, rfl⟩ := reach
      have call : s.call? = none := by simp [Stage.call?, task]
      refine ⟨fun side => ?_, .inr ⟨below, answer, rfl, call, rfl⟩⟩
      rw [call, Option.toList_none, List.append_nil, store_setStore]
      by_cases own : t'.side = side
      · subst own
        simpa [same] using h.obeys t'.side
      · simpa [own, same] using h.obeys side
  | begin client => rw [task] at reach; cases reach
  | look client serial => rw [task] at reach; cases reach
  | deadline client serial => rw [task] at reach; cases reach
  | rested client => rw [task] at reach; cases reach

/-! ## One stage -/

/-- The clock and the agenda after a stage that puts on it what is due no earlier. -/
theorem clock_next {s : Stage σ ε} (prompt : s.Prompt) {w' : World σ ε} (now : w'.now = s.moment)
    {added : List (Nat × Task)} (perm : w'.agenda.Perm (added ++ s.taken.agenda))
    (later : ∀ e ∈ added, s.moment ≤ e.1) : ∀ e ∈ w'.agenda, w'.now ≤ e.1 := by
  intro e mem
  rw [now]
  rcases List.mem_append.1 (perm.mem_iff.1 mem) with mem | mem
  · exact later e mem
  · rw [prompt.1]
    exact prompt.2 e (s.mem_of_mem_rest mem)

/-- The number of the last round of a client, and whether it is under way. -/
def lastRound (w : World σ ε) (i : Nat) : Option (Nat × Bool) :=
  (w.clients[i]?).map fun c => (c.serial, c.round.isSome)

theorem underWay?_isSome_iff (w : World σ ε) (i n : Nat) :
    (w.underWay? i n).isSome ↔ w.lastRound i = some (n, true) := by
  unfold underWay? lastRound
  cases w.clients[i]? with
  | none => simp
  | some c =>
      by_cases number : c.serial = n
      · simp [number]
      · simp [number]

theorem serial_of_lastRound {w w' : World σ ε} {i : Nat} {c' : Client σ}
    (same : w'.lastRound i = w.lastRound i) (present : w'.clients[i]? = some c') :
    ∃ c, w.clients[i]? = some c ∧ c.serial = c'.serial := by
  unfold lastRound at same
  rw [present] at same
  obtain ⟨c, present', eq⟩ := Option.map_eq_some_iff.1 same.symm
  exact ⟨c, present', congrArg Prod.fst eq⟩

/-- What a stage that tells nobody anything leaves behind. -/
structure Untold (s : Stage σ ε) (w' : World σ ε) (added : List (Nat × Task)) : Prop where
  silent : s.taken.news? s.task = none
  now : w'.now = s.moment
  perm : w'.agenda.Perm (added ++ s.taken.agenda)
  later : ∀ e ∈ added, s.moment ≤ e.1
  about : ∀ e ∈ added, e.2.round? = s.task.round?
  quiet : ∀ e ∈ added, ∀ t, e.2 ≠ .enter t
  last : ∀ i, w'.lastRound i = s.world.lastRound i
  others : ∀ i c', w'.clients[i]? = some c' → s.task.round? ≠ some (i, c'.serial) →
    s.world.clients[i]? = some c'

/-- A stage that tells nobody anything touches at most the round that its task is about. -/
theorem Untold.timed {rules : Side → Rule} {log : List (Stage σ ε)} {s : Stage σ ε}
    {w' : World σ ε} {added : List (Nat × Task)} (u : Untold s w' added)
    (h : Timed rules log s.world) (prompt : s.Prompt) {w₀ : World σ ε}
    (source : w'.source = w₀.source) (target : w'.target = w₀.target)
    (obeys : ∀ side, (w₀.store side).Obeys (rules side) (callsFor (callsIn (log ++ [s])) side)
      (callsOf (callsIn (log ++ [s])) side))
    (resumes : ∀ e ∈ added, ∀ t below ending, e.2 = .resume t below ending →
      ∃ answer, ending = Fate.endingOf answer)
    (own : ∀ i c' r', w'.clients[i]? = some c' → c'.round = some r' →
      s.task.round? = some (i, c'.serial) → ∃ keys p,
        Fetching rules i c'.serial (toldAt i log) keys r' p (callsIn (log ++ [s])) s.moment
          (w'.business i c'.serial)) :
    Timed rules (log ++ [s]) w' := by
  have before : ∀ {i : Nat} {c' : Client σ}, w'.clients[i]? = some c' →
      ∃ c, s.world.clients[i]? = some c ∧ c.serial = c'.serial :=
    fun {i} _ present => serial_of_lastRound (u.last i) present
  have onAgenda := s.mem_agenda
  have rest : ∀ {e : Nat × Task}, e ∈ w'.agenda → e ∈ added ∨ e ∈ s.world.agenda := fun mem =>
    (List.mem_append.1 (u.perm.mem_iff.1 mem)).imp id s.mem_of_mem_rest
  constructor
  case clock =>
    exact clock_next prompt u.now u.perm u.later
  case obeys =>
    intro side
    rw [store_congr source target]
    exact obeys side
  case resumes =>
    intro e mem
    rcases rest mem with mem | mem
    · exact resumes e mem
    · exact h.resumes e mem
  case enters =>
    intro e mem t task
    rcases rest mem with mem | mem
    · exact absurd task (u.quiet e mem t)
    · rw [underWay?_isSome_iff, u.last, ← underWay?_isSome_iff]
      exact h.enters e mem t task
  case serials =>
    intro i c' present e mem n round
    obtain ⟨c, present', serial⟩ := before present
    rw [← serial]
    rcases rest mem with mem | mem
    · exact h.serials i c present' _ onAgenda n ((u.about e mem).symm.trans round)
    · exact h.serials i c present' e mem n round
  case calls =>
    intro i c' present t mem own
    obtain ⟨c, present', serial⟩ := before present
    rw [← serial]
    rw [callsIn_snoc] at mem
    rcases List.mem_append.1 mem with mem | mem
    · exact h.calls i c present' t mem own
    · refine h.serials i c present' _ onAgenda t.serial ?_
      rw [call?_eq_some_iff.1 (Option.mem_toList.1 mem)]
      exact congrArg some (Prod.ext own rfl)
  case rounds =>
    intro i c' r' present round
    have told : toldAt i (log ++ [s]) = toldAt i log := by
      rw [toldAt_snoc, tells_of_silent u.silent]
      rfl
    rw [told]
    by_cases about : s.task.round? = some (i, c'.serial)
    · rw [u.now]
      exact own i c' r' present round about
    · obtain ⟨keys, p, fetching⟩ := h.rounds i c' r' (u.others i c' present about) round
      refine ⟨keys, p, fetching.untouched prompt about u.now u.perm fun e mem eq => ?_⟩
      exact about ((u.about e mem).symm.trans eq)

theorem lastRound_setStore (w : World σ ε) (side : Side) (store : Store) (i : Nat) :
    (w.setStore side store).lastRound i = w.lastRound i := by
  unfold lastRound
  rw [clients_setStore]

/-- Replacing the round under way of a client by another keeps the number of its last round. -/
theorem lastRound_set {w : World σ ε} {i : Nat} {c : Client σ} {r r' : Round}
    (present : w.clients[i]? = some c) (round : c.round = some r) (j : Nat) :
    ((w.clients.set i { c with round := some r' })[j]?).map
      (fun c => (c.serial, c.round.isSome)) = w.lastRound j := by
  unfold lastRound
  rw [List.getElem?_set]
  by_cases same : i = j
  · subst same
    have bound : i < w.clients.length := (List.getElem?_eq_some_iff.1 present).1
    rw [if_pos rfl, if_pos bound, present]
    simp [round]
  · simp [same]

/-- Where the round that a task is about is replaced by another, the other clients are as they
were. -/
theorem others_of_set {s : Stage σ ε} {i j : Nat} {c c' : Client σ}
    (about : s.task.round? = some (i, c.serial))
    (present : (s.world.clients.set i c)[j]? = some c')
    (other : s.task.round? ≠ some (j, c'.serial)) : s.world.clients[j]? = some c' := by
  rcases of_getElem?_set present with ⟨rfl, rfl⟩ | ⟨-, same⟩
  · exact absurd about other
  · exact same

theorem round?_of_ticket {task : Task} {t : Ticket} (ticket : task.ticket? = some t) :
    task.round? = some (t.client, t.serial) := by
  cases task <;> simp_all [Task.ticket?, Task.round?]

/-- Carrying on with a fetch that does not end now. -/
theorem untold_of_ticket {s : Stage σ ε} {t : Ticket} (ticket : s.task.ticket? = some t)
    (store : Store) {agenda added : List (Nat × Task)} (perm : agenda.Perm (added ++ s.taken.agenda))
    (later : ∀ e ∈ added, s.moment ≤ e.1)
    (about : ∀ e ∈ added, ∃ below ending, e.2 = .resume t below ending) :
    Untold s { s.taken.setStore t.side store with now := s.moment, agenda } added where
  silent := silent_of_ticket ticket
  now := rfl
  perm := perm
  later := later
  about e mem := by
    obtain ⟨below, ending, eq⟩ := about e mem
    rw [eq, round?_of_ticket ticket]
    rfl
  quiet e mem t' eq := by
    obtain ⟨below, ending, eq'⟩ := about e mem
    rw [eq'] at eq
    cases eq
  last i := lastRound_setStore s.taken t.side store i
  others i c' present _ := by
    have same := clients_setStore s.taken t.side store
    dsimp only at present
    rwa [same] at present

/-- A fetch that is called and goes to sleep, or will never end, is on its way from now on. -/
theorem Timed.called {rules : Side → Rule} {log : List (Stage σ ε)} {s : Stage σ ε}
    (h : Timed rules log s.world) (prompt : s.Prompt) {t : Ticket} (task : s.task = .enter t)
    {i : Nat} {c : Client σ} {r : Round} (present : s.world.clients[i]? = some c)
    (round : c.round = some r) (own : s.task.round? = some (i, c.serial)) :
    ∃ keys, ∃ p : Places, toldAt i log = s.moment ∧
      Fetching rules i c.serial (toldAt i log) keys r
        (p.put t.side t.slot (.ofFate (fateOf rules (callsIn log) t))) (callsIn (log ++ [s])) s.moment
        ((Progress.ofFate (fateOf rules (callsIn log) t)).errand (toldAt i log) t ++
          s.taken.business i c.serial) := by
  obtain ⟨keys, p, fetching⟩ := h.rounds i c r present round
  have perm := business_of_own own
  rw [task] at perm
  obtain ⟨opened, -, called⟩ := fetching.call perm prompt.1 s.onward (fetching.still prompt)
  have call : s.call? = some t := call?_eq_some_iff.2 task
  rw [callsIn_snoc, call, Option.toList_some]
  exact ⟨keys, p, opened.symm, called⟩

/-- A stage that carries on with a fetch keeps every round where the fates and the clock have it. -/
theorem Timed.next_of_asleep {rules : Side → Rule} {log : List (Stage σ ε)} {s : Stage σ ε}
    (h : Timed rules log s.world) (prompt : s.Prompt) {t : Ticket} {store : Store}
    {delay below : Nat} {ending : Store.Ending} {agenda : List (Nat × Task)}
    (reach : s.taken.reach? s.task = some (t, store, .asleep delay below ending))
    (perm : agenda.Perm ((s.moment + delay, .resume t below ending) :: s.taken.agenda)) :
    Timed rules (log ++ [s]) { s.taken.setStore t.side store with now := s.moment, agenda } := by
  obtain ⟨obeys, ⟨task, -, halt⟩ | ⟨_, _, _, _, eq⟩⟩ := h.reach reach
  · obtain ⟨rfl, answer, rfl, fate⟩ := Fate.eq_ends_of_halt_asleep halt.symm
    have untold : Untold s { s.taken.setStore t.side store with now := s.moment, agenda }
        [(s.moment + delay, .resume t 0 (Fate.endingOf answer))] := by
      refine untold_of_ticket (ticket_of_reach reach) store perm ?_ ?_
      · intro e mem
        rw [List.mem_singleton] at mem
        rw [mem]
        exact Nat.le_add_right _ _
      · intro e mem
        rw [List.mem_singleton] at mem
        exact ⟨0, _, congrArg Prod.snd mem⟩
    refine untold.timed h prompt rfl rfl obeys ?_ ?_
    · intro e mem t' below' ending' eq
      rw [List.mem_singleton] at mem
      rw [mem] at eq
      cases eq
      exact ⟨answer, rfl⟩
    · intro i c' r' present round own
      dsimp only at present
      rw [clients_setStore] at present
      obtain ⟨keys, p, opened, called⟩ := h.called prompt task present round own
      rw [fate] at called
      refine ⟨keys, _, called.of_perm ?_⟩
      refine (business_append untold.perm i c'.serial).trans (.of_eq ?_)
      have about : Task.round? (.resume t 0 (Fate.endingOf answer)) = some (i, c'.serial) := by
        rw [← own, round?_of_ticket (ticket_of_reach reach)]
        rfl
      simp [about, Progress.ofFate, Progress.errand, opened]
  · cases eq

theorem Timed.next_of_stalled {rules : Side → Rule} {log : List (Stage σ ε)} {s : Stage σ ε}
    (h : Timed rules log s.world) (prompt : s.Prompt) {t : Ticket} {store : Store}
    (reach : s.taken.reach? s.task = some (t, store, .stalled)) :
    Timed rules (log ++ [s]) { s.taken.setStore t.side store with now := s.moment } := by
  obtain ⟨obeys, ⟨task, -, halt⟩ | ⟨_, _, _, _, eq⟩⟩ := h.reach reach
  · have fate := Fate.eq_never_of_halt halt.symm
    have untold : Untold s { s.taken.setStore t.side store with now := s.moment } [] :=
      untold_of_ticket (ticket_of_reach reach) store (.of_eq (agenda_setStore _ _ _)) (by simp)
        (by simp)
    refine untold.timed h prompt rfl rfl obeys (by simp) ?_
    intro i c' r' present round own
    dsimp only at present
    rw [clients_setStore] at present
    obtain ⟨keys, p, opened, called⟩ := h.called prompt task present round own
    rw [fate] at called
    exact ⟨keys, _, called.of_perm (business_append untold.perm i c'.serial)⟩
  · cases eq

theorem Timed.next_of_missed {rules : Side → Rule} {log : List (Stage σ ε)} {s : Stage σ ε}
    (h : Timed rules log s.world) (prompt : s.Prompt) {t : Ticket} {store : Store}
    {answer : Option Outcome}
    (reach : s.taken.reach? s.task = some (t, store, .ended answer))
    (stale : s.taken.underWay? t.client t.serial = none) :
    Timed rules (log ++ [s]) { s.taken.setStore t.side store with now := s.moment } := by
  obtain ⟨obeys, -⟩ := h.reach reach
  have untold : Untold s { s.taken.setStore t.side store with now := s.moment } [] :=
    untold_of_ticket (ticket_of_reach reach) store (.of_eq (agenda_setStore _ _ _)) (by simp)
      (by simp)
  refine untold.timed h prompt rfl rfl obeys (by simp) ?_
  intro i c' r' present round own
  dsimp only at present
  rw [clients_setStore] at present
  rw [round?_of_ticket (ticket_of_reach reach)] at own
  obtain ⟨rfl, serial⟩ := Prod.mk.inj (Option.some.inj own)
  have under := underWay?_of_client (w := s.taken) present round
  rw [← serial, stale] at under
  cases under

/-- When a fetch of a round ends, its answer reaches the inbox as its fate has it. -/
theorem Timed.fetching_noted {rules : Side → Rule} {log : List (Stage σ ε)} {s : Stage σ ε}
    (h : Timed rules log s.world) (prompt : s.Prompt) {t : Ticket} {store : Store}
    {answer : Option Outcome} (reach : s.taken.reach? s.task = some (t, store, .ended answer))
    {c : Client σ} {r : Round} (present : s.world.clients[t.client]? = some c)
    (round : c.round = some r) (own : s.task.round? = some (t.client, c.serial)) :
    ∃ keys p, Fetching rules t.client c.serial (toldAt t.client log) keys (r.noted t answer) p
      (callsIn (log ++ [s])) s.moment
      ((if r.wakes answer then [(s.moment, .look t.client c.serial)] else []) ++
        s.taken.business t.client c.serial) := by
  obtain ⟨-, ⟨task, -, halt⟩ | ⟨below, _, task, call, eq⟩⟩ := h.reach reach
  · -- The fetch is called and ends at once.
    have fate := Fate.eq_ends_of_halt_ended halt.symm
    obtain ⟨keys, p, opened, called⟩ := h.called prompt task present round own
    rw [fate] at called
    have atOnce : s.moment = toldAt t.client log + 0 := by rw [opened, Nat.add_zero]
    obtain ⟨after, -, -, noted⟩ := called.note (.refl _) rfl atOnce (Nat.le_refl _) fun _ => rfl
    exact ⟨keys, _, noted⟩
  · cases eq
    obtain ⟨keys, p, fetching⟩ := h.rounds t.client c r present round
    have taken := business_of_own own
    rw [task] at taken
    obtain ⟨after, -, -, noted⟩ := fetching.note taken rfl prompt.1 s.onward (fetching.still prompt)
    rw [callsIn_snoc, call, Option.toList_none, List.append_nil]
    exact ⟨keys, _, noted⟩

theorem Timed.next_of_noted {rules : Side → Rule} {log : List (Stage σ ε)} {s : Stage σ ε}
    (h : Timed rules log s.world) (prompt : s.Prompt) {t : Ticket} {store : Store}
    {answer : Option Outcome} {c : Client σ} {r : Round} {agenda : List (Nat × Task)}
    (reach : s.taken.reach? s.task = some (t, store, .ended answer))
    (present : s.taken.clients[t.client]? = some c) (number : c.serial = t.serial)
    (round : c.round = some r)
    (perm : agenda.Perm
      ((if r.wakes answer then [(s.moment, .look t.client t.serial)] else []) ++ s.taken.agenda)) :
    Timed rules (log ++ [s])
      { s.taken.setStore t.side store with
        now := s.moment
        agenda
        clients := s.taken.clients.set t.client { c with round := some (r.noted t answer) } } := by
  have ticket := ticket_of_reach reach
  have about : s.task.round? = some (t.client, c.serial) := by rw [round?_of_ticket ticket, number]
  rw [← number] at perm
  have look : ∀ e ∈ (if r.wakes answer then [(s.moment, Task.look t.client c.serial)] else []),
      e = (s.moment, .look t.client c.serial) :=
    fun e mem => List.mem_singleton.1 (List.mem_ite_nil_right.1 mem).2
  have untold : Untold s
      { s.taken.setStore t.side store with
        now := s.moment
        agenda
        clients := s.taken.clients.set t.client { c with round := some (r.noted t answer) } }
      (if r.wakes answer then [(s.moment, .look t.client c.serial)] else []) := by
    refine ⟨silent_of_ticket ticket, rfl, perm, ?_, ?_, ?_, ?_, ?_⟩
    · intro e mem
      exact Nat.le_of_eq (congrArg Prod.fst (look e mem)).symm
    · intro e mem
      rw [look e mem, about]
      rfl
    · intro e mem t' eq
      rw [look e mem] at eq
      cases eq
    · exact lastRound_set (w := s.taken) present round
    · intro i c' present' other
      exact others_of_set (c := { c with round := some (r.noted t answer) }) about present' other
  refine untold.timed h prompt rfl rfl (h.reach reach).1 ?_ ?_
  · intro e mem t' below ending eq
    rw [look e mem] at eq
    cases eq
  · intro i c' r' present' round' own
    rw [about] at own
    obtain ⟨rfl, serial⟩ := Prod.mk.inj (Option.some.inj own)
    rcases of_getElem?_set present' with ⟨-, rfl⟩ | ⟨other, -⟩
    · cases round'
      obtain ⟨keys, p, noted⟩ := h.fetching_noted prompt reach present round about
      refine ⟨keys, p, noted.of_perm ?_⟩
      refine (business_append untold.perm t.client c.serial).trans (.of_eq ?_)
      rw [List.filter_eq_self.2 fun e mem => by simp [look e mem, Task.round?]]
    · exact absurd rfl other

theorem Timed.obeys_of_ticket_none {rules : Side → Rule} {log : List (Stage σ ε)} {s : Stage σ ε}
    (h : Timed rules log s.world) (ticket : s.task.ticket? = none) :
    ∀ side, (s.world.store side).Obeys (rules side) (callsFor (callsIn (log ++ [s])) side)
      (callsOf (callsIn (log ++ [s])) side) := by
  intro side
  rw [callsIn_snoc, call?_of_ticket_none ticket, Option.toList_none, List.append_nil]
  exact h.obeys side

theorem Timed.next_of_emptied {rules : Side → Rule} {log : List (Stage σ ε)} {s : Stage σ ε}
    (h : Timed rules log s.world) (prompt : s.Prompt) {client : Nat} {c : Client σ} {r : Round}
    (task : s.task = .look client c.serial) (present : s.taken.clients[client]? = some c)
    (round : c.round = some r) (undecided : verdict? r.emptied false = none) :
    Timed rules (log ++ [s])
      { s.taken with
        now := s.moment
        clients := s.taken.clients.set client { c with round := some r.emptied } } := by
  have about : s.task.round? = some (client, c.serial) := by rw [task]; rfl
  have bound : client < s.taken.clients.length := (List.getElem?_eq_some_iff.1 present).1
  have untold : Untold s
      { s.taken with
        now := s.moment
        clients := s.taken.clients.set client { c with round := some r.emptied } } [] := by
    refine ⟨?_, rfl, .refl _, by simp, by simp, by simp, ?_, ?_⟩
    · exact task ▸ news?_of_undecided present rfl round undecided
    · exact lastRound_set (w := s.taken) present round
    · intro i c' present' other
      exact others_of_set (c := { c with round := some r.emptied }) about present' other
  have ticket : s.task.ticket? = none := by rw [task]; rfl
  refine untold.timed h prompt rfl rfl (h.obeys_of_ticket_none ticket) (by simp) ?_
  intro i c' r' present' round' own
  rw [about] at own
  obtain ⟨rfl, -⟩ := Prod.mk.inj (Option.some.inj own)
  dsimp only at present'
  rw [List.getElem?_set_self bound] at present'
  cases present'
  cases round'
  obtain ⟨keys, p, fetching⟩ := h.rounds client c r present round
  have taken := business_of_own about
  rw [task] at taken
  obtain ⟨-, emptied⟩ := fetching.empty taken prompt.1 undecided
  rw [callsIn_snoc, call?_of_ticket_none ticket, Option.toList_none, List.append_nil]
  exact ⟨keys, p, emptied.of_perm (business_append untold.perm client c.serial)⟩

theorem Timed.next_of_idle {rules : Side → Rule} {log : List (Stage σ ε)} {s : Stage σ ε}
    (h : Timed rules log s.world) (prompt : s.Prompt) (silent : s.taken.news? s.task = none)
    (ticket : s.task.ticket? = none)
    (stale : ∀ client serial, s.task = .look client serial →
      s.taken.underWay? client serial = none) :
    Timed rules (log ++ [s]) { s.taken with now := s.moment } := by
  have untold : Untold s { s.taken with now := s.moment } [] :=
    ⟨silent, rfl, .refl _, by simp, by simp, by simp, fun _ => rfl, fun _ _ present _ => present⟩
  refine untold.timed h prompt rfl rfl (h.obeys_of_ticket_none ticket) (by simp) ?_
  intro i c r present round own
  have under : s.taken.underWay? i c.serial = some r := underWay?_of_client present round
  cases task : s.task with
  | look client serial =>
      rw [task] at own
      cases own
      rw [stale i c.serial task] at under
      cases under
  | deadline client serial =>
      -- A deadline settles any round under way.
      rw [task] at own silent
      cases own
      obtain ⟨v, decided⟩ := exists_verdict_of_expired r.emptied
      have present' : s.taken.clients[i]? = some c := present
      simp [news?, settlement?, under, decided, tellTo?, present'] at silent
  | begin client => rw [task] at own; cases own
  | rested client => rw [task] at own; cases own
  | enter t => rw [task] at ticket; cases ticket
  | resume t below ending => rw [task] at ticket; cases ticket

/-! ## Telling a client something -/

/-- A prompt stage that looks into a round, or finds its time to be up. -/
theorem Fetching.inspected {rules : Side → Rule} {s : Stage σ ε} {client serial opened : Nat}
    {keys : List String} {r : Round} {p : Places} {calls : List Ticket} {expired : Bool}
    (h : Fetching rules client serial opened keys r p calls s.world.now
      (s.world.business client serial)) (prompt : s.Prompt)
    (kind : s.task = .look client serial ∧ expired = false ∨
      s.task = .deadline client serial ∧ expired = true) (positive : 0 < r.timeout.ticks) :
    Inspected rules client serial opened keys r p calls s.world.now (s.world.business client serial)
      s.moment s.task expired where
  fetching := h
  mem := by
    have about : s.task.round? = some (client, serial) := by
      rcases kind with ⟨eq, -⟩ | ⟨eq, -⟩ <;> rw [eq] <;> rfl
    rw [prompt.1]
    exact List.mem_filter.2 ⟨s.mem_agenda, by simp [about]⟩
  kind := kind
  first e mem := by
    rw [prompt.1]
    exact prompt.2 e (List.mem_filter.1 mem).1
  onward := s.onward
  positive := positive

/-- A client that is told something has no fetch ahead. -/
theorem Timed.none_ahead {rules : Side → Rule} {log : List (Stage σ ε)} {s : Stage σ ε}
    (h : Timed rules log s.world) (prompt : s.Prompt) {client : Nat} {c : Client σ}
    {signal : Signal} {phase : Phase}
    (news : s.taken.news? s.task = some ⟨client, c.state, signal⟩)
    (present : s.world.clients[client]? = some c) (stands : Stands s.world client c phase)
    (positive : ∀ r, c.round = some r → 0 < r.timeout.ticks) {e : Nat × Task} {t : Ticket}
    (mem : e ∈ s.world.agenda) (task : e.2 = .enter t) : t.client ≠ client := by
  rintro rfl
  have under := h.enters e mem t task
  obtain ⟨r, under⟩ := Option.isSome_iff_exists.1 under
  obtain ⟨c', present', number, round⟩ := underWay?_eq_some under
  rw [present] at present'
  cases present'
  obtain ⟨_, _, _, rfl, -, -⟩ := stands.fetching_of_round round
  have admits := (admits_of_told news present stands).1
  obtain ⟨-, -, ⟨-, rfl⟩ | ⟨-, rfl⟩ | ⟨serial, expired, verdict, rfl, settled, kind⟩⟩ :=
    news?_cases news
  · cases admits
  · cases admits
  · obtain ⟨rfl, r', round', decided⟩ := settlement?_eq_some (w := s.taken) present settled
    rw [round] at round'
    cases round'
    obtain ⟨keys, p, fetching⟩ := h.rounds t.client c r present round
    obtain ⟨-, current, -⟩ :=
      (fetching.inspected prompt kind (positive r round)).settled decided
    have there : e ∈ s.world.business t.client c.serial := by
      refine List.mem_filter.2 ⟨mem, ?_⟩
      rw [task, number]
      simp [Task.round?]
    have isOf := fetching.own e there t (by rw [task]; rfl)
    have errand := (fetching.errands t isOf).mem_iff.1
      (List.mem_filter.2 ⟨there, by rw [task]; simp [Task.ticket?]⟩)
    have bound : t.slot < keys.length := (List.getElem?_eq_some_iff.1 isOf.key).1
    have progress := current t.side t.slot bound
    obtain ⟨due, task'⟩ := e
    dsimp only at task
    subst task
    cases slot : p t.side t.slot with
    | ahead => rw [slot] at progress; exact progress
    | going answer after => rw [slot] at errand; cases List.mem_singleton.1 errand
    | finished answer after => rw [slot] at errand; cases errand
    | hung => rw [slot] at errand; cases errand

/-- What the sending of a round puts on the agenda is about that round, and resumes nothing. -/
theorem round?_of_mem_chores_send {now client serial : Nat} {keys : List String}
    {timeout : Duration} {e : Nat × Task} (mem : e ∈ chores now client serial (.send keys timeout)) :
    e.2.round? = some (client, serial) ∧ ∀ t below ending, e.2 ≠ .resume t below ending := by
  simp only [chores] at mem
  split at mem
  · rw [List.mem_singleton] at mem
    subst mem
    exact ⟨rfl, by simp⟩
  · rcases List.mem_cons.1 mem with rfl | mem
    · exact ⟨rfl, by simp⟩
    · obtain ⟨task, listed, rfl⟩ := List.mem_map.1 mem
      obtain ⟨side, slot, key, -, rfl⟩ := mem_fetches.1 listed
      exact ⟨rfl, by simp⟩

theorem round_of_mem_chores {now client serial : Nat} {move : Move} {e : Nat × Task}
    (mem : e ∈ chores now client serial move) {i n : Nat} (round : e.2.round? = some (i, n)) :
    i = client ∧ n = serial ∧ ∃ keys timeout, move = .send keys timeout := by
  cases move with
  | send keys timeout =>
      rw [(round?_of_mem_chores_send mem).1] at round
      cases round
      exact ⟨rfl, rfl, keys, timeout, rfl⟩
  | pause ticks =>
      simp only [chores, List.mem_singleton] at mem
      rw [mem] at round
      cases round
  | stop => cases mem

theorem serial_after_le (c : Client σ) (reaction : Reaction σ ε) :
    c.serial ≤ (c.after reaction).serial := by
  unfold Client.after
  split
  · exact Nat.le_succ _
  · exact Nat.le_refl _
  · exact Nat.le_refl _

/-- A client that sends a round begins it with all fetches ahead. -/
theorem Timed.fetching_sent {rules : Side → Rule} {log : List (Stage σ ε)} {s : Stage σ ε}
    (h : Timed rules log s.world) {client : Nat} {c : Client σ}
    (present : s.world.clients[client]? = some c) {agenda : List (Nat × Task)} {keys : List String}
    {timeout : Duration}
    (perm : agenda.Perm
      (chores s.moment client (c.serial + 1) (.send keys timeout) ++ s.taken.agenda)) :
    Fetching rules client (c.serial + 1) s.moment keys (Round.opened keys timeout)
      (fun _ _ => .ahead) (callsIn log) s.moment
      (agenda.filter fun e => e.2.round? = some (client, c.serial + 1)) := by
  refine fetching_opened rules ?_ fun t mem own => ?_
  · refine (perm.filter fun e => e.2.round? = some (client, c.serial + 1)).trans ?_
    rw [List.filter_append]
    have new : (s.taken.agenda.filter fun e => e.2.round? = some (client, c.serial + 1)) = [] := by
      rw [List.filter_eq_nil_iff]
      intro e mem
      rw [decide_eq_true_eq]
      intro eq
      have := h.serials client c present e (s.mem_of_mem_rest mem) _ eq
      omega
    have all : ((chores s.moment client (c.serial + 1) (.send keys timeout)).filter
        fun e => e.2.round? = some (client, c.serial + 1)) =
        chores s.moment client (c.serial + 1) (.send keys timeout) := by
      rw [List.filter_eq_self]
      intro e mem
      rw [decide_eq_true_eq]
      exact (round?_of_mem_chores_send mem).1
    rw [new, all, List.append_nil]
  · have := h.calls client c present t mem own.1
    omega

section Told

variable {rules : Side → Rule} {log : List (Stage σ ε)} {s : Stage σ ε} {client : Nat} {c : Client σ}
  {signal : Signal} {agenda : List (Nat × Task)} {reaction : Reaction σ ε}

/-- What is on the agenda after a client has been told something is a chore of its move or was there
before. -/
theorem chore_or_before
    (perm : agenda.Perm (chores s.moment client (c.serial + 1) reaction.move ++ s.taken.agenda))
    {e : Nat × Task} (mem : e ∈ agenda) :
    e ∈ chores s.moment client (c.serial + 1) reaction.move ∨ e ∈ s.world.agenda :=
  (List.mem_append.1 (perm.mem_iff.1 mem)).imp id s.mem_of_mem_rest

variable (h : Timed rules log s.world) (present : s.world.clients[client]? = some c)
  (perm : agenda.Perm (chores s.moment client (c.serial + 1) reaction.move ++ s.taken.agenda))

include h perm

theorem Timed.resumes_of_told {e : Nat × Task} (mem : e ∈ agenda) {t : Ticket} {below : Nat}
    {ending : Store.Ending} (task : e.2 = .resume t below ending) :
    ∃ answer, ending = Fate.endingOf answer := by
  rcases chore_or_before perm mem with mem | mem
  · have round : e.2.round? = some (t.client, t.serial) := by rw [task]; rfl
    obtain ⟨-, -, keys, timeout, move⟩ := round_of_mem_chores mem round
    rw [move] at mem
    exact absurd task ((round?_of_mem_chores_send mem).2 t below ending)
  · exact h.resumes e mem t below ending task

include present

/-- A round that is on the agenda has been sent. -/
theorem Timed.serials_of_told {i n : Nat} {c' : Client σ}
    (present' : (s.world.clients.set client (c.after reaction))[i]? = some c') {e : Nat × Task}
    (mem : e ∈ agenda) (round : e.2.round? = some (i, n)) : n ≤ c'.serial := by
  rcases of_getElem?_set present' with ⟨rfl, rfl⟩ | ⟨other, before⟩
  · rcases chore_or_before perm mem with mem | mem
    · obtain ⟨-, rfl, keys, timeout, move⟩ := round_of_mem_chores mem round
      simp [Client.after, move]
    · exact Nat.le_trans (h.serials i c present e mem n round) (serial_after_le c reaction)
  · rcases chore_or_before perm mem with mem | mem
    · exact absurd (round_of_mem_chores mem round).1 other
    · exact h.serials i c' before e mem n round

/-- The other rounds stand where they stood, and a round that the client sends stands at its
beginning. -/
theorem Timed.rounds_of_told (prompt : s.Prompt)
    (news : s.taken.news? s.task = some ⟨client, c.state, signal⟩) {w' : World σ ε}
    (now : w'.now = s.moment) (same : w'.agenda = agenda) {i : Nat} {c' : Client σ} {r' : Round}
    (present' : (s.world.clients.set client (c.after reaction))[i]? = some c')
    (round : c'.round = some r') :
    ∃ keys p, Fetching rules i c'.serial (toldAt i (log ++ [s])) keys r' p (callsIn (log ++ [s]))
      w'.now (w'.business i c'.serial) := by
  obtain ⟨ticket, about, -⟩ := news?_cases news
  rcases of_getElem?_set present' with ⟨rfl, rfl⟩ | ⟨other, before⟩
  · cases move : reaction.move with
    | send keys timeout =>
        rw [move] at perm
        simp only [Client.after, move, Option.some.injEq] at round ⊢
        subst round
        have told : toldAt i (log ++ [s]) = s.moment := by
          rw [toldAt_snoc, tells_of_told news]
          simp
        rw [told, now, business, same, callsIn_snoc, call?_of_ticket_none ticket,
          Option.toList_none, List.append_nil]
        exact ⟨keys, _, h.fetching_sent present perm⟩
    | pause ticks => simp [Client.after, move] at round
    | stop => simp [Client.after, move] at round
  · have told : toldAt i (log ++ [s]) = toldAt i log := by
      rw [toldAt_snoc, tells_of_told news, if_neg (Ne.symm other)]
      rfl
    rw [told]
    obtain ⟨keys, p, fetching⟩ := h.rounds i c' r' before round
    refine ⟨keys, p, fetching.untouched prompt (fun eq => ?_) now (same ▸ perm) fun e mem eq => ?_⟩
    · exact other ((client_of_round eq).symm.trans about)
    · exact other (round_of_mem_chores mem eq).1

end Told

/-- Telling a client something leaves the rounds of the others where they are, and begins the one
that the client sends. -/
theorem Timed.next_of_told {rules : Side → Rule} {log : List (Stage σ ε)} {s : Stage σ ε}
    {behave : Behaviour σ ε} (h : Timed rules log s.world) (prompt : s.Prompt) {client : Nat}
    {c : Client σ} {signal : Signal} {phase : Phase} {agenda : List (Nat × Task)}
    {timeline : Array (Nat × ε)}
    (news : s.taken.news? s.task = some ⟨client, c.state, signal⟩)
    (present : s.taken.clients[client]? = some c) (stands : Stands s.world client c phase)
    (positive : ∀ r, c.round = some r → 0 < r.timeout.ticks)
    (perm : agenda.Perm
      (chores s.moment client (c.serial + 1) (behave c.state signal).move ++ s.taken.agenda)) :
    Timed rules (log ++ [s])
      { s.taken with
        now := s.moment
        agenda
        clients := s.taken.clients.set client (c.after (behave c.state signal))
        timeline } := by
  obtain ⟨ticket, -, -⟩ := news?_cases news
  have bound : client < s.taken.clients.length := (List.getElem?_eq_some_iff.1 present).1
  generalize behave c.state signal = reaction at perm ⊢
  constructor
  case clock =>
    exact clock_next prompt rfl perm fun e mem => le_of_mem_chores mem
  case obeys =>
    intro side
    cases side with
    | source => exact h.obeys_of_ticket_none ticket .source
    | target => exact h.obeys_of_ticket_none ticket .target
  case resumes =>
    intro e mem t below ending task
    exact h.resumes_of_told perm mem task
  case enters =>
    intro e mem t task
    rw [underWay?_isSome_iff]
    rcases chore_or_before perm mem with mem | mem
    · have round : e.2.round? = some (t.client, t.serial) := by rw [task]; rfl
      obtain ⟨own, serial, keys, timeout, move⟩ := round_of_mem_chores mem round
      simp [lastRound, own, serial, bound, Client.after, move]
    · have other := h.none_ahead prompt news present stands positive mem task
      have before := h.enters e mem t task
      rw [underWay?_isSome_iff] at before
      rw [← before]
      simp only [lastRound]
      rw [List.getElem?_set_ne (Ne.symm other)]
      rfl
  case serials =>
    intro i c' present' e mem n round
    exact h.serials_of_told present perm present' mem round
  case calls =>
    intro i c' present' t mem own
    rw [callsIn_snoc, call?_of_ticket_none ticket, Option.toList_none, List.append_nil] at mem
    rcases of_getElem?_set present' with ⟨rfl, rfl⟩ | ⟨-, before⟩
    · exact Nat.le_trans (h.calls i c present t mem own) (serial_after_le c reaction)
    · exact h.calls i c' before t mem own
  case rounds =>
    intro i c' r' present' round
    exact h.rounds_of_told present perm prompt news rfl rfl present' round

/-- What one prompt stage leaves of rounds that stand where the fates have them stand. -/
theorem timed_next {rules : Side → Rule} {log : List (Stage σ ε)} {s : Stage σ ε}
    (behave : Behaviour σ ε) (h : Timed rules log s.world) (prompt : s.Prompt)
    (stands : ∀ i c, s.world.clients[i]? = some c → ∃ phase, Stands s.world i c phase)
    (positive : ∀ (i : Nat) (c : Client σ) (r : Round), s.world.clients[i]? = some c →
      c.round = some r → 0 < r.timeout.ticks) :
    Timed rules (log ++ [s]) (s.next behave) := by
  have step := fired behave s
  generalize s.next behave = w' at step ⊢
  generalize task_eq : s.task = task at step
  cases step with
  | @told task client c signal agenda news present perm =>
      subst task_eq
      obtain ⟨phase, stands⟩ := stands client c present
      exact h.next_of_told prompt news present stands (fun r => positive client c r present) perm
  | emptied present number round undecided =>
      subst number
      exact h.next_of_emptied prompt task_eq present round undecided
  | idle silent ticket stale =>
      subst task_eq
      exact h.next_of_idle prompt silent ticket stale
  | asleep reach perm =>
      subst task_eq
      exact h.next_of_asleep prompt reach perm
  | stalled reach =>
      subst task_eq
      exact h.next_of_stalled prompt reach
  | missed reach stale =>
      subst task_eq
      exact h.next_of_missed prompt reach stale
  | noted reach present number round perm =>
      subst task_eq
      exact h.next_of_noted prompt reach present number round perm

/-! ## Whole schedules -/

theorem timed_initial {rules : Side → Rule} {source target : Store} (states : List σ)
    (obeys : source.Obeys (rules .source) (fun _ => 0) 0)
    (obeys' : target.Obeys (rules .target) (fun _ => 0) 0) :
    Timed rules [] (initial source target states : World σ ε) := by
  have begins : ∀ e ∈ (initial source target states : World σ ε).agenda, ∃ i, e = (0, .begin i) := by
    intro e mem
    obtain ⟨i, -, rfl⟩ := List.mem_map.1 mem
    exact ⟨i, rfl⟩
  constructor
  case clock =>
    intro e _
    exact Nat.zero_le _
  case obeys =>
    intro side
    cases side with
    | source => exact obeys
    | target => exact obeys'
  case resumes =>
    intro e mem t below ending eq
    obtain ⟨i, rfl⟩ := begins e mem
    cases eq
  case enters =>
    intro e mem t eq
    obtain ⟨i, rfl⟩ := begins e mem
    cases eq
  case serials =>
    intro i c _ e mem n round
    obtain ⟨j, rfl⟩ := begins e mem
    cases round
  case calls =>
    intro i c _ t mem
    cases mem
  case rounds =>
    intro i c r present round
    have present' : (states.map fun state => (⟨state, 0, none, false⟩ : Client σ))[i]? = some c :=
      present
    rw [List.getElem?_map] at present'
    obtain ⟨state, -, rfl⟩ := Option.map_eq_some_iff.1 present'
    cases round

/-- Every round that a client sends has some time. -/
def Timely (behave : Behaviour σ ε) (start : σ) : Prop :=
  ∀ ⦃history s keys timeout⦄, Play behave start history s (.fetching keys timeout) →
    0 < timeout.ticks

/-- A prompt schedule from the beginning over stores that deal fates by rules. -/
structure Fated (behave : Behaviour σ ε) (rules : Side → Rule) (source target : Store)
    (states : List σ) (log : List (Stage σ ε)) (w : World σ ε) : Prop where
  schedule : Schedule behave (initial source target states) log w
  prompt : ∀ s ∈ log, s.Prompt
  source : source.Obeys (rules .source) (fun _ => 0) 0
  target : target.Obeys (rules .target) (fun _ => 0) 0
  timely : ∀ start ∈ states, Timely behave start

namespace Fated

variable {behave : Behaviour σ ε} {rules : Side → Rule} {source target : Store}
  {states : List σ} {log later : List (Stage σ ε)} {s : Stage σ ε} {w : World σ ε}

/-- A round that a client sends has some time. -/
theorem positive (h : Fated behave rules source target states log w) {client : Nat} {start state : σ}
    (present : states[client]? = some start) {history : List (σ × Signal)} {keys : List String}
    {timeout : Duration} (play : Play behave start history state (.fetching keys timeout)) :
    0 < timeout.ticks := h.timely start (List.mem_of_getElem? present) play

/-- In a prompt schedule, every round stands where the fates and the clock have it stand. -/
theorem timed (h : Fated behave rules source target states log w) : Timed rules log w := by
  obtain ⟨schedule, prompt, source, target, timely⟩ := h
  induction schedule with
  | refl => exact timed_initial states source target
  | @snoc log s earlier ih =>
      refine timed_next behave (ih fun s' mem => prompt s' (List.mem_append_left _ mem))
        (prompt s (by simp)) ?_ ?_
      · intro i c present
        obtain ⟨-, phase, -, -, stands⟩ := earlier.stands present
        exact ⟨phase, stands⟩
      · intro i c r present round
        obtain ⟨start, phase, present', play, stands⟩ := earlier.stands present
        obtain ⟨keys, timeout, -, rfl, -, rfl⟩ := stands.fetching_of_round round
        exact timely start (List.mem_of_getElem? present') play

end Fated

/-! ## What a client can be told about its round -/

/-- Where the fetches of a round stand when its client is told what has settled it. -/
structure Settled (rules : Side → Rule) (client serial opened : Nat) (keys : List String)
    (timeout : Duration) (calls : List Ticket) (moment : Nat)
    (verdict : Except Batch.Error Results) (p : Places) : Prop where
  inTime : moment ≤ opened + timeout.ticks
  current : ∀ side slot, slot < keys.length → (p side slot).Current opened moment
  settlement : Settlement keys timeout opened p moment verdict
  count : ∀ t : Ticket, t.IsOf client serial keys → calls.count t = 1
  dealt : ∀ (t : Ticket) (f : Fate), t.IsOf client serial keys →
    (p t.side t.slot).fate? = some f → Dealt rules calls t f

/-- The round for whose verdict a client waits stands where the fates have it stand. -/
theorem Timed.fetching {rules : Side → Rule} {log : List (Stage σ ε)} {w : World σ ε}
    (h : Timed rules log w) {client : Nat} {c : Client σ} {keys : List String} {timeout : Duration}
    (present : w.clients[client]? = some c) (stands : Stands w client c (.fetching keys timeout)) :
    ∃ r p, c.round = some r ∧ r.timeout = timeout ∧ Fetching rules client c.serial
      (toldAt client log) keys r p (callsIn log) w.now (w.business client c.serial) := by
  obtain ⟨r, answer, round, holds, limit⟩ := stands.rounds
  obtain ⟨keys', p, fetching⟩ := h.rounds client c r present round
  obtain rfl : keys' = keys :=
    fetching.holds.keys_eq.symm.trans (holds.recordAll r.inbox).keys_eq
  exact ⟨r, p, round, limit, fetching⟩

/-- Whatever order the tasks come in that are due together, a round is settled by what its fetches
have come to. -/
theorem Timed.settled {rules : Side → Rule} {log : List (Stage σ ε)} {s : Stage σ ε}
    (h : Timed rules log s.world) (prompt : s.Prompt) {client : Nat} {c : Client σ}
    {verdict : Except Batch.Error Results} {keys : List String} {timeout : Duration}
    (told : s.told? = some ⟨client, c.state, .settled verdict⟩)
    (present : s.world.clients[client]? = some c)
    (stands : Stands s.world client c (.fetching keys timeout)) (positive : 0 < timeout.ticks) :
    ∃ p, Settled rules client c.serial (toldAt client log) keys timeout (callsIn log) s.moment
      verdict p := by
  obtain ⟨r, p, round, rfl, fetching⟩ := h.fetching present stands
  rw [← news?_taken] at told
  obtain ⟨-, -, ⟨-, eq⟩ | ⟨-, eq⟩ | ⟨serial, expired, verdict', eq, settled, kind⟩⟩ :=
    news?_cases told
  · cases eq
  · cases eq
  · cases eq
    obtain ⟨rfl, r', round', decided⟩ := settlement?_eq_some (w := s.taken) present settled
    rw [round] at round'
    cases round'
    obtain ⟨inTime, current, settlement⟩ :=
      (fetching.inspected prompt kind positive).settled decided
    refine ⟨p, inTime, current, settlement, fun t isOf => ?_, fetching.fates⟩
    have bound : t.slot < keys.length := (List.getElem?_eq_some_iff.1 isOf.key).1
    have called := current t.side t.slot bound
    rw [fetching.count t isOf]
    cases progress : p t.side t.slot with
    | ahead =>
        rw [progress] at called
        cases called
    | going answer after => rfl
    | finished answer after => rfl
    | hung => rfl

end ReplicaDiff.World
