/-
# ReplicaDiff.Proofs.World.Play — each client plays its own part

Whatever the order in which tasks are fired, what one client is told follows
from what it did before: it is told first that it has begun; after it has sent a
round, the verdict on that round; after a pause, that the pause is over; and
nothing once it has stopped.  `Play` is a list of signals with that property, and
`Schedule.plays` says that what a schedule tells a client is a play.  The effects
of all stages are the timeline (`Schedule.timeline_toList`) and, but for their
order, the effects of all plays (`effects_perm`).

`Stands` is the invariant behind this: what a client waits for is on the agenda
or, for a verdict, under way.
-/
import Mathlib.Data.List.Nodup
import Mathlib.Data.List.Perm.Basic
import ReplicaDiff.Proofs.Batch.Gate
import ReplicaDiff.Proofs.World.Firing

namespace ReplicaDiff.World

set_option autoImplicit false

open ReplicaDiff.Batch

variable {σ ε : Type}

/-- What a client waits to be told. -/
inductive Phase where
  | fresh
  | fetching (keys : List String) (timeout : Duration)
  | resting
  | stopped

namespace Phase

/-- What a client waits for after a move. -/
def ofMove : Move → Phase
  | .send keys timeout => .fetching keys timeout
  | .pause _ => .resting
  | .stop => .stopped

/-- The signals for which a client can wait. -/
def Admits : Phase → Signal → Prop
  | .fresh, .begun => True
  | .fetching keys _, .settled verdict => ∀ r, verdict = .ok r → r.Answer keys
  | .resting, .rested => True
  | _, _ => False

/-- How often a client is still to be told that it has begun. -/
def begins : Phase → Nat
  | .fresh => 1
  | _ => 0

/-- How often a client is still to be told that its pause is over. -/
def rests : Phase → Nat
  | .resting => 1
  | _ => 0

/-- The round of a client in a phase. -/
def Rounds : Phase → Option Round → Prop
  | .fetching keys timeout, round =>
      ∃ r answer, round = some r ∧ r.gate.Holds keys answer ∧ r.timeout = timeout
  | _, round => round = none

end Phase

/-- Signals that follow from what the client did before, each with the state in which it came. -/
inductive Play (behave : Behaviour σ ε) (start : σ) : List (σ × Signal) → σ → Phase → Prop where
  | fresh : Play behave start [] start .fresh
  | told {history : List (σ × Signal)} {s : σ} {p : Phase} {signal : Signal}
      (earlier : Play behave start history s p) (admits : p.Admits signal) :
      Play behave start (history ++ [(s, signal)]) (behave s signal).state
        (.ofMove (behave s signal).move)

/-- A client that is still about to begin has been told nothing. -/
theorem Play.eq_nil_of_fresh {behave : Behaviour σ ε} {start s : σ} {history : List (σ × Signal)}
    (play : Play behave start history s .fresh) : history = [] := by
  generalize fresh : Phase.fresh = p at play
  cases play with
  | fresh => rfl
  | @told _ s _ signal =>
      cases move : (behave s signal).move <;> rw [move] at fresh <;> cases fresh

/-- A play leads to one state and one phase. -/
theorem Play.unique {behave : Behaviour σ ε} {start s s' : σ} {history : List (σ × Signal)}
    {p p' : Phase} (play : Play behave start history s p) (play' : Play behave start history s' p') :
    s = s' ∧ p = p' := by
  generalize same : history = history' at play'
  cases play with
  | fresh =>
      cases play' with
      | fresh => exact ⟨rfl, rfl⟩
      | told earlier admits => simp at same
  | told earlier admits =>
      cases play' with
      | fresh => simp at same
      | told earlier' admits' =>
          cases (List.append_inj' same rfl).2
          exact ⟨rfl, rfl⟩

/-- How often a task is on the agenda. -/
def pending (w : World σ ε) (task : Task) : Nat := w.agenda.countP fun e => e.2 = task

/-- The task by which a round over some keys is settled at the latest. -/
def lastCall (client serial : Nat) (keys : List String) : Task :=
  if keys.isEmpty then .look client serial else .deadline client serial

/-- A client stands in a phase. -/
structure Stands (w : World σ ε) (client : Nat) (c : Client σ) (p : Phase) : Prop where
  begins : w.pending (.begin client) = p.begins
  rests : w.pending (.rested client) = p.rests
  stopped : c.stopped = true ↔ p = .stopped
  rounds : p.Rounds c.round
  awaited : ∀ keys timeout, p = .fetching keys timeout →
    0 < w.pending (lastCall client c.serial keys)

/-! ## Counting tasks -/

theorem pending_taken (s : Stage σ ε) (task : Task) :
    s.world.pending task = s.taken.pending task + if s.task = task then 1 else 0 := by
  unfold pending
  rw [s.agenda_perm.countP_eq, List.countP_cons]
  simp [Stage.taken]

theorem pending_taken_of_ne (s : Stage σ ε) {task : Task} (ne : s.task ≠ task) :
    s.taken.pending task = s.world.pending task := by
  rw [pending_taken s task, if_neg ne, Nat.add_zero]

theorem pending_of_perm {w w' : World σ ε} {added : List (Nat × Task)}
    (perm : w'.agenda.Perm (added ++ w.agenda)) (task : Task)
    (none : ∀ e ∈ added, e.2 ≠ task) : w'.pending task = w.pending task := by
  unfold pending
  rw [perm.countP_eq, List.countP_append, List.countP_eq_zero.2 (by simpa using none), Nat.zero_add]

/-- What a move puts on the agenda is about its client. -/
theorem client_of_mem_chores {now client serial : Nat} {move : Move} {e : Nat × Task}
    (mem : e ∈ chores now client serial move) : e.2.client = client := by
  obtain task | task | task | ⟨side, slot, key, task⟩ := task_of_mem_chores mem <;>
    · rw [task]
      rfl

/-- A move puts off being told that the client has begun for ever, and being told that its pause is
over unless it is a pause. -/
theorem countP_chores (now client serial : Nat) (move : Move) :
    (chores now client serial move).countP (fun e => e.2 = .begin client) =
        (Phase.ofMove move).begins ∧
      (chores now client serial move).countP (fun e => e.2 = .rested client) =
        (Phase.ofMove move).rests := by
  have enters : ∀ (task : Task) (keys : List String), (∀ t, task ≠ .enter t) →
      ((fetches client serial keys).map fun task => (now, task)).countP (fun e => e.2 = task) = 0 := by
    intro task keys other
    rw [List.countP_eq_zero]
    intro e mem
    obtain ⟨task', task_mem, rfl⟩ := List.mem_map.1 mem
    obtain ⟨side, slot, key, -, rfl⟩ := mem_fetches.1 task_mem
    simpa using fun same => other _ same.symm
  cases move with
  | send keys timeout =>
      simp only [chores, Phase.ofMove, Phase.begins, Phase.rests]
      split
      · simp
      · simp [enters]
  | pause ticks => simp [chores, Phase.ofMove, Phase.begins, Phase.rests]
  | stop => simp [chores, Phase.ofMove, Phase.begins, Phase.rests]

/-! ## Who is told what -/

/-- A client is told that it has begun or that its pause is over by a task that says so, and a
verdict by a task that looks into its round. -/
theorem news?_cases {w : World σ ε} {task : Task} {client : Nat} {state : σ} {signal : Signal}
    (news : w.news? task = some ⟨client, state, signal⟩) :
    task.ticket? = none ∧ task.client = client ∧
      ((task = .begin client ∧ signal = .begun) ∨ (task = .rested client ∧ signal = .rested) ∨
        ∃ serial expired verdict, signal = .settled verdict ∧
          w.settlement? client serial expired = some verdict ∧
          (task = .look client serial ∧ expired = false ∨
            task = .deadline client serial ∧ expired = true)) := by
  have told : ∀ {i : Nat} {sig : Signal}, w.tellTo? i sig = some ⟨client, state, signal⟩ →
      i = client ∧ sig = signal := by
    intro i sig h
    obtain ⟨c, -, eq⟩ := Option.map_eq_some_iff.1 h
    cases eq
    exact ⟨rfl, rfl⟩
  cases task with
  | begin i =>
      obtain ⟨rfl, rfl⟩ := told news
      exact ⟨rfl, rfl, .inl ⟨rfl, rfl⟩⟩
  | rested i =>
      obtain ⟨rfl, rfl⟩ := told news
      exact ⟨rfl, rfl, .inr (.inl ⟨rfl, rfl⟩)⟩
  | look i serial =>
      obtain ⟨v, settled, news⟩ := Option.bind_eq_some_iff.1 news
      obtain ⟨rfl, rfl⟩ := told news
      exact ⟨rfl, rfl, .inr (.inr ⟨serial, false, v, rfl, settled, .inl ⟨rfl, rfl⟩⟩)⟩
  | deadline i serial =>
      obtain ⟨v, settled, news⟩ := Option.bind_eq_some_iff.1 news
      obtain ⟨rfl, rfl⟩ := told news
      exact ⟨rfl, rfl, .inr (.inr ⟨serial, true, v, rfl, settled, .inr ⟨rfl, rfl⟩⟩)⟩
  | enter t => cases news
  | resume t below ending => cases news

/-- Who is told something is a client in the state in which it is told. -/
theorem client_of_news {w : World σ ε} {task : Task} {t : Telling σ}
    (news : w.news? task = some t) : ∃ c, w.clients[t.client]? = some c ∧ c.state = t.state := by
  have tellTo : ∀ {i : Nat} {signal : Signal}, w.tellTo? i signal = some t →
      ∃ c, w.clients[t.client]? = some c ∧ c.state = t.state := by
    intro i signal eq
    obtain ⟨c, present, rfl⟩ := Option.map_eq_some_iff.1 eq
    exact ⟨c, present, rfl⟩
  unfold news? at news
  split at news
  · exact tellTo news
  · exact tellTo news
  · obtain ⟨v, -, news⟩ := Option.bind_eq_some_iff.1 news
    exact tellTo news
  · obtain ⟨v, -, news⟩ := Option.bind_eq_some_iff.1 news
    exact tellTo news
  · cases news
  · cases news

theorem settlement?_eq_some {w : World σ ε} {client serial : Nat} {expired : Bool} {c : Client σ}
    {verdict : Except Batch.Error Results} (present : w.clients[client]? = some c)
    (settled : w.settlement? client serial expired = some verdict) :
    c.serial = serial ∧ ∃ r, c.round = some r ∧ verdict? r.emptied expired = some verdict := by
  obtain ⟨r, under, decided⟩ := Option.bind_eq_some_iff.1 settled
  obtain ⟨c', present', number, round⟩ := underWay?_eq_some under
  rw [present] at present'
  cases present'
  exact ⟨number, r, round, decided⟩

theorem answer_of_verdict? {r : Round} {keys : List String} {answer : Answers} {expired : Bool}
    {results : Results} (holds : r.gate.Holds keys answer)
    (ok : verdict? r expired = some (.ok results)) : results.Answer keys := by
  obtain ⟨opened, rfl⟩ := verdict?_eq_ok_iff.1 ok
  exact holds.results_answer opened

namespace Stands

variable {w w' : World σ ε} {client : Nat} {c : Client σ} {p : Phase}

theorem congr (h : Stands w client c p)
    (begins : w'.pending (.begin client) = w.pending (.begin client))
    (rests : w'.pending (.rested client) = w.pending (.rested client))
    (look : w.pending (.look client c.serial) ≤ w'.pending (.look client c.serial))
    (deadline : w.pending (.deadline client c.serial) ≤ w'.pending (.deadline client c.serial)) :
    Stands w' client c p where
  begins := begins.trans h.begins
  rests := rests.trans h.rests
  stopped := h.stopped
  rounds := h.rounds
  awaited keys timeout eq := by
    have pos := h.awaited keys timeout eq
    unfold lastCall at pos ⊢
    split <;> simp_all <;> omega

/-- A client that has a round under way waits for the verdict on it. -/
theorem fetching_of_round (h : Stands w client c p) {r : Round} (round : c.round = some r) :
    ∃ keys timeout answer, p = .fetching keys timeout ∧ r.gate.Holds keys answer ∧
      r.timeout = timeout := by
  have rounds := h.rounds
  cases p with
  | fetching keys timeout =>
      obtain ⟨r', answer, eq, holds, same⟩ := rounds
      rw [round] at eq
      cases eq
      exact ⟨keys, timeout, answer, rfl, holds, same⟩
  | fresh => rw [round] at rounds; cases rounds
  | resting => rw [round] at rounds; cases rounds
  | stopped => rw [round] at rounds; cases rounds

end Stands

/-- What a stage tells a client is what the client waits for, and afterwards nothing is on the
agenda that the client waited for. -/
theorem admits_of_told {s : Stage σ ε} {client : Nat} {c : Client σ} {signal : Signal} {p : Phase}
    (news : s.taken.news? s.task = some ⟨client, c.state, signal⟩)
    (present : s.world.clients[client]? = some c) (stands : Stands s.world client c p) :
    p.Admits signal ∧ s.taken.pending (.begin client) = 0 ∧
      s.taken.pending (.rested client) = 0 ∧ c.stopped = false := by
  have begins := stands.begins
  have rests := stands.rests
  rw [pending_taken] at begins rests
  have running : p ≠ .stopped → c.stopped = false := fun ne => by
    cases stopped : c.stopped with
    | false => rfl
    | true => exact absurd (stands.stopped.1 stopped) ne
  obtain ⟨-, -, ⟨task, rfl⟩ | ⟨task, rfl⟩ | ⟨serial, expired, verdict, rfl, settled, task⟩⟩ :=
    news?_cases news
  · rw [task] at begins rests
    cases p <;> simp [Phase.begins, Phase.rests] at begins rests
    exact ⟨trivial, begins, rests, running (by simp)⟩
  · rw [task] at begins rests
    cases p <;> simp [Phase.begins, Phase.rests] at begins rests
    exact ⟨trivial, begins, rests, running (by simp)⟩
  · obtain ⟨-, r, round, decided⟩ := settlement?_eq_some (w := s.taken) present settled
    obtain ⟨keys, timeout, answer, rfl, holds, -⟩ := stands.fetching_of_round round
    have other : s.task ≠ .begin client ∧ s.task ≠ .rested client := by
      rcases task with ⟨eq, -⟩ | ⟨eq, -⟩ <;> simp [eq]
    rw [if_neg other.1] at begins
    rw [if_neg other.2] at rests
    refine ⟨?_, begins, rests, running (by simp)⟩
    intro results ok
    subst ok
    exact answer_of_verdict? (holds.recordAll r.inbox) decided

/-! ## One stage -/

theorem tells_of_told {s : Stage σ ε} {client : Nat} {state : σ} {signal : Signal}
    (news : s.taken.news? s.task = some ⟨client, state, signal⟩) (i : Nat) :
    s.tells i = if client = i then some (state, signal) else none := by
  rw [news?_taken] at news
  simp [Stage.tells, news]

theorem tells_of_silent {s : Stage σ ε} (silent : s.taken.news? s.task = none) (i : Nat) :
    s.tells i = none := by
  rw [news?_taken] at silent
  simp [Stage.tells, silent]

theorem silent_of_ticket {w : World σ ε} {task : Task} {t : Ticket}
    (ticket : task.ticket? = some t) : w.news? task = none := by
  cases task <;> first | rfl | cases ticket

theorem ticket_of_reach {w : World σ ε} {task : Task} {t : Ticket} {store : Store}
    {halt : Store.Halt} (reach : w.reach? task = some (t, store, halt)) :
    task.ticket? = some t := by
  cases task <;> simp_all [reach?, Task.ticket?]

/-- Looking into a round that is not decided tells nobody anything. -/
theorem news?_of_undecided {w : World σ ε} {client serial : Nat} {c : Client σ} {r : Round}
    (present : w.clients[client]? = some c) (number : c.serial = serial) (round : c.round = some r)
    (undecided : verdict? r.emptied false = none) : w.news? (.look client serial) = none := by
  have under : w.underWay? client serial = some r := number ▸ underWay?_of_client present round
  simp [news?, settlement?, under, undecided]

/-- A task tells a client something, which then reacts, or it tells nobody anything. -/
theorem Fired.told_or_silent {behave : Behaviour σ ε} {w w' : World σ ε} {moment : Nat} {task : Task}
    (step : Fired behave w moment task w') :
    (∃ client c signal, w.news? task = some ⟨client, c.state, signal⟩ ∧
      w.clients[client]? = some c ∧
      w'.clients[client]? = some (c.after (behave c.state signal)) ∧
      w'.agenda.Perm
        (chores moment client (c.serial + 1) (behave c.state signal).move ++ w.agenda)) ∨
      w.news? task = none := by
  cases step with
  | @told task client c signal agenda news present perm =>
      have bound := (List.getElem?_eq_some_iff.1 present).1
      exact .inl ⟨client, c, signal, news, present, by simp [bound], perm⟩
  | emptied present number round undecided =>
      exact .inr (news?_of_undecided present number round undecided)
  | idle silent ticket stale => exact .inr silent
  | asleep reach perm => exact .inr (silent_of_ticket (ticket_of_reach reach))
  | stalled reach => exact .inr (silent_of_ticket (ticket_of_reach reach))
  | missed reach stale => exact .inr (silent_of_ticket (ticket_of_reach reach))
  | noted reach present number round perm =>
      exact .inr (silent_of_ticket (ticket_of_reach reach))

theorem state_after (c : Client σ) (r : Reaction σ ε) : (c.after r).state = r.state := by
  unfold Client.after
  split <;> rfl

/-- A stage that tells a client something lets it react. -/
theorem reacts_of_tells (behave : Behaviour σ ε) {s : Stage σ ε} {client : Nat} {state : σ}
    {signal : Signal} (tells : s.tells client = some (state, signal)) :
    ∃ c, s.taken.news? s.task = some ⟨client, c.state, signal⟩ ∧ c.state = state ∧
      s.world.clients[client]? = some c ∧
      (s.next behave).clients[client]? = some (c.after (behave state signal)) ∧
      (s.next behave).agenda.Perm
        (chores s.moment client (c.serial + 1) (behave state signal).move ++ s.taken.agenda) := by
  rcases (fired behave s).told_or_silent with ⟨i, c, signal', news, present, after, perm⟩ | silent
  · rw [tells_of_told news] at tells
    split at tells
    · rename_i own
      subst own
      cases tells
      exact ⟨c, news, rfl, present, after, perm⟩
    · cases tells
  · rw [tells_of_silent silent] at tells
    cases tells

theorem ne_of_ticket {task other : Task} {t : Ticket} (ticket : task.ticket? = some t)
    (none : other.ticket? = none) : task ≠ other := by
  rintro rfl
  rw [ticket] at none
  cases none

/-- A stage that carries on with a fetch leaves every client what it waits for. -/
theorem stands_of_ticket {s : Stage σ ε} {w' : World σ ε} (added : List (Nat × Task))
    {client : Nat} {c : Client σ} {p : Phase} {t : Ticket} (stands : Stands s.world client c p)
    (ticket : s.task.ticket? = some t) (perm : w'.agenda.Perm (added ++ s.taken.agenda))
    (quiet : ∀ e ∈ added, e.2.ticket? ≠ none ∨ ∃ i n, e.2 = .look i n) :
    Stands w' client c p := by
  have same : ∀ task : Task, task.ticket? = none → (∀ i n, task ≠ .look i n) →
      w'.pending task = s.world.pending task := by
    intro task none look
    rw [← pending_taken_of_ne s (ne_of_ticket ticket none)]
    refine pending_of_perm perm task fun e mem eq => ?_
    rcases quiet e mem with ne | ⟨i, n, eq'⟩
    · exact ne (eq ▸ none)
    · exact look i n (eq ▸ eq')
  refine stands.congr (same _ rfl (by simp)) (same _ rfl (by simp)) ?_
    (Nat.le_of_eq (same _ rfl (by simp)).symm)
  rw [← pending_taken_of_ne s (ne_of_ticket ticket rfl)]
  unfold pending
  rw [perm.countP_eq, List.countP_append]
  exact Nat.le_add_left _ _

/-- A stage about one client leaves the others what they wait for. -/
theorem stands_of_other {s : Stage σ ε} {w' : World σ ε} (added : List (Nat × Task))
    {client i : Nat} {c : Client σ} {p : Phase} (stands : Stands s.world i c p)
    (about : s.task.client = client) (ne : client ≠ i)
    (perm : w'.agenda.Perm (added ++ s.taken.agenda))
    (added_about : ∀ e ∈ added, e.2.client = client) : Stands w' i c p := by
  have same : ∀ task : Task, task.client = i → w'.pending task = s.world.pending task := by
    intro task own
    have other : ∀ task' : Task, task'.client = client → task' ≠ task := by
      rintro task' about rfl
      exact ne (about.symm.trans own)
    rw [← pending_taken_of_ne s (other _ about)]
    exact pending_of_perm perm task fun e mem => other _ (added_about e mem)
  exact stands.congr (same _ rfl) (same _ rfl) (Nat.le_of_eq (same _ rfl).symm)
    (Nat.le_of_eq (same _ rfl).symm)

/-- After its reaction a client waits for what its move calls for. -/
theorem stands_after {s : Stage σ ε} {w' : World σ ε} {client : Nat} {c : Client σ}
    (r : Reaction σ ε) (begins : s.taken.pending (.begin client) = 0)
    (rests : s.taken.pending (.rested client) = 0) (running : c.stopped = false)
    (perm : w'.agenda.Perm (chores s.moment client (c.serial + 1) r.move ++ s.taken.agenda)) :
    Stands w' client (c.after r) (.ofMove r.move) := by
  have count : ∀ task, w'.pending task =
      (chores s.moment client (c.serial + 1) r.move).countP (fun e => e.2 = task) +
        s.taken.pending task := by
    intro task
    unfold pending
    rw [perm.countP_eq, List.countP_append]
  obtain ⟨chores_begins, chores_rests⟩ := countP_chores s.moment client (c.serial + 1) r.move
  refine ⟨?_, ?_, ?_, ?_, ?_⟩
  · rw [count, chores_begins, begins, Nat.add_zero]
  · rw [count, chores_rests, rests, Nat.add_zero]
  · unfold Client.after
    cases r.move <;> simp [Phase.ofMove, running]
  · unfold Client.after
    cases r.move with
    | send keys timeout => exact ⟨_, .none, rfl, Gate.ofKeys_holds keys, rfl⟩
    | pause ticks => rfl
    | stop => rfl
  · intro keys timeout eq
    rw [count]
    unfold Client.after
    cases move : r.move with
    | send keys' timeout' =>
        rw [move] at eq
        cases eq
        refine Nat.add_pos_left (List.countP_pos_iff.2 ?_) _
        by_cases empty : keys.isEmpty
        · exact ⟨(s.moment, .look client (c.serial + 1)), by simp [chores, empty],
            by simp [lastCall, empty]⟩
        · exact ⟨(s.moment + timeout.ticks, .deadline client (c.serial + 1)),
            by simp [chores, empty], by simp [lastCall, empty]⟩
    | pause ticks => rw [move] at eq; cases eq
    | stop => rw [move] at eq; cases eq

/-- A stage that only removes a task which tells nobody anything leaves every client what it waits
for. -/
theorem stands_of_idle {s : Stage σ ε} {client : Nat} {c : Client σ} {p : Phase}
    {w' : World σ ε} (present : s.world.clients[client]? = some c)
    (stands : Stands s.world client c p) (same : w'.agenda = s.taken.agenda)
    (silent : s.taken.news? s.task = none)
    (stale : ∀ i n, s.task = .look i n → s.taken.underWay? i n = none) :
    Stands w' client c p := by
  have keeps : ∀ {task : Task}, s.task ≠ task → w'.pending task = s.world.pending task := by
    intro task ne
    rw [← pending_taken_of_ne s ne]
    unfold pending
    rw [same]
  have begins : s.task ≠ .begin client := by
    intro eq
    rw [eq] at silent
    simp [news?, tellTo?, Stage.taken, present] at silent
  have rests : s.task ≠ .rested client := by
    intro eq
    rw [eq] at silent
    simp [news?, tellTo?, Stage.taken, present] at silent
  refine ⟨(keeps begins).trans stands.begins, (keeps rests).trans stands.rests, stands.stopped,
    stands.rounds, ?_⟩
  rintro keys timeout rfl
  obtain ⟨r, answer, round, -, -⟩ := stands.rounds
  have under : s.taken.underWay? client c.serial = some r :=
    underWay?_of_client (w := s.taken) present round
  rw [keeps]
  · exact stands.awaited keys timeout rfl
  · unfold lastCall
    split
    · intro eq
      rw [stale _ _ eq] at under
      cases under
    · intro eq
      obtain ⟨v, decided⟩ := exists_verdict_of_expired r.emptied
      rw [eq] at silent
      have present' : s.taken.clients[client]? = some c := present
      simp [news?, settlement?, under, decided, tellTo?, present'] at silent

/-- A round without keys is decided as soon as it is looked into. -/
theorem isOpen_of_isEmpty {gate : Gate} {keys : List String} {answer : Answers}
    (holds : gate.Holds keys answer) (empty : keys.isEmpty) : gate.isOpen = true := by
  refine holds.isOpen_iff.2 fun side slot below => ?_
  simp [List.isEmpty_iff.1 empty] at below

/-- Emptying the inbox of its round leaves a client where it stands, unless that settles the
round. -/
theorem stands_emptied {s : Stage σ ε} {client serial : Nat} {c : Client σ} {p : Phase} {r : Round}
    (task : s.task = .look client serial) (stands : Stands s.world client c p)
    (round : c.round = some r) (undecided : verdict? r.emptied false = none) :
    Stands { s.taken with
      now := s.moment
      clients := s.taken.clients.set client { c with round := some r.emptied } }
      client { c with round := some r.emptied } p := by
  obtain ⟨keys, timeout, answer, rfl, holds, same⟩ := stands.fetching_of_round round
  have keeps : ∀ {τ : Task}, s.task ≠ τ →
      ({ s.taken with
        now := s.moment
        clients := s.taken.clients.set client { c with round := some r.emptied } } :
        World σ ε).pending τ = s.world.pending τ :=
    fun ne => pending_taken_of_ne s ne
  refine ⟨(keeps (by simp [task])).trans stands.begins, (keeps (by simp [task])).trans stands.rests,
    stands.stopped, ⟨r.emptied, _, rfl, holds.recordAll r.inbox, same⟩, ?_⟩
  rintro keys' timeout' eq
  cases eq
  rw [keeps]
  · exact stands.awaited keys timeout rfl
  · rw [task]
    unfold lastCall
    split
    · rename_i empty
      have opened : r.emptied.gate.isOpen = true :=
        isOpen_of_isEmpty (holds.recordAll r.inbox) empty
      rw [(verdict?_eq_none_iff.1 undecided).1] at opened
      cases opened
    · simp

/-- The end of a fetch leaves a client where it stands. -/
theorem Stands.noted {w : World σ ε} {client : Nat} {c : Client σ} {p : Phase} {r : Round}
    (stands : Stands w client c p) (round : c.round = some r) (t : Ticket)
    (answer : Option Outcome) :
    Stands w client { c with round := some (r.noted t answer) } p := by
  obtain ⟨keys, timeout, answer', rfl, holds, same⟩ := stands.fetching_of_round round
  exact ⟨stands.begins, stands.rests, stands.stopped, ⟨_, answer', rfl, holds, same⟩, stands.awaited⟩

/-- A stage that tells a client nothing leaves it its state, its number and what it waits for. -/
theorem stands_untold (behave : Behaviour σ ε) {s : Stage σ ε} {client : Nat} {c : Client σ}
    {p : Phase} (present : s.world.clients[client]? = some c) (stands : Stands s.world client c p)
    (untold : s.tells client = none) :
    ∃ c', (s.next behave).clients[client]? = some c' ∧
      (c'.serial = c.serial ∧ c'.state = c.state) ∧ Stands (s.next behave) client c' p := by
  have step := fired behave s
  generalize s.next behave = w' at step ⊢
  have bound : client < s.world.clients.length := (List.getElem?_eq_some_iff.1 present).1
  have kept : ∀ side store, (s.taken.setStore side store).clients[client]? = some c := by
    intro side store
    rw [clients_setStore]
    exact present
  generalize task_eq : s.task = task at step
  cases step with
  | @told task j cⱼ signal agenda news present' perm =>
      subst task_eq
      have other : j ≠ client := by
        rintro rfl
        rw [tells_of_told news, if_pos rfl] at untold
        cases untold
      refine ⟨c, (List.getElem?_set_ne other).trans present, ⟨rfl, rfl⟩, ?_⟩
      exact stands_of_other _ stands (news?_cases news).2.1 other perm fun e mem =>
        client_of_mem_chores mem
  | @emptied j serial cⱼ r present' number round undecided =>
      by_cases own : j = client
      · subst own
        rw [show s.taken.clients[j]? = some c from present] at present'
        cases present'
        exact ⟨{ c with round := some r.emptied }, by simp [Stage.taken, bound], ⟨rfl, rfl⟩,
          stands_emptied task_eq stands round undecided⟩
      · refine ⟨c, (List.getElem?_set_ne own).trans present, ⟨rfl, rfl⟩, ?_⟩
        exact stands_of_other [] stands (by rw [task_eq]; rfl) own (.refl _) (by simp)
  | idle silent ticket stale =>
      subst task_eq
      exact ⟨c, present, ⟨rfl, rfl⟩, stands_of_idle present stands rfl silent stale⟩
  | @asleep task t store delay below ending agenda reach perm =>
      subst task_eq
      refine ⟨c, kept _ _, ⟨rfl, rfl⟩, stands_of_ticket [_] stands (ticket_of_reach reach) perm ?_⟩
      intro e mem
      rw [List.mem_singleton] at mem
      simp [mem, Task.ticket?]
  | @stalled task t store reach =>
      subst task_eq
      exact ⟨c, kept _ _, ⟨rfl, rfl⟩, stands_of_ticket [] stands (ticket_of_reach reach)
        (by cases t.side <;> exact .refl _) (by simp)⟩
  | @missed task t store answer reach =>
      subst task_eq
      exact ⟨c, kept _ _, ⟨rfl, rfl⟩, stands_of_ticket [] stands (ticket_of_reach reach)
        (by cases t.side <;> exact .refl _) (by simp)⟩
  | @noted task t store answer cⱼ r agenda reach present' number round perm =>
      subst task_eq
      have quiet : ∀ e ∈ (if r.wakes answer then [(s.moment, Task.look t.client t.serial)] else []),
          e.2.ticket? ≠ none ∨ ∃ i n, e.2 = .look i n := by
        intro e mem
        split at mem
        · rw [List.mem_singleton] at mem
          exact .inr ⟨_, _, congrArg Prod.snd mem⟩
        · cases mem
      have left : Stands { s.taken.setStore t.side store with
          now := s.moment
          agenda
          clients := s.taken.clients.set t.client { cⱼ with round := some (r.noted t answer) } }
          client c p := stands_of_ticket _ stands (ticket_of_reach reach) perm quiet
      by_cases own : t.client = client
      · subst own
        rw [show s.taken.clients[t.client]? = some c from present] at present'
        cases present'
        exact ⟨{ c with round := some (r.noted t answer) }, by simp [Stage.taken, bound], ⟨rfl, rfl⟩,
          left.noted round t answer⟩
      · exact ⟨c, (List.getElem?_set_ne own).trans present, ⟨rfl, rfl⟩, left⟩

/-- A stage carries on the play of every client. -/
theorem play_next {behave : Behaviour σ ε} (s : Stage σ ε) {start : σ}
    {history : List (σ × Signal)} {client : Nat} {c : Client σ} {p : Phase}
    (present : s.world.clients[client]? = some c) (play : Play behave start history c.state p)
    (stands : Stands s.world client c p) :
    ∃ c' p', (s.next behave).clients[client]? = some c' ∧
      Play behave start (history ++ (s.tells client).toList) c'.state p' ∧
      Stands (s.next behave) client c' p' := by
  cases tells : s.tells client with
  | none =>
      obtain ⟨c', present', ⟨-, state⟩, stands'⟩ := stands_untold behave present stands tells
      refine ⟨c', p, present', ?_, stands'⟩
      rw [state, Option.toList_none, List.append_nil]
      exact play
  | some told =>
      obtain ⟨state, signal⟩ := told
      obtain ⟨c₀, news, rfl, before, present', perm⟩ := reacts_of_tells behave tells
      rw [present] at before
      cases before
      obtain ⟨admits, begins, rests, running⟩ := admits_of_told news present stands
      refine ⟨c.after (behave c.state signal), .ofMove (behave c.state signal).move, present', ?_,
        stands_after _ begins rests running perm⟩
      rw [state_after]
      exact play.told admits

/-! ## Whole schedules -/

theorem length_clients_next {behave : Behaviour σ ε} (s : Stage σ ε) :
    (s.next behave).clients.length = s.world.clients.length := by
  have step := fired behave s
  generalize s.next behave = w' at step ⊢
  generalize s.task = task at step
  cases step <;> simp [Stage.taken, clients_setStore]

/-- A client that is about to begin is in the phase in which it waits for that. -/
theorem stands_initial (source target : Store) {states : List σ} {client : Nat} {state : σ}
    (present : states[client]? = some state) :
    Stands (initial source target states : World σ ε) client ⟨state, 0, none, false⟩ .fresh := by
  have count : ∀ task : Task, (initial source target states : World σ ε).pending task =
      (List.range states.length).countP fun i => .begin i = task := by
    intro task
    unfold pending initial
    rw [List.countP_map]
    rfl
  have bound : client < states.length := (List.getElem?_eq_some_iff.1 present).1
  refine ⟨?_, ?_, by simp, rfl, by simp⟩
  · rw [count]
    have once : (List.range states.length).count client = 1 :=
      List.count_eq_one_of_mem List.nodup_range (List.mem_range.2 bound)
    refine Eq.trans ?_ once
    exact List.countP_congr fun i _ => by simp
  · rw [count, List.countP_eq_zero.2 (by simp)]
    rfl

variable {behave : Behaviour σ ε} {source target : Store} {states : List σ}
  {log : List (Stage σ ε)} {w : World σ ε}

namespace Schedule

theorem length_clients (h : Schedule behave (initial source target states) log w) :
    w.clients.length = states.length := by
  induction h with
  | refl => simp [initial]
  | snoc s _ ih => rw [length_clients_next, ih]

/-- Whatever the order in which tasks are fired, every client is told what it waits for, and then
waits for what its own move calls for. -/
theorem plays (h : Schedule behave (initial source target states) log w) {client : Nat} {state : σ}
    (present : states[client]? = some state) :
    ∃ c p, w.clients[client]? = some c ∧ Play behave state (heard client log) c.state p ∧
      Stands w client c p := by
  induction h with
  | refl =>
      refine ⟨⟨state, 0, none, false⟩, .fresh, ?_, .fresh, stands_initial source target present⟩
      simp [initial, present]
  | snoc s _ ih =>
      obtain ⟨c, p, present', play, stands⟩ := ih
      rw [heard_snoc]
      exact play_next s present' play stands

/-- Every client of a schedule stands where its play has led it. -/
theorem stands (h : Schedule behave (initial source target states) log w) {client : Nat}
    {c : Client σ} (present : w.clients[client]? = some c) :
    ∃ start p, states[client]? = some start ∧ Play behave start (heard client log) c.state p ∧
      Stands w client c p := by
  have bound := (List.getElem?_eq_some_iff.1 present).1
  rw [h.length_clients] at bound
  obtain ⟨c', p, present', play, stands⟩ := h.plays (List.getElem?_eq_getElem bound)
  rw [present] at present'
  cases present'
  exact ⟨_, p, List.getElem?_eq_getElem bound, play, stands⟩

/-- Who is told something has played up to the state in which it is told, and waits for it. -/
theorem play_of_told {s : Stage σ ε}
    (h : Schedule behave (initial source target states) log s.world) {client : Nat} {state start : σ}
    {signal : Signal} (told : s.told? = some ⟨client, state, signal⟩)
    (present : states[client]? = some start) :
    ∃ p, Play behave start (heard client log) state p ∧ p.Admits signal := by
  obtain ⟨c, p, present', play, stands⟩ := h.plays present
  obtain ⟨c', present'', rfl⟩ := client_of_news told
  rw [present'] at present''
  cases present''
  exact ⟨p, play, (admits_of_told ((news?_taken s).trans told) present' stands).1⟩

/-- When every client has stopped, each has played its part to the end. -/
theorem plays_to_end (h : Schedule behave (initial source target states) log w)
    (finished : w.isOver = true) {client : Nat} {state : σ} (present : states[client]? = some state) :
    ∃ c, w.clients[client]? = some c ∧ Play behave state (heard client log) c.state .stopped := by
  obtain ⟨c, p, present', play, stands⟩ := h.plays present
  have stopped : c.stopped = true := List.all_eq_true.1 finished c (List.mem_of_getElem? present')
  rw [stands.stopped.1 stopped] at play
  exact ⟨c, present', play⟩

/-- Who is told something is one of the clients. -/
theorem client_lt_of_told (h : Schedule behave (initial source target states) log w)
    {s : Stage σ ε} (mem : s ∈ log) {t : Telling σ} (told : s.told? = some t) :
    t.client < states.length := by
  induction h with
  | refl => cases mem
  | snoc s' earlier ih =>
      rcases List.mem_append.1 mem with mem | mem
      · exact ih mem
      · rw [List.mem_singleton] at mem
        subst mem
        obtain ⟨c, present, -⟩ := client_of_news told
        rw [← earlier.length_clients]
        exact (List.getElem?_eq_some_iff.1 present).1

/-- Who is no client is told nothing. -/
theorem heard_eq_nil (h : Schedule behave (initial source target states) log w) {client : Nat}
    (beyond : states.length ≤ client) : heard client log = [] := by
  refine List.filterMap_eq_nil_iff.2 fun s mem => ?_
  cases told : s.told? with
  | none => simp [Stage.tells, told]
  | some t =>
      have bound := h.client_lt_of_told mem told
      have other : t.client ≠ client := by omega
      simp [Stage.tells, told, other]

/-- Every client is to begin at the beginning. -/
theorem due_of_begin (h : Schedule behave (initial source target states) log w) :
    ∀ e ∈ w.agenda, ∀ i, e.2 = .begin i → e.1 = 0 := by
  induction h with
  | refl =>
      intro e mem i _
      obtain ⟨i, -, rfl⟩ := List.mem_map.1 mem
      rfl
  | @snoc log s earlier ih =>
      intro e mem i task
      obtain ⟨added, perm, new⟩ := agenda_next behave s
      rcases List.mem_append.1 (perm.mem_iff.1 mem) with mem | mem
      · rcases (new e mem).2 with follows | ⟨client, c, signal, -, mem⟩
        · exact absurd task (follows.1 i)
        · have own : i = client := by
            rw [← client_of_mem_chores mem, task]
            rfl
          have none := (countP_chores s.moment client (c.serial + 1)
            (behave c.state signal).move).1
          have never : (Phase.ofMove (behave c.state signal).move).begins = 0 := by
            cases (behave c.state signal).move <;> rfl
          rw [never, List.countP_eq_zero] at none
          exact absurd (by simp [task, own]) (none e mem)
      · exact ih e (s.mem_of_mem_rest mem) i task

end Schedule

/-! ## The timeline -/

/-- What the client that a stage tells something does to the outside. -/
def Stage.effects (behave : Behaviour σ ε) (s : Stage σ ε) : List ε :=
  match s.told? with
  | some t => (behave t.state t.signal).effects
  | none => []

theorem timeline_next (behave : Behaviour σ ε) (s : Stage σ ε) :
    (s.next behave).timeline.toList =
      s.world.timeline.toList ++ (s.effects behave).map fun e => (s.moment, e) := by
  have step := fired behave s
  generalize s.next behave = w' at step ⊢
  have unheard : ∀ w'' : World σ ε, s.taken.news? s.task = none →
      w''.timeline = s.world.timeline → w''.timeline.toList =
        s.world.timeline.toList ++ (s.effects behave).map fun e => (s.moment, e) := by
    intro w'' silent same
    rw [news?_taken] at silent
    simp [Stage.effects, silent, same]
  have setStore : ∀ side store, (s.taken.setStore side store).timeline = s.world.timeline := by
    intro side store
    cases side <;> rfl
  generalize task_eq : s.task = task at step
  cases step with
  | told news present perm =>
      rw [← task_eq, news?_taken] at news
      simp [Stage.effects, news, Stage.taken]
  | emptied present number round undecided =>
      exact unheard _ (task_eq ▸ news?_of_undecided present number round undecided) rfl
  | idle silent ticket stale => exact unheard _ (task_eq ▸ silent) rfl
  | asleep reach perm =>
      exact unheard _ (task_eq ▸ silent_of_ticket (ticket_of_reach reach)) (setStore _ _)
  | stalled reach =>
      exact unheard _ (task_eq ▸ silent_of_ticket (ticket_of_reach reach)) (setStore _ _)
  | missed reach stale =>
      exact unheard _ (task_eq ▸ silent_of_ticket (ticket_of_reach reach)) (setStore _ _)
  | noted reach present number round perm =>
      exact unheard _ (task_eq ▸ silent_of_ticket (ticket_of_reach reach)) (setStore _ _)

/-- The timeline of a schedule is what its stages let the clients do to the outside. -/
theorem Schedule.timeline_toList (h : Schedule behave (initial source target states) log w) :
    w.timeline.toList = log.flatMap fun s => (s.effects behave).map fun e => (s.moment, e) := by
  induction h with
  | refl => rfl
  | snoc s _ ih => rw [timeline_next, ih, List.flatMap_append, List.flatMap_singleton]

/-- What is on the timeline of a schedule, without its moments. -/
theorem Schedule.map_timeline (h : Schedule behave (initial source target states) log w) :
    w.timeline.toList.map (·.2) = log.flatMap (Stage.effects behave) := by
  rw [h.timeline_toList, List.map_flatMap]
  refine List.flatMap_congr fun s _ => ?_
  rw [List.map_map]
  exact List.map_id _

/-- What a client does to the outside in a play. -/
def done (behave : Behaviour σ ε) (history : List (σ × Signal)) : List ε :=
  history.flatMap fun h => (behave h.1 h.2).effects

/-- What happens to the outside is what one client does, if no other is told anything. -/
theorem effects_alone {i : Nat} {log : List (Stage σ ε)}
    (alone : ∀ s ∈ log, ∀ t, s.told? = some t → t.client = i) :
    log.flatMap (Stage.effects behave) = done behave (heard i log) := by
  induction log with
  | nil => rfl
  | cons s log ih =>
      have later := ih fun s' mem => alone s' (List.mem_cons_of_mem _ mem)
      unfold heard at later ⊢
      rw [List.flatMap_cons, later, List.filterMap_cons]
      cases told : s.told? with
      | none => simp [Stage.effects, Stage.tells, told]
      | some t =>
          have own := alone s List.mem_cons_self t told
          simp [Stage.effects, Stage.tells, told, own, done]

/-- Of lists for the first numbers of which all but one are empty, that one is all of them
together. -/
theorem flatMap_range_single {α : Type} {n i : Nat} (bound : i < n) (l : List α) :
    ((List.range n).flatMap fun j => if i = j then l else []) = l := by
  induction n with
  | zero => cases bound
  | succ n ih =>
      rw [List.range_succ, List.flatMap_append, List.flatMap_singleton]
      by_cases last : i = n
      · subst last
        have before : ((List.range i).flatMap fun j => if i = j then l else []) = [] := by
          rw [List.flatMap_eq_nil_iff]
          intro j mem
          rw [if_neg (Nat.ne_of_gt (List.mem_range.1 mem))]
        rw [before, if_pos rfl, List.nil_append]
      · rw [ih (by omega), if_neg last, List.append_nil]

/-- What comes of all that is told is, but for its order, what comes of what each client is told. -/
theorem heard_perm {β : Type} (g : σ × Signal → List β) {n : Nat} {log : List (Stage σ ε)}
    (bound : ∀ s ∈ log, ∀ t, s.told? = some t → t.client < n) :
    (log.flatMap fun s => s.told?.elim [] fun t => g (t.state, t.signal)).Perm
      ((List.range n).flatMap fun i => (heard i log).flatMap g) := by
  induction log with
  | nil => simp [heard]
  | cons s log ih =>
      have cons : ∀ i, (heard i (s :: log)).flatMap g =
          (s.tells i).toList.flatMap g ++ (heard i log).flatMap g := by
        intro i
        unfold heard
        cases tells : s.tells i <;> simp [tells]
      have one : ((List.range n).flatMap fun i => (s.tells i).toList.flatMap g) =
          s.told?.elim [] fun t => g (t.state, t.signal) := by
        unfold Stage.tells
        cases told : s.told? with
        | none => simp
        | some t =>
            have each : ∀ i, (Option.bind (some t) fun t =>
                if t.client = i then some (t.state, t.signal) else none).toList.flatMap g =
                if t.client = i then g (t.state, t.signal) else [] := by
              intro i
              by_cases own : t.client = i <;> simp [own]
            simp only [each]
            exact flatMap_range_single (bound s List.mem_cons_self t told) _
      rw [List.flatMap_cons]
      refine ((ih fun s' mem => bound s' (List.mem_cons_of_mem _ mem)).append_left _).trans ?_
      rw [← one]
      refine (List.flatMap_append_perm _ _ _).trans ?_
      simp only [cons]
      exact .refl _

/-- What happens to the outside is, but for its order, what the clients do one by one. -/
theorem effects_perm {n : Nat} {log : List (Stage σ ε)}
    (bound : ∀ s ∈ log, ∀ t, s.told? = some t → t.client < n) :
    (log.flatMap (Stage.effects behave)).Perm
      ((List.range n).flatMap fun i => done behave (heard i log)) := by
  have perm := heard_perm (fun h => (behave h.1 h.2).effects) bound
  have same : ∀ s : Stage σ ε, (s.told?.elim [] fun t => (behave t.state t.signal).effects) =
      s.effects behave := by
    intro s
    unfold Stage.effects
    cases s.told? <;> rfl
  simp only [same] at perm
  exact perm

end ReplicaDiff.World
