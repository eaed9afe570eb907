/-
# ReplicaDiff.Proofs.World.Answered — a round brings what its own fetches ended with

In whatever order and however late tasks are fired, and whatever the stores do,
no fetch ends twice, and what a round is answered is what fetches of its own ended
with (`tracked`): an answer that comes too late, or that was meant for another
round, another side or another slot, is never taken for one of these.  So when a
round succeeds, each of its results is the answer of the fetch of its slot
(`Tracked.brought`).

The invariant counts, for each fetch, how often it is on the agenda and how often
it has ended: a stage that carries on with a fetch takes it off the agenda, and
puts it back or ends it (`errands_of_silent`).
-/
import ReplicaDiff.Proofs.World.Rounds

namespace ReplicaDiff.World

set_option autoImplicit false

open ReplicaDiff.Batch

variable {σ ε : Type} {behave : Behaviour σ ε}

/-- The fetch that a stage ends, and the answer with which it ends, if there is one. -/
def Stage.ended? (s : Stage σ ε) : Option (Ticket × Option Outcome) :=
  (s.taken.reach? s.task).bind fun reached =>
    match reached.2.2 with
    | .ended answer => some (reached.1, answer)
    | _ => none

/-- The fetches that stages have ended, in order, each with its answer. -/
def endsIn (log : List (Stage σ ε)) : List (Ticket × Option Outcome) := log.filterMap Stage.ended?

/-- A fetch has ended with an answer, and has not ended otherwise. -/
def Brought (log : List (Stage σ ε)) (t : Ticket) (outcome : Outcome) : Prop :=
  (endsIn log).filter (fun e => e.1 = t) = [(t, some outcome)]

/-- How often a fetch is on an agenda. -/
def errands (agenda : List (Nat × Task)) (t : Ticket) : Nat :=
  agenda.countP fun e => e.2.ticket? = some t

/-- How often a fetch has ended. -/
def endings (log : List (Stage σ ε)) (t : Ticket) : Nat := (endsIn log).countP fun e => e.1 = t

/-- The fetch of one slot of a round has ended with an answer. -/
def Replied (log : List (Stage σ ε)) (client serial : Nat) (keys : List String) (side : Side)
    (slot : Nat) (outcome : Outcome) : Prop :=
  ∃ key, keys[slot]? = some key ∧ (⟨client, serial, side, slot, key⟩, some outcome) ∈ endsIn log

/-- What a round holds, and what is in its inbox, is what fetches of its own ended with. -/
structure Genuine (log : List (Stage σ ε)) (client serial : Nat) (keys : List String) (r : Round) :
    Prop where
  gate : ∃ answer, r.gate.Holds keys answer ∧ ∀ side slot outcome,
    answer side slot = some outcome → Replied log client serial keys side slot outcome
  inbox : ∀ c ∈ r.inbox, Replied log client serial keys c.side c.slot c.outcome

/-- The fetches under way and those that have ended are those of the rounds that were sent; none is
there twice; and the rounds under way hold what their own fetches ended with. -/
structure Tracked (behave : Behaviour σ ε) (log : List (Stage σ ε)) (w : World σ ε) : Prop where
  serials : ∀ i c, w.clients[i]? = some c → c.serial = (sent behave (heard i log)).length
  once : ∀ t, errands w.agenda t + endings log t ≤ 1
  sent : ∀ t, 0 < errands w.agenda t + endings log t → Sent behave log t
  rounds : ∀ i c r, w.clients[i]? = some c → c.round = some r →
    ∃ earlier keys, World.sent behave (heard i log) = earlier ++ [keys] ∧
      Genuine log i c.serial keys r

/-! ## Fetches on the agenda -/

theorem endsIn_append (first second : List (Stage σ ε)) :
    endsIn (first ++ second) = endsIn first ++ endsIn second := List.filterMap_append

theorem endsIn_snoc (log : List (Stage σ ε)) (s : Stage σ ε) :
    endsIn (log ++ [s]) = endsIn log ++ s.ended?.toList := by
  rw [endsIn_append]
  unfold endsIn
  cases h : s.ended? <;> simp [h]

theorem endings_snoc (log : List (Stage σ ε)) (s : Stage σ ε) (t : Ticket) :
    endings (log ++ [s]) t = endings log t + s.ended?.toList.countP fun e => e.1 = t := by
  unfold endings
  rw [endsIn_snoc, List.countP_append]

theorem Replied.snoc {log : List (Stage σ ε)} {client serial slot : Nat} {keys : List String}
    {side : Side} {outcome : Outcome} (h : Replied log client serial keys side slot outcome)
    (s : Stage σ ε) : Replied (log ++ [s]) client serial keys side slot outcome := by
  obtain ⟨key, at_slot, mem⟩ := h
  exact ⟨key, at_slot, by rw [endsIn_snoc]; exact List.mem_append_left _ mem⟩

theorem Genuine.snoc {log : List (Stage σ ε)} {client serial : Nat} {keys : List String} {r : Round}
    (h : Genuine log client serial keys r) (s : Stage σ ε) :
    Genuine (log ++ [s]) client serial keys r := by
  obtain ⟨answer, holds, replied⟩ := h.gate
  exact ⟨⟨answer, holds, fun side slot outcome eq => (replied side slot outcome eq).snoc s⟩,
    fun c mem => (h.inbox c mem).snoc s⟩

theorem errands_taken (s : Stage σ ε) (t : Ticket) :
    errands s.world.agenda t =
      errands s.taken.agenda t + if s.task.ticket? = some t then 1 else 0 := by
  unfold errands
  rw [s.agenda_perm.countP_eq, List.countP_cons]
  simp [Stage.taken]

theorem errands_of_perm {agenda added rest : List (Nat × Task)}
    (perm : agenda.Perm (added ++ rest)) (t : Ticket) :
    errands agenda t = errands added t + errands rest t := by
  unfold errands
  rw [perm.countP_eq, List.countP_append]

theorem ended?_of_ended {s : Stage σ ε} {t : Ticket} {store : Store} {answer : Option Outcome}
    (reach : s.taken.reach? s.task = some (t, store, .ended answer)) :
    s.ended? = some (t, answer) := by
  unfold Stage.ended?
  rw [reach]
  rfl

theorem ended?_of_unended {s : Stage σ ε} {t : Ticket} {store : Store} {halt : Store.Halt}
    (reach : s.taken.reach? s.task = some (t, store, halt)) (unended : ∀ a, halt ≠ .ended a) :
    s.ended? = none := by
  unfold Stage.ended?
  rw [reach]
  cases halt with
  | asleep delay below ending => rfl
  | stalled => rfl
  | ended answer => exact absurd rfl (unended answer)

theorem ended?_of_ticket_none {s : Stage σ ε} (none : s.task.ticket? = none) : s.ended? = .none := by
  unfold Stage.ended?
  cases reach : s.taken.reach? s.task with
  | none => rfl
  | some reached =>
      obtain ⟨t, store, halt⟩ := reached
      rw [ticket_of_reach reach] at none
      cases none

theorem countP_ended (t' : Ticket) (answer : Option Outcome) (t : Ticket) :
    (some (t', answer)).toList.countP (fun e => e.1 = t) = if some t' = some t then 1 else 0 := by
  rw [Option.toList_some, List.countP_cons, List.countP_nil, Nat.zero_add]
  simp

/-- A stage that tells nobody anything takes a fetch off the agenda, and then puts it back, ends it
or leaves it hanging; it brings no other fetch onto the agenda. -/
theorem errands_of_silent (behave : Behaviour σ ε) {s : Stage σ ε} (silent : s.told? = none)
    (t : Ticket) :
    errands (s.next behave).agenda t + s.ended?.toList.countP (fun e => e.1 = t) ≤
      errands s.world.agenda t := by
  rw [errands_taken]
  have step := fired behave s
  generalize s.next behave = w' at step ⊢
  have idle : s.task.ticket? = none → w'.agenda = s.taken.agenda →
      errands w'.agenda t + s.ended?.toList.countP (fun e => e.1 = t) ≤
        errands s.taken.agenda t + if s.task.ticket? = some t then 1 else 0 := by
    intro ticket agenda
    rw [ended?_of_ticket_none ticket, agenda]
    exact Nat.le_add_right _ _
  generalize task_eq : s.task = task at step
  cases step with
  | told news present perm =>
      rw [← task_eq, news?_taken, silent] at news
      cases news
  | emptied present number round undecided => exact task_eq ▸ idle (by rw [task_eq]; rfl) rfl
  | idle silent ticket stale => exact task_eq ▸ idle (by rw [task_eq]; exact ticket) rfl
  | @asleep _ t' store delay below ending agenda reach perm =>
      subst task_eq
      rw [ended?_of_unended reach (by simp), ticket_of_reach reach]
      show errands agenda t + 0 ≤ _
      have back : errands agenda t = errands [(s.moment + delay, Task.resume t' below ending)] t +
          errands s.taken.agenda t := errands_of_perm perm t
      rw [back]
      simp [errands, List.countP_cons, Task.ticket?, Nat.add_comm]
  | @stalled _ t' store reach =>
      subst task_eq
      rw [ended?_of_unended reach (by simp)]
      show errands (s.taken.setStore t'.side store).agenda t + 0 ≤ _
      rw [agenda_setStore]
      exact Nat.le_add_right _ _
  | @missed _ t' store answer reach stale =>
      subst task_eq
      rw [ended?_of_ended reach, ticket_of_reach reach, countP_ended]
      refine Nat.le_of_eq ?_
      show errands (s.taken.setStore t'.side store).agenda t + _ = _
      rw [agenda_setStore]
  | @noted _ t' store answer c r agenda reach present number round perm =>
      subst task_eq
      have looks : errands (if r.wakes answer then [(s.moment, Task.look t'.client t'.serial)]
          else []) t = 0 := by
        split <;> simp [errands, Task.ticket?]
      rw [ended?_of_ended reach, ticket_of_reach reach, countP_ended]
      refine Nat.le_of_eq ?_
      show errands agenda t + _ = _
      rw [errands_of_perm perm, looks, Nat.zero_add]

/-- What a move puts on the agenda is, of fetches, each fetch of the round that it sends. -/
theorem isOf_of_mem_chores {now client serial : Nat} {move : Move} {e : Nat × Task} {t : Ticket}
    (mem : e ∈ chores now client serial move) (ticket : e.2.ticket? = some t) :
    ∃ keys timeout, move = .send keys timeout ∧ t.IsOf client serial keys := by
  cases move with
  | send keys timeout =>
      refine ⟨keys, timeout, rfl, ?_⟩
      simp only [chores] at mem
      split at mem
      · rw [List.mem_singleton.1 mem] at ticket
        cases ticket
      · rcases List.mem_cons.1 mem with rfl | mem
        · cases ticket
        · obtain ⟨task, listed, rfl⟩ := List.mem_map.1 mem
          obtain ⟨side, slot, key, at_slot, rfl⟩ := mem_fetches.1 listed
          cases ticket
          exact ⟨rfl, rfl, at_slot⟩
  | pause ticks =>
      rw [List.mem_singleton.1 mem] at ticket
      cases ticket
  | stop => cases mem

theorem errands_chores_le (now client serial : Nat) (move : Move) (t : Ticket) :
    errands (chores now client serial move) t ≤ 1 := by
  unfold errands
  rcases Nat.eq_zero_or_pos
    ((chores now client serial move).countP fun e => e.2.ticket? = some t) with zero | pos
  · rw [zero]
    exact Nat.zero_le 1
  · obtain ⟨e, mem, ticket⟩ := List.countP_pos_iff.1 pos
    obtain ⟨keys, timeout, rfl, own⟩ := isOf_of_mem_chores mem (of_decide_eq_true ticket)
    rw [List.countP_eq_length_filter, (filter_chores own).length_eq]
    exact Nat.le_refl 1

/-! ## Rounds under way -/

/-- What a stage that does not tell a client anything makes of its round. -/
inductive Carried (s : Stage σ ε) (client serial : Nat) (r : Round) : Round → Prop where
  | same : Carried s client serial r r
  | emptied : Carried s client serial r r.emptied
  | noted {t : Ticket} {answer : Option Outcome} (ended : s.ended? = some (t, answer))
      (client_eq : t.client = client) (serial_eq : t.serial = serial) :
      Carried s client serial r (r.noted t answer)

/-- A client that is told nothing keeps the number of its round, which at most takes up the end of one
of its own fetches or has its inbox emptied. -/
theorem carried_of_untold (behave : Behaviour σ ε) {s : Stage σ ε} {i : Nat}
    (untold : s.tells i = none) {c' : Client σ} (present' : (s.next behave).clients[i]? = some c') :
    ∃ c, s.world.clients[i]? = some c ∧ c'.serial = c.serial ∧
      ∀ r', c'.round = some r' → ∃ r, c.round = some r ∧ Carried s i c.serial r r' := by
  have step := fired behave s
  generalize s.next behave = w' at step present'
  have kept : s.world.clients[i]? = some c' → ∃ c, s.world.clients[i]? = some c ∧
      c'.serial = c.serial ∧
      ∀ r', c'.round = some r' → ∃ r, c.round = some r ∧ Carried s i c.serial r r' :=
    fun present => ⟨c', present, rfl, fun r' round => ⟨r', round, .same⟩⟩
  have replaced : ∀ {j : Nat} {c : Client σ} {r r' : Round}, s.world.clients[j]? = some c →
      c.round = some r → (j = i → Carried s i c.serial r r') →
      (s.world.clients.set j { c with round := some r' })[i]? = some c' →
      ∃ c, s.world.clients[i]? = some c ∧ c'.serial = c.serial ∧
        ∀ r', c'.round = some r' → ∃ r, c.round = some r ∧ Carried s i c.serial r r' := by
    intro j c r r' present round carried present'
    rcases of_getElem?_set present' with ⟨rfl, rfl⟩ | ⟨-, same⟩
    · refine ⟨c, present, rfl, fun r'' eq => ⟨r, round, ?_⟩⟩
      cases eq
      exact carried rfl
    · exact kept same
  generalize task_eq : s.task = task at step
  cases step with
  | @told _ j c signal agenda news present perm =>
      subst task_eq
      have other : j ≠ i := by
        rintro rfl
        rw [tells_of_told news, if_pos rfl] at untold
        cases untold
      rw [List.getElem?_set_ne other] at present'
      exact kept present'
  | emptied present number round undecided => exact replaced present round (fun _ => .emptied) present'
  | idle silent ticket stale => exact kept present'
  | asleep reach perm => exact kept (by rwa [clients_setStore] at present')
  | stalled reach => exact kept (by rwa [clients_setStore] at present')
  | missed reach stale => exact kept (by rwa [clients_setStore] at present')
  | noted reach present number round perm =>
      subst task_eq
      exact replaced present round
        (fun own => .noted (ended?_of_ended reach) own number.symm) present'

/-- Emptying its inbox leaves a round with what its own fetches ended with. -/
theorem Genuine.emptied {log : List (Stage σ ε)} {client serial : Nat} {keys : List String}
    {r : Round} (h : Genuine log client serial keys r) :
    Genuine log client serial keys r.emptied := by
  obtain ⟨answer, holds, replied⟩ := h.gate
  refine ⟨⟨_, holds.recordAll r.inbox, fun side slot outcome eq => ?_⟩, by simp [Round.emptied]⟩
  rcases Answers.of_putAll eq with before | arrived
  · exact replied side slot outcome before
  · exact h.inbox _ arrived

/-- So does taking up the end of a fetch of its own. -/
theorem Genuine.noted {log : List (Stage σ ε)} {client serial : Nat} {keys : List String} {r : Round}
    {t : Ticket} {answer : Option Outcome} (h : Genuine log client serial keys r)
    (own : t.IsOf client serial keys) (mem : (t, answer) ∈ endsIn log) :
    Genuine log client serial keys (r.noted t answer) := by
  refine ⟨h.gate, fun c here => ?_⟩
  unfold Round.noted at here
  dsimp only at here
  split at here
  · rename_i outcome
    rcases List.mem_append.1 here with before | new
    · exact h.inbox c before
    · rw [List.mem_singleton.1 new]
      obtain ⟨rfl, rfl, at_slot⟩ := own
      exact ⟨t.key, at_slot, mem⟩
  · exact h.inbox c here

/-! ## One stage -/

theorem mem_endsIn_of_ended? {log : List (Stage σ ε)} {s : Stage σ ε}
    {e : Ticket × Option Outcome} (ended : s.ended? = some e) : e ∈ endsIn (log ++ [s]) := by
  rw [endsIn_snoc, ended]
  simp

theorem endings_pos {log : List (Stage σ ε)} {e : Ticket × Option Outcome} (mem : e ∈ endsIn log) :
    0 < endings log e.1 :=
  List.countP_pos_iff.2 ⟨e, mem, by simp⟩

namespace Tracked

variable {log : List (Stage σ ε)}

/-- The round of a client that is told nothing still holds what its own fetches ended with. -/
theorem round_of_untold {s : Stage σ ε} (h : Tracked behave log s.world)
    (sent : ∀ t, 0 < endings (log ++ [s]) t → Sent behave (log ++ [s]) t) {i : Nat}
    (untold : s.tells i = none) {c' : Client σ} {r' : Round}
    (present' : (s.next behave).clients[i]? = some c') (round' : c'.round = some r') :
    ∃ earlier keys, World.sent behave (heard i (log ++ [s])) = earlier ++ [keys] ∧
      Genuine (log ++ [s]) i c'.serial keys r' := by
  have same : heard i (log ++ [s]) = heard i log := by
    rw [heard_snoc, untold, Option.toList_none, List.append_nil]
  obtain ⟨c, present, number, round⟩ := carried_of_untold behave untold present'
  obtain ⟨r, round, carried⟩ := round r' round'
  obtain ⟨earlier, keys, last, genuine⟩ := h.rounds i c r present round
  refine ⟨earlier, keys, by rw [same]; exact last, ?_⟩
  rw [number]
  cases carried with
  | same => exact genuine.snoc s
  | emptied => exact (genuine.snoc s).emptied
  | @noted t answer ended client serial =>
      subst client
      have mem : (t, answer) ∈ endsIn (log ++ [s]) := mem_endsIn_of_ended? ended
      have own := (sent t (endings_pos mem)).isOf_last (by rw [same]; exact last)
        (by rw [same, serial]; exact h.serials _ c present)
      rw [serial] at own
      exact (genuine.snoc s).noted own mem

/-- A stage that tells nobody anything. -/
theorem next_of_silent {s : Stage σ ε} (h : Tracked behave log s.world) (silent : s.told? = none) :
    Tracked behave (log ++ [s]) (s.next behave) := by
  have fewer : ∀ t, errands (s.next behave).agenda t + endings (log ++ [s]) t ≤
      errands s.world.agenda t + endings log t := by
    intro t
    have step := errands_of_silent behave silent t
    rw [endings_snoc]
    omega
  have sent : ∀ t, 0 < errands (s.next behave).agenda t + endings (log ++ [s]) t →
      Sent behave (log ++ [s]) t := fun t pos =>
    (h.sent t (Nat.lt_of_lt_of_le pos (fewer t))).snoc s
  constructor
  case serials => exact serials_next behave h.serials
  case once => exact fun t => Nat.le_trans (fewer t) (h.once t)
  case sent => exact sent
  case rounds =>
    intro i c' r' present' round'
    have untold : s.tells i = none := by simp [Stage.tells, silent]
    exact h.round_of_untold (fun t ended => sent t (Nat.add_pos_right _ ended)) untold present' round'

/-- A stage that tells a client something begins the round that the client sends. -/
theorem next_of_told {s : Stage σ ε} (h : Tracked behave log s.world) {client : Nat} {state : σ}
    {signal : Signal} (told : s.told? = some ⟨client, state, signal⟩) :
    Tracked behave (log ++ [s]) (s.next behave) := by
  have tells : ∀ i, s.tells i = if client = i then some (state, signal) else none := by
    intro i
    simp [Stage.tells, told]
  obtain ⟨c, news, -, present, after, perm⟩ :=
    reacts_of_tells behave (tells client ▸ if_pos rfl : s.tells client = some (state, signal))
  have heard_own : heard client (log ++ [s]) = heard client log ++ [(state, signal)] := by
    rw [heard_snoc, tells, if_pos rfl]
    rfl
  have ticket : s.task.ticket? = none := (news?_cases news).1
  have ends : ∀ t, endings (log ++ [s]) t = endings log t := by
    intro t
    rw [endings_snoc, ended?_of_ticket_none ticket]
    rfl
  let added := chores s.moment client (c.serial + 1) (behave state signal).move
  have agenda : ∀ t, errands (s.next behave).agenda t =
      errands added t + errands s.world.agenda t := by
    intro t
    rw [errands_of_perm perm, errands_taken s, ticket]
    simp [added]
  have number := h.serials client c present
  have new : ∀ t, 0 < errands added t →
      Sent behave (log ++ [s]) t ∧ errands s.world.agenda t + endings log t = 0 := by
    intro t pos
    obtain ⟨e, mem, eq⟩ := List.countP_pos_iff.1 pos
    obtain ⟨keys, timeout, move, rfl, serial, at_slot⟩ :=
      isOf_of_mem_chores mem (of_decide_eq_true eq)
    refine ⟨⟨c.serial, keys, serial, ?_, at_slot⟩, ?_⟩
    · rw [heard_own, sent_snoc, move, number, List.getElem?_append_right (Nat.le_refl _),
        Nat.sub_self]
      rfl
    · -- The rounds that were sent before have lower numbers.
      refine Nat.eq_zero_of_not_pos fun there => ?_
      obtain ⟨n, keys', serial', round, -⟩ := h.sent t there
      have bound := (List.getElem?_eq_some_iff.1 round).1
      omega
  have sent : ∀ t, 0 < errands (s.next behave).agenda t + endings (log ++ [s]) t →
      Sent behave (log ++ [s]) t := by
    intro t pos
    rw [agenda, ends, Nat.add_assoc] at pos
    rcases Nat.eq_zero_or_pos (errands s.world.agenda t + endings log t) with zero | old
    · exact (new t (by omega)).1
    · exact (h.sent t old).snoc s
  constructor
  case serials => exact serials_next behave h.serials
  case once =>
    intro t
    rw [agenda, ends]
    have old := h.once t
    rcases Nat.eq_zero_or_pos (errands added t) with zero | pos
    · omega
    · have one : errands added t ≤ 1 := errands_chores_le _ _ _ _ t
      have fresh := (new t pos).2
      omega
  case sent => exact sent
  case rounds =>
    intro i c' r' present' round'
    by_cases own : client = i
    · subst own
      rw [after] at present'
      cases present'
      unfold Client.after at round' ⊢
      cases move : (behave state signal).move with
      | send keys timeout =>
          rw [move] at round'
          cases round'
          refine ⟨World.sent behave (heard client log), keys, ?_,
            ⟨.none, Gate.ofKeys_holds keys, ?_⟩, ?_⟩
          · rw [heard_own, sent_snoc, move]
          · intro side slot outcome eq
            cases eq
          · intro c mem
            cases mem
      | pause ticks => rw [move] at round'; cases round'
      | stop => rw [move] at round'; cases round'
    · have untold : s.tells i = none := tells i ▸ if_neg own
      exact h.round_of_untold (fun t ended => sent t (Nat.add_pos_right _ ended)) untold
        present' round'

end Tracked

/-! ## Whole schedules -/

theorem tracked_initial (source target : Store) (states : List σ) :
    Tracked behave [] (initial source target states : World σ ε) := by
  have none : ∀ t, errands (initial source target states : World σ ε).agenda t = 0 := by
    intro t
    refine List.countP_eq_zero.2 fun e mem => ?_
    obtain ⟨i, -, rfl⟩ := List.mem_map.1 mem
    simp [Task.ticket?]
  have fresh : ∀ (i : Nat) (c : Client σ),
      (initial source target states : World σ ε).clients[i]? = some c →
        c.serial = 0 ∧ c.round = .none := by
    intro i c present
    obtain ⟨state, -, rfl⟩ := List.mem_map.1 (List.mem_of_getElem? present)
    exact ⟨rfl, rfl⟩
  constructor
  case serials => exact fun i c present => (fresh i c present).1
  case once =>
    intro t
    rw [none]
    exact Nat.zero_le 1
  case sent =>
    intro t pos
    rw [none] at pos
    cases pos
  case rounds =>
    intro i c r present round
    rw [(fresh i c present).2] at round
    cases round

variable {source target : Store} {states : List σ} {log : List (Stage σ ε)} {w : World σ ε}

/-- Whatever the stores do, and in whatever order tasks are fired, the rounds under way hold what
their own fetches ended with. -/
theorem Schedule.tracked (h : Schedule behave (initial source target states) log w) :
    Tracked behave log w := by
  induction h with
  | refl => exact tracked_initial source target states
  | snoc s earlier ih =>
      cases told : s.told? with
      | none => exact ih.next_of_silent told
      | some t => exact ih.next_of_told told

/-- A fetch that has ended with an answer has not ended otherwise. -/
theorem Tracked.brought_of_mem (h : Tracked behave log w) {t : Ticket} {outcome : Outcome}
    (mem : (t, some outcome) ∈ endsIn log) : Brought log t outcome := by
  have own : (t, some outcome) ∈ (endsIn log).filter fun e => e.1 = t :=
    List.mem_filter.2 ⟨mem, by simp⟩
  have one : ((endsIn log).filter fun e => e.1 = t).length ≤ 1 := by
    rw [← List.countP_eq_length_filter]
    exact Nat.le_trans (Nat.le_add_left _ _) (h.once t)
  unfold Brought
  generalize (endsIn log).filter (fun e => e.1 = t) = ends at own one
  match ends, own, one with
  | [e], own, _ => rw [List.mem_singleton.1 own]

/-- When a round succeeds, the result of each slot on each side is the answer of the fetch of that
slot. -/
theorem Tracked.answered {s : Stage σ ε} (h : Tracked behave log s.world) {client : Nat} {state : σ}
    {results : Results} (told : s.told? = some ⟨client, state, .settled (.ok results)⟩) :
    ∃ earlier keys, World.sent behave (heard client log) = earlier ++ [keys] ∧
      ∀ side slot key, keys[slot]? = some key → ∃ outcome,
        (results.of side)[slot]? = some ⟨key, some outcome⟩ ∧
          (⟨client, earlier.length + 1, side, slot, key⟩, some outcome) ∈ endsIn log := by
  have news := told
  rw [← news?_taken] at news
  obtain ⟨-, -, ⟨-, eq⟩ | ⟨-, eq⟩ | ⟨serial, expired, verdict, eq, settled, -⟩⟩ := news?_cases news
  · cases eq
  · cases eq
  · cases eq
    obtain ⟨r, under, decided⟩ := Option.bind_eq_some_iff.1 settled
    obtain ⟨c, present, number, round⟩ := underWay?_eq_some under
    obtain ⟨earlier, keys, last, genuine⟩ := h.rounds client c r present round
    obtain ⟨answer, holds, replied⟩ := genuine.emptied.gate
    have place : c.serial = earlier.length + 1 := by
      rw [h.serials client c present, last, List.length_append, List.length_singleton]
    refine ⟨earlier, keys, last, fun side slot key at_slot => ?_⟩
    obtain ⟨opened, rfl⟩ := verdict?_eq_ok_iff.1 decided
    have bound := (List.getElem?_eq_some_iff.1 at_slot).1
    obtain ⟨outcome, given⟩ := Option.isSome_iff_exists.1 (holds.isOpen_iff.1 opened side slot bound)
    obtain ⟨key', at_slot', mem⟩ := replied side slot outcome given
    rw [at_slot] at at_slot'
    cases at_slot'
    refine ⟨outcome, ?_, place ▸ mem⟩
    have slots : r.emptied.gate.results.of side = slotsOf keys (answer side) := by
      cases side with
      | source => exact holds.source
      | target => exact holds.target
    rw [slots, getElem?_slotsOf, at_slot, ← given]
    rfl

end ReplicaDiff.World
