/-
# ReplicaDiff.Proofs.World.Firing — what firing one task can do

`fired` says once what becomes of a world when a task is fired: a client is told
something, a round under way takes up the end of a fetch or has its inbox
emptied, a fetch goes to sleep, hangs or is too late, or nothing happens.  What
is said of the agenda is said up to its order.  Every invariant of a world is
derived from this case analysis.
-/
import ReplicaDiff.Proofs.World.Schedule

namespace ReplicaDiff

set_option autoImplicit false

variable {σ ε : Type}

/-- The client that a task is about. -/
def Task.client : Task → Nat
  | .begin client => client
  | .enter t => t.client
  | .resume t _ _ => t.client
  | .look client _ => client
  | .deadline client _ => client
  | .rested client => client

/-- The fetch that a task carries on with. -/
def Task.ticket? : Task → Option Ticket
  | .enter t => some t
  | .resume t _ _ => some t
  | _ => none

/-- A task that neither lets a client begin nor calls a fetch. -/
def Task.Follows (task : Task) : Prop := (∀ client, task ≠ .begin client) ∧ ∀ t, task ≠ .enter t

/-- The round with which a client begins to fetch some keys. -/
def Round.opened (keys : List String) (timeout : Duration) : Round :=
  ⟨Batch.Gate.ofKeys keys, [], 2 * keys.length, keys.isEmpty, timeout⟩

/-- A client after it has reacted. -/
def Client.after (c : Client σ) (r : Reaction σ ε) : Client σ :=
  match r.move with
  | .send keys timeout => ⟨r.state, c.serial + 1, some (.opened keys timeout), c.stopped⟩
  | .pause _ => ⟨r.state, c.serial, none, c.stopped⟩
  | .stop => ⟨r.state, c.serial, none, true⟩

theorem modify_eq_set_of_mem {α : Type} {l : List α} {i : Nat} {a : α} (f : α → α)
    (h : l[i]? = some a) : l.modify i f = l.set i (f a) := by
  apply List.ext_getElem?
  intro j
  rw [List.getElem?_modify, List.getElem?_set]
  by_cases same : i = j
  · subst same
    have bound : i < l.length := (List.getElem?_eq_some_iff.1 h).1
    rw [h]
    simp [bound]
  · simp [same]

theorem of_getElem?_set {α : Type} {l : List α} {i j : Nat} {a b : α}
    (h : (l.set i a)[j]? = some b) : (j = i ∧ b = a) ∨ (j ≠ i ∧ l[j]? = some b) := by
  rw [List.getElem?_set] at h
  split at h
  · rename_i same
    split at h
    · cases h
      exact .inl ⟨same.symm, rfl⟩
    · cases h
  · rename_i other
    exact .inr ⟨Ne.symm other, h⟩

namespace World

/-- The fetches of one key and its slot. -/
def fetchesOf (client serial : Nat) (e : String × Nat) : List Task :=
  [.enter ⟨client, serial, .source, e.2, e.1⟩, .enter ⟨client, serial, .target, e.2, e.1⟩]

theorem fetches_eq_flatMap (client serial : Nat) (keys : List String) :
    fetches client serial keys = keys.zipIdx.flatMap (fetchesOf client serial) := rfl

theorem mem_fetches {client serial : Nat} {keys : List String} {task : Task} :
    task ∈ fetches client serial keys ↔
      ∃ side slot key, keys[slot]? = some key ∧ task = .enter ⟨client, serial, side, slot, key⟩ := by
  rw [fetches_eq_flatMap, List.mem_flatMap]
  constructor
  · rintro ⟨⟨key, slot⟩, mem, task_mem⟩
    have present : keys[slot]? = some key := List.mem_zipIdx_iff_getElem?.1 mem
    rcases List.mem_cons.1 task_mem with rfl | task_mem
    · exact ⟨.source, slot, key, present, rfl⟩
    · rw [List.mem_singleton] at task_mem
      exact ⟨.target, slot, key, present, task_mem⟩
  · rintro ⟨side, slot, key, present, rfl⟩
    refine ⟨(key, slot), List.mem_zipIdx_iff_getElem?.2 present, ?_⟩
    cases side <;> simp [fetchesOf]

/-- What a move of a client puts on the agenda; `serial` is the number of its next round. -/
def chores (now client serial : Nat) : Move → List (Nat × Task)
  | .send keys timeout =>
      if keys.isEmpty then [(now, .look client serial)]
      else (now + timeout.ticks, .deadline client serial) ::
        (fetches client serial keys).map fun task => (now, task)
  | .pause ticks => [(now + ticks, .rested client)]
  | .stop => []

/-- What a move puts on the agenda is due no earlier than now. -/
theorem le_of_mem_chores {now client serial : Nat} {move : Move} {e : Nat × Task}
    (mem : e ∈ chores now client serial move) : now ≤ e.1 := by
  cases move with
  | send keys timeout =>
      simp only [chores] at mem
      split at mem
      · obtain rfl := List.mem_singleton.1 mem
        exact Nat.le_refl _
      · rcases List.mem_cons.1 mem with rfl | mem
        · exact Nat.le_add_right _ _
        · obtain ⟨task, -, rfl⟩ := List.mem_map.1 mem
          exact Nat.le_refl _
  | pause ticks =>
      simp only [chores, List.mem_singleton] at mem
      rw [mem]
      exact Nat.le_add_right _ _
  | stop => cases mem

/-- A move puts looking into a round, its deadline and its fetches on the agenda, or the end of a
pause. -/
theorem task_of_mem_chores {now client serial : Nat} {move : Move} {e : Nat × Task}
    (mem : e ∈ chores now client serial move) :
    e.2 = .look client serial ∨ e.2 = .deadline client serial ∨ e.2 = .rested client ∨
      ∃ side slot key, e.2 = .enter ⟨client, serial, side, slot, key⟩ := by
  cases move with
  | send keys timeout =>
      simp only [chores] at mem
      split at mem
      · rw [List.mem_singleton.1 mem]
        exact .inl rfl
      · rcases List.mem_cons.1 mem with rfl | mem
        · exact .inr (.inl rfl)
        · obtain ⟨task, fetched, rfl⟩ := List.mem_map.1 mem
          obtain ⟨side, slot, key, -, rfl⟩ := mem_fetches.1 fetched
          exact .inr (.inr (.inr ⟨side, slot, key, rfl⟩))
  | pause ticks =>
      rw [List.mem_singleton.1 mem]
      exact .inr (.inr (.inl rfl))
  | stop => cases mem

/-- Where the fetch that a task carries on with stands then, and what becomes of its store. -/
def reach? (w : World σ ε) : Task → Option (Ticket × Store × Store.Halt)
  | .enter t => some (t, (w.store t.side).call t.key)
  | .resume t below ending => some (t, (w.store t.side).resume t.key below ending)
  | _ => none

theorem clients_setStore (w : World σ ε) (side : Side) (store : Store) :
    (w.setStore side store).clients = w.clients := by
  cases side <;> rfl

theorem agenda_setStore (w : World σ ε) (side : Side) (store : Store) :
    (w.setStore side store).agenda = w.agenda := by
  cases side <;> rfl

theorem store_congr {w w' : World σ ε} (source : w'.source = w.source)
    (target : w'.target = w.target) (side : Side) : w'.store side = w.store side := by
  cases side with
  | source => exact source
  | target => exact target

theorem store_setStore (w : World σ ε) (side side' : Side) (store : Store) :
    (w.setStore side store).store side' = if side = side' then store else w.store side' := by
  cases side <;> cases side' <;> rfl

theorem underWay?_setStore (w : World σ ε) (side : Side) (store : Store) (client serial : Nat) :
    (w.setStore side store).underWay? client serial = w.underWay? client serial := by
  unfold underWay?
  rw [clients_setStore]

theorem underWay?_eq_some {w : World σ ε} {client serial : Nat} {r : Round}
    (h : w.underWay? client serial = some r) :
    ∃ c, w.clients[client]? = some c ∧ c.serial = serial ∧ c.round = some r := by
  unfold underWay? at h
  split at h
  · cases h
  · rename_i c present
    split at h
    · rename_i current
      exact ⟨c, present, current, h⟩
    · cases h

theorem underWay?_of_client {w : World σ ε} {client : Nat} {c : Client σ} {r : Round}
    (present : w.clients[client]? = some c) (round : c.round = some r) :
    w.underWay? client c.serial = some r := by
  simp [underWay?, present, round]

/-! ## Telling a client something -/

theorem scheduleNow_agenda (tasks : List Task) (w : World σ ε) :
    ∃ agenda, w.scheduleNow tasks = { w with agenda } ∧
      agenda.Perm ((tasks.map fun task => (w.now, task)) ++ w.agenda) := by
  induction tasks generalizing w with
  | nil => exact ⟨w.agenda, rfl, .refl _⟩
  | cons task tasks ih =>
      obtain ⟨agenda, eq, perm⟩ := ih (w.schedule w.now task)
      refine ⟨agenda, eq, perm.trans ?_⟩
      exact ((enlist_perm w.now task w.agenda).append_left _).trans List.perm_middle

theorem openRound_agenda (w : World σ ε) (client serial : Nat) (keys : List String)
    (timeout : Duration) :
    ∃ agenda, w.openRound client serial keys timeout =
        { w.update client fun c => { c with serial, round := some (.opened keys timeout) } with
          agenda } ∧
      agenda.Perm (chores w.now client serial (.send keys timeout) ++ w.agenda) := by
  unfold openRound chores
  dsimp only
  split
  · exact scheduleNow_agenda _ _
  · obtain ⟨agenda, eq, perm⟩ := scheduleNow_agenda (fetches client serial keys)
      ((w.update client fun c => { c with serial, round := some (.opened keys timeout) }).schedule
        (w.now + timeout.ticks) (.deadline client serial))
    refine ⟨agenda, eq, perm.trans ?_⟩
    exact ((enlist_perm _ _ w.agenda).append_left _).trans List.perm_middle

/-- Telling a client something lets the client react, notes what it does, and puts its move on the
agenda. -/
theorem tell_eq (behave : Behaviour σ ε) (w : World σ ε) {client : Nat} {c : Client σ}
    (present : w.clients[client]? = some c) (signal : Signal) :
    ∃ agenda, w.tell behave client signal =
        { w with
          agenda
          clients := w.clients.set client (c.after (behave c.state signal))
          timeline :=
            (behave c.state signal).effects.foldl (fun t e => t.push (w.now, e)) w.timeline } ∧
      agenda.Perm
        (chores w.now client (c.serial + 1) (behave c.state signal).move ++ w.agenda) := by
  unfold tell
  rw [present]
  dsimp only
  generalize behave c.state signal = reaction
  have changed := modify_eq_set_of_mem (fun c => { c with state := reaction.state, round := none })
    present
  unfold Client.after
  cases reaction.move with
  | send keys timeout =>
      obtain ⟨agenda, eq, perm⟩ := openRound_agenda
        ({ w.update client fun c => { c with state := reaction.state, round := none } with
          timeline := reaction.effects.foldl (fun t e => t.push (w.now, e)) w.timeline })
        client (c.serial + 1) keys timeout
      refine ⟨agenda, eq.trans ?_, perm⟩
      simp only [update, List.modify_modify_eq]
      rw [modify_eq_set_of_mem _ present]
      rfl
  | pause ticks =>
      refine ⟨_, ?_, enlist_perm (w.now + ticks) (.rested client) w.agenda⟩
      simp only [update, schedule]
      rw [changed]
  | stop =>
      refine ⟨w.agenda, ?_, .refl _⟩
      simp only [update, List.modify_modify_eq]
      rw [modify_eq_set_of_mem _ present]
      rfl

/-! ## Firing a task -/

/-- What becomes of a world when a task that has been taken off its agenda is fired at `moment`. -/
inductive Fired (behave : Behaviour σ ε) (w : World σ ε) (moment : Nat) :
    Task → World σ ε → Prop where
  /-- A client is told something. -/
  | told {task : Task} {client : Nat} {c : Client σ} {signal : Signal}
      {agenda : List (Nat × Task)}
      (news : w.news? task = some ⟨client, c.state, signal⟩)
      (present : w.clients[client]? = some c)
      (perm : agenda.Perm
        (chores moment client (c.serial + 1) (behave c.state signal).move ++ w.agenda)) :
      Fired behave w moment task
        { w with
          now := moment
          agenda
          clients := w.clients.set client (c.after (behave c.state signal))
          timeline :=
            (behave c.state signal).effects.foldl (fun t e => t.push (moment, e)) w.timeline }
  /-- The inbox of a round is emptied, but the round is not decided. -/
  | emptied {client serial : Nat} {c : Client σ} {r : Round}
      (present : w.clients[client]? = some c) (number : c.serial = serial)
      (round : c.round = some r) (undecided : verdict? r.emptied false = none) :
      Fired behave w moment (.look client serial)
        { w with
          now := moment
          clients := w.clients.set client { c with round := some r.emptied } }
  /-- There is no client to tell anything, or no round to look into. -/
  | idle {task : Task} (silent : w.news? task = none) (ticket : task.ticket? = none)
      (stale : ∀ client serial, task = .look client serial → w.underWay? client serial = none) :
      Fired behave w moment task { w with now := moment }
  /-- A fetch goes to sleep. -/
  | asleep {task : Task} {t : Ticket} {store : Store} {delay below : Nat} {ending : Store.Ending}
      {agenda : List (Nat × Task)}
      (reach : w.reach? task = some (t, store, .asleep delay below ending))
      (perm : agenda.Perm ((moment + delay, .resume t below ending) :: w.agenda)) :
      Fired behave w moment task { w.setStore t.side store with now := moment, agenda }
  /-- A fetch will never end. -/
  | stalled {task : Task} {t : Ticket} {store : Store}
      (reach : w.reach? task = some (t, store, .stalled)) :
      Fired behave w moment task { w.setStore t.side store with now := moment }
  /-- A fetch ends after its round has been settled. -/
  | missed {task : Task} {t : Ticket} {store : Store} {answer : Option Outcome}
      (reach : w.reach? task = some (t, store, .ended answer))
      (stale : w.underWay? t.client t.serial = none) :
      Fired behave w moment task { w.setStore t.side store with now := moment }
  /-- A fetch of a round under way ends. -/
  | noted {task : Task} {t : Ticket} {store : Store} {answer : Option Outcome}
      {c : Client σ} {r : Round} {agenda : List (Nat × Task)}
      (reach : w.reach? task = some (t, store, .ended answer))
      (present : w.clients[t.client]? = some c) (number : c.serial = t.serial)
      (round : c.round = some r)
      (perm : agenda.Perm
        ((if r.wakes answer then [(moment, .look t.client t.serial)] else []) ++ w.agenda)) :
      Fired behave w moment task
        { w.setStore t.side store with
          now := moment
          agenda
          clients := w.clients.set t.client { c with round := some (r.noted t answer) } }

theorem fired_tell {behave : Behaviour σ ε} {w : World σ ε} {task : Task} {client : Nat}
    {signal : Signal} (moment : Nat) (ticket : task.ticket? = none)
    (look : ∀ client serial, task = .look client serial → w.news? task ≠ none)
    (news : w.news? task = w.tellTo? client signal) :
    Fired behave w moment task ({ w with now := moment }.tell behave client signal) := by
  cases present : w.clients[client]? with
  | none =>
      have silent : w.news? task = none := by rw [news]; simp [tellTo?, present]
      rw [show ({ w with now := moment } : World σ ε).tell behave client signal =
        { w with now := moment } by simp [tell, present]]
      exact .idle silent ticket fun i n eq => absurd silent (look i n eq)
  | some c =>
      obtain ⟨agenda, eq, perm⟩ := tell_eq behave ({ w with now := moment } : World σ ε) present signal
      rw [eq]
      refine .told (c := c) ?_ present perm
      rw [news]
      simp [tellTo?, present]

section Settle

variable {behave : Behaviour σ ε} {w : World σ ε} {client serial : Nat} {expired : Bool} {r : Round}

theorem verdict?_eq_ok_iff {results : Batch.Results} :
    verdict? r expired = some (.ok results) ↔
      r.gate.isOpen = true ∧ r.gate.results = results := by
  unfold verdict?
  split
  · simp [*]
  · split
    · simp [*]
    · split <;> simp [*]

theorem verdict?_eq_error_iff {error : Batch.Error} :
    verdict? r expired = some (.error error) ↔
      r.gate.isOpen = false ∧
        (r.running = 0 ∧
            .channelClosed (r.gate.pendingSource + r.gate.pendingTarget) = error ∨
          r.running ≠ 0 ∧ expired = true ∧
            .timeout r.gate.source.length r.timeout.secs r.gate.pendingSource
              r.gate.pendingTarget = error) := by
  unfold verdict?
  split
  · simp [*]
  · split
    · simp [*]
    · split <;> simp [*]

theorem verdict?_eq_none_iff :
    verdict? r expired = none ↔
      r.gate.isOpen = false ∧ r.running ≠ 0 ∧ expired = false := by
  unfold verdict?
  split
  · simp [*]
  · split
    · simp [*]
    · split <;> simp [*]

/-- Once its time is up there is a verdict on a round. -/
theorem exists_verdict_of_expired (r : Round) : ∃ verdict, verdict? r true = some verdict := by
  refine Option.ne_none_iff_exists'.1 fun none => ?_
  cases (verdict?_eq_none_iff.1 none).2.2

theorem settle_of_missed (under : w.underWay? client serial = none) :
    w.settle behave client serial expired = w := by
  simp only [settle, under]

theorem settle_of_decided {verdict : Except Batch.Error Batch.Results}
    (under : w.underWay? client serial = some r)
    (decided : verdict? r.emptied expired = some verdict) :
    w.settle behave client serial expired = w.tell behave client (.settled verdict) := by
  simp only [settle, under, decided]

theorem settle_of_undecided (under : w.underWay? client serial = some r)
    (undecided : verdict? r.emptied expired = none) :
    w.settle behave client serial expired =
      w.update client fun c => { c with round := some r.emptied } := by
  simp only [settle, under, undecided]

end Settle

theorem fired_settle {behave : Behaviour σ ε} {w : World σ ε} {task : Task}
    {client serial : Nat} {expired : Bool} (moment : Nat)
    (kind : task = .look client serial ∧ expired = false ∨
      task = .deadline client serial ∧ expired = true) :
    Fired behave w moment task ({ w with now := moment }.settle behave client serial expired) := by
  have ticket : task.ticket? = none := by
    rcases kind with ⟨rfl, -⟩ | ⟨rfl, -⟩ <;> rfl
  have news : w.news? task =
      (w.settlement? client serial expired).bind fun v => w.tellTo? client (.settled v) := by
    rcases kind with ⟨rfl, rfl⟩ | ⟨rfl, rfl⟩ <;> rfl
  let v : World σ ε := { w with now := moment }
  cases under : w.underWay? client serial with
  | none =>
      rw [show v.settle behave client serial expired = v from settle_of_missed under]
      refine .idle ?_ ticket ?_
      · rw [news]
        simp [settlement?, under]
      · intro i n eq
        rcases kind with ⟨rfl, -⟩ | ⟨rfl, -⟩
        · cases eq
          exact under
        · cases eq
  | some r =>
      obtain ⟨c, present, number, round⟩ := underWay?_eq_some under
      cases decided : verdict? r.emptied expired with
      | some verdict =>
          rw [show v.settle behave client serial expired = _ from settle_of_decided under decided]
          refine fired_tell moment ticket ?_ ?_
          · intro i n _
            rw [news]
            simp [settlement?, under, decided, tellTo?, present]
          · rw [news]
            simp [settlement?, under, decided]
      | none =>
          rw [show v.settle behave client serial expired = _ from settle_of_undecided under decided]
          rcases kind with ⟨rfl, rfl⟩ | ⟨rfl, rfl⟩
          · rw [show v.update client (fun c => { c with round := some r.emptied }) =
              { v with clients := w.clients.set client { c with round := some r.emptied } } by
              unfold update
              rw [show v.clients = w.clients from rfl, modify_eq_set_of_mem _ present]]
            exact .emptied present number round decided
          · cases (verdict?_eq_none_iff.1 decided).2.2

theorem fired_advance {behave : Behaviour σ ε} {w : World σ ε} {task : Task} {t : Ticket}
    {store : Store} {halt : Store.Halt} (moment : Nat)
    (reach : w.reach? task = some (t, store, halt)) :
    Fired behave w moment task
      ((({ w with now := moment } : World σ ε).setStore t.side store).advance t halt) := by
  have moved : (({ w with now := moment } : World σ ε).setStore t.side store) =
      { w.setStore t.side store with now := moment } := by
    cases t.side <;> rfl
  rw [moved]
  have same : (w.setStore t.side store).agenda = w.agenda := by cases t.side <;> rfl
  cases halt with
  | asleep delay below ending =>
      refine .asleep reach ?_
      exact (enlist_perm _ _ _).trans (by rw [same])
  | stalled => exact .stalled reach
  | ended answer =>
      unfold advance report
      have under : ({ w.setStore t.side store with now := moment } : World σ ε).underWay?
          t.client t.serial = w.underWay? t.client t.serial := underWay?_setStore w _ _ _ _
      rw [under]
      cases current : w.underWay? t.client t.serial with
      | none => exact .missed reach current
      | some r =>
          obtain ⟨c, present, number, round⟩ := underWay?_eq_some current
          have updated : ({ w.setStore t.side store with now := moment } : World σ ε).update t.client
              (fun c => { c with round := some (r.noted t answer) }) =
              { w.setStore t.side store with
                now := moment
                clients := w.clients.set t.client { c with round := some (r.noted t answer) } } := by
            unfold update
            rw [clients_setStore, modify_eq_set_of_mem _ present]
          dsimp only
          rw [updated]
          cases wakes : r.wakes answer with
          | false =>
              refine .noted reach present number round ?_
              simp [wakes, same]
          | true =>
              obtain ⟨agenda, eq, perm⟩ := scheduleNow_agenda [.look t.client t.serial]
                { w.setStore t.side store with
                  now := moment
                  clients := w.clients.set t.client { c with round := some (r.noted t answer) } }
              simp only [↓reduceIte]
              rw [eq]
              refine .noted reach present number round (perm.trans ?_)
              simp [wakes, same]

theorem news?_taken (s : Stage σ ε) : s.taken.news? s.task = s.told? := by
  unfold Stage.told?
  cases s.task <;> rfl

/-- Every stage does one of these things. -/
theorem fired (behave : Behaviour σ ε) (s : Stage σ ε) :
    Fired behave s.taken s.moment s.task (s.next behave) := by
  unfold Stage.next fire
  cases task : s.task with
  | begin client => exact fired_tell _ rfl (by simp) rfl
  | rested client => exact fired_tell _ rfl (by simp) rfl
  | enter t => exact fired_advance _ rfl
  | resume t below ending => exact fired_advance _ rfl
  | look client serial => exact fired_settle _ (.inl ⟨rfl, rfl⟩)
  | deadline client serial => exact fired_settle _ (.inr ⟨rfl, rfl⟩)

/-- What a stage puts on the agenda is due no earlier than the stage, and is called for by the move
of a client or follows what was on the agenda before. -/
theorem agenda_next (behave : Behaviour σ ε) (s : Stage σ ε) :
    ∃ added, (s.next behave).agenda.Perm (added ++ s.taken.agenda) ∧ ∀ e ∈ added, s.moment ≤ e.1 ∧
      (e.2.Follows ∨ ∃ (client : Nat) (c : Client σ) (signal : Signal),
        s.taken.news? s.task = some ⟨client, c.state, signal⟩ ∧
        e ∈ chores s.moment client (c.serial + 1) (behave c.state signal).move) := by
  have step := fired behave s
  generalize s.next behave = w' at step ⊢
  generalize s.task = task at step ⊢
  cases step with
  | @told task client c signal agenda news present perm =>
      exact ⟨_, perm, fun e mem => ⟨le_of_mem_chores mem, .inr ⟨client, c, signal, news, mem⟩⟩⟩
  | emptied => exact ⟨[], .refl _, by simp⟩
  | idle => exact ⟨[], .refl _, by simp⟩
  | @asleep task t store delay below ending agenda reach perm =>
      refine ⟨[_], perm, fun e mem => ?_⟩
      rw [List.mem_singleton.1 mem]
      exact ⟨Nat.le_add_right _ _, .inl (by simp [Task.Follows])⟩
  | stalled => exact ⟨[], .of_eq (agenda_setStore _ _ _), by simp⟩
  | missed => exact ⟨[], .of_eq (agenda_setStore _ _ _), by simp⟩
  | noted reach present number round perm =>
      refine ⟨_, perm, fun e mem => ?_⟩
      split at mem
      · rw [List.mem_singleton.1 mem]
        exact ⟨Nat.le_refl _, .inl (by simp [Task.Follows])⟩
      · cases mem

/-- After a stage the clock stands at its moment. -/
theorem now_next (behave : Behaviour σ ε) (s : Stage σ ε) : (s.next behave).now = s.moment := by
  have step := fired behave s
  generalize s.next behave = w' at step ⊢
  generalize s.task = task at step
  cases step <;> rfl

end World

end ReplicaDiff
