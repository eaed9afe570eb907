/-
# ReplicaDiff.Proofs.World.Rounds — the calls of the rounds that clients send

In a prompt schedule over stores that deal fates by rules, the calls that stores
receive are those of the rounds that clients have sent (`Called`): each fetch of a
round that is no longer under way has been called once, and a client's calls for
one round come before those for the next.

So the calls for a key that only one client asks for can be counted by rounds
(`Called.callsFor_eq`), and those before a call of the last round are the rounds
before it (`Called.callsFor_earlier`).
-/
import ReplicaDiff.Proofs.World.Timed

namespace ReplicaDiff.World

set_option autoImplicit false

open ReplicaDiff.Batch

variable {σ ε : Type} {behave : Behaviour σ ε}

/-- The keys of the rounds that a client has sent, in order. -/
def sent (behave : Behaviour σ ε) (history : List (σ × Signal)) : List (List String) :=
  history.filterMap fun h =>
    match (behave h.1 h.2).move with
    | .send keys _ => some keys
    | _ => none

theorem sent_snoc (history : List (σ × Signal)) (state : σ) (signal : Signal) :
    sent behave (history ++ [(state, signal)]) = sent behave history ++
      match (behave state signal).move with
      | .send keys _ => [keys]
      | _ => [] := by
  unfold sent
  rw [List.filterMap_append]
  cases h : (behave state signal).move <;> simp [h]

/-- The round under way is the one that was sent last. -/
theorem Play.sent_last {start s : σ} {history : List (σ × Signal)} {keys : List String}
    {timeout : Duration} (play : Play behave start history s (.fetching keys timeout)) :
    ∃ earlier, sent behave history = earlier ++ [keys] := by
  generalize phase : Phase.fetching keys timeout = p at play
  cases play with
  | fresh => cases phase
  | @told history s p signal earlier admits =>
      rw [sent_snoc]
      cases move : (behave s signal).move with
      | send keys' timeout' =>
          rw [move] at phase
          cases phase
          exact ⟨_, rfl⟩
      | pause ticks => rw [move] at phase; cases phase
      | stop => rw [move] at phase; cases phase

/-- A fetch is one of a round that its client has sent. -/
def Sent (behave : Behaviour σ ε) (log : List (Stage σ ε)) (t : Ticket) : Prop :=
  ∃ n keys, t.serial = n + 1 ∧ (sent behave (heard t.client log))[n]? = some keys ∧
    keys[t.slot]? = some t.key

/-- The calls that have been made are those of the rounds that have been sent. -/
structure Called (behave : Behaviour σ ε) (log : List (Stage σ ε)) (w : World σ ε) : Prop where
  serials : ∀ i c, w.clients[i]? = some c → c.serial = (sent behave (heard i log)).length
  sent : ∀ t ∈ callsIn log, Sent behave log t
  once : ∀ t, Sent behave log t → w.underWay? t.client t.serial = none → (callsIn log).count t = 1
  ordered : (callsIn log).Pairwise fun a b => a.client = b.client → a.serial ≤ b.serial

/-! ## One stage -/

/-- A stage changes the state and the number of a client only by telling it something. -/
theorem client_next (behave : Behaviour σ ε) (s : Stage σ ε) (i : Nat) :
    match s.tells i with
    | none => (s.next behave).lastRound i = s.world.lastRound i
    | some (state, signal) => ∃ c, s.world.clients[i]? = some c ∧ c.state = state ∧
        (s.next behave).clients[i]? = some (c.after (behave state signal)) := by
  cases tells : s.tells i with
  | some told =>
      obtain ⟨c, -, same, present, after, -⟩ := reacts_of_tells behave tells
      exact ⟨c, present, same, after⟩
  | none =>
      show (s.next behave).lastRound i = s.world.lastRound i
      have step := fired behave s
      generalize s.next behave = w' at step ⊢
      generalize task_eq : s.task = task at step
      cases step with
      | @told task client c signal agenda news present perm =>
          subst task_eq
          have other : client ≠ i := by
            rintro rfl
            rw [tells_of_told news, if_pos rfl] at tells
            cases tells
          show Option.map _ ((s.taken.clients.set client _)[i]?) = _
          rw [List.getElem?_set_ne other]
          rfl
      | emptied present number round undecided => exact lastRound_set (w := s.taken) present round i
      | idle silent ticket stale => rfl
      | asleep reach perm => exact lastRound_setStore _ _ _ i
      | stalled reach => exact lastRound_setStore _ _ _ i
      | missed reach stale => exact lastRound_setStore _ _ _ i
      | noted reach present number round perm => exact lastRound_set (w := s.taken) present round i

/-- A client numbers its rounds in the order in which it sends them, whatever the stage does. -/
theorem serials_next (behave : Behaviour σ ε) {log : List (Stage σ ε)} {s : Stage σ ε}
    (serials : ∀ i c, s.world.clients[i]? = some c →
      c.serial = (World.sent behave (heard i log)).length) :
    ∀ i c, (s.next behave).clients[i]? = some c →
      c.serial = (World.sent behave (heard i (log ++ [s]))).length := by
  intro i c' present'
  have client := client_next behave s i
  rw [heard_snoc]
  cases tells : s.tells i with
  | none =>
      rw [tells] at client
      obtain ⟨c, present, same⟩ := serial_of_lastRound client present'
      rw [← same, serials i c present, Option.toList_none, List.append_nil]
  | some told =>
      obtain ⟨state, signal⟩ := told
      rw [tells] at client
      obtain ⟨c, present, -, after⟩ := client
      rw [after] at present'
      cases present'
      rw [Option.toList_some, sent_snoc, List.length_append, ← serials i c present]
      unfold Client.after
      cases (behave state signal).move <;> rfl

theorem Sent.snoc {log : List (Stage σ ε)} {t : Ticket} (h : Sent behave log t) (s : Stage σ ε) :
    Sent behave (log ++ [s]) t := by
  obtain ⟨n, keys, serial, round, key⟩ := h
  refine ⟨n, keys, serial, ?_, key⟩
  rw [heard_snoc]
  unfold World.sent at round ⊢
  rw [List.filterMap_append]
  have bound := (List.getElem?_eq_some_iff.1 round).1
  rw [List.getElem?_append_left bound]
  exact round

/-- A fetch of the last round that its client has sent is one of the keys of that round. -/
theorem Sent.isOf_last {log : List (Stage σ ε)} {t : Ticket} {earlier : List (List String)}
    {keys : List String} (h : Sent behave log t)
    (last : World.sent behave (heard t.client log) = earlier ++ [keys])
    (number : t.serial = (World.sent behave (heard t.client log)).length) :
    t.IsOf t.client t.serial keys := by
  obtain ⟨n, keys', serial, round, at_slot⟩ := h
  rw [last, List.length_append, List.length_singleton, serial] at number
  have place : n = earlier.length := by omega
  rw [last, place, List.getElem?_append_right (Nat.le_refl _), Nat.sub_self] at round
  cases round
  exact ⟨rfl, rfl, at_slot⟩

/-- What has been sent after one more stage was sent before, or its round is under way. -/
theorem Sent.of_snoc {log : List (Stage σ ε)} {s : Stage σ ε} {t : Ticket}
    (h : Sent behave (log ++ [s]) t)
    (serials : ∀ i c, s.world.clients[i]? = some c →
      c.serial = (World.sent behave (heard i log)).length)
    (ended : (s.next behave).underWay? t.client t.serial = none) : Sent behave log t := by
  obtain ⟨n, keys, serial, round, key⟩ := h
  refine ⟨n, keys, serial, ?_, key⟩
  have client := client_next behave s t.client
  rw [heard_snoc] at round
  cases tells : s.tells t.client with
  | none =>
      rw [tells] at round
      simpa using round
  | some told =>
      obtain ⟨state, signal⟩ := told
      rw [tells] at round client
      obtain ⟨c, present, -, present'⟩ := client
      rw [Option.toList_some, sent_snoc] at round
      cases move : (behave state signal).move with
      | send keys' timeout =>
          rw [move] at round
          dsimp only at round
          rw [List.getElem?_append] at round
          split at round
          · exact round
          · rename_i beyond
            -- The round that has just been sent is under way.
            have last : n = (World.sent behave (heard t.client log)).length := by
              have := (List.getElem?_eq_some_iff.1 round).1
              rw [List.length_singleton] at this
              omega
            have under := underWay?_of_client (w := s.next behave)
              (r := .opened keys' timeout) present' (by simp [Client.after, move])
            have number : (c.after (behave state signal)).serial = t.serial := by
              rw [serial, last, ← serials t.client c present]
              simp [Client.after, move]
            rw [number, ended] at under
            cases under
      | pause ticks =>
          rw [move] at round
          simpa using round
      | stop =>
          rw [move] at round
          simpa using round

/-- Each fetch of a round that has been settled has been called once. -/
theorem Called.count_of_settled {rules : Side → Rule} {log : List (Stage σ ε)} {w : World σ ε}
    (h : Called behave log w) {t : Ticket} {c : Client σ} {opened moment : Nat} {keys : List String}
    {timeout : Duration} {verdict : Except Batch.Error Results} {p : Places}
    (present : w.clients[t.client]? = some c)
    (settled : Settled rules t.client c.serial opened keys timeout (callsIn log) moment verdict p)
    (last : ∃ earlier, World.sent behave (heard t.client log) = earlier ++ [keys])
    (own : Sent behave log t) (number : c.serial = t.serial) : (callsIn log).count t = 1 := by
  obtain ⟨before, last⟩ := last
  have listed := own.isOf_last last (number ▸ h.serials t.client c present)
  exact settled.count t ⟨rfl, number.symm, listed.key⟩

/-- When a round has been settled, every fetch of its client has been called once. -/
theorem Called.once_of_settled {rules : Side → Rule} {log : List (Stage σ ε)} {w : World σ ε}
    (h : Called behave log w) {client : Nat} {c : Client σ} {opened moment : Nat}
    {keys : List String} {timeout : Duration} {verdict : Except Batch.Error Results} {p : Places}
    (present : w.clients[client]? = some c)
    (settled : Settled rules client c.serial opened keys timeout (callsIn log) moment verdict p)
    (last : ∃ earlier, World.sent behave (heard client log) = earlier ++ [keys])
    {t : Ticket} (sent : Sent behave log t) (own : t.client = client) :
    (callsIn log).count t = 1 := by
  subst own
  cases under : w.underWay? t.client t.serial with
  | none => exact h.once t sent under
  | some r =>
      obtain ⟨c', present', number, -⟩ := underWay?_eq_some under
      rw [present] at present'
      cases present'
      exact h.count_of_settled present settled last sent number

/-- A stage that tells a client something calls nothing, and the round that it settles has been
called. -/
theorem Called.next_of_told {rules : Side → Rule} {log : List (Stage σ ε)} {s : Stage σ ε}
    (h : Called behave log s.world) (timed : Timed rules log s.world) (prompt : s.Prompt)
    {client : Nat} {c : Client σ} {signal : Signal} {phase : Phase}
    (told : s.told? = some ⟨client, c.state, signal⟩)
    (present : s.world.clients[client]? = some c) (stands : Stands s.world client c phase)
    (positive : ∀ keys timeout, phase = .fetching keys timeout → 0 < timeout.ticks)
    (fetches : ∀ keys timeout, phase = .fetching keys timeout →
      ∃ earlier, World.sent behave (heard client log) = earlier ++ [keys]) :
    Called behave (log ++ [s]) (s.next behave) := by
  have news := told
  rw [← news?_taken] at news
  have calls : callsIn (log ++ [s]) = callsIn log := by
    rw [callsIn_snoc, call?_of_ticket_none (news?_cases news).1, Option.toList_none,
      List.append_nil]
  have tells : ∀ i, s.tells i = if client = i then some (c.state, signal) else none :=
    tells_of_told news
  constructor
  case serials => exact serials_next behave h.serials
  case sent =>
    intro t mem
    rw [calls] at mem
    exact (h.sent t mem).snoc s
  case once =>
    intro t own ended
    have earlier := own.of_snoc h.serials ended
    rw [calls]
    cases under : s.world.underWay? t.client t.serial with
    | none => exact h.once t earlier under
    | some r =>
        obtain ⟨c', present', number, round⟩ := underWay?_eq_some under
        by_cases same : client = t.client
        · -- The round that was under way is the one that has just been settled.
          subst same
          rw [present] at present'
          cases present'
          obtain ⟨keys, timeout, -, rfl, -, -⟩ := stands.fetching_of_round round
          have admits := (admits_of_told news present stands).1
          cases signal with
          | begun => cases admits
          | rested => cases admits
          | settled verdict =>
              obtain ⟨p, settled⟩ :=
                timed.settled prompt told present stands (positive keys timeout rfl)
              exact h.count_of_settled present settled (fetches keys timeout rfl) earlier number
        · have kept := client_next behave s t.client
          rw [tells, if_neg same] at kept
          have ended' : ¬((s.next behave).underWay? t.client t.serial).isSome := by
            rw [ended]
            simp
          rw [underWay?_isSome_iff, kept, ← underWay?_isSome_iff, under] at ended'
          exact absurd rfl ended'
  case ordered =>
    rw [calls]
    exact h.ordered

/-- A stage that tells nobody anything calls at most a fetch of a round under way. -/
theorem Called.next_of_silent {rules : Side → Rule} {log : List (Stage σ ε)} {s : Stage σ ε}
    (h : Called behave log s.world) (timed : Timed rules log s.world) (silent : s.told? = none)
    (fetches : ∀ i c r, s.world.clients[i]? = some c → c.round = some r →
      ∀ t : Ticket, t.client = i → t.serial = c.serial → (s.due, Task.enter t) ∈ s.world.agenda →
        Sent behave log t) :
    Called behave (log ++ [s]) (s.next behave) := by
  have quiet : ∀ i, s.tells i = none := by
    intro i
    simp [Stage.tells, silent]
  have last : ∀ i, (s.next behave).lastRound i = s.world.lastRound i := by
    intro i
    have client := client_next behave s i
    rwa [quiet i] at client
  have listed : ∀ t, Sent behave (log ++ [s]) t ↔ Sent behave log t := by
    intro t
    unfold Sent
    rw [heard_snoc, quiet, Option.toList_none, List.append_nil]
  have under : ∀ i n, (s.next behave).underWay? i n = none → s.world.underWay? i n = none := by
    intro i n ended
    rw [← Option.not_isSome_iff_eq_none, underWay?_isSome_iff] at ended ⊢
    rwa [← last]
  constructor
  case serials => exact serials_next behave h.serials
  case sent =>
    intro t mem
    rw [listed]
    rw [callsIn_snoc] at mem
    rcases List.mem_append.1 mem with mem | mem
    · exact h.sent t mem
    · have task := call?_eq_some_iff.1 (Option.mem_toList.1 mem)
      have onAgenda := s.mem_agenda
      rw [task] at onAgenda
      obtain ⟨r, underWay⟩ := Option.isSome_iff_exists.1 (timed.enters _ onAgenda t rfl)
      obtain ⟨c, present, number, round⟩ := underWay?_eq_some underWay
      exact fetches t.client c r present round t rfl number.symm onAgenda
  case once =>
    intro t own ended
    have before := under _ _ ended
    rw [callsIn_snoc, List.count_append, h.once t ((listed t).1 own) before]
    cases call : s.call? with
    | none => rfl
    | some t' =>
        have onAgenda := s.mem_agenda
        rw [call?_eq_some_iff.1 call] at onAgenda
        have busy := timed.enters _ onAgenda t' rfl
        have other : t' ≠ t := by
          rintro rfl
          rw [before] at busy
          cases busy
        simp [other]
  case ordered =>
    rw [callsIn_snoc, List.pairwise_append]
    refine ⟨h.ordered, ?_, ?_⟩
    · cases s.call? <;> simp
    · intro t mem t' mem' same
      have task := call?_eq_some_iff.1 (Option.mem_toList.1 mem')
      have onAgenda := s.mem_agenda
      rw [task] at onAgenda
      obtain ⟨r, underWay⟩ := Option.isSome_iff_exists.1 (timed.enters _ onAgenda t' rfl)
      obtain ⟨c, present, number, -⟩ := underWay?_eq_some underWay
      rw [← number]
      exact timed.calls t'.client c present t mem same

/-! ## Whole schedules -/

theorem called_initial (source target : Store) (states : List σ) :
    Called behave [] (initial source target states) := by
  constructor
  case serials =>
    intro i c present
    have present' : (states.map fun state => (⟨state, 0, none, false⟩ : Client σ))[i]? = some c :=
      present
    rw [List.getElem?_map] at present'
    obtain ⟨state, -, rfl⟩ := Option.map_eq_some_iff.1 present'
    rfl
  case sent =>
    intro t mem
    cases mem
  case once =>
    rintro t ⟨n, keys, -, round, -⟩
    cases round
  case ordered =>
    exact .nil

/-- In a prompt schedule, the calls that stores receive are those of the rounds that clients have
sent. -/
theorem Fated.called {rules : Side → Rule} {source target : Store} {states : List σ}
    {log : List (Stage σ ε)} {w : World σ ε}
    (h : Fated behave rules source target states log w) : Called behave log w := by
  obtain ⟨schedule, prompt, source', target', timely⟩ := h
  induction schedule with
  | refl => exact called_initial source target states
  | @snoc log s earlier ih =>
      have prompt' : ∀ s' ∈ log, s'.Prompt := fun s' mem => prompt s' (List.mem_append_left _ mem)
      have called := ih prompt'
      have before : Fated behave rules source target states log s.world :=
        ⟨earlier, prompt', source', target', timely⟩
      cases told : s.told? with
      | none =>
          refine called.next_of_silent before.timed told ?_
          intro i c r present round t client serial onAgenda
          obtain ⟨start, phase, -, play, stands⟩ := earlier.stands present
          obtain ⟨keys, timeout, -, rfl, -, -⟩ := stands.fetching_of_round round
          obtain ⟨_, p, -, -, fetching⟩ := before.timed.fetching present stands
          obtain ⟨rounds, last⟩ := play.sent_last
          have own : t.IsOf i c.serial keys := by
            refine fetching.own (s.due, .enter t) (List.mem_filter.2 ⟨onAgenda, ?_⟩) t rfl
            simp [Task.round?, client, serial]
          have length := called.serials i c present
          rw [last, List.length_append, List.length_singleton] at length
          refine ⟨rounds.length, keys, serial.trans length, ?_, own.key⟩
          rw [client, last, List.getElem?_append_right (Nat.le_refl _), Nat.sub_self]
          rfl
      | some told' =>
          obtain ⟨client, state, signal⟩ := told'
          obtain ⟨c, present, rfl⟩ := client_of_news told
          obtain ⟨start, phase, present', play, stands⟩ := earlier.stands present
          refine called.next_of_told before.timed (prompt s (by simp)) told present stands ?_ ?_
          · rintro keys timeout rfl
            exact before.positive present' play
          · rintro keys timeout rfl
            exact play.sent_last

/-! ## Counting calls -/

theorem countP_eq_countP_range {α : Type} (l : List α) (p : α → Bool) (d : α) :
    l.countP p = (List.range l.length).countP fun n => p (l[n]?.getD d) := by
  have all : l = (List.range l.length).map fun n => l[n]?.getD d := by
    apply List.ext_getElem?
    intro n
    rw [List.getElem?_map]
    by_cases bound : n < l.length
    · simp [bound]
    · rw [List.getElem?_eq_none (Nat.le_of_not_lt bound), List.getElem?_eq_none (by simpa using bound)]
      rfl
  conv => lhs; rw [all]
  rw [List.countP_map]
  rfl

/-- No other client asks for a key, and no round of this one asks for it twice. -/
structure Alone (behave : Behaviour σ ε) (log : List (Stage σ ε)) (client : Nat) (key : String) :
    Prop where
  others : ∀ i, i ≠ client → ∀ keys ∈ sent behave (heard i log), key ∉ keys
  nodup : ∀ keys ∈ sent behave (heard client log), keys.Nodup

namespace Called

variable {log : List (Stage σ ε)} {w : World σ ε}

/-- A call for a key that one client asks for is one of a round of that client. -/
theorem eq_of_key (h : Called behave log w) {client : Nat} {key : String}
    (alone : Alone behave log client key) {t : Ticket} (mem : t ∈ callsIn log) (own : t.key = key) :
    t.client = client ∧ ∃ n keys, t.serial = n + 1 ∧
      (World.sent behave (heard client log))[n]? = some keys ∧ key ∈ keys ∧
      t.slot = keys.idxOf key := by
  obtain ⟨n, keys, serial, round, at_slot⟩ := h.sent t mem
  rw [own] at at_slot
  have key_mem := List.mem_of_getElem? at_slot
  have same : t.client = client := by
    by_contra other
    exact alone.others t.client other keys (List.mem_of_getElem? round) key_mem
  rw [same] at round
  refine ⟨same, n, keys, serial, round, key_mem, ?_⟩
  obtain ⟨below, rfl⟩ := List.getElem?_eq_some_iff.1 at_slot
  exact ((alone.nodup keys (List.mem_of_getElem? round)).idxOf_getElem t.slot below).symm

/-- The calls for a key are the rounds with it, when all of them have been called. -/
theorem callsFor_eq (h : Called behave log w) {client : Nat} {key : String} {side : Side}
    (alone : Alone behave log client key)
    (once : ∀ t, Sent behave log t → t.client = client → (callsIn log).count t = 1) :
    callsFor (callsIn log) side key =
      (World.sent behave (heard client log)).countP fun keys => key ∈ keys := by
  generalize rounds : World.sent behave (heard client log) = sent
  let ticket (n : Nat) : Ticket := ⟨client, n + 1, side, (sent[n]?.getD []).idxOf key, key⟩
  have listed : ∀ n, n < sent.length → key ∈ sent[n]?.getD [] → Sent behave log (ticket n) := by
    intro n bound mem
    refine ⟨n, sent[n], rfl, ?_, ?_⟩
    · show (World.sent behave (heard client log))[n]? = _
      rw [rounds, List.getElem?_eq_getElem bound]
    · rw [List.getElem?_eq_getElem bound, Option.getD_some] at mem
      simp only [ticket, List.getElem?_eq_getElem bound, Option.getD_some]
      rw [List.getElem?_eq_getElem (List.idxOf_lt_length_of_mem mem), List.getElem_idxOf]
  have perm : ((callsIn log).filter fun t => t.side = side ∧ t.key = key).Perm
      (((List.range sent.length).filter fun n => key ∈ sent[n]?.getD []).map ticket) := by
    refine (List.perm_ext_iff_of_nodup ?_ ?_).2 fun t => ?_
    · refine List.nodup_iff_count_le_one.2 fun t => ?_
      by_cases mem : t ∈ (callsIn log).filter fun t => t.side = side ∧ t.key = key
      · obtain ⟨mem, own⟩ := List.mem_filter.1 mem
        obtain ⟨-, own⟩ := of_decide_eq_true own
        refine Nat.le_trans (List.filter_sublist.count_le t) (Nat.le_of_eq ?_)
        exact once t (h.sent t mem) (h.eq_of_key alone mem own).1
      · rw [List.count_eq_zero.2 mem]
        exact Nat.zero_le 1
    · refine List.Nodup.map (fun n m same => ?_) (List.nodup_range.filter _)
      have serial := congrArg Ticket.serial same
      exact Nat.succ.inj serial
    · rw [List.mem_filter, List.mem_map]
      constructor
      · rintro ⟨mem, own⟩
        obtain ⟨ofSide, ofKey⟩ := of_decide_eq_true own
        obtain ⟨same, n, keys, serial, round, key_mem, slot⟩ := h.eq_of_key alone mem ofKey
        rw [rounds] at round
        refine ⟨n, List.mem_filter.2 ⟨?_, ?_⟩, ?_⟩
        · exact List.mem_range.2 (List.getElem?_eq_some_iff.1 round).1
        · simpa [round] using key_mem
        · obtain ⟨_, _, _, _, _⟩ := t
          simp_all [ticket]
      · rintro ⟨n, mem, rfl⟩
        obtain ⟨bound, key_mem⟩ := List.mem_filter.1 mem
        have own := listed n (List.mem_range.1 bound) (of_decide_eq_true key_mem)
        have called := once _ own rfl
        exact ⟨List.count_pos_iff.1 (by omega), by simp [ticket]⟩
  unfold callsFor
  rw [List.countP_eq_length_filter, perm.length_eq, List.length_map, ← List.countP_eq_length_filter,
    countP_eq_countP_range sent _ []]

/-- The calls for a key before one of the last round are the rounds with it before that one. -/
theorem callsFor_earlier (h : Called behave log w) {earlier later : List Ticket} {t : Ticket}
    (split : callsIn log = earlier ++ t :: later) (alone : Alone behave log t.client t.key)
    (last : t.serial = (World.sent behave (heard t.client log)).length)
    (once : ∀ t', Sent behave log t' → t'.client = t.client → (callsIn log).count t' = 1) :
    callsFor earlier t.side t.key + 1 =
      (World.sent behave (heard t.client log)).countP fun keys => t.key ∈ keys := by
  have all : callsFor (callsIn log) t.side t.key = _ := h.callsFor_eq alone once
  rw [← all, split]
  have none : callsFor later t.side t.key = 0 := by
    refine List.countP_eq_zero.2 fun t' mem own => ?_
    obtain ⟨ofSide, ofKey⟩ := of_decide_eq_true own
    have called : t' ∈ callsIn log := by
      rw [split]
      exact List.mem_append_right _ (List.mem_cons_of_mem _ mem)
    have here : t ∈ callsIn log := by
      rw [split]
      exact List.mem_append_right _ List.mem_cons_self
    obtain ⟨same, n, keys, serial, round, -, slot⟩ := h.eq_of_key alone called ofKey
    obtain ⟨-, n', keys', serial', round', -, slot'⟩ := h.eq_of_key alone here rfl
    -- A later call for the key would be one of the same round, and so the same call again.
    have after : t.serial ≤ t'.serial := by
      have ordered := h.ordered
      rw [split] at ordered
      exact (List.pairwise_cons.1 (List.pairwise_append.1 ordered).2.1).1 t' mem same.symm
    have bound := (List.getElem?_eq_some_iff.1 round).1
    obtain rfl : n = n' := by omega
    rw [round] at round'
    cases round'
    have again : t' = t := by
      obtain ⟨_, _, _, _, _⟩ := t
      obtain ⟨_, _, _, _, _⟩ := t'
      simp_all
    subst again
    have count := once t' (h.sent t' called) rfl
    rw [split, List.count_append, List.count_cons_self] at count
    have := List.count_pos_iff.2 mem
    omega
  unfold callsFor at none ⊢
  rw [List.countP_append, List.countP_cons, none]
  simp

end Called

end ReplicaDiff.World
