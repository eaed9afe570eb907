/-
# ReplicaDiff.Proofs.World.Pace — by when clients have stopped

What a client waits for is on the agenda with a moment at which it is due, and a
round is due no later than its deadline, whatever the stores do.  In a prompt
schedule the client is told by then.  Where a client has some time left in each
phase, and no move takes more than it uses up of that (`Sustainable`), every
client is told the last thing within the time that it has at the start
(`Schedule.paced`).

Prompt schedules go on until all clients have stopped (`Schedule.exists_over`),
and the clock then stands at the moment at which the last of them was told
something (`Schedule.now_eq_sup`).
-/
import Mathlib.Data.Finset.Lattice.Fold
import Mathlib.Order.Lattice.Nat
import ReplicaDiff.Proofs.World.Ending

namespace ReplicaDiff.World

set_option autoImplicit false

variable {σ ε : Type} {behave : Behaviour σ ε}

/-- The milliseconds within which a client is told what its move calls for. -/
def wait : Move → Nat
  | .send _ timeout => timeout.ticks
  | .pause ticks => ticks
  | .stop => 0

/-- The task by which a client is told at the latest what it waits for. -/
def awaited? (client serial : Nat) : Phase → Option Task
  | .fresh => some (.begin client)
  | .fetching keys _ => some (lastCall client serial keys)
  | .resting => some (.rested client)
  | .stopped => none

/-- A move puts on the agenda what its client then waits for. -/
theorem exists_chore {client serial : Nat} {move : Move} {task : Task}
    (awaits : awaited? client serial (.ofMove move) = some task) (now : Nat) :
    ∃ due, (due, task) ∈ chores now client serial move ∧ due ≤ now + wait move := by
  cases move with
  | send keys timeout =>
      cases awaits
      by_cases empty : keys.isEmpty
      · exact ⟨now, by simp [chores, lastCall, empty], Nat.le_add_right _ _⟩
      · exact ⟨now + timeout.ticks, by simp [chores, lastCall, empty], Nat.le_refl _⟩
  | pause ticks =>
      cases awaits
      exact ⟨now + ticks, by simp [chores], Nat.le_refl _⟩
  | stop => cases awaits

/-- The task for which a client waits tells it something. -/
theorem tells_of_awaited {s : Stage σ ε} {client : Nat} {c : Client σ} {p : Phase}
    (present : s.world.clients[client]? = some c) (stands : Stands s.world client c p)
    (awaits : awaited? client c.serial p = some s.task) : (s.tells client).isSome := by
  have tells : ∀ signal, s.told? = s.world.tellTo? client signal → (s.tells client).isSome := by
    intro signal told
    simp [Stage.tells, told, tellTo?, present]
  cases p with
  | fresh =>
      have task : s.task = .begin client := (Option.some.inj awaits).symm
      exact tells .begun (by rw [Stage.told?, task]; rfl)
  | resting =>
      have task : s.task = .rested client := (Option.some.inj awaits).symm
      exact tells .rested (by rw [Stage.told?, task]; rfl)
  | stopped => cases awaits
  | fetching keys timeout =>
      have task : s.task = lastCall client c.serial keys := (Option.some.inj awaits).symm
      obtain ⟨r, answer, round, holds, -⟩ := stands.rounds
      have under : s.world.underWay? client c.serial = some r := underWay?_of_client present round
      unfold lastCall at task
      split at task
      · rename_i empty
        have opened := isOpen_of_isEmpty (holds.recordAll r.inbox) empty
        refine tells (.settled (.ok r.emptied.gate.results)) ?_
        have decided : verdict? r.emptied false = some (.ok r.emptied.gate.results) :=
          verdict?_eq_ok_iff.2 ⟨opened, rfl⟩
        simp [Stage.told?, task, news?, settlement?, under, decided]
      · obtain ⟨verdict, decided⟩ := exists_verdict_of_expired r.emptied
        refine tells (.settled verdict) ?_
        simp [Stage.told?, task, news?, settlement?, under, decided]

/-- The time that a client has left covers, in every phase and whatever it is told, its next move
and the time that it has left then. -/
def Sustainable (behave : Behaviour σ ε) (left : σ → Phase → Nat) : Prop :=
  ∀ s p signal, p.Admits signal →
    wait (behave s signal).move + left (behave s signal).state (.ofMove (behave s signal).move) ≤
      left s p

/-- A client has been told everything within a limit, and what it waits for is due so early that
the time that it has left then is within the limit. -/
structure Paced (left : σ → Phase → Nat) (limit : Nat) (log : List (Stage σ ε)) (w : World σ ε)
    (client : Nat) (c : Client σ) (p : Phase) : Prop where
  told : toldAt client log ≤ limit
  awaits : ∀ task, awaited? client c.serial p = some task →
    ∃ due, (due, task) ∈ w.agenda ∧ due + left c.state p ≤ limit

/-- A stage that tells a client nothing leaves what the client waits for on the agenda. -/
theorem Paced.untold {left : σ → Phase → Nat} {limit client : Nat} {log : List (Stage σ ε)}
    {s : Stage σ ε} {c c' : Client σ} {p : Phase} (h : Paced left limit log s.world client c p)
    (present : s.world.clients[client]? = some c) (stands : Stands s.world client c p)
    (silent : s.tells client = none) (same : c'.serial = c.serial ∧ c'.state = c.state) :
    Paced left limit (log ++ [s]) (s.next behave) client c' p := by
  constructor
  · rw [toldAt_snoc, silent]
    exact h.told
  · intro task awaits
    rw [same.1] at awaits
    obtain ⟨due, mem, bound⟩ := h.awaits task awaits
    refine ⟨due, ?_, by rwa [same.2]⟩
    obtain ⟨added, perm, -⟩ := agenda_next behave s
    refine perm.mem_iff.2 (List.mem_append_right _ ?_)
    rcases List.mem_cons.1 (s.agenda_perm.mem_iff.1 mem) with eq | mem
    · cases eq
      have told := tells_of_awaited present stands awaits
      rw [silent] at told
      cases told
    · exact mem

/-- A client that is told something by the moment at which that is due has time for its move. -/
theorem Paced.on_time {left : σ → Phase → Nat} {limit client : Nat} {log : List (Stage σ ε)}
    {s : Stage σ ε} {c : Client σ} {p : Phase} {signal : Signal}
    (h : Paced left limit log s.world client c p) (prompt : s.Prompt)
    (sustainable : Sustainable behave left) (admits : p.Admits signal)
    (tells : s.tells client = some (c.state, signal))
    (perm : (s.next behave).agenda.Perm
      (chores s.moment client (c.serial + 1) (behave c.state signal).move ++ s.taken.agenda)) :
    Paced left limit (log ++ [s]) (s.next behave) client (c.after (behave c.state signal))
      (.ofMove (behave c.state signal).move) := by
  -- The stage is no later than the task for which the client waits.
  have early : s.moment + left c.state p ≤ limit := by
    obtain ⟨task, awaits⟩ : ∃ task, awaited? client c.serial p = some task := by
      cases p with
      | stopped => cases admits
      | _ => exact ⟨_, rfl⟩
    obtain ⟨due, mem, bound⟩ := h.awaits task awaits
    have first := prompt.2 _ mem
    have moment := prompt.1
    dsimp only at first
    omega
  have covered := sustainable c.state p signal admits
  have serial : ∀ task, awaited? client (c.after (behave c.state signal)).serial
      (.ofMove (behave c.state signal).move) = some task →
      awaited? client (c.serial + 1) (.ofMove (behave c.state signal).move) = some task := by
    intro task awaits
    unfold Client.after at awaits
    cases move : (behave c.state signal).move <;> rw [move] at awaits <;> exact awaits
  constructor
  · rw [toldAt_snoc, tells]
    exact Nat.le_trans (Nat.le_add_right _ _) early
  · intro task awaits
    obtain ⟨due, mem, bound⟩ := exists_chore (serial task awaits) s.moment
    refine ⟨due, perm.mem_iff.2 (List.mem_append_left _ mem), ?_⟩
    rw [state_after]
    omega

/-! ## Whole schedules -/

variable {source target : Store} {states : List σ} {log : List (Stage σ ε)} {w : World σ ε}

namespace Schedule

/-- In a prompt schedule every client keeps its pace. -/
theorem paced {left : σ → Phase → Nat} (sustainable : Sustainable behave left)
    (h : Schedule behave (initial source target states) log w) (prompt : ∀ s ∈ log, s.Prompt)
    {client : Nat} {start : σ} (present : states[client]? = some start) :
    ∃ c p, w.clients[client]? = some c ∧ Play behave start (heard client log) c.state p ∧
      Stands w client c p ∧ Paced left (left start .fresh) log w client c p := by
  induction h with
  | refl =>
      refine ⟨⟨start, 0, none, false⟩, .fresh, by simp [initial, present], .fresh,
        stands_initial source target present, Nat.zero_le _, fun task awaits => ?_⟩
      cases awaits
      refine ⟨0, List.mem_map.2 ⟨client, ?_, rfl⟩, Nat.le_of_eq (Nat.zero_add _)⟩
      exact List.mem_range.2 (List.getElem?_eq_some_iff.1 present).1
  | @snoc log s earlier ih =>
      obtain ⟨c, p, present', play, stands, paced⟩ := ih fun s mem => prompt s (by simp [mem])
      rw [heard_snoc]
      cases tells : s.tells client with
      | none =>
          obtain ⟨c', after, same, stands'⟩ := stands_untold behave present' stands tells
          refine ⟨c', p, after, ?_, stands', paced.untold present' stands tells same⟩
          rw [same.2, Option.toList_none, List.append_nil]
          exact play
      | some told =>
          obtain ⟨state, signal⟩ := told
          obtain ⟨c₀, news, rfl, before, after, perm⟩ := reacts_of_tells behave tells
          rw [present'] at before
          cases before
          obtain ⟨admits, begins, rests, running⟩ := admits_of_told news present' stands
          refine ⟨_, _, after, ?_, stands_after _ begins rests running perm,
            paced.on_time (prompt s (by simp)) sustainable admits tells perm⟩
          rw [state_after]
          exact play.told admits

/-- A stage that tells nobody anything stops nobody. -/
theorem isOver_of_silent (h : Schedule behave (initial source target states) log w)
    {s : Stage σ ε} (here : s.world = w) (silent : ∀ i, s.tells i = none) :
    (s.next behave).isOver = false := by
  subst here
  by_contra stops
  have stops : (s.next behave).isOver = true := by simpa using stops
  have stopped : s.world.isOver = true := by
    refine List.all_eq_true.2 fun c mem => ?_
    obtain ⟨i, present⟩ := List.getElem?_of_mem mem
    obtain ⟨start, p, begins, play, stands⟩ := h.stands present
    obtain ⟨c', -, play'⟩ := (Schedule.snoc s h).plays_to_end stops begins
    rw [heard_snoc, silent, Option.toList_none, List.append_nil] at play'
    exact stands.stopped.2 (play.unique play').2
  rw [s.unfinished] at stopped
  cases stopped

/-- Nobody has been told anything later than now. -/
theorem toldAt_le_now (h : Schedule behave (initial source target states) log w) (client : Nat) :
    toldAt client log ≤ w.now := by
  induction h with
  | refl => exact Nat.zero_le _
  | snoc s _ ih =>
      rw [toldAt_snoc, now_next]
      split
      · exact Nat.le_refl _
      · exact Nat.le_trans ih s.onward

/-- Stages follow each other in order of time, and none of them is later than now. -/
theorem moments {start : World σ ε} (h : Schedule behave start log w) :
    (log.Pairwise fun a b => a.moment ≤ b.moment) ∧ ∀ s ∈ log, s.moment ≤ w.now := by
  induction h with
  | refl => exact ⟨.nil, by simp⟩
  | @snoc log s earlier ih =>
      obtain ⟨sorted, past⟩ := ih
      have passed : ∀ s' ∈ log, s'.moment ≤ s.moment := fun s' mem =>
        Nat.le_trans (past s' mem) s.onward
      refine ⟨List.pairwise_append.2 ⟨sorted, List.pairwise_singleton _ _, fun a mem b mem' => ?_⟩,
        fun s' mem => ?_⟩
      · rw [List.mem_singleton.1 mem']
        exact passed a mem
      · rw [now_next]
        rcases List.mem_append.1 mem with mem | mem
        · exact passed s' mem
        · rw [List.mem_singleton.1 mem]

/-- When the clients of a world have stopped, the last stage was now, and stopped a client by what it
told it. -/
theorem exists_last (h : Schedule behave (initial source target states) log w)
    (finished : w.isOver = true) (nonempty : states ≠ []) :
    ∃ (earlier : List (Stage σ ε)) (s : Stage σ ε) (client : Nat) (state start : σ)
      (signal : Signal) (p : Phase), log = earlier ++ [s] ∧ s.moment = w.now ∧
      s.told? = some ⟨client, state, signal⟩ ∧ states[client]? = some start ∧
      Play behave start (heard client earlier) state p ∧ p.Admits signal ∧
      (behave state signal).move = .stop := by
  cases h with
  | refl =>
      obtain ⟨state, rest, rfl⟩ := List.exists_cons_of_ne_nil nonempty
      simp [isOver, initial] at finished
  | @snoc earlier s before =>
      cases told : s.told? with
      | none =>
          have silent : ∀ i, s.tells i = .none := fun i => by simp [Stage.tells, told]
          rw [before.isOver_of_silent rfl silent] at finished
          cases finished
      | some t =>
          obtain ⟨client, state, signal⟩ := t
          have h := Schedule.snoc s before
          have bound := h.client_lt_of_told (by simp) told
          have present := List.getElem?_eq_getElem bound
          obtain ⟨p, play, admits⟩ := before.play_of_told told present
          obtain ⟨c, -, play'⟩ := h.plays_to_end finished present
          have tells : s.tells client = some (state, signal) := by simp [Stage.tells, told]
          rw [heard_snoc, tells] at play'
          have stopped := ((play.told admits).unique play').2
          refine ⟨earlier, s, client, state, _, signal, p, rfl, (now_next behave s).symm, told, present,
            play, admits, ?_⟩
          cases move : (behave state signal).move <;> rw [move] at stopped <;>
            simp [Phase.ofMove] at stopped ⊢

/-- When every client has stopped, the clock stands at the moment at which the last of them was told
something. -/
theorem now_eq_sup (h : Schedule behave (initial source target states) log w)
    (finished : w.isOver = true) :
    w.now = (Finset.range states.length).sup fun i => toldAt i log := by
  refine Nat.le_antisymm ?_ (Finset.sup_le fun i _ => h.toldAt_le_now i)
  cases h with
  | refl => exact Nat.zero_le _
  | @snoc log s earlier =>
      obtain ⟨i, told⟩ : ∃ i, s.tells i ≠ none := by
        by_contra none
        have silent : ∀ i, s.tells i = .none := by simpa using none
        rw [earlier.isOver_of_silent rfl silent] at finished
        cases finished
      have last : toldAt i (log ++ [s]) = (s.next behave).now := by
        rw [toldAt_snoc, now_next, if_pos (Option.isSome_iff_ne_none.2 told)]
      have client : i < states.length := by
        by_contra beyond
        have nothing := (Schedule.snoc s earlier).heard_eq_nil (Nat.le_of_not_lt beyond)
        rw [heard_snoc, List.append_eq_nil_iff] at nothing
        exact told (by simpa using nothing.2)
      rw [← last]
      exact Finset.le_sup (f := fun i => toldAt i (log ++ [s])) (Finset.mem_range.2 client)

end Schedule

end ReplicaDiff.World
