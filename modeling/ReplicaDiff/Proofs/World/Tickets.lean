/-
# ReplicaDiff.Proofs.World.Tickets — each fetch is called once

A client gives each of its rounds a new number, and a round has one fetch for each
side and slot.  So no fetch is on the agenda twice, to be called, nor once it has
been called (`Tickets.next`), whatever order tasks are fired in.
-/
import ReplicaDiff.Proofs.World.Timed

namespace ReplicaDiff

set_option autoImplicit false

/-- The fetch that a task calls. -/
def Task.call? : Task → Option Ticket
  | .enter t => some t
  | _ => none

namespace World

variable {σ ε : Type}

/-- The fetches that are about to be called. -/
def entering (agenda : List (Nat × Task)) : List Ticket := agenda.filterMap (·.2.call?)

/-- No fetch is called twice, and none is of a round that its client has yet to send. -/
structure Tickets (log : List (Stage σ ε)) (w : World σ ε) : Prop where
  nodup : (callsIn log ++ entering w.agenda).Nodup
  sent : ∀ t ∈ callsIn log ++ entering w.agenda, ∀ c, w.clients[t.client]? = some c →
    t.serial ≤ c.serial

theorem entering_chores (now client serial : Nat) (move : Move) :
    (entering (chores now client serial move)).Nodup ∧
      ∀ t ∈ entering (chores now client serial move),
        t.client = client ∧ t.serial = serial ∧ ∃ keys timeout, move = .send keys timeout := by
  cases move with
  | send keys timeout =>
      unfold chores
      dsimp only
      split
      · exact ⟨.nil, nofun⟩
      · have called : entering ((now + timeout.ticks, .deadline client serial) ::
            (fetches client serial keys).map fun task => (now, task)) =
              (fetches client serial keys).filterMap Task.call? := by
          unfold entering
          rw [List.filterMap_cons_none rfl, List.filterMap_map]
          rfl
        rw [called]
        constructor
        · refine (nodup_fetches client serial keys).filterMap fun a b t ofA ofB => ?_
          cases a <;> cases ofA
          cases b <;> cases ofB
          rfl
        · intro t mem
          obtain ⟨task, fetched, ofTask⟩ := List.mem_filterMap.1 mem
          obtain ⟨side, slot, key, -, rfl⟩ := mem_fetches.1 fetched
          cases ofTask
          exact ⟨rfl, rfl, keys, timeout, rfl⟩
  | pause ticks => exact ⟨.nil, nofun⟩
  | stop => exact ⟨.nil, nofun⟩

variable {behave : Behaviour σ ε} {log : List (Stage σ ε)} {s : Stage σ ε} {w' : World σ ε}

/-- The stage calls its fetch, if it has one, and leaves the others. -/
theorem Tickets.taken (h : Tickets log s.world) : Tickets (log ++ [s]) s.taken := by
  have moved : (callsIn log ++ entering s.world.agenda).Perm
      (callsIn (log ++ [s]) ++ entering s.taken.agenda) := by
    rw [callsIn_snoc, List.append_assoc]
    refine List.Perm.append_left _ ((s.agenda_perm.filterMap _).trans (.of_eq ?_))
    have same : s.call? = s.task.call? := rfl
    rw [same]
    unfold entering
    cases calls : s.task.call? <;> simp [calls, Stage.taken]
  exact ⟨moved.nodup_iff.1 h.nodup, fun t mem => h.sent t (moved.mem_iff.2 mem)⟩

/-- A stage that sends nothing leaves it so. -/
theorem Tickets.of_quiet (h : Tickets log s.taken)
    (agenda : (entering w'.agenda).Perm (entering s.taken.agenda))
    (serials : ∀ (i : Nat) (c' : Client σ), w'.clients[i]? = some c' →
      ∃ c : Client σ, s.taken.clients[i]? = some c ∧ c.serial ≤ c'.serial) : Tickets log w' where
  nodup := (agenda.append_left _).nodup_iff.2 h.nodup
  sent t mem c' present' := by
    obtain ⟨c, present, le⟩ := serials t.client c' present'
    exact Nat.le_trans (h.sent t ((agenda.append_left _).mem_iff.1 mem) c present) le

theorem serials_set {clients : List (Client σ)} {client : Nat} {c changed : Client σ}
    (present : clients[client]? = some c) (le : c.serial ≤ changed.serial) (i : Nat)
    (c' : Client σ) (present' : (clients.set client changed)[i]? = some c') :
    ∃ c, clients[i]? = some c ∧ c.serial ≤ c'.serial := by
  rcases of_getElem?_set present' with ⟨rfl, rfl⟩ | ⟨-, same⟩
  · exact ⟨c, present, le⟩
  · exact ⟨c', same, Nat.le_refl _⟩

/-- A client that is told something may send a round, whose fetches are new. -/
theorem Tickets.of_told {w : World σ ε} (h : Tickets log w) {client now : Nat} {c : Client σ}
    {reaction : Reaction σ ε} (present : w.clients[client]? = some c)
    (agenda : w'.agenda.Perm (chores now client (c.serial + 1) reaction.move ++ w.agenda))
    (clients : w'.clients = w.clients.set client (c.after reaction)) : Tickets log w' := by
  obtain ⟨nodup, new⟩ := entering_chores now client (c.serial + 1) reaction.move
  have moved : (callsIn log ++ entering w'.agenda).Perm
      (entering (chores now client (c.serial + 1) reaction.move) ++
        (callsIn log ++ entering w.agenda)) := by
    refine ((agenda.filterMap _).append_left _).trans ?_
    rw [List.filterMap_append, ← List.append_assoc, ← List.append_assoc]
    exact List.perm_append_comm.append_right _
  constructor
  · refine moved.nodup_iff.2 (List.nodup_append.2 ⟨nodup, h.nodup, ?_⟩)
    rintro t mem _ mem' rfl
    obtain ⟨rfl, serial, -⟩ := new t mem
    have old := h.sent t mem' c present
    omega
  · intro t mem c' present'
    rw [clients] at present'
    rcases List.mem_append.1 (moved.mem_iff.1 mem) with mem | mem
    · obtain ⟨rfl, serial, keys, timeout, move⟩ := new t mem
      have bound : t.client < w.clients.length := (List.getElem?_eq_some_iff.1 present).1
      rw [List.getElem?_set_self bound] at present'
      cases present'
      refine Nat.le_of_eq ?_
      rw [serial, Client.after, move]
    · obtain ⟨old, present, le⟩ := serials_set present (serial_after_le c _) t.client c' present'
      exact Nat.le_trans (h.sent t mem old present) le

/-- Each fetch is still called once after one more stage. -/
theorem Tickets.next (behave : Behaviour σ ε) (h : Tickets log s.world) :
    Tickets (log ++ [s]) (s.next behave) := by
  have taken := h.taken
  have step := fired behave s
  generalize s.next behave = w' at step ⊢
  generalize s.task = task at step
  have still : ∀ (i : Nat) (c' : Client σ), s.taken.clients[i]? = some c' →
      ∃ c : Client σ, s.taken.clients[i]? = some c ∧ c.serial ≤ c'.serial :=
    fun i c' present => ⟨c', present, Nat.le_refl _⟩
  cases step with
  | told news present perm => exact taken.of_told present perm rfl
  | emptied present number round undecided =>
      exact taken.of_quiet (.refl _) (serials_set present (Nat.le_refl _))
  | idle silent ticket stale => exact taken.of_quiet (.refl _) still
  | asleep reach perm =>
      refine taken.of_quiet (perm.filterMap _) ?_
      rw [clients_setStore]
      exact still
  | stalled reach =>
      refine taken.of_quiet (.of_eq (congrArg entering (agenda_setStore _ _ _))) ?_
      rw [clients_setStore]
      exact still
  | missed reach stale =>
      refine taken.of_quiet (.of_eq (congrArg entering (agenda_setStore _ _ _))) ?_
      rw [clients_setStore]
      exact still
  | noted reach present number round perm =>
      refine taken.of_quiet ((perm.filterMap _).trans ?_) (serials_set present (Nat.le_refl _))
      split <;> exact .refl _

theorem tickets_initial (source target : Store) (states : List σ) :
    Tickets [] (initial source target states : World σ ε) := by
  have none : entering (initial source target states : World σ ε).agenda = [] := by
    refine List.filterMap_eq_nil_iff.2 fun e mem => ?_
    obtain ⟨i, -, rfl⟩ := List.mem_map.1 mem
    rfl
  constructor
  · rw [none]
    exact .nil
  · rw [none]
    exact nofun

/-- In whatever order tasks are fired, each fetch is called once. -/
theorem Schedule.nodup_callsIn {source target : Store} {states : List σ} {w : World σ ε}
    (h : Schedule behave (initial source target states) log w) : (callsIn log).Nodup := by
  have tickets : Tickets log w := by
    induction h with
    | refl => exact tickets_initial source target states
    | snoc s earlier ih => exact ih.next behave
  exact (List.nodup_append.1 tickets.nodup).1

end World

end ReplicaDiff
