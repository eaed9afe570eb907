/-
# ReplicaDiff.Proofs.World.InOrder — a round is called in the order of its slots

`World.run` fires of the tasks that are due together the one that was put on the
agenda first.  The fetches of a round stand at the head of the agenda when it
begins, and what their calls put on it comes behind those that are still to be
called.  `Calling` says so, and `calling_next` that each stage leaves it so as
long as no further round is sent.
-/
import ReplicaDiff.Proofs.World.Rounds

namespace ReplicaDiff.World

set_option autoImplicit false

open ReplicaDiff.Batch

variable {σ ε : Type} {behave : Behaviour σ ε}

/-- The fetches of a round, source before target for each key. -/
def tickets (client serial : Nat) (keys : List String) : List Ticket :=
  keys.zipIdx.flatMap fun (key, slot) =>
    [⟨client, serial, .source, slot, key⟩, ⟨client, serial, .target, slot, key⟩]

theorem fetches_eq (client serial : Nat) (keys : List String) :
    fetches client serial keys = (tickets client serial keys).map .enter := by
  unfold fetches tickets
  rw [List.map_flatMap]
  rfl

/-- The tickets of one side have the slots in order. -/
theorem slots_tickets (client serial : Nat) (keys : List String) (side : Side) :
    ((tickets client serial keys).filter fun t => t.side = side).map (·.slot) =
      List.range keys.length := by
  have one : ∀ e : String × Nat, (([⟨client, serial, .source, e.2, e.1⟩,
      ⟨client, serial, .target, e.2, e.1⟩] : List Ticket).filter fun t => t.side = side).map
        (·.slot) = [e.2] := by
    intro e
    cases side <;> rfl
  unfold tickets
  rw [List.filter_flatMap, List.map_flatMap]
  simp only [one]
  rw [← List.map_eq_flatMap, List.range_eq_range']
  exact List.zipIdx_map_snd 0 keys

theorem enlist_append {due : Nat} {task : Task} {first : List (Nat × Task)}
    (early : ∀ e ∈ first, e.1 ≤ due) (rest : List (Nat × Task)) :
    enlist due task (first ++ rest) = first ++ enlist due task rest := by
  induction first with
  | nil => rfl
  | cons e first ih =>
      rw [List.cons_append, enlist, if_pos (early e List.mem_cons_self),
        ih fun e mem => early e (List.mem_cons_of_mem _ mem)]
      rfl

theorem enlist_of_later {due : Nat} {task : Task} {rest : List (Nat × Task)}
    (later : ∀ e ∈ rest, due < e.1) : enlist due task rest = (due, task) :: rest := by
  cases rest with
  | nil => rfl
  | cons e rest =>
      have := later e List.mem_cons_self
      rw [enlist, if_neg (by omega)]

/-- Tasks that are due now come in order behind those due by now. -/
theorem scheduleNow_append {w : World σ ε} {first rest : List (Nat × Task)}
    (agenda : w.agenda = first ++ rest) (early : ∀ e ∈ first, e.1 ≤ w.now)
    (later : ∀ e ∈ rest, w.now < e.1) (tasks : List Task) :
    (w.scheduleNow tasks).agenda = first ++ tasks.map (fun task => (w.now, task)) ++ rest := by
  induction tasks generalizing w first with
  | nil => simpa [scheduleNow] using agenda
  | cons task tasks ih =>
      have next : (w.schedule w.now task).agenda = (first ++ [(w.now, task)]) ++ rest := by
        show enlist w.now task w.agenda = _
        rw [agenda, enlist_append early, enlist_of_later later, List.append_assoc]
        rfl
      have early' : ∀ e ∈ first ++ [(w.now, task)], e.1 ≤ w.now := by
        intro e mem
        rcases List.mem_append.1 mem with mem | mem
        · exact early e mem
        · exact Nat.le_of_eq (congrArg Prod.fst (List.mem_singleton.1 mem))
      have all := ih (w := w.schedule w.now task) next early' later
      show ((w.schedule w.now task).scheduleNow tasks).agenda = _
      rw [all]
      simp [schedule]

/-- Carrying on with a fetch puts at most one task on the agenda. -/
theorem agenda_of_advance (w : World σ ε) (t : Ticket) (halt : Store.Halt) :
    (w.advance t halt).agenda = w.agenda ∨
      ∃ time task, w.now ≤ time ∧ task.Follows ∧
        (w.advance t halt).agenda = enlist time task w.agenda := by
  cases halt with
  | asleep delay below ending =>
      exact .inr ⟨w.now + delay, .resume t below ending, Nat.le_add_right _ _, by simp [Task.Follows],
        rfl⟩
  | stalled => exact .inl rfl
  | ended answer =>
      unfold advance report
      dsimp only
      split
      · exact .inl rfl
      · split
        · exact .inr ⟨w.now, .look t.client t.serial, Nat.le_refl _, by simp [Task.Follows], rfl⟩
        · exact .inl rfl

/-- What has been called of a round and what is still to be called are all of its fetches, in order,
and the latter are what is due next. -/
def Calling (opened : Nat) (all : List Ticket) (log : List (Stage σ ε)) (w : World σ ε) : Prop :=
  ∃ left rest, callsIn log ++ left = all ∧
    w.agenda = left.map (fun t => (opened, .enter t)) ++ rest ∧ ∀ e ∈ rest, e.2.Follows

/-- A round that begins on an empty agenda is to be called in the order of its slots. -/
theorem agenda_openRound {w : World σ ε} (empty : w.agenda = []) (client serial : Nat)
    (keys : List String) {timeout : Duration} (positive : 0 < timeout.ticks) :
    ∃ rest, (w.openRound client serial keys timeout).agenda =
        (tickets client serial keys).map (fun t => (w.now, .enter t)) ++ rest ∧
      ∀ e ∈ rest, e.2.Follows := by
  unfold openRound
  dsimp only
  split
  · rename_i none
    rw [List.isEmpty_iff.1 none]
    refine ⟨[(w.now, .look client serial)], ?_, by simp [Task.Follows]⟩
    show enlist w.now _ w.agenda = _
    rw [empty]
    rfl
  · refine ⟨[(w.now + timeout.ticks, .deadline client serial)], ?_, by simp [Task.Follows]⟩
    have deadline : ∀ change, ((w.update client change).schedule (w.now + timeout.ticks)
        (.deadline client serial)).agenda =
          [] ++ [(w.now + timeout.ticks, .deadline client serial)] := by
      intro change
      show enlist _ _ w.agenda = _
      rw [empty]
      rfl
    refine (scheduleNow_append (deadline _) (by simp) ?_ _).trans ?_
    · simpa [schedule, update] using positive
    · rw [fetches_eq, List.map_map]
      rfl

/-- A stage that calls a fetch puts at most what follows from the call on the agenda. -/
theorem agenda_of_enter (behave : Behaviour σ ε) {s : Stage σ ε} {t : Ticket}
    (task : s.task = .enter t) :
    (s.next behave).agenda = s.taken.agenda ∨
      ∃ time task, s.moment ≤ time ∧ task.Follows ∧
        (s.next behave).agenda = enlist time task s.taken.agenda := by
  have next : s.next behave = (({ s.taken with now := s.moment } : World σ ε).setStore t.side
      ((s.world.store t.side).call t.key).1).advance t ((s.world.store t.side).call t.key).2 := by
    unfold Stage.next
    rw [task]
    cases side : t.side <;> simp [fire, side, store, setStore, Stage.taken]
  have same : ∀ side store,
      (({ s.taken with now := s.moment } : World σ ε).setStore side store).now = s.moment := by
    intro side store
    cases side <;> rfl
  have added := agenda_of_advance (({ s.taken with now := s.moment } : World σ ε).setStore t.side
    ((s.world.store t.side).call t.key).1) t ((s.world.store t.side).call t.key).2
  rwa [← next, agenda_setStore, same] at added

/-- When nothing is left to be called, nothing will be as long as no further round is sent. -/
theorem follows_next {s : Stage σ ε} (follows : ∀ e ∈ s.world.agenda, e.2.Follows)
    (once : ∀ state signal keys timeout, (behave state signal).move = .send keys timeout →
      signal = .begun) : ∀ e ∈ (s.next behave).agenda, e.2.Follows := by
  intro e mem
  obtain ⟨added, perm, new⟩ := agenda_next behave s
  rcases List.mem_append.1 (perm.mem_iff.1 mem) with mem | mem
  · rcases (new e mem).2 with follows | ⟨client, c, signal, news, mem⟩
    · exact follows
    · have later : signal ≠ .begun := by
        rintro rfl
        obtain ⟨-, -, ⟨task, -⟩ | ⟨-, eq⟩ | ⟨_, _, _, eq, -⟩⟩ := news?_cases news
        · exact (follows _ s.mem_agenda).1 client task
        · cases eq
        · cases eq
      cases move : (behave c.state signal).move with
      | send keys timeout => exact absurd (once _ _ keys timeout move) later
      | pause ticks =>
          rw [move] at mem
          rw [List.mem_singleton.1 mem]
          simp [Task.Follows]
      | stop =>
          rw [move] at mem
          cases mem
  · exact follows e (s.mem_of_mem_rest mem)

/-- As long as no further round is sent, a stage of the first task leaves what is still to be called
at the head of the agenda. -/
theorem calling_next {opened : Nat} {all : List Ticket} {log : List (Stage σ ε)} {s : Stage σ ε}
    (h : Calling opened all log s.world) (first : s.before = []) (prompt : s.moment = s.due)
    (once : ∀ state signal keys timeout, (behave state signal).move = .send keys timeout →
      signal = .begun) : Calling opened all (log ++ [s]) (s.next behave) := by
  obtain ⟨left, rest, calls, agenda, follows⟩ := h
  -- As long as fetches are left the first task is a call; later, no stage opens a round.
  cases left with
  | cons t left =>
      have split := s.agenda_eq
      rw [first, agenda, List.nil_append, List.map_cons, List.cons_append, List.cons.injEq,
        Prod.mk.injEq] at split
      obtain ⟨⟨due, task⟩, after⟩ := split
      have taken : s.taken.agenda = left.map (fun t => (opened, .enter t)) ++ rest := by
        show s.before ++ s.after = _
        rw [first, List.nil_append, after]
      have calls' : callsIn (log ++ [s]) ++ left = all := by
        have call : s.call? = some t := call?_eq_some_iff.2 task.symm
        rw [callsIn_snoc, call]
        simpa using calls
      have early : ∀ e ∈ left.map fun t => (opened, Task.enter t), e.1 ≤ s.moment := by
        intro e mem
        obtain ⟨t', -, rfl⟩ := List.mem_map.1 mem
        show opened ≤ s.moment
        omega
      rcases agenda_of_enter behave task.symm with eq | ⟨time, task', later, new, eq⟩
      · exact ⟨left, rest, calls', eq.trans taken, follows⟩
      · refine ⟨left, enlist time task' rest, calls', ?_, fun e mem => ?_⟩
        · rw [eq, taken]
          exact enlist_append (fun e mem => Nat.le_trans (early e mem) later) rest
        · rcases List.mem_cons.1 ((enlist_perm _ _ _).mem_iff.1 mem) with rfl | mem
          · exact new
          · exact follows e mem
  | nil =>
      have follows : ∀ e ∈ s.world.agenda, e.2.Follows := by
        rw [agenda]
        exact follows
      have quiet : s.call? = none := by
        refine Option.eq_none_iff_forall_ne_some.2 fun t call => ?_
        exact (follows _ s.mem_agenda).2 t (call?_eq_some_iff.1 call)
      refine ⟨[], (s.next behave).agenda, ?_, rfl, follows_next follows once⟩
      rw [callsIn_snoc, quiet]
      simpa using calls

end ReplicaDiff.World
