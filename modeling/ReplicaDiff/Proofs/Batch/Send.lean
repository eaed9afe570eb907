/-
# ReplicaDiff.Proofs.Batch.Send — a round on its own comes to what its fetches come to

The stores deal each side's calls their fates in turn.  Whatever order the tasks
come in that are due together, the sender is told what `decision` says of the
fates that its fetches have met, at the moment that it says, and each store has
had one call for each slot (`send_decided`).
-/
import ReplicaDiff.Batch
import ReplicaDiff.Proofs.World.Decision
import ReplicaDiff.Proofs.World.Ending
import ReplicaDiff.Proofs.World.InOrder

namespace ReplicaDiff

set_option autoImplicit false

namespace Batch

open ReplicaDiff.World

/-- The rule by which a store deals its calls fates in turn. -/
def inTurn (fates : Nat → Fate) : Rule := fun _ _ total => fates total

/-- The slots of one side in the order in which their fetches have been called. -/
def calledSlots (log : List (Stage Sender Unit)) (side : Side) : List Nat :=
  ((callsIn log).filter fun t => t.side = side).map (·.slot)

/-- The fates that the fetches have met. -/
def metFates (fates : Side → Nat → Fate) (log : List (Stage Sender Unit)) : Fates :=
  fun side slot => fates side ((calledSlots log side).idxOf slot)

/-- A round is sent on its own, and what is due is fired as soon as it is, in some order. -/
structure Sending (fates : Side → Nat → Fate) (keys : List String) (timeout : Duration)
    (log : List (Stage Sender Unit)) (w : World Sender Unit) : Prop where
  schedule : Schedule Sender.react
    (initial (.dealing (inTurn (fates .source))) (.dealing (inTurn (fates .target)))
      [⟨keys, timeout, none⟩]) log w
  prompt : ∀ s ∈ log, s.Prompt

/-- A sender is told that it has begun, and then the verdict on its round. -/
theorem Sender.play_cases {start s : Sender} {history : List (Sender × Signal)} {p : Phase}
    (play : Play Sender.react start history s p) :
    (history = [] ∧ s = start ∧ p = .fresh) ∨
    (history = [(start, .begun)] ∧ s = start ∧ p = .fetching start.keys start.timeout) ∨
    ∃ v, history = [(start, .begun), (start, .settled v)] ∧
      s = { start with verdict := some v } ∧ p = .stopped := by
  induction play with
  | fresh => exact .inl ⟨rfl, rfl, rfl⟩
  | @told history s p signal earlier admits ih =>
      rcases ih with ⟨rfl, rfl, rfl⟩ | ⟨rfl, rfl, rfl⟩ | ⟨v, rfl, rfl, rfl⟩
      · cases signal <;> simp only [Phase.Admits] at admits
        exact .inr (.inl ⟨rfl, rfl, rfl⟩)
      · cases signal with
        | settled v => exact .inr (.inr ⟨v, rfl, rfl, rfl⟩)
        | begun => cases admits
        | rested => cases admits
      · cases admits

/-- What a sender can afford in a phase. -/
def Sender.budget (depth : Depth) (s : Sender) : Phase → Nat
  | .fresh => 1 + s.keys.length * (depth .source + depth .target + 4)
  | _ => 0

theorem Sender.affordable (depth : Depth) : Affordable Sender.react depth (Sender.budget depth) := by
  intro s p signal admits
  cases signal with
  | begun =>
      cases p <;> simp only [Phase.Admits] at admits
      exact Nat.le_refl _
  | settled v => exact Nat.zero_le _
  | rested => exact Nat.zero_le _

theorem Sender.timely {start : Sender} (positive : 0 < start.timeout.ticks) :
    Timely Sender.react start := by
  intro history s keys timeout play
  rcases Sender.play_cases play with ⟨-, -, eq⟩ | ⟨-, -, eq⟩ | ⟨-, -, -, eq⟩
  · cases eq
  · cases eq
    exact positive
  · cases eq

namespace Sending

variable {fates : Side → Nat → Fate} {keys : List String} {timeout : Duration}
  {log : List (Stage Sender Unit)} {w : World Sender Unit}

theorem fated (h : Sending fates keys timeout log w) (positive : 0 < timeout.ticks) :
    Fated Sender.react (fun side => inTurn (fates side)) (.dealing (inTurn (fates .source)))
      (.dealing (inTurn (fates .target))) [⟨keys, timeout, none⟩] log w where
  schedule := h.schedule
  prompt := h.prompt
  source := Store.dealing_obeys _
  target := Store.dealing_obeys _
  timely start mem := by
    rw [List.mem_singleton] at mem
    subst mem
    exact Sender.timely positive

/-- The last stage tells the sender the verdict on its round, the first thing it is told after it
has begun. -/
theorem last (h : Sending fates keys timeout log w) (finished : w.isOver = true) :
    ∃ earlier s v, log = earlier ++ [s] ∧ w = s.next Sender.react ∧
      s.told? = some ⟨0, ⟨keys, timeout, none⟩, .settled v⟩ ∧ verdict? w = some v ∧
      heard 0 earlier = [(⟨keys, timeout, none⟩, .begun)] := by
  obtain ⟨schedule, prompt⟩ := h
  have own : ([⟨keys, timeout, none⟩] : List Sender)[0]? = some ⟨keys, timeout, none⟩ := rfl
  obtain ⟨c, present, play⟩ := schedule.plays_to_end finished own
  rcases Sender.play_cases play with ⟨-, -, eq⟩ | ⟨-, -, eq⟩ | ⟨v, history, state, -⟩
  · cases eq
  · cases eq
  · have verdict : verdict? w = some v := by
      have head : w.clients.head? = some c := by rw [List.head?_eq_getElem?, present]
      simp [verdict?, head, state]
    cases schedule with
    | refl => cases history
    | @snoc earlier s before =>
        obtain ⟨c', p', present', play', stands⟩ := before.plays own
        rw [heard_snoc] at history
        rcases Sender.play_cases play' with ⟨fresh, -, -⟩ | ⟨begun, -, -⟩ | ⟨v', -, -, rfl⟩
        · rw [fresh] at history
          cases tells : s.tells 0 <;> simp [tells] at history
        · rw [begun] at history
          cases tells : s.tells 0 with
          | none => simp [tells] at history
          | some told =>
              rw [tells] at history
              simp only [Option.toList_some, List.cons_append, List.nil_append, List.cons.injEq,
                and_true, true_and] at history
              subst history
              obtain ⟨⟨client, state, signal⟩, told, eq⟩ := Option.bind_eq_some_iff.1 tells
              dsimp only at eq
              split at eq
              · rename_i first
                cases eq
                exact ⟨earlier, s, v, rfl, rfl, by rw [told, first], verdict, begun⟩
              · cases eq
        · -- The sender would have stopped before the last stage.
          have one : s.world.clients.length = 1 := before.length_clients
          obtain ⟨only, clients⟩ := List.length_eq_one_iff.1 one
          have unfinished := s.unfinished
          rw [clients] at present'
          cases present'
          simp [isOver, clients, stands.stopped.2 rfl] at unfinished

/-- What has been sent, once the sender has begun. -/
theorem sent_eq (h : Sending fates keys timeout log w) {later : List (Sender × Signal)}
    (begun : heard 0 log = (⟨keys, timeout, none⟩, .begun) :: later)
    (settled : ∀ e ∈ later, ∃ v, e.2 = .settled v) (i : Nat) :
    sent Sender.react (heard i log) = if i = 0 then [keys] else [] := by
  by_cases first : i = 0
  · subst first
    have quiet : sent Sender.react later = [] := by
      refine List.filterMap_eq_nil_iff.2 fun e mem => ?_
      obtain ⟨v, eq⟩ := settled e mem
      obtain ⟨state, signal⟩ := e
      cases eq
      rfl
    rw [begun, if_pos rfl]
    show keys :: sent Sender.react later = _
    rw [quiet]
  · rw [h.schedule.heard_eq_nil (Nat.one_le_iff_ne_zero.2 first), if_neg first]
    rfl

/-- Once the sender has begun, the calls are fetches of its round, each called at most once. -/
theorem isOf_of_called (h : Sending fates keys timeout log w) (positive : 0 < timeout.ticks)
    (sends : ∀ i, sent Sender.react (heard i log) = if i = 0 then [keys] else []) {t : Ticket}
    (mem : t ∈ callsIn log) : t.IsOf 0 1 keys := by
  obtain ⟨n, keys', serial, round, key⟩ := (h.fated positive).called.sent t mem
  rw [sends] at round
  by_cases first : t.client = 0
  · rw [if_pos first] at round
    have bound := (List.getElem?_eq_some_iff.1 round).1
    have zero : n = 0 := by simpa using bound
    subst zero
    cases round
    exact ⟨first, serial, key⟩
  · rw [if_neg first] at round
    cases round

/-- Among calls of which each has been made once, the place of a call is how many of its side came
before it. -/
theorem idxOf_calledSlots {earlier later : List Ticket} {t : Ticket}
    (split : callsIn log = earlier ++ t :: later) (own : ∀ t ∈ callsIn log, t.IsOf 0 1 keys)
    (once : (callsIn log).count t = 1) :
    (calledSlots log t.side).idxOf t.slot = callsOf earlier t.side := by
  have new : t.slot ∉ (earlier.filter fun t' => t'.side = t.side).map (·.slot) := by
    intro mem
    obtain ⟨t', mem, slot⟩ := List.mem_map.1 mem
    obtain ⟨mem, side⟩ := List.mem_filter.1 mem
    have same : t' = t := (own t' (by rw [split]; exact List.mem_append_left _ mem)).eq
      (own t (by rw [split]; simp)) (of_decide_eq_true side) slot
    have twice := List.count_pos_iff.2 (same ▸ mem)
    rw [split, List.count_append, List.count_cons_self] at once
    omega
  unfold calledSlots callsOf
  rw [split, List.filter_append, List.filter_cons_of_pos (by simp), List.map_append, List.map_cons,
    List.idxOf_append_of_notMem new, List.idxOf_cons_self, Nat.add_zero, List.length_map,
    List.countP_eq_length_filter]

/-- The sender began at the beginning. -/
theorem opened_eq_zero (h : Sending fates keys timeout log w) {start : Sender}
    (begun : heard 0 log = [(start, .begun)]) : toldAt 0 log = 0 := by
  refine toldAt_eq_zero fun s mem some => ?_
  obtain ⟨before, after, rfl⟩ := List.append_of_mem mem
  obtain ⟨⟨state, signal⟩, tells⟩ := Option.isSome_iff_exists.1 some
  have there : (state, signal) ∈ heard 0 (before ++ s :: after) :=
    List.mem_filterMap.2 ⟨s, mem, tells⟩
  rw [begun, List.mem_singleton] at there
  cases there
  obtain ⟨⟨client, state, signal⟩, told, eq⟩ := Option.bind_eq_some_iff.1 tells
  dsimp only at eq
  split at eq
  · rename_i first
    cases eq
    rw [← news?_taken] at told
    obtain ⟨-, -, ⟨task, -⟩ | ⟨-, eq⟩ | ⟨_, _, _, eq, -⟩⟩ := news?_cases told
    · rw [(h.prompt s mem).1]
      exact h.schedule.before.due_of_begin _ s.mem_agenda client task
    · cases eq
    · cases eq
  · cases eq

/-- The fetches of both sides have been called, one for each slot. -/
theorem calledSlots_perm {calls : List Ticket} (same : callsIn log = calls)
    (own : ∀ t ∈ calls, t.IsOf 0 1 keys)
    (once : ∀ t : Ticket, t.IsOf 0 1 keys → calls.count t = 1) (side : Side) :
    (calledSlots log side).Perm (List.range keys.length) := by
  subst same
  refine (List.perm_ext_iff_of_nodup ?_ List.nodup_range).2 fun slot => ?_
  · refine List.Nodup.map_on ?_ ?_
    · intro t mem t' mem' slot
      obtain ⟨mem, ofSide⟩ := List.mem_filter.1 mem
      obtain ⟨mem', ofSide'⟩ := List.mem_filter.1 mem'
      exact (own t mem).eq (own t' mem')
        ((of_decide_eq_true ofSide).trans (of_decide_eq_true ofSide').symm) slot
    · refine List.Nodup.filter _ (List.nodup_iff_count_le_one.2 fun t => ?_)
      by_cases mem : t ∈ callsIn log
      · exact Nat.le_of_eq (once t (own t mem))
      · rw [List.count_eq_zero.2 mem]
        exact Nat.zero_le 1
  · unfold calledSlots
    rw [List.mem_map, List.mem_range]
    constructor
    · rintro ⟨t, mem, rfl⟩
      exact (List.getElem?_eq_some_iff.1 (own t (List.mem_filter.1 mem).1).key).1
    · intro bound
      have called := once ⟨0, 1, side, slot, keys[slot]⟩
        ⟨rfl, rfl, List.getElem?_eq_getElem bound⟩
      refine ⟨_, List.mem_filter.2 ⟨List.count_pos_iff.1 (called ▸ Nat.one_pos), ?_⟩, rfl⟩
      simp

/-- The round has been settled when the sender is told its verdict. -/
theorem settled {s : Stage Sender Unit} {v : Except Error Results}
    (h : Sending fates keys timeout log s.world) (positive : 0 < timeout.ticks) (prompt : s.Prompt)
    (told : s.told? = some ⟨0, ⟨keys, timeout, none⟩, .settled v⟩)
    (begun : heard 0 log = [(⟨keys, timeout, none⟩, .begun)]) :
    ∃ p, Settled (fun side => inTurn (fates side)) 0 1 0 keys timeout (callsIn log) s.moment v p := by
  have own : ([⟨keys, timeout, none⟩] : List Sender)[0]? = some ⟨keys, timeout, none⟩ := rfl
  obtain ⟨c, phase, present, play, stands⟩ := h.schedule.plays own
  rw [begun] at play
  have waits : c.state = ⟨keys, timeout, none⟩ ∧ phase = .fetching keys timeout := by
    rcases Sender.play_cases play with ⟨eq, -⟩ | ⟨-, state, rfl⟩ | ⟨v, eq, -⟩
    · cases eq
    · exact ⟨state, rfl⟩
    · cases eq
  obtain ⟨state, rfl⟩ := waits
  have fated := h.fated positive
  have serial : c.serial = 1 := by
    rw [fated.called.serials 0 c present, h.sent_eq begun (by simp) 0]
    rfl
  rw [← state] at told
  obtain ⟨p, settled⟩ := fated.timed.settled prompt told present stands positive
  rw [serial, h.opened_eq_zero begun] at settled
  exact ⟨p, settled⟩

/-- What has happened when the sender has stopped. -/
theorem decided (h : Sending fates keys timeout log w) (positive : 0 < timeout.ticks)
    (off : ∀ side i, i < keys.length → ∀ answer, fates side i ≠ .ends answer timeout.ticks)
    (finished : w.isOver = true) :
    (∀ side, (calledSlots log side).Perm (List.range keys.length)) ∧
    (∀ side, (w.store side).layers.map (·.seen.total) = [keys.length]) ∧
    verdict? w = some (decision keys timeout (metFates fates log)).1 ∧
    w.now = (decision keys timeout (metFates fates log)).2 := by
  obtain ⟨earlier, s, v, rfl, rfl, told, verdict, begun⟩ := h.last finished
  have before : Sending fates keys timeout earlier s.world :=
    ⟨h.schedule.before, fun s' mem => h.prompt s' (List.mem_append_left _ mem)⟩
  have prompt := h.prompt s (by simp)
  obtain ⟨p, settled⟩ := before.settled positive prompt told begun
  have news := told
  rw [← news?_taken] at news
  have same : callsIn (earlier ++ [s]) = callsIn earlier := by
    rw [callsIn_snoc, call?_of_ticket_none (news?_cases news).1, Option.toList_none,
      List.append_nil]
  have own : ∀ t ∈ callsIn earlier, t.IsOf 0 1 keys := fun t =>
    before.isOf_of_called positive (before.sent_eq begun (by simp))
  have perm := calledSlots_perm same own settled.count
  -- The fate that a fetch has met is that of the turn at which its side was called for it.
  have met : ∀ side slot, slot < keys.length →
      (p side slot).fate? = some (metFates fates (earlier ++ [s]) side slot) := by
    intro side slot bound
    have isOf : Ticket.IsOf ⟨0, 1, side, slot, keys[slot]⟩ 0 1 keys :=
      ⟨rfl, rfl, List.getElem?_eq_getElem bound⟩
    obtain ⟨f, fate⟩ := (settled.current side slot bound).exists_fate
    obtain ⟨first, later, split, dealt⟩ := settled.dealt _ f isOf fate
    have place := idxOf_calledSlots (same.trans split) (same ▸ own) (same ▸ settled.count _ isOf)
    dsimp only at place
    rw [fate, dealt, metFates, place]
    rfl
  have off' : ∀ side slot, slot < keys.length → ∀ answer,
      metFates fates (earlier ++ [s]) side slot ≠ .ends answer timeout.ticks := by
    intro side slot bound
    refine off side _ ?_
    have mem := (perm side).mem_iff.2 (List.mem_range.2 bound)
    have place := List.idxOf_lt_length_of_mem mem
    rwa [(perm side).length_eq, List.length_range] at place
  obtain ⟨decided, moment⟩ := settled.decision met off'
  refine ⟨perm, fun side => ?_, ?_, ?_⟩
  · have obeys := (h.fated positive).timed.obeys side
    have depth := congrFun h.schedule.depth_eq side
    have one : ((s.next Sender.react).store side).layers.length = 1 := by
      refine depth.trans ?_
      cases side <;> rfl
    have count : callsOf (callsIn (earlier ++ [s])) side = keys.length := by
      have length := (perm side).length_eq
      rw [calledSlots, List.length_map, ← List.countP_eq_length_filter, List.length_range] at length
      exact length
    rw [(obeys.seen one).1, count]
  · rw [verdict, decided]
  · rw [now_next, moment, Nat.zero_add]

/-- When the first task of the agenda is always fired, the fetches are called in the order of their
slots. -/
theorem calling (h : Sending fates keys timeout log w) (positive : 0 < timeout.ticks)
    (first : ∀ s ∈ log, s.before = []) :
    (w = initial (.dealing (inTurn (fates .source))) (.dealing (inTurn (fates .target)))
        [⟨keys, timeout, none⟩] ∧ callsIn log = []) ∨
      Calling 0 (tickets 0 1 keys) log w := by
  obtain ⟨schedule, prompt⟩ := h
  induction schedule with
  | refl => exact .inl ⟨rfl, rfl⟩
  | @snoc log s earlier ih =>
      have head := first s (by simp)
      rcases ih (fun s' mem => first s' (List.mem_append_left _ mem))
        (fun s' mem => prompt s' (List.mem_append_left _ mem)) with ⟨start, calls⟩ | calling
      · obtain ⟨world, before, due, task, after, moment, agenda, unfinished, ripe, onward⟩ := s
        dsimp only at start head
        subst start head
        have now := (prompt _ (List.mem_append_right _ List.mem_cons_self)).1
        dsimp only at now
        cases agenda
        subst now
        obtain ⟨rest, agenda, follows⟩ := agenda_openRound
          (w := (⟨0, [], .dealing (inTurn (fates .source)), .dealing (inTurn (fates .target)),
            [⟨⟨keys, timeout, none⟩, 0, none, false⟩], #[]⟩ : World Sender Unit)) rfl 0 1 keys positive
        refine .inr ⟨tickets 0 1 keys, rest, ?_, ?_, follows⟩
        · rw [callsIn_snoc, calls]
          rfl
        · exact agenda
      · refine .inr (calling_next calling head (prompt s (by simp)).1 ?_)
        intro state signal keys timeout move
        cases signal with
        | begun => rfl
        | settled v => cases move
        | rested => cases move

theorem calledSlots_eq (h : Sending fates keys timeout log w) (positive : 0 < timeout.ticks)
    (first : ∀ s ∈ log, s.before = [])
    (perm : ∀ side, (calledSlots log side).Perm (List.range keys.length)) (side : Side) :
    calledSlots log side = List.range keys.length := by
  rcases h.calling positive first with ⟨-, calls⟩ | ⟨left, rest, calls, -⟩
  · have length := (perm side).length_eq
    rw [calledSlots, calls] at length
    rw [List.length_range] at length
    simp [calledSlots, calls, ← length]
  · have all := slots_tickets 0 1 keys side
    rw [← calls, List.filter_append, List.map_append] at all
    have length := congrArg List.length all
    have length' := (perm side).length_eq
    unfold calledSlots at length' ⊢
    rw [List.length_append, length'] at length
    have none : ((left.filter fun t => t.side = side).map (·.slot)) = [] :=
      List.eq_nil_of_length_eq_zero (by omega)
    rwa [none, List.append_nil] at all

end Sending

/-- A round that is sent on its own comes to its end, whatever the stores. -/
theorem isOver_send (source target : Store) (keys : List String) (timeout : Duration) :
    (send source target keys timeout).isOver = true := by
  refine isOver_run (Sender.affordable _) ?_
  simp only [allowance, List.length_singleton, Finset.sum_range_one, List.getElem?_cons_zero,
    Option.elim_some, Sender.budget, roundCost]
  show 1 + (1 + keys.length * (source.layers.length + target.layers.length + 4)) ≤
    2 + (2 + keys.length * (source.layers.length + target.layers.length + 4))
  omega

/-- Sending a round on its own fires what is due in one of the orders, and comes to its end. -/
theorem exists_sending (fates : Side → Nat → Fate) (keys : List String) (timeout : Duration) :
    ∃ log, Sending fates keys timeout log
        (send (.dealing (inTurn (fates .source))) (.dealing (inTurn (fates .target))) keys timeout) ∧
      (∀ s ∈ log, s.before = []) ∧
      (send (.dealing (inTurn (fates .source))) (.dealing (inTurn (fates .target)))
        keys timeout).isOver = true := by
  obtain ⟨log, schedule, prompt, -⟩ := exists_prompt_schedule Sender.react
    (2 + World.roundCost (.dealing (inTurn (fates .source))) (.dealing (inTurn (fates .target)))
      keys.length)
    (initial (.dealing (inTurn (fates .source))) (.dealing (inTurn (fates .target)))
      [⟨keys, timeout, none⟩]) (.initial _ _ _)
  exact ⟨log, ⟨schedule, fun s mem => (prompt s mem).1⟩, fun s mem => (prompt s mem).2,
    isOver_send _ _ _ _⟩

/-- A round comes to what the fates of its fetches decide, and each store has one call for each
slot.  Sent on its own, the fetches of a side meet its fates in the order of the slots; in another
order of what is due together, each meets the fate of its turn.  No order fails to come to an
end. -/
theorem send_decided (fates : Side → Nat → Fate) (keys : List String) (timeout : Duration)
    (positive : 0 < timeout.ticks)
    (off : ∀ side i, i < keys.length → ∀ answer, fates side i ≠ .ends answer timeout.ticks) :
    (verdict? (send (.dealing (inTurn (fates .source))) (.dealing (inTurn (fates .target)))
        keys timeout) = some (decision keys timeout fates).1 ∧
      (send (.dealing (inTurn (fates .source))) (.dealing (inTurn (fates .target)))
        keys timeout).now = (decision keys timeout fates).2 ∧
      ∀ side, ((send (.dealing (inTurn (fates .source))) (.dealing (inTurn (fates .target)))
        keys timeout).store side).layers.map (·.seen.total) = [keys.length]) ∧
    (∀ log w, Sending fates keys timeout log w →
      ∃ more w', Sending fates keys timeout (log ++ more) w' ∧ w'.isOver = true) ∧
    ∀ log w, Sending fates keys timeout log w → w.isOver = true →
      (∀ side, (calledSlots log side).Perm (List.range keys.length)) ∧
      (∀ side, (w.store side).layers.map (·.seen.total) = [keys.length]) ∧
      verdict? w = some (decision keys timeout (metFates fates log)).1 ∧
      w.now = (decision keys timeout (metFates fates log)).2 := by
  refine ⟨?_, fun log w sending => ?_, fun log w sending => sending.decided positive off⟩
  · obtain ⟨log, sending, first, finished⟩ := exists_sending fates keys timeout
    obtain ⟨perm, received, verdict, now⟩ := sending.decided positive off finished
    have inOrder := sending.calledSlots_eq positive first perm
    have met : decision keys timeout (metFates fates log) = decision keys timeout fates := by
      refine decision_congr fun side slot bound => ?_
      have place : (List.range keys.length).idxOf slot = slot := by
        have there := List.nodup_range.idxOf_getElem slot
          (show slot < (List.range keys.length).length by rwa [List.length_range])
        rwa [List.getElem_range] at there
      unfold metFates
      rw [inOrder, place]
    rw [met] at verdict now
    exact ⟨verdict, now, received⟩
  · obtain ⟨more, w', fated, finished⟩ := (sending.fated positive).exists_over (Sender.affordable _)
    exact ⟨more, w', ⟨fated.schedule, fated.prompt⟩, finished⟩

/-- Fates around a deadline of five milliseconds: an answer just in time, an end without a word, an
answer just too late, and no end at all. -/
def aroundDeadline : Side → Nat → Fate
  | .source, 0 => .ends (some (.error .notFound)) 4
  | .source, _ => .ends none 1
  | .target, 0 => .ends (some (.error .notFound)) 6
  | .target, _ => .never

theorem send_decided_around_deadline :
    verdict? (send (.dealing (inTurn (aroundDeadline .source)))
        (.dealing (inTurn (aroundDeadline .target))) ["key", "key"] (.ofMillis 5)) =
      some (.error (.timeout 2 0 1 2)) ∧
    (send (.dealing (inTurn (aroundDeadline .source)))
      (.dealing (inTurn (aroundDeadline .target))) ["key", "key"] (.ofMillis 5)).now = 5 := by
  have off : ∀ side i, i < 2 → ∀ answer, aroundDeadline side i ≠ .ends answer 5 := by
    intro side i bound answer eq
    obtain rfl | rfl : i = 0 ∨ i = 1 := by omega
    · cases side <;> cases eq
    · cases side <;> cases eq
  obtain ⟨verdict, now, -⟩ :=
    (send_decided aroundDeadline ["key", "key"] (.ofMillis 5) (by decide) off).1
  exact ⟨verdict.trans rfl, now.trans rfl⟩

end Batch

end ReplicaDiff
