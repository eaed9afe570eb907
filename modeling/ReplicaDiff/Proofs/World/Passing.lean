/-
# ReplicaDiff.Proofs.World.Passing — how many fetches get to a layer

A stage that carries on with a fetch lets it come upon layers (`ahead?`).  It
passes the numbers of those that let it go on at once (`Stage.passing?`), and ends
its way at one that never answers (`Stage.stalling?`), goes to sleep at one, or
gets to the base.

A fetch that has passed one number either passes a smaller one as well, or it has
stalled or is asleep at one of the layers between (`Schedule.passed_perm`), and
each fetch passes a number once (`Schedule.nodup_passed`).  What a layer has
counted are the fetches that have passed the number after its own
(`Schedule.getElem?_layers`).
-/
import ReplicaDiff.Proofs.Store.CallCount
import ReplicaDiff.Proofs.Store.Passage
import ReplicaDiff.Proofs.World.Ending
import ReplicaDiff.Proofs.World.Sleeping
import ReplicaDiff.Proofs.World.Tickets

namespace ReplicaDiff

set_option autoImplicit false

/-- The fetch that is asleep, if it is one of this side and is so at one of the layers from number
`inner` up to `outer`, which does not count. -/
def Sleeper.between? (side : Side) (inner outer : Nat) (x : Sleeper) : Option Ticket :=
  if x.ticket.side = side ∧ inner ≤ x.below ∧ x.below < outer then some x.ticket else none

namespace World

open Store (Layer passes stop?)

variable {σ ε : Type}

/-! ## Coming upon layers -/

/-- The fetch that a task lets go on, and the layers that it comes upon. -/
def ahead? (w : World σ ε) : Task → Option (Ticket × List Layer)
  | .enter t => some (t, (w.store t.side).layers)
  | .resume t below .pass =>
      some (t, (w.store t.side).layers.drop ((w.store t.side).layers.length - below))
  | _ => none

/-- The fetch of one side that gets to where `left` layers are left. -/
def Stage.passing? (side : Side) (left : Nat) (s : Stage σ ε) : Option Ticket :=
  (s.taken.ahead? s.task).bind fun (t, layers) =>
    if t.side = side ∧ passes t.key layers left then some t else none

/-- The fetch of one side that stalls at one of the layers from number `inner` up to `outer`, which
does not count. -/
def Stage.stalling? (side : Side) (inner outer : Nat) (s : Stage σ ε) : Option Ticket :=
  (s.taken.ahead? s.task).bind fun (t, layers) =>
    (stop? t.key layers).bind fun (below, plan) =>
      if t.side = side ∧ plan.ending = .stall ∧ inner ≤ below ∧ below < outer then some t else none

/-- The fetches of one side that have got to where `left` layers are left. -/
def passed (side : Side) (left : Nat) (log : List (Stage σ ε)) : List Ticket :=
  log.filterMap (Stage.passing? side left)

/-- The fetches of one side that have stalled at one of these layers. -/
def stalled (side : Side) (inner outer : Nat) (log : List (Stage σ ε)) : List Ticket :=
  log.filterMap (Stage.stalling? side inner outer)

/-- The fetches of one side that are asleep at one of these layers. -/
def asleep (side : Side) (inner outer : Nat) (w : World σ ε) : List Ticket :=
  (sleepers w.agenda).filterMap (Sleeper.between? side inner outer)

/-! ## One stage -/

/-- A fetch comes upon layers of its store: what is left of the store, and where it halts. -/
structure Comes (w : World σ ε) (task : Task) (t : Ticket) (after : Store) (halt : Store.Halt)
    (outside layers : List Layer) : Prop where
  ahead : w.ahead? task = some (t, layers)
  split : (w.store t.side).layers = outside ++ layers
  leaves : after = ⟨outside ++ (Store.descend (w.store t.side).base t.key layers).1,
    (w.store t.side).base⟩
  halts : halt = (Store.descend (w.store t.side).base t.key layers).2
  origin : task = .enter t ∧ outside = [] ∨
    ∃ below, task = .resume t below .pass ∧
      layers.length = min below (w.store t.side).layers.length

/-- A fetch that a task carries on with comes upon the layers ahead of it, or ends where it has
waited. -/
theorem reach_cases {w : World σ ε} {task : Task} {t : Ticket} {store : Store}
    {halt : Store.Halt} (reach : w.reach? task = some (t, store, halt)) :
    (∃ outside layers, Comes w task t store halt outside layers) ∨
    w.ahead? task = none ∧ store = w.store t.side ∧
      ∃ below ending, task = .resume t below ending ∧ ending ≠ .pass := by
  cases task with
  | enter t' =>
      cases reach
      exact .inl ⟨[], (w.store t.side).layers, rfl, rfl, rfl, rfl, .inl ⟨rfl, rfl⟩⟩
  | resume t' below ending =>
      simp only [reach?, Option.some.injEq, Prod.mk.injEq] at reach
      obtain ⟨rfl, resumed⟩ := reach
      cases ending with
      | pass =>
          cases resumed
          refine .inl ⟨_, _, rfl, (List.take_append_drop _ _).symm, rfl, rfl, .inr ⟨below, rfl, ?_⟩⟩
          rw [List.length_drop]
          omega
      | stall => cases resumed; exact .inr ⟨rfl, rfl, below, _, rfl, by simp⟩
      | vanish => cases resumed; exact .inr ⟨rfl, rfl, below, _, rfl, by simp⟩
      | answer outcome => cases resumed; exact .inr ⟨rfl, rfl, below, _, rfl, by simp⟩
  | _ => cases reach

theorem ahead?_of_idle {w : World σ ε} {task : Task} (idle : w.reach? task = none) :
    w.ahead? task = none ∧ task.sleeper? = none := by
  cases task with
  | enter t => cases idle
  | resume t below ending => cases idle
  | _ => exact ⟨rfl, rfl⟩

variable {behave : Behaviour σ ε} {s : Stage σ ε} {side : Side}

theorem store_taken (s : Stage σ ε) (side : Side) : s.taken.store side = s.world.store side := rfl

theorem passing?_eq (side : Side) (left : Nat) {t : Ticket} {layers : List Layer}
    (ahead : s.taken.ahead? s.task = some (t, layers)) :
    s.passing? side left = if t.side = side ∧ passes t.key layers left then some t else none := by
  rw [Stage.passing?, ahead, Option.bind_some]

theorem passing?_of_idle (side : Side) (left : Nat) (idle : s.taken.ahead? s.task = none) :
    s.passing? side left = none := by
  rw [Stage.passing?, idle, Option.bind_none]

theorem getElem?_reverse_append (outside layers : List Layer) (depth : Nat) :
    (outside ++ layers).reverse[depth]? =
      if depth < layers.length then layers.reverse[depth]?
      else outside.reverse[depth - layers.length]? := by
  rw [List.reverse_append, List.getElem?_append, List.length_reverse]

/-- A layer counts the fetch that passes the number after its own, and else stays as it is. -/
theorem layers_next (behave : Behaviour σ ε) (s : Stage σ ε) (side : Side) (depth : Nat) :
    ((s.next behave).store side).layers.reverse[depth]? =
      ((s.world.store side).layers.reverse[depth]?).map fun l =>
        match s.passing? side (depth + 1) with
        | some t => (l.call t.key).1
        | none => l := by
  cases reach : s.taken.reach? s.task with
  | none =>
      rw [(next_of_idle behave reach).1 side,
        passing?_of_idle side _ (ahead?_of_idle reach).1, Option.map_id']
  | some reached =>
      obtain ⟨t, store, halt⟩ := reached
      rw [(next_of_reach behave reach).1 side]
      obtain ⟨outside, layers, ahead, split, rfl, -, -⟩ | ⟨idle, rfl, -⟩ := reach_cases reach
      · rw [passing?_eq side _ ahead]
        by_cases own : t.side = side
        · subst own
          rw [store_taken] at split
          rw [if_pos rfl, split, getElem?_reverse_append, getElem?_reverse_append,
            (Store.descend_layers _ _ _).1, Store.getElem?_descend]
          by_cases inside : depth < layers.length
          · rw [if_pos inside, if_pos inside]
            by_cases gets : passes t.key layers (depth + 1) = true <;> simp [gets]
          · have misses : passes t.key layers (depth + 1) = false := by
              simp only [passes, Bool.and_eq_false_iff, decide_eq_false_iff_not]
              exact .inl (by omega)
            rw [if_neg inside, if_neg inside, misses]
            simp
        · rw [if_neg own, if_neg fun both => own both.1, Option.map_id']
      · rw [passing?_of_idle side _ idle, Option.map_id']
        split
        · rename_i own
          rw [← own]
          rfl
        · rfl

/-- On one side every layer lets fetches go on, at once or later, or never answers. -/
structure Waiting (side : Side) (w : World σ ε) : Prop where
  layers : ∀ l ∈ (w.store side).layers, l.Waits
  onward : ∀ x ∈ sleepers w.agenda, x.ticket.side = side →
    x.ending = .pass ∧ x.below < (w.store side).layers.length

namespace Waiting

variable {t : Ticket} {store : Store} {halt : Store.Halt}

/-- Every fetch that is carried on with comes upon layers. -/
theorem comes (h : Waiting side s.world) (own : t.side = side)
    (reach : s.taken.reach? s.task = some (t, store, halt)) :
    ∃ outside layers, Comes s.taken s.task t store halt outside layers := by
  obtain comes | ⟨-, -, below, ending, task, ends⟩ := reach_cases reach
  · exact comes
  · have waiting : (⟨t, below, ending⟩ : Sleeper) ∈ sleepers s.world.agenda :=
      mem_sleepers.2 ⟨s.due, task ▸ s.mem_agenda⟩
    exact absurd (h.onward _ waiting own).1 ends

/-- It leaves layers that only wait and stall, and goes on later if it goes to sleep. -/
theorem reach (h : Waiting side s.world) (own : t.side = side)
    (reach : s.taken.reach? s.task = some (t, store, halt)) :
    (∀ l ∈ store.layers, l.Waits) ∧
      store.layers.length = (s.world.store side).layers.length ∧
      ∀ x ∈ halt.sleeper? t, x.ending = .pass ∧ x.below < (s.world.store side).layers.length := by
  obtain ⟨outside, layers, comes⟩ := h.comes own reach
  subst own
  obtain ⟨-, split, rfl, rfl, -⟩ := comes
  have waits := h.layers
  rw [← store_taken, split] at waits ⊢
  obtain ⟨outer, inner⟩ := List.forall_mem_append.1 waits
  obtain ⟨kept, halts⟩ := Store.descend_layers (s.taken.store t.side).base t.key layers
  have stay : ∀ l : Layer, l.Waits → (l.call t.key).1.Waits := fun _ waits => waits
  refine ⟨List.forall_mem_append.2 ⟨outer, Store.forall_descend _ stay inner⟩, ?_, fun x mem => ?_⟩
  · rw [List.length_append, List.length_append, kept]
  · generalize halt_eq : (Store.descend _ t.key layers).2 = halt at mem halts
    cases halt with
    | asleep delay below ending =>
        cases Option.some.inj mem
        rw [List.length_append]
        exact ⟨Store.ending_of_asleep inner halt_eq,
          Nat.lt_add_left _ (halts delay below ending rfl)⟩
    | _ => cases mem

theorem next (h : Waiting side s.world) : Waiting side (s.next behave) := by
  have rest : ∀ x ∈ sleepers s.rest, x.ticket.side = side →
      x.ending = .pass ∧ x.below < (s.world.store side).layers.length := by
    intro x mem
    exact h.onward x ((sleepers_agenda s).mem_iff.2 (List.mem_append_right _ mem))
  cases reach : s.taken.reach? s.task with
  | none =>
      obtain ⟨stores, perm⟩ := next_of_idle behave reach
      refine ⟨stores side ▸ h.layers, fun x mem => ?_⟩
      rw [stores]
      exact rest x (perm.mem_iff.1 mem)
  | some reached =>
      obtain ⟨t, store, halt⟩ := reached
      obtain ⟨stores, perm⟩ := next_of_reach behave reach
      by_cases own : t.side = side
      · obtain ⟨waits, length, onward⟩ := h.reach own reach
        constructor
        · rw [stores, if_pos own]
          exact waits
        · intro x mem at_side
          rw [stores, if_pos own, length]
          rcases List.mem_append.1 (perm.mem_iff.1 mem) with mem | mem
          · exact onward x (Option.mem_toList.1 mem)
          · exact rest x mem at_side
      · constructor
        · rw [stores, if_neg own]
          exact h.layers
        · intro x mem at_side
          rw [stores, if_neg own]
          rcases List.mem_append.1 (perm.mem_iff.1 mem) with mem | mem
          · have other : x.ticket = t := by
              cases halt with
              | asleep delay below ending => rw [List.mem_singleton.1 mem]
              | _ => cases mem
            exact absurd (other ▸ at_side) own
          · exact rest x mem at_side

end Waiting

/-- A fetch with `ahead` layers ahead of it that is stopped by the one of number `below`. -/
theorem balance_stopped (t : Ticket) {ahead below inner outer : Nat} (stops : below < ahead)
    (le : inner ≤ outer) :
    ((if outer ≤ ahead ∧ below < outer then [t] else []) ++
        if inner ≤ ahead ∧ ahead < outer then [t] else []) =
      (if inner ≤ ahead ∧ below < inner then [t] else []) ++
        if inner ≤ below ∧ below < outer then [t] else [] := by
  by_cases reached : outer ≤ ahead
  · rw [if_neg fun beyond : inner ≤ ahead ∧ ahead < outer => by omega, List.append_nil]
    by_cases inside : below < inner
    · rw [if_pos ⟨reached, by omega⟩, if_pos ⟨by omega, inside⟩, if_neg (by omega), List.append_nil]
    · rw [if_neg fun both : inner ≤ ahead ∧ below < inner => inside both.2, List.nil_append]
      by_cases between : below < outer
      · rw [if_pos ⟨reached, between⟩, if_pos ⟨by omega, between⟩]
      · rw [if_neg fun both => between both.2, if_neg fun both => between both.2]
  · rw [if_neg fun both : outer ≤ ahead ∧ below < outer => reached both.1, List.nil_append]
    by_cases beyond : inner ≤ ahead
    · rw [if_pos ⟨beyond, by omega⟩]
      by_cases inside : below < inner
      · rw [if_pos ⟨beyond, inside⟩, if_neg (by omega), List.append_nil]
      · rw [if_neg fun both => inside both.2, if_pos ⟨by omega, by omega⟩, List.nil_append]
    · rw [if_neg fun both => beyond both.1, if_neg fun both => beyond both.1, if_neg (by omega),
        List.append_nil]

/-- A fetch that comes upon layers and gets to `outer`, or is already beyond, gets to `inner` as
well, or it stalls or goes to sleep between. -/
theorem balance_ahead (t : Ticket) {layers : List Layer} (waits : ∀ l ∈ layers, l.Waits)
    (base : String → Outcome) {inner outer : Nat} (le : inner ≤ outer) :
    ((if passes t.key layers outer then [t] else []) ++
        if inner ≤ layers.length ∧ layers.length < outer then [t] else []).Perm
      ((if passes t.key layers inner then [t] else []) ++
        ((stop? t.key layers).bind fun (below, plan) =>
          if plan.ending = .stall ∧ inner ≤ below ∧ below < outer then some t else none).toList ++
        (((Store.descend base t.key layers).2.sleeper? t).bind
          (Sleeper.between? t.side inner outer)).toList) := by
  rw [Store.halt_descend]
  cases stops : stop? t.key layers with
  | none =>
      have gets (left : Nat) : passes t.key layers left = decide (left ≤ layers.length) := by
        simp [passes, stops]
      simp only [gets, Store.Halt.sleeper?, Option.bind_none, Option.toList_none, List.append_nil,
        decide_eq_true_eq]
      by_cases reached : outer ≤ layers.length
      · simp [reached, Nat.le_trans le reached, Nat.not_lt.2 reached]
      · by_cases beyond : inner ≤ layers.length
        · simp [reached, beyond, Nat.lt_of_not_le reached]
        · simp [reached, beyond]
  | some stop =>
      obtain ⟨below, plan⟩ := stop
      have ahead := Store.stop?_lt stops
      have gets (left : Nat) : passes t.key layers left =
          decide (left ≤ layers.length ∧ below < left) := by
        simp [passes, stops]
      simp only [gets, decide_eq_true_eq, balance_stopped t ahead le, Option.bind_some]
      obtain ⟨stopped, l, at_stop, decided⟩ := Store.exists_stop stops
      have mem := List.mem_reverse.1 (List.mem_of_getElem? at_stop)
      refine .of_eq ?_
      rcases waits l mem t.key (l.seen.of t.key) l.seen.total with stall | ⟨delay, pass⟩
      · obtain rfl : plan = ⟨0, .stall⟩ := decided.trans stall
        by_cases between : inner ≤ below ∧ below < outer <;>
          simp [Store.Plan.halt, Store.Halt.sleeper?, between]
      · obtain rfl : plan = ⟨delay, .pass⟩ := decided.trans pass
        have waits : delay ≠ 0 := by
          rintro rfl
          exact stopped rfl
        by_cases between : inner ≤ below ∧ below < outer <;>
          simp [Store.Plan.halt, Store.Halt.sleeper?, Sleeper.between?, waits, between]

theorem asleep_of_perm {w : World σ ε} (x? : Option Sleeper) {rest : List Sleeper}
    (perm : (sleepers w.agenda).Perm (x?.toList ++ rest)) (side : Side) (inner outer : Nat) :
    (asleep side inner outer w).Perm
      ((x?.bind (Sleeper.between? side inner outer)).toList ++
        rest.filterMap (Sleeper.between? side inner outer)) := by
  refine (perm.filterMap _).trans (.of_eq ?_)
  rw [List.filterMap_append]
  cases x? with
  | none => rfl
  | some x => cases between : x.between? side inner outer <;> simp [between]

/-- A stage that carries on with a fetch of the other side lets no fetch of this one pass or stall,
and wakes none. -/
theorem none_of_other {t : Ticket} {store : Store} {halt : Store.Halt} (other : t.side ≠ side)
    (reach : s.taken.reach? s.task = some (t, store, halt)) (inner outer : Nat) :
    (∀ left, s.passing? side left = none) ∧ s.stalling? side inner outer = none ∧
      s.task.sleeper?.bind (Sleeper.between? side inner outer) = none ∧
      (halt.sleeper? t).bind (Sleeper.between? side inner outer) = none := by
  have away {below : Nat} {ending : Store.Ending} :
      Sleeper.between? side inner outer ⟨t, below, ending⟩ = none :=
    if_neg fun all => other all.1
  have goesToSleep : (halt.sleeper? t).bind (Sleeper.between? side inner outer) = none := by
    cases halt with
    | asleep delay below ending => exact away
    | _ => rfl
  have wakes : s.task.sleeper?.bind (Sleeper.between? side inner outer) = none := by
    cases task : s.task with
    | resume t' below ending =>
        rw [task] at reach
        simp only [reach?, Option.some.injEq, Prod.mk.injEq] at reach
        obtain ⟨rfl, -⟩ := reach
        exact away
    | _ => rfl
  refine ⟨fun left => ?_, ?_, wakes, goesToSleep⟩
  · obtain ⟨-, layers, ahead, -, -, -, -⟩ | ⟨idle, -⟩ := reach_cases reach
    · rw [passing?_eq side left ahead, if_neg fun both => other both.1]
    · exact passing?_of_idle side left idle
  · obtain ⟨-, layers, ahead, -, -, -, -⟩ | ⟨idle, -⟩ := reach_cases reach
    · rw [Stage.stalling?, ahead, Option.bind_some]
      exact Option.bind_eq_none_iff.2 fun stop _ => if_neg fun all => other all.1
    · rw [Stage.stalling?, idle, Option.bind_none]

/-- A fetch that is carried on with and gets to `outer`, or has been asleep beyond, gets to `inner`,
or stalls or goes to sleep between. -/
theorem balance_own {t : Ticket} {store : Store} {halt : Store.Halt}
    (h : Waiting t.side s.world) (reach : s.taken.reach? s.task = some (t, store, halt))
    {inner outer : Nat} (le : inner ≤ outer)
    (inside : outer ≤ (s.world.store t.side).layers.length) :
    ((s.passing? t.side outer).toList ++
        (s.task.sleeper?.bind (Sleeper.between? t.side inner outer)).toList).Perm
      ((s.passing? t.side inner).toList ++ (s.stalling? t.side inner outer).toList ++
        ((halt.sleeper? t).bind (Sleeper.between? t.side inner outer)).toList) := by
  obtain ⟨outside, layers, ahead, split, rfl, rfl, came⟩ := h.comes rfl reach
  have waits := h.layers
  rw [← store_taken, split] at waits
  have fetch := balance_ahead t (List.forall_mem_append.1 waits).2 (s.taken.store t.side).base le
  have length := congrArg List.length split
  rw [store_taken, List.length_append] at length
  have asleepBefore : (s.task.sleeper?.bind (Sleeper.between? t.side inner outer)).toList =
      if inner ≤ layers.length ∧ layers.length < outer then [t] else [] := by
    rcases came with ⟨task, rfl⟩ | ⟨below, task, left⟩
    · rw [List.length_nil, Nat.zero_add] at length
      rw [task, if_neg (by omega)]
      rfl
    · rw [store_taken] at left
      by_cases between : inner ≤ below ∧ below < outer
      · rw [task, if_pos (by omega)]
        simp [Task.sleeper?, Sleeper.between?, between]
      · rw [task, if_neg (by omega)]
        simp [Task.sleeper?, Sleeper.between?, between]
  have passes (left : Nat) : (s.passing? t.side left).toList =
      if passes t.key layers left then [t] else [] := by
    rw [passing?_eq t.side left ahead]
    by_cases gets : Store.passes t.key layers left = true <;> simp [gets]
  have stalls : s.stalling? t.side inner outer =
      (stop? t.key layers).bind fun (below, plan) =>
        if plan.ending = .stall ∧ inner ≤ below ∧ below < outer then some t else none := by
    simp [Stage.stalling?, ahead]
  rw [passes, passes, stalls, asleepBefore]
  exact fetch

/-- A stage lets a fetch that gets to `outer`, or has been asleep beyond, get to `inner`, or stall or
go to sleep between. -/
theorem balance_next (behave : Behaviour σ ε) (h : Waiting side s.world) {inner outer : Nat}
    (le : inner ≤ outer) (inside : outer ≤ (s.world.store side).layers.length) :
    ((s.passing? side outer).toList ++ asleep side inner outer s.world).Perm
      ((s.passing? side inner).toList ++ (s.stalling? side inner outer).toList ++
        asleep side inner outer (s.next behave)) := by
  have before := asleep_of_perm _ (sleepers_agenda s) side inner outer
  cases reach : s.taken.reach? s.task with
  | none =>
      obtain ⟨idle, awake⟩ := ahead?_of_idle reach
      have after := asleep_of_perm none (next_of_idle behave reach).2 side inner outer
      rw [awake] at before
      rw [passing?_of_idle side _ idle, passing?_of_idle side _ idle, Stage.stalling?, idle]
      exact before.trans after.symm
  | some reached =>
      obtain ⟨t, store, halt⟩ := reached
      have after := asleep_of_perm _ (next_of_reach behave reach).2 side inner outer
      -- What is left is about this fetch alone.
      refine (before.append_left _).trans (.trans ?_ (after.append_left _).symm)
      rw [← List.append_assoc, ← List.append_assoc]
      refine List.Perm.append_right _ ?_
      by_cases own : t.side = side
      · subst own
        exact balance_own h reach le inside
      · obtain ⟨passes, stalls, wakes, goesToSleep⟩ := none_of_other own reach inner outer
        rw [passes, passes, stalls, wakes, goesToSleep]
        exact .refl _

/-! ## Whole schedules -/

variable {start w : World σ ε} {log : List (Stage σ ε)}

theorem filterMap_snoc {α β : Type} (f : α → Option β) (l : List α) (a : α) :
    (l ++ [a]).filterMap f = l.filterMap f ++ (f a).toList := by
  rw [List.filterMap_append]
  cases h : f a <;> simp [h]

theorem passed_snoc (side : Side) (left : Nat) (log : List (Stage σ ε)) (s : Stage σ ε) :
    passed side left (log ++ [s]) = passed side left log ++ (s.passing? side left).toList :=
  filterMap_snoc _ _ _

namespace Schedule

/-- A layer has counted the fetches that have passed the number after its own, and else is as it
was. -/
theorem getElem?_layers (h : Schedule behave start log w) (side : Side) (depth : Nat) :
    (w.store side).layers.reverse[depth]? =
      ((start.store side).layers.reverse[depth]?).map fun l =>
        { l with seen := l.seen.addAll ((passed side (depth + 1) log).map (·.key)) } := by
  induction h with
  | refl => exact Option.map_id'.symm
  | @snoc log s earlier ih =>
      rw [layers_next, ih, passed_snoc, Option.map_map]
      refine congrFun (congrArg Option.map (funext fun l => ?_)) _
      rw [Function.comp_apply, List.map_append, CallCount.addAll_append]
      cases passes : s.passing? side (depth + 1) <;> rfl

/-- Where fetches only wait and stall, one that has got to `outer` has got to `inner` as well, or has
stalled or is asleep between. -/
theorem passed_perm (h : Schedule behave start log w) (waiting : Waiting side start)
    (fresh : sleepers start.agenda = []) {inner outer : Nat} (le : inner ≤ outer)
    (inside : outer ≤ (start.store side).layers.length) :
    Waiting side w ∧ (passed side outer log).Perm
      (passed side inner log ++ stalled side inner outer log ++ asleep side inner outer w) := by
  induction h with
  | refl =>
      refine ⟨waiting, .of_eq ?_⟩
      rw [asleep, fresh]
      rfl
  | @snoc log s earlier ih =>
      obtain ⟨current, perm⟩ := ih
      have same : outer ≤ (s.world.store side).layers.length := by
        have length : s.world.depth side = start.depth side := congrFun earlier.depth_eq side
        exact Nat.le_trans inside (Nat.le_of_eq length.symm)
      have step := balance_next behave current le same
      refine ⟨current.next, ?_⟩
      rw [passed_snoc, passed_snoc, stalled, filterMap_snoc]
      refine List.perm_iff_count.2 fun t => ?_
      have earlier := perm.count_eq t
      have last := step.count_eq t
      simp only [stalled, List.count_append] at earlier last ⊢
      omega

end Schedule

/-- Only a new call has all layers ahead of it. -/
theorem passing?_length (h : Waiting side s.world) :
    s.passing? side (s.world.store side).layers.length =
      s.call?.filter fun t => t.side = side := by
  unfold Stage.call?
  cases task : s.task with
  | enter t =>
      have ahead : s.taken.ahead? s.task = some (t, (s.world.store t.side).layers) := by
        rw [task]
        rfl
      rw [passing?_eq side _ ahead]
      by_cases own : t.side = side
      · subst own
        simp [Store.passes_length, Option.filter_some]
      · simp [own, Option.filter_some]
  | resume t below ending =>
      have waiting : (⟨t, below, ending⟩ : Sleeper) ∈ sleepers s.world.agenda :=
        mem_sleepers.2 ⟨s.due, task ▸ s.mem_agenda⟩
      rw [Option.filter_none]
      cases ending with
      | pass =>
          have ahead : s.taken.ahead? s.task = some (t, (s.world.store t.side).layers.drop
              ((s.world.store t.side).layers.length - below)) := by
            rw [task]
            rfl
          rw [passing?_eq side _ ahead]
          refine if_neg fun ⟨own, gets⟩ => ?_
          subst own
          have inside := (h.onward _ waiting rfl).2
          simp only [passes, Bool.and_eq_true, decide_eq_true_eq, List.length_drop] at gets
          dsimp only at inside
          omega
      | _ => exact passing?_of_idle side _ (by rw [task]; rfl)
  | _ => exact passing?_of_idle side _ (by rw [task]; rfl)

namespace Schedule

/-- The fetches that have all layers ahead of them are those that have been called. -/
theorem passed_length (h : Schedule behave start log w) (waiting : Waiting side start) :
    Waiting side w ∧ passed side (start.store side).layers.length log =
      (callsIn log).filter fun t => t.side = side := by
  induction h with
  | refl => exact ⟨waiting, rfl⟩
  | @snoc log s earlier ih =>
      obtain ⟨current, same⟩ := ih
      have length : s.world.depth side = start.depth side := congrFun earlier.depth_eq side
      have new := passing?_length current
      rw [show (s.world.store side).layers.length = (start.store side).layers.length from length]
        at new
      refine ⟨current.next, ?_⟩
      rw [passed_snoc, same, new, callsIn_snoc, List.filter_append]
      cases s.call? with
      | none => rfl
      | some t => by_cases own : t.side = side <;> simp [own]

end Schedule

theorem sleepers_initial (source target : Store) (states : List σ) :
    sleepers (initial source target states : World σ ε).agenda = [] := by
  refine List.filterMap_eq_nil_iff.2 fun e mem => ?_
  obtain ⟨i, -, rfl⟩ := List.mem_map.1 mem
  rfl

theorem waiting_initial {source target : Store} (states : List σ)
    (waits : ∀ l ∈ (initial source target states : World σ ε).store side |>.layers, l.Waits) :
    Waiting side (initial source target states : World σ ε) where
  layers := waits
  onward x mem := by
    rw [sleepers_initial] at mem
    cases mem

namespace Schedule

/-- Each fetch gets to a number once. -/
theorem nodup_passed {source target : Store} {states : List σ}
    (h : Schedule behave (initial source target states) log w)
    (waiting : Waiting side (initial source target states : World σ ε)) {left : Nat}
    (inside : left ≤ ((initial source target states : World σ ε).store side).layers.length) :
    (passed side left log).Nodup := by
  have perm :=
    (h.passed_perm waiting (sleepers_initial source target states) inside (Nat.le_refl _)).2
  rw [(h.passed_length waiting).2] at perm
  have all := perm.nodup_iff.1 (h.nodup_callsIn.filter _)
  exact (List.nodup_append.1 (List.nodup_append.1 all).1).1

end Schedule

end World

end ReplicaDiff
