/-
# ReplicaDiff.Proofs.World.Removal — a transparent layer makes no difference

As long as no fetch sleeps at a transparent layer of the store on one side, and
none ever does (`Through.next`), a world goes on without the layer as it does with
it (`Through.upholds`): every fetch ends when it ends with the layer, and with the
same answer, and clients are told the same at the same moments.
-/
import ReplicaDiff.Proofs.Store.Passage
import ReplicaDiff.Proofs.World.Recast
import ReplicaDiff.Proofs.World.Sleeping

namespace ReplicaDiff.World

set_option autoImplicit false

variable {σ ε : Type} {behave : Behaviour σ ε} {side : Side} {depth : Nat}

/-- One layer is transparent, and no fetch is asleep at it. -/
structure Through (side : Side) (depth : Nat) (w : World σ ε) : Prop where
  layer : (w.store side).TransparentAt depth
  awake : ∀ x ∈ sleepers w.agenda, x.ticket.side = side → x.below ≠ depth

/-- The stores without one layer of the store of one side. -/
def removal (side : Side) (depth : Nat) : Recasting where
  store side' store := if side' = side then store.remove depth else store
  task
    | .resume t below ending =>
        .resume t (if t.side = side then Store.renumber depth below else below) ending
    | task => task
  others other h := by
    cases other with
    | resume t below ending => exact absurd rfl (h t below ending)
    | _ => rfl

theorem store_recast (r : Recasting) (w : World σ ε) (side : Side) :
    (r.world w).store side = r.store side (w.store side) := by
  cases side <;> rfl

theorem fits_own {t : Ticket} (own : t.side = side) (halt : Store.Halt) :
    (removal side depth).Fits t halt (halt.without depth) := by
  cases halt with
  | asleep delay below ending => exact .asleep delay (by simp [removal, own])
  | ended answer => exact .ended answer
  | stalled => exact .stalled

theorem fits_other {t : Ticket} (other : t.side ≠ side) (halt : Store.Halt) :
    (removal side depth).Fits t halt halt := by
  cases halt with
  | asleep delay below ending => exact .asleep delay (by simp [removal, other])
  | ended answer => exact .ended answer
  | stalled => exact .stalled

namespace Through

variable {s : Stage σ ε}

/-- A fetch in the store of the layer halts where it halts without the layer. -/
theorem reach_own (h : Through side depth s.world) {t : Ticket} {store : Store}
    {halt : Store.Halt} (own : t.side = side)
    (reach : s.taken.reach? s.task = some (t, store, halt)) :
    store.TransparentAt depth ∧
      ((removal side depth).world s.taken).reach? ((removal side depth).task s.task) =
        some (t, store.remove depth, halt.without depth) ∧
      ∀ delay ending, halt ≠ .asleep delay depth ending := by
  have layer : (s.taken.store side).TransparentAt depth := by
    cases side <;> exact h.layer
  cases task : s.task with
  | enter t' =>
      rw [task] at reach
      simp only [reach?, Option.some.injEq, Prod.mk.injEq] at reach
      obtain ⟨rfl, called⟩ := reach
      subst own
      have without := layer.call t'.key
      rw [called] at without
      obtain ⟨kept, same, awake⟩ := without
      refine ⟨kept, ?_, awake⟩
      simp only [reach?, removal, store_recast, if_pos, same]
  | resume t' below ending =>
      rw [task] at reach
      simp only [reach?, Option.some.injEq, Prod.mk.injEq] at reach
      obtain ⟨rfl, resumed⟩ := reach
      subst own
      have elsewhere : below ≠ depth :=
        h.awake ⟨t', below, ending⟩ (mem_sleepers.2 ⟨s.due, task ▸ s.mem_agenda⟩) rfl
      have without := layer.resume t'.key elsewhere ending
      rw [resumed] at without
      obtain ⟨kept, same, awake⟩ := without
      refine ⟨kept, ?_, awake⟩
      simp only [reach?, removal, store_recast, if_pos, same]
  | _ => rw [task] at reach; cases reach

/-- A fetch in the other store does not notice. -/
theorem reach_other {w : World σ ε} {task : Task} {t : Ticket} {store : Store} {halt : Store.Halt}
    (other : t.side ≠ side) (reach : w.reach? task = some (t, store, halt)) :
    ((removal side depth).world w).reach? ((removal side depth).task task) =
      some (t, store, halt) := by
  cases task with
  | enter t' =>
      simp only [reach?, Option.some.injEq, Prod.mk.injEq] at reach
      obtain ⟨rfl, called⟩ := reach
      simp only [reach?, removal, store_recast, if_neg other, called]
  | resume t' below ending =>
      simp only [reach?, Option.some.injEq, Prod.mk.injEq] at reach
      obtain ⟨rfl, resumed⟩ := reach
      simp only [reach?, removal, store_recast, if_neg other, resumed]
  | _ => cases reach

/-- After a stage the layer is still transparent, and no fetch sleeps at it. -/
theorem next (h : Through side depth s.world) : Through side depth (s.next behave) := by
  have rest : ∀ x ∈ sleepers s.rest, x.ticket.side = side → x.below ≠ depth := by
    intro x mem
    exact h.awake x ((sleepers_agenda s).mem_iff.2 (List.mem_append_right _ mem))
  cases reach : s.taken.reach? s.task with
  | none =>
      obtain ⟨stores, asleep⟩ := next_of_idle behave reach
      exact ⟨stores side ▸ h.layer, fun x mem => rest x (asleep.mem_iff.1 mem)⟩
  | some reached =>
      obtain ⟨t, store, halt⟩ := reached
      obtain ⟨stores, asleep⟩ := next_of_reach behave reach
      constructor
      · rw [stores side]
        split
        · rename_i own
          exact (h.reach_own own reach).1
        · exact h.layer
      · intro x mem own
        rcases List.mem_append.1 (asleep.mem_iff.1 mem) with mem | mem
        · cases halt with
          | asleep delay below ending =>
              cases List.mem_singleton.1 mem
              rintro rfl
              exact (h.reach_own own reach).2.2 delay ending rfl
          | _ => cases mem
        · exact rest x mem own

theorem upholds : (removal side depth).Upholds behave (Through side depth) where
  next _ h := h.next
  follows s h := by
    intro t store halt reach
    by_cases own : t.side = side
    · refine ⟨_, ?_, fits_own own halt⟩
      rw [(h.reach_own own reach).2.1]
      simp only [removal, if_pos own]
    · refine ⟨_, ?_, fits_other own halt⟩
      rw [reach_other own reach]
      simp only [removal, if_neg own]

end Through

end ReplicaDiff.World
