/-
# ReplicaDiff.Proofs.Run.Losses — which workers are lost

A worker is over with one effect (`overs_of_play`): it finishes if every one of its
batches can be cut out of the keys, and else breaks off.  When all workers have
stopped, the timeline has one such effect for each (`overs_perm`).

The workers of a run have different numbers (`nodup_ids`), so that a run which waits
for them one after the other says that those are lost which broke off, and no others
(`Ended.awaited_eq`).
-/
import ReplicaDiff.Proofs.Run.Unfolding

namespace ReplicaDiff

set_option autoImplicit false

open ReplicaDiff.World

namespace Worker

/-- The workers that are over with some effects, and whether each is lost. -/
def overs (effects : List WorkerEffect) : List (Nat × Bool) := effects.filterMap (·.over?)

/-- What there is of this once a worker is in a phase. -/
def oversIn (w : Worker) : Phase → List (Nat × Bool)
  | .stopped => [(w.id, !w.inBounds)]
  | _ => []

theorem overs_append (first second : List WorkerEffect) :
    overs (first ++ second) = overs first ++ overs second := List.filterMap_append

/-- A worker that goes on is over if it has no batch to send. -/
theorem Onward.overs_eq {s : State} {effects : List WorkerEffect}
    {reaction : Reaction State WorkerEffect} (went : Onward s effects reaction)
    (going : overs effects = []) :
    overs reaction.effects = s.worker.oversIn (.ofMove reaction.move) := by
  cases went with
  | sends waiting =>
      show overs (effects ++ _) = []
      rw [overs_append, going]
      rfl
  | finishes waiting bounds =>
      show overs (effects ++ _) = [(s.worker.id, !s.worker.inBounds)]
      rw [overs_append, going, bounds]
      rfl
  | breaksOff waiting bounds =>
      show overs (effects ++ _) = [(s.worker.id, !s.worker.inBounds)]
      rw [overs_append, going, bounds]
      rfl

/-- Whatever a worker is told, it is over if it stops then, and else goes on. -/
theorem overs_react (s : State) (signal : Signal) :
    overs (s.react signal).effects = s.worker.oversIn (.ofMove (s.react signal).move) := by
  cases signal with
  | begun => exact (onward s _).overs_eq rfl
  | rested => rfl
  | settled verdict =>
      cases verdict with
      | ok results => exact (onward _ [s.countBatch]).overs_eq rfl
      | error error =>
          cases next : s.course.next? s.worker.settings.retry with
          | none =>
              rw [react_of_last next]
              exact (onward s _).overs_eq rfl
          | some course =>
              rcases react_of_next next error with reacts | reacts <;> rw [reacts] <;> rfl

/-- A worker is over once, when it stops, and is lost if a batch cannot be cut out of its keys. -/
theorem overs_of_play {w : Worker} {history : List (State × Signal)} {s : State} {p : Phase}
    (play : Play State.react (State.initial w) history s p) :
    overs (done State.react history) = w.oversIn p := by
  induction play with
  | fresh => rfl
  | @told history s p signal earlier admits ih =>
      have going : w.oversIn p = [] := by
        cases p with
        | stopped => cases signal <;> cases admits
        | _ => rfl
      have effects : done State.react (history ++ [(s, signal)]) =
          done State.react history ++ (s.react signal).effects := by
        simp [done]
      rw [effects, overs_append, ih, going, overs_react, (standing_of_play earlier).worker]
      rfl

section Over

variable {source target : Store} {team : List Worker} {log : List (Stage State WorkerEffect)}
  {w : World State WorkerEffect}

/-- When all workers have stopped, each has been over once. -/
theorem overs_perm
    (h : Schedule State.react (initial source target (team.map State.initial)) log w)
    (finished : w.isOver = true) :
    (overs (w.timeline.toList.map (·.2))).Perm
      (team.map fun worker => (worker.id, !worker.inBounds)) := by
  have bound : ∀ s ∈ log, ∀ t, s.told? = some t → t.client < team.length := by
    intro s mem t told
    have := h.client_lt_of_told mem told
    rwa [List.length_map] at this
  rw [h.map_timeline]
  refine ((effects_perm bound).filterMap _).trans (List.Perm.of_eq ?_)
  rw [List.filterMap_flatMap, List.map_eq_flatMap, ← flatMap_range_getElem? team]
  refine List.flatMap_congr fun i mem => ?_
  have present := List.getElem?_eq_getElem (List.mem_range.1 mem)
  obtain ⟨c, -, play⟩ := h.plays_to_end finished (begins_of_present present)
  rw [present, Option.elim_some]
  exact overs_of_play play

/-- Of workers with different numbers, each is found to be over, and lost if it has broken off. -/
theorem exists_overAt?
    (h : Schedule State.react (initial source target (team.map State.initial)) log w)
    (finished : w.isOver = true) (distinct : (team.map (·.id)).Nodup) {worker : Worker}
    (mem : worker ∈ team) : ∃ stop, overAt? w.timeline worker.id = some (stop, !worker.inBounds) := by
  have own : ∀ {lost : Bool},
      (worker.id, lost) ∈ overs (w.timeline.toList.map (·.2)) ↔ lost = !worker.inBounds := by
    intro lost
    rw [(overs_perm h finished).mem_iff, List.mem_map]
    constructor
    · rintro ⟨other, mem', eq⟩
      obtain rfl := List.inj_on_of_nodup_map distinct mem' mem (congrArg Prod.fst eq)
      exact (congrArg Prod.snd eq).symm
    · rintro rfl
      exact ⟨worker, mem, rfl⟩
  cases found : overAt? w.timeline worker.id with
  | none =>
      obtain ⟨effect, listed, ends⟩ := List.mem_filterMap.1 (own.2 rfl)
      obtain ⟨e, there, rfl⟩ := List.mem_map.1 listed
      have missed := List.findSome?_eq_none_iff.1 found e there
      simp [ends] at missed
  | some told =>
      obtain ⟨e, there, told⟩ := List.exists_of_findSome?_eq_some found
      obtain ⟨⟨id, lost⟩, ends, eq⟩ := Option.bind_eq_some_iff.1 told
      dsimp only at eq
      split at eq
      · rename_i same
        cases eq
        subst same
        have listed : (worker.id, lost) ∈ overs (w.timeline.toList.map (·.2)) :=
          List.mem_filterMap.2 ⟨e.2, List.mem_map_of_mem there, ends⟩
        exact ⟨e.1, by rw [own.1 listed]⟩
      · cases eq

end Over

end Worker

namespace Run

/-- The workers of a run have different numbers. -/
theorem nodup_ids (config : Config) (keys : List String) :
    ((workers config keys).map (·.id)).Nodup := by
  unfold workers
  generalize (shares? config keys).getD [] = spans
  have ids : ((spans.zipIdx.filterMap fun (e : Span × Nat) =>
      if e.1.isEmpty then none
      else some (⟨e.2, keys, e.1, config.workerSettings⟩ : Worker)).map (·.id)).Sublist
        (spans.zipIdx.map (·.2)) := by
    induction spans.zipIdx with
    | nil => exact .slnil
    | cons e rest ih =>
        rw [List.filterMap_cons, List.map_cons]
        by_cases empty : e.1.isEmpty
        · simp only [empty, if_true]
          exact ih.cons _
        · simp only [empty, Bool.false_eq_true, if_false, List.map_cons]
          exact ih.cons_cons _
  refine ids.nodup ?_
  rw [List.zipIdx_map_snd]
  exact List.nodup_range'

/-- A run that waits for workers says which of them are lost. -/
theorem map_awaited {timeline : Array (Nat × WorkerEffect)} {team : List Worker}
    (overs : ∀ w ∈ team, ∃ stop, overAt? timeline w.id = some (stop, !w.inBounds)) (moment : Nat) :
    (awaited timeline moment team).map (·.2) =
      (team.filter (!·.inBounds)).map fun w => .workerFailed w.id := by
  induction team generalizing moment with
  | nil => rfl
  | cons w rest ih =>
      obtain ⟨stop, found⟩ := overs w List.mem_cons_self
      have later := ih fun w' mem => overs w' (List.mem_cons_of_mem _ mem)
      unfold awaited
      rw [found]
      dsimp only
      cases bounds : w.inBounds with
      | true => simp [bounds, later]
      | false => simp [bounds, later]

/-- A run says of the workers that broke off, and of no others, that they are lost. -/
theorem Ended.awaited_eq {config : Config} {setup : Setup}
    {log : List (Stage Worker.State WorkerEffect)} {world : World Worker.State WorkerEffect}
    (h : Ended config setup log world) :
    (awaited world.timeline 0 (workers config setup.keys)).map (·.2) =
      ((workers config setup.keys).filter (!·.inBounds)).map fun w => .workerFailed w.id :=
  map_awaited (fun _ mem =>
    Worker.exists_overAt? h.schedule h.finished (nodup_ids config setup.keys) mem) 0

end Run

end ReplicaDiff
