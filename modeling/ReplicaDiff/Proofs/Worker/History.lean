/-
# ReplicaDiff.Proofs.Worker.History — where a worker stands after what it has been told

Which batches of a worker are over can be read off what it has been told
(`finishes`): a batch is over with the verdict that settled its last attempt.
`Standing` says where the worker stands: the batches that are over, the one
under way and those to come are its batches in order; it keeps the results of
those that are over; and what it has contributed is what they call for, followed
by its findings once it is done, unless it has broken off.  Every play of a worker
leads there (`standing_of_play`).

What a worker does when it goes on is said once (`Onward`), and so is what can
happen to it when it is told something (`Turn`); all that its steps preserve is
proved by these cases.
-/
import ReplicaDiff.Proofs.Worker.Findings
import ReplicaDiff.Proofs.World.Play

namespace ReplicaDiff.Worker

set_option autoImplicit false

open ReplicaDiff.Batch ReplicaDiff.World

namespace Finish

/-- The batch that is over when a worker in a state is told something. -/
def of? (s : State) : Signal → Option Finish
  | .settled (.ok results) => some ⟨s.current, s.course.attempt, some results⟩
  | .settled (.error _) =>
      match s.course.next? s.worker.settings.retry with
      | none => some ⟨s.current, s.course.attempt, none⟩
      | some _ => none
  | _ => none

end Finish

/-- A batch is over when an attempt at it has succeeded, or the last one has failed. -/
theorem Finish.of?_eq_some {s : State} {signal : Signal} {f : Finish}
    (finished : Finish.of? s signal = some f) :
    f.keys = s.current ∧ f.attempts = s.course.attempt ∧
      ((∃ results, signal = .settled (.ok results) ∧ f.results? = some results) ∨
        ∃ error, signal = .settled (.error error) ∧ f.results? = none ∧
          s.course.next? s.worker.settings.retry = none) := by
  cases signal with
  | begun => cases finished
  | rested => cases finished
  | settled verdict =>
      cases verdict with
      | ok results =>
          cases finished
          exact ⟨rfl, rfl, .inl ⟨results, rfl, rfl⟩⟩
      | error error =>
          simp only [Finish.of?] at finished
          split at finished
          · rename_i last
            cases finished
            exact ⟨rfl, rfl, .inr ⟨error, rfl, rfl, last⟩⟩
          · cases finished

/-- The batches that are over after what a worker has been told, in order. -/
def finishes (history : List (State × Signal)) : List Finish :=
  history.filterMap fun h => Finish.of? h.1 h.2

/-- The contributions among some effects. -/
def contributed (effects : List WorkerEffect) : List Contribution :=
  effects.filterMap fun e =>
    match e with
    | .contribute contribution => some contribution
    | _ => none

/-- The keys of the batch under way, if there is one. -/
def underway (s : State) : Phase → List (List String)
  | .fetching _ _ => [s.current]
  | .resting => [s.current]
  | _ => []

/-- What a worker contributes last, unless it breaks off. -/
def closing (s : State) : Phase → List Contribution
  | .stopped => if s.worker.inBounds then [.merged (State.findings s.source s.target)] else []
  | _ => []

/-- A worker has kept the results of some batches, and they answer the keys of these. -/
structure Keeps (w : Worker) (finished : List Finish) (s : State) : Prop where
  worker : s.worker = w
  source : s.source = kept .source finished
  target : s.target = kept .target finished
  answer : ∀ f ∈ finished, ∀ r, f.results? = some r → r.Answer f.keys

/-- Where a worker stands after what it has been told. -/
structure Standing (w : Worker) (history : List (State × Signal)) (s : State) (p : Phase) : Prop
    extends Keeps w (finishes history) s where
  batches : (finishes history).map (·.keys) ++ underway s p ++ s.waiting = w.batchKeys
  waiting : p = .stopped → s.waiting = []
  sends : ∀ keys timeout, p = .fetching keys timeout →
    keys = s.current ∧ timeout = w.settings.batchTimeout
  contributions : contributed (done State.react history) =
    (finishes history).flatMap (·.contributions) ++ closing s p

theorem finishes_snoc (history : List (State × Signal)) (s : State) (signal : Signal) :
    finishes (history ++ [(s, signal)]) = finishes history ++ (Finish.of? s signal).toList := by
  unfold finishes
  rw [List.filterMap_append]
  cases h : Finish.of? s signal <;> simp [h]

@[simp] theorem finishes_begun (history : List (State × Signal)) (s : State) :
    finishes (history ++ [(s, .begun)]) = finishes history := by
  simp [finishes_snoc, Finish.of?]

@[simp] theorem finishes_rested (history : List (State × Signal)) (s : State) :
    finishes (history ++ [(s, .rested)]) = finishes history := by
  simp [finishes_snoc, Finish.of?]

/-- No batch is over with an attempt that may be repeated. -/
theorem finishes_of_next {s : State} {course : Retry.Course}
    (next : s.course.next? s.worker.settings.retry = some course) (error : Batch.Error)
    (history : List (State × Signal)) :
    finishes (history ++ [(s, .settled (.error error))]) = finishes history := by
  simp [finishes_snoc, Finish.of?, next]

theorem finishes_of_over {s : State} {verdict : Except Batch.Error Results} {f : Finish}
    (finished : Finish.of? s (.settled verdict) = some f) (history : List (State × Signal)) :
    finishes (history ++ [(s, .settled verdict)]) = finishes history ++ [f] := by
  rw [finishes_snoc, finished, Option.toList_some]

/-- A worker of a team begins as one of its clients. -/
theorem begins_of_present {team : List Worker} {i : Nat} {worker : Worker}
    (present : team[i]? = some worker) :
    (team.map State.initial)[i]? = some (State.initial worker) := by
  rw [List.getElem?_map, present]
  rfl

theorem contributed_append (first second : List WorkerEffect) :
    contributed (first ++ second) = contributed first ++ contributed second :=
  List.filterMap_append

theorem contributed_done_snoc (history : List (State × Signal)) (s : State) (signal : Signal) :
    contributed (done State.react (history ++ [(s, signal)])) =
      contributed (done State.react history) ++ contributed (s.react signal).effects := by
  unfold done
  rw [List.flatMap_append, contributed_append]
  simp

/-- What is kept after one more batch. -/
theorem Keeps.snoc {w : Worker} {finished : List Finish} {s s' : State} (h : Keeps w finished s)
    {f : Finish} (worker : s'.worker = s.worker)
    (source : s'.source = keepFinish .source s.source f)
    (target : s'.target = keepFinish .target s.target f)
    (answer : ∀ r, f.results? = some r → r.Answer f.keys) : Keeps w (finished ++ [f]) s' where
  worker := worker.trans h.worker
  source := by
    rw [source, h.source]
    simp [kept]
  target := by
    rw [target, h.target]
    simp [kept]
  answer f' mem := by
    rcases List.mem_append.1 mem with mem | mem
    · exact h.answer f' mem
    · rw [List.mem_singleton] at mem
      subst mem
      exact answer

/-- What a worker does when it goes on. -/
inductive Onward (s : State) (effects : List WorkerEffect) : Reaction State WorkerEffect → Prop where
  /-- It sends its next batch. -/
  | sends {keys : List String} {rest : List (List String)} (waiting : s.waiting = keys :: rest) :
      Onward s effects (State.send
        { s with current := keys, waiting := rest, course := .first s.worker.settings.retry } effects)
  /-- It has sent all of its batches, and compares what it has kept. -/
  | finishes (waiting : s.waiting = []) (bounds : s.worker.inBounds = true) :
      Onward s effects
        ⟨{ s with diff := State.findings s.source s.target },
          effects ++ [
            .say (.workerFinished s.worker.id (State.findings s.source s.target).size),
            .contribute (.merged (State.findings s.source s.target))],
          .stop⟩
  /-- It has come to a batch that cannot be cut out of the keys. -/
  | breaksOff (waiting : s.waiting = []) (bounds : s.worker.inBounds = false) :
      Onward s effects ⟨s, effects ++ [.brokeOff s.worker.id], .stop⟩

/-- It does nothing else. -/
theorem onward (s : State) (effects : List WorkerEffect) :
    Onward s effects (s.proceed effects) := by
  unfold State.proceed
  cases waiting : s.waiting with
  | cons keys rest => exact .sends waiting
  | nil =>
      cases bounds : s.worker.inBounds with
      | true =>
          have goes : Onward s effects _ := .finishes waiting bounds
          rw [waiting] at goes
          exact goes
      | false => exact .breaksOff waiting bounds

/-- A worker that goes on after some batches stands where its next batch is under way, or is over. -/
theorem standing_of_proceed {w : Worker} {history : List (State × Signal)} {s : State}
    {effects : List WorkerEffect} {reaction : Reaction State WorkerEffect}
    (proceeds : reaction = s.proceed effects) (keeps : Keeps w (finishes history) s)
    (batches : (finishes history).map (·.keys) ++ s.waiting = w.batchKeys)
    {before : List Contribution} (contributions : contributed (done State.react history) =
      before ++ contributed reaction.effects)
    (sofar : before ++ contributed effects = (finishes history).flatMap (·.contributions)) :
    Standing w history reaction.state (.ofMove reaction.move) := by
  obtain went : Onward s effects reaction := proceeds ▸ onward s effects
  cases went with
  | @sends keys rest waiting =>
      rw [waiting] at batches
      refine ⟨⟨keeps.worker, keeps.source, keeps.target, keeps.answer⟩, ?_, ?_, ?_, ?_⟩
      · simpa [underway, Phase.ofMove, State.send] using batches
      · intro eq
        cases eq
      · intro keys' timeout eq
        cases eq
        exact ⟨rfl, congrArg (·.settings.batchTimeout) keeps.worker⟩
      · rw [contributions, ← sofar]
        simp [contributed, closing, Phase.ofMove, State.send]
  | finishes waiting bounds =>
      refine ⟨⟨keeps.worker, keeps.source, keeps.target, keeps.answer⟩, ?_, fun _ => waiting, ?_, ?_⟩
      · simpa [underway, Phase.ofMove, waiting] using batches
      · intro keys timeout eq
        cases eq
      · rw [contributions, ← sofar]
        simp [contributed, closing, Phase.ofMove, bounds]
  | breaksOff waiting bounds =>
      refine ⟨⟨keeps.worker, keeps.source, keeps.target, keeps.answer⟩, ?_, fun _ => waiting, ?_, ?_⟩
      · simpa [underway, Phase.ofMove, waiting] using batches
      · intro keys timeout eq
        cases eq
      · rw [contributions, ← sofar]
        simp [contributed, closing, Phase.ofMove, bounds]

/-- A worker that goes on with the batch under way stands where that batch is under way. -/
theorem Standing.again {w : Worker} {history history' : List (State × Signal)} {s s' : State}
    {p p' : Phase} (h : Standing w history s p) (same : finishes history' = finishes history)
    (busy : underway s p = [s.current]) (busy' : underway s' p' = [s'.current])
    (course : s'.worker = s.worker ∧ s'.current = s.current ∧ s'.waiting = s.waiting ∧
      s'.source = s.source ∧ s'.target = s.target)
    (sends : ∀ keys timeout, p' = .fetching keys timeout →
      keys = s'.current ∧ timeout = s'.worker.settings.batchTimeout)
    (quiet : contributed (done State.react history') = contributed (done State.react history)) :
    Standing w history' s' p' := by
  obtain ⟨worker, current, waiting, source, target⟩ := course
  have idle : closing s p = [] ∧ closing s' p' = [] := by
    constructor
    · cases p <;> first | rfl | simp [underway] at busy
    · cases p' <;> first | rfl | simp [underway] at busy'
  refine ⟨⟨worker.trans h.worker, source.trans (same ▸ h.source), target.trans (same ▸ h.target),
    same ▸ h.answer⟩, ?_, ?_, ?_, ?_⟩
  · rw [same, busy', current, waiting, ← busy]
    exact h.batches
  · rintro rfl
    simp [underway] at busy'
  · intro keys timeout eq
    obtain ⟨own, limit⟩ := sends keys timeout eq
    exact ⟨own, limit.trans (by rw [worker, h.worker])⟩
  · rw [quiet, h.contributions, same, idle.1, idle.2]

/-- What a worker says before it repeats a batch. -/
def backingOff (s : State) (error : Batch.Error) : WorkerEffect :=
  .say (.backingOff "send_batch" s.course.attempt s.course.delay error.message)

/-- A worker whose batch has failed at the last attempt goes on. -/
theorem react_of_last {s : State} (last : s.course.next? s.worker.settings.retry = none)
    (error : Batch.Error) :
    s.react (.settled (.error error)) = s.proceed [
      .say (.batchSkipped s.worker.id s.current.length ⟨"send_batch", s.course.attempt, error⟩),
      .contribute (.unchecked s.current), s.countBatch] := by
  simp only [State.react, last]

/-- Before the last attempt it sends the batch again, at once or after a pause. -/
theorem react_of_next {s : State} {course : Retry.Course}
    (next : s.course.next? s.worker.settings.retry = some course) (error : Batch.Error) :
    s.react (.settled (.error error)) = { s with course }.send [backingOff s error] ∨
      s.react (.settled (.error error)) =
        ⟨{ s with course }, [backingOff s error], .pause s.course.delay.ticks⟩ := by
  by_cases now : s.course.delay.ticks = 0
  · exact .inl (by simp [State.react, next, now, backingOff])
  · exact .inr (by simp [State.react, next, now, backingOff])

/-- What can happen to a worker that is told something for which it waits. -/
inductive Turn (s : State) : Phase → Signal → Prop where
  /-- It begins with its first batch. -/
  | begins : Turn s .fresh .begun
  /-- Its batch is over, and it goes on with what it keeps of it. -/
  | ends {keys : List String} {timeout : Duration} {verdict : Except Batch.Error Results}
      {f : Finish} {s' : State} {effects : List WorkerEffect}
      (finished : Finish.of? s (.settled verdict) = some f)
      (reacts : s.react (.settled verdict) = s'.proceed effects)
      (same : s'.worker = s.worker ∧ s'.waiting = s.waiting)
      (keeps : s'.source = keepFinish .source s.source f ∧
        s'.target = keepFinish .target s.target f)
      (contributes : contributed effects = f.contributions) :
      Turn s (.fetching keys timeout) (.settled verdict)
  /-- An attempt at its batch has failed, but it may attempt it again. -/
  | fails {keys : List String} {timeout : Duration} {error : Batch.Error} {course : Retry.Course}
      (next : s.course.next? s.worker.settings.retry = some course) :
      Turn s (.fetching keys timeout) (.settled (.error error))
  /-- Its pause is over, and it attempts its batch again. -/
  | rests : Turn s .resting .rested

/-- Nothing else can happen to a worker. -/
theorem turn (s : State) {p : Phase} {signal : Signal} (admits : p.Admits signal) :
    Turn s p signal := by
  cases signal with
  | begun =>
      cases p <;> simp only [Phase.Admits] at admits
      exact .begins
  | rested =>
      cases p <;> simp only [Phase.Admits] at admits
      exact .rests
  | settled verdict =>
      cases p with
      | fresh => cases admits
      | resting => cases admits
      | stopped => cases admits
      | fetching keys timeout =>
          cases verdict with
          | ok results => exact .ends rfl rfl ⟨rfl, rfl⟩ ⟨rfl, rfl⟩ rfl
          | error error =>
              cases next : s.course.next? s.worker.settings.retry with
              | none =>
                  have finished : Finish.of? s (.settled (.error error)) =
                      some ⟨s.current, s.course.attempt, none⟩ := by simp only [Finish.of?, next]
                  exact .ends finished (react_of_last next error) ⟨rfl, rfl⟩ ⟨rfl, rfl⟩ rfl
              | some course => exact .fails next

/-- The results with which a batch is over answer its keys. -/
theorem Finish.answer_of_admits {s : State} {keys : List String} {timeout : Duration}
    {verdict : Except Batch.Error Results} {f : Finish}
    (finished : Finish.of? s (.settled verdict) = some f)
    (admits : (Phase.fetching keys timeout).Admits (.settled verdict)) (own : keys = s.current) :
    ∀ r, f.results? = some r → r.Answer f.keys := by
  intro r brought
  obtain ⟨batch, -, ⟨results, eq, kept⟩ | ⟨error, -, failed, -⟩⟩ := Finish.of?_eq_some finished
  · cases eq
    rw [brought] at kept
    cases kept
    rw [batch, ← own]
    exact admits r rfl
  · rw [brought] at failed
    cases failed

/-- Every play of a worker leads to where it stands. -/
theorem standing_of_play {w : Worker} {history : List (State × Signal)} {s : State} {p : Phase}
    (play : Play State.react (State.initial w) history s p) : Standing w history s p := by
  induction play with
  | fresh =>
      refine ⟨⟨rfl, rfl, rfl, by simp [finishes]⟩, rfl, by simp, by simp, rfl⟩
  | @told history s p signal earlier admits ih =>
      have snoc := contributed_done_snoc history s signal
      cases turn s admits with
      | begins =>
          have same := finishes_begun history s
          refine standing_of_proceed rfl (same ▸ ih.toKeeps) ?_ snoc ?_
          · rw [same]
            simpa [underway] using ih.batches
          · rw [same, ih.contributions]
            simp [closing, contributed]
      | rests =>
          refine ih.again (finishes_rested history s) rfl rfl ⟨rfl, rfl, rfl, rfl, rfl⟩ ?_ ?_
          · intro keys timeout eq
            cases eq
            exact ⟨rfl, rfl⟩
          · rw [snoc]
            simp [State.react, State.send, contributed]
      | @ends keys timeout verdict f s' effects finished reacts same keeps contributes =>
          obtain ⟨own, -⟩ := ih.sends keys timeout rfl
          have batch := (Finish.of?_eq_some finished).1
          have batches := ih.batches
          rw [underway] at batches
          -- While a batch is under way, all that was contributed is about those that are over.
          have sofar : contributed (done State.react history) =
              (finishes history).flatMap (·.contributions) := by
            simpa [closing] using ih.contributions
          have snoc' := finishes_of_over finished history
          refine standing_of_proceed reacts ?_ ?_ snoc ?_
          · rw [snoc']
            exact ih.toKeeps.snoc same.1 keeps.1 keeps.2 (f.answer_of_admits finished admits own)
          · rw [snoc', same.2]
            simpa [batch] using batches
          · rw [snoc', sofar, contributes]
            simp
      | @fails keys timeout error course next =>
          have same := finishes_of_next next error history
          rcases react_of_next next error with reacts | reacts <;> rw [reacts] at snoc ⊢
          · refine ih.again same rfl rfl ⟨rfl, rfl, rfl, rfl, rfl⟩ ?_ ?_
            · intro keys timeout eq
              cases eq
              exact ⟨rfl, rfl⟩
            · rw [snoc]
              simp [State.send, contributed, backingOff]
          · refine ih.again same rfl rfl ⟨rfl, rfl, rfl, rfl, rfl⟩ ?_ ?_
            · intro keys timeout eq
              cases eq
            · rw [snoc]
              simp [contributed, backingOff]

end ReplicaDiff.Worker
