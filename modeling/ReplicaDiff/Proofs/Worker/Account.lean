/-
# ReplicaDiff.Proofs.Worker.Account — what one worker accounts for

A worker keeps results by key, for each side in a map of its own, and the same key
may be in several of its batches and several times in one of them.  What it finds
for the key at the end is nevertheless one comparison: that of the two answers for
the last slot of the key in the last batch that succeeded with it (`LastCheck`),
and these are the answers with which the two fetches of that slot ended, both of
the round in which the batch succeeded (`exists_brought`).

Beside its findings, a worker accounts for every batch in order: the keys of one
that was given up are listed with their repetitions, each batch is counted with
its length, and each that was given up has one warning (`warned_of_play`).
-/
import Mathlib.Data.List.Forall2
import ReplicaDiff.Proofs.Partition
import ReplicaDiff.Proofs.Worker.Sending
import ReplicaDiff.Proofs.Worker.Team
import ReplicaDiff.Proofs.World.Answered
import ReplicaDiff.Store.Bucket
import ReplicaDiff.Store.Layers

namespace ReplicaDiff.Worker

set_option autoImplicit false

open ReplicaDiff.Batch ReplicaDiff.World

/-! ## The last check of a key -/

/-- The last of some batches that succeeded with a key in it, and the last slot of the key there. -/
structure LastCheck (finished : List Finish) (key : String) where
  before : List Finish
  finish : Finish
  after : List Finish
  split : finished = before ++ finish :: after
  results : Results
  succeeded : finish.results? = some results
  final : ∀ f ∈ after, ¬f.Checked key
  slot : Nat
  at_slot : finish.keys[slot]? = some key
  last : ∀ k, slot < k → finish.keys[k]? ≠ some key

/-- The number of the round that a worker has sent last when some batches are over: each attempt at
one of them was a round. -/
def roundsOf (finished : List Finish) : Nat := (finished.map (·.attempts.toNat)).sum

/-- The number of the round in which the last batch with the key succeeded. -/
def LastCheck.round {finished : List Finish} {key : String} (l : LastCheck finished key) : Nat :=
  roundsOf l.before + l.finish.attempts.toNat

/-- Of the members of a list with some property there is a last one. -/
theorem exists_last {α : Type} {l : List α} {p : α → Prop} (some : ∃ a ∈ l, p a) :
    ∃ before a after, l = before ++ a :: after ∧ p a ∧ ∀ b ∈ after, ¬p b := by
  induction l with
  | nil =>
      obtain ⟨a, mem, -⟩ := some
      cases mem
  | cons first rest ih =>
      by_cases later : ∃ a ∈ rest, p a
      · obtain ⟨before, a, after, rfl, here, none⟩ := ih later
        exact ⟨first :: before, a, after, rfl, here, none⟩
      · obtain ⟨a, mem, here⟩ := some
        rcases List.mem_cons.1 mem with rfl | mem
        · exact ⟨[], a, rest, rfl, here, fun b mem own => later ⟨b, mem, own⟩⟩
        · exact absurd ⟨a, mem, here⟩ later

/-- A key with which some batch succeeded has a last check. -/
theorem exists_lastCheck {finished : List Finish} {key : String}
    (checked : ∃ f ∈ finished, f.Checked key) : Nonempty (LastCheck finished key) := by
  obtain ⟨before, f, after, split, ⟨mem, succeeded⟩, final⟩ := exists_last checked
  obtain ⟨results, brought⟩ := Option.isSome_iff_exists.1 succeeded
  obtain ⟨earlier, key', later, keys, rfl, last⟩ :=
    exists_last (p := fun k => k = key) ⟨key, mem, rfl⟩
  refine ⟨⟨before, f, after, split, results, brought, final, earlier.length, ?_, ?_⟩⟩
  · rw [keys, List.getElem?_append_right (Nat.le_refl _), Nat.sub_self]
    rfl
  · intro k past again
    rw [keys, List.getElem?_append_right (Nat.le_of_lt past)] at again
    obtain ⟨n, eq⟩ : ∃ n, k - earlier.length = n + 1 := ⟨k - earlier.length - 1, by omega⟩
    rw [eq, List.getElem?_cons_succ] at again
    exact last _ (List.mem_of_getElem? again) rfl

/-- What the findings tell of a key is the comparison of the two results of its last check. -/
theorem LastCheck.findings_tells {finished : List Finish} {key : String}
    (l : LastCheck finished key)
    (answer : ∀ f ∈ finished, ∀ r, f.results? = some r → r.Answer f.keys)
    {source target : SideResult} (ofSource : l.results.source[l.slot]? = some source)
    (ofTarget : l.results.target[l.slot]? = some target) :
    (State.findings (kept .source finished) (kept .target finished)).Tells key
      (compare source target) := by
  obtain ⟨before, f, after, rfl, results, succeeded, final, slot, at_slot, last⟩ := l
  have answer := answer f (by simp) results succeeded
  let finished := before ++ f :: after
  have lookup : ∀ side, (kept side finished).find? key = (results.of side)[slot]? :=
    find?_kept_of_last succeeded answer final at_slot last
  have told := Worker.findings_tells (kept .source finished) (kept .target finished) key
  rwa [(lookup .source).trans ofSource, (lookup .target).trans ofTarget] at told

/-! ## Where the results of a batch come from -/

section Team

variable {source target : Store} {team : List Worker} {log : List (Stage State WorkerEffect)}
  {w : World State WorkerEffect}

/-- Each batch that is over became so at a stage, with the batches before it over by then. -/
theorem exists_stage_of_finish {i : Nat} {before after : List Finish} {f : Finish}
    (split : finishes (heard i log) = before ++ f :: after) :
    ∃ earlier s later state signal, log = earlier ++ s :: later ∧
      finishes (heard i earlier) = before ∧ s.told? = some ⟨i, state, signal⟩ ∧
      Finish.of? state signal = some f := by
  unfold finishes heard at split
  rw [List.filterMap_filterMap] at split
  obtain ⟨l₁, rest, rfl, left, right⟩ := List.filterMap_eq_append_iff.1 split
  obtain ⟨skipped, s, later, rfl, none, here, -⟩ := List.filterMap_eq_cons_iff.1 right
  obtain ⟨⟨state, signal⟩, tells, finished⟩ := Option.bind_eq_some_iff.1 here
  refine ⟨l₁ ++ skipped, s, later, state, signal, by simp, ?_, ?_, finished⟩
  · unfold finishes heard
    rw [List.filterMap_filterMap, List.filterMap_append, left,
      List.filterMap_eq_nil_iff.2 none, List.append_nil]
  · obtain ⟨t, told, own⟩ := Option.bind_eq_some_iff.1 tells
    split at own
    · rename_i same
      subst same
      cases own
      exact told
    · cases own

theorem length_sentFor (finished : List Finish) : (sentFor finished).length = roundsOf finished := by
  unfold sentFor roundsOf
  rw [List.length_flatMap]
  simp

/-- The results of a batch that succeeded are, slot by slot and on both sides, the answers of the
fetches of one round: that of the attempt that succeeded. -/
theorem exists_brought
    (h : Schedule State.react (initial source target (team.map State.initial)) log w) {i : Nat}
    {worker : Worker} (present : team[i]? = some worker) {before after : List Finish} {f : Finish}
    (split : finishes (heard i log) = before ++ f :: after) {results : Results}
    (succeeded : f.results? = some results) {slot : Nat} {key : String}
    (at_slot : f.keys[slot]? = some key) (side : Side) :
    ∃ outcome, (results.of side)[slot]? = some ⟨key, some outcome⟩ ∧
      Brought log ⟨i, roundsOf before + f.attempts.toNat, side, slot, key⟩ outcome := by
  obtain ⟨earlier, s, later, state, signal, rfl, ended, told, finished⟩ :=
    exists_stage_of_finish split
  obtain ⟨batch, attempts, ⟨results', rfl, brought⟩ | ⟨error, -, failed, -⟩⟩ :=
    Finish.of?_eq_some finished
  · rw [succeeded] at brought
    cases brought
    have sofar := h.before
    obtain ⟨rounds, keys, last, replied⟩ := sofar.tracked.answered told
    obtain ⟨phase, play, admits⟩ := sofar.play_of_told told (begins_of_present present)
    cases phase with
    | fetching keys' timeout =>
        -- The rounds that were sent are the attempts at the batches before and at this one.
        have counted := counted_of_play play
        have sent := counted.sent
        have some := (counted.ongoing rfl).1
        rw [last, ended] at sent
        simp only [tries] at sent
        rw [← replicate_snoc some, ← List.append_assoc] at sent
        obtain ⟨before_eq, keys_eq⟩ := List.append_inj' sent rfl
        cases keys_eq
        have number : rounds.length + 1 = roundsOf before + f.attempts.toNat := by
          rw [before_eq, List.length_append, length_sentFor, List.length_replicate, attempts]
          omega
        obtain ⟨outcome, here, mem⟩ := replied side slot key (batch ▸ at_slot)
        refine ⟨outcome, here, h.tracked.brought_of_mem ?_⟩
        rw [endsIn_append, ← number]
        exact List.mem_append_left _ mem
    | fresh => cases admits
    | resting => cases admits
    | stopped => cases admits
  · rw [succeeded] at failed
    cases failed

/-- A batch that was given up has been attempted as often as is allowed. -/
theorem attempts_of_failed
    (h : Schedule State.react (initial source target (team.map State.initial)) log w) {i : Nat}
    {worker : Worker} (present : team[i]? = some worker) {f : Finish}
    (mem : f ∈ finishes (heard i log)) (failed : f.results? = none) :
    worker.settings.retry.totalAttempts.toNat ≤ f.attempts.toNat := by
  obtain ⟨before, after, split⟩ := List.append_of_mem mem
  obtain ⟨earlier, s, later, state, signal, rfl, -, told, finished⟩ := exists_stage_of_finish split
  obtain ⟨-, attempts, ⟨results, -, brought⟩ | ⟨error, -, -, last⟩⟩ := Finish.of?_eq_some finished
  · rw [failed] at brought
    cases brought
  · obtain ⟨phase, play, -⟩ := h.before.play_of_told told (begins_of_present present)
    rw [attempts, ← (standing_of_play play).worker]
    exact total_le_of_next? last

end Team

/-! ## The findings that are handed over -/

/-- A worker that has stopped without breaking off has compared what it kept. -/
theorem Onward.diff_eq {s : State} {effects : List WorkerEffect}
    {reaction : Reaction State WorkerEffect} (went : Onward s effects reaction)
    (stops : Phase.ofMove reaction.move = .stopped) (bounds : s.worker.inBounds = true) :
    reaction.state.diff = State.findings reaction.state.source reaction.state.target := by
  cases went with
  | sends waiting => cases stops
  | finishes => rfl
  | breaksOff waiting breaks => simp [bounds] at breaks

theorem diff_of_play {w : Worker} {history : List (State × Signal)} {s : State}
    (play : Play State.react (State.initial w) history s .stopped) (bounds : w.inBounds = true) :
    s.diff = State.findings s.source s.target := by
  generalize stopped : Phase.stopped = p at play
  cases play with
  | fresh => cases stopped
  | @told history s p signal earlier admits =>
      have worker := (standing_of_play earlier).worker
      cases turn s admits with
      | begins => exact (onward s _).diff_eq stopped.symm (worker ▸ bounds)
      | rests => cases stopped
      | ends finished reacts same keeps contributes =>
          rw [reacts] at stopped ⊢
          exact (onward _ _).diff_eq stopped.symm (by rw [same.1, worker, bounds])
      | @fails keys timeout error course next =>
          rcases react_of_next next error with reacts | reacts <;> rw [reacts] at stopped <;>
            cases stopped

/-! ## Warnings -/

/-- The warnings on a timeline. -/
def warningsOf (timeline : Array (Nat × WorkerEffect)) : List Event :=
  ((eventsOf timeline).map (·.2)).filter fun e => e.level = .warn

/-- The event warns that a batch was given up, and says how many keys it has. -/
def WarnsOf (worker : Nat) (event : Event) (f : Finish) : Prop :=
  ∃ error, event = .batchSkipped worker f.keys.length ⟨"send_batch", f.attempts, error⟩

/-- The batches that were given up. -/
def failedOf (finished : List Finish) : List Finish := finished.filter (·.results?.isNone)

/-- The warnings among some effects. -/
def warned (effects : List WorkerEffect) : List Event :=
  effects.filterMap fun e =>
    match e with
    | .say event => if event.level = .warn then some event else none
    | _ => none

theorem warned_append (first second : List WorkerEffect) :
    warned (first ++ second) = warned first ++ warned second := List.filterMap_append

theorem warningsOf_eq (timeline : Array (Nat × WorkerEffect)) :
    warningsOf timeline = warned (timeline.toList.map (·.2)) := by
  unfold warningsOf eventsOf warned
  rw [List.map_filterMap, List.filter_filterMap, List.filterMap_map]
  congr 1
  funext e
  rcases e with ⟨moment, event | contribution | worker⟩
  · by_cases warn : event.level = .warn <;> simp [warn]
  · rfl
  · rfl

/-- Going on is no reason to warn. -/
theorem warned_proceed (s : State) (effects : List WorkerEffect) :
    warned (s.proceed effects).effects = warned effects := by
  have went := onward s effects
  generalize s.proceed effects = reaction at went
  cases went <;> simp [warned, State.send, Event.level]

/-- Whatever a worker is told, it warns once if a batch is given up then, and else not. -/
theorem warned_react (s : State) (signal : Signal) :
    List.Forall₂ (WarnsOf s.worker.id) (warned (s.react signal).effects)
      (failedOf (Finish.of? s signal).toList) := by
  cases signal with
  | begun =>
      show List.Forall₂ _ (warned (s.proceed _).effects) []
      rw [warned_proceed]
      exact .nil
  | rested => exact .nil
  | settled verdict =>
      cases verdict with
      | ok results =>
          show List.Forall₂ _ (warned (State.proceed _ _).effects) []
          rw [warned_proceed]
          exact .nil
      | error error =>
          cases next : s.course.next? s.worker.settings.retry with
          | none =>
              have finished : Finish.of? s (.settled (.error error)) =
                  some ⟨s.current, s.course.attempt, none⟩ := by simp only [Finish.of?, next]
              rw [react_of_last next, warned_proceed, finished]
              exact .cons ⟨error, rfl⟩ .nil
          | some course =>
              have unfinished : Finish.of? s (.settled (.error error)) = none := by
                simp only [Finish.of?, next]
              rw [unfinished]
              rcases react_of_next next error with reacts | reacts <;> rw [reacts] <;> exact .nil

/-- A worker has warned once of each batch that was given up, in order. -/
theorem warned_of_play {w : Worker} {history : List (State × Signal)} {s : State} {p : Phase}
    (play : Play State.react (State.initial w) history s p) :
    List.Forall₂ (WarnsOf w.id) (warned (done State.react history))
      (failedOf (finishes history)) := by
  induction play with
  | fresh => exact .nil
  | @told history s p signal earlier admits ih =>
      have worker := (standing_of_play earlier).worker
      have now := warned_react s signal
      rw [worker] at now
      have effects : done State.react (history ++ [(s, signal)]) =
          done State.react history ++ (s.react signal).effects := by
        simp [done]
      rw [effects, warned_append, finishes_snoc]
      unfold failedOf at ih now ⊢
      rw [List.filter_append]
      exact List.rel_append ih now

/-! ## The account -/

/-- What a worker on its own has found, contributed and said, by what became of its batches. -/
structure Account (w : Worker) (finished : List Finish) (log : List (Stage State WorkerEffect))
    (timeline : Array (Nat × WorkerEffect)) (diff : DiffSet) : Prop where
  batches : finished.map (·.keys) = w.batchKeys
  share : w.batchKeys.flatten = w.span.slice w.keys
  /-- A batch is given up after the last attempt that is allowed. -/
  attempts : ∀ f ∈ finished, 1 ≤ f.attempts.toNat ∧
    f.attempts.toNat ≤ w.settings.retry.totalAttempts.toNat ∧
    (f.results? = none → f.attempts.toNat = w.settings.retry.totalAttempts.toNat)
  /-- Both sides of what is found for a key are answers for the slot of its last check, in the
  round that succeeded. -/
  found : ∀ key, ∀ l : LastCheck finished key, ∃ source target : Outcome,
    l.results.source[l.slot]? = some ⟨key, some source⟩ ∧
    l.results.target[l.slot]? = some ⟨key, some target⟩ ∧
    Brought log ⟨0, l.round, .source, l.slot, key⟩ source ∧
    Brought log ⟨0, l.round, .target, l.slot, key⟩ target ∧
    diff.Tells key (compare ⟨key, some source⟩ ⟨key, some target⟩)
  checked : ∀ key, (∃ f ∈ finished, f.Checked key) → Nonempty (LastCheck finished key)
  unchecked : ∀ key, (∀ f ∈ finished, ¬f.Checked key) → diff.contains key = false
  once : ∀ key, (diff.mismatch.contains key).toNat + (diff.missingFromSource.contains key).toNat +
    (diff.missingFromTarget.contains key).toNat ≤ 1
  contributions : (contributionsOf timeline).map (·.2) =
    finished.flatMap (·.contributions) ++ [.merged diff]
  errorKeys : (tallyOf timeline).results.keysWithError = (failedOf finished).flatMap (·.keys)
  processed : (tallyOf timeline).processed.toNat = w.span.length
  warnings : List.Forall₂ (WarnsOf w.id) (warningsOf timeline) (failedOf finished)

theorem failedOf_flatMap_keys (finished : List Finish) :
    (failedOf finished).flatMap (·.keys) = finished.flatMap (·.uncheckedKeys) := by
  unfold failedOf
  induction finished with
  | nil => rfl
  | cons f finished ih =>
      rw [List.flatMap_cons, ← ih, List.filter_cons]
      unfold Finish.uncheckedKeys
      split <;> simp

section Alone

variable {w : Worker} {source target : Store} {log : List (Stage State WorkerEffect)}
  {world : World State WorkerEffect}

/-- When a worker on its own is over, it accounts for what became of its batches. -/
theorem account_of_over
    (h : Schedule State.react (initial source target ([w].map State.initial)) log world)
    (ended : world.isOver = true) (inside : w.span.stop.toNat ≤ w.keys.length)
    (fits : w.span.batchesEnd w.settings.batchSize < 2 ^ 64) :
    ∃ c, world.clients = [c] ∧
      Account w (finishes (heard 0 log)) log world.timeline c.state.diff := by
  have here : [w][0]? = some w := rfl
  have bounds := w.inBounds_of_fits inside fits
  obtain ⟨c, present, play⟩ := h.plays_to_end ended (begins_of_present here)
  have standing := standing_of_play play
  have counted := counted_of_play play
  have clients : world.clients = [c] := by
    obtain ⟨c', eq⟩ := List.length_eq_one_iff.1 h.length_clients
    rw [eq] at present
    cases present
    exact eq
  have diff : c.state.diff = State.findings (kept .source (finishes (heard 0 log)))
      (kept .target (finishes (heard 0 log))) := by
    rw [diff_of_play play bounds, standing.source, standing.target]
  have effects : log.flatMap (Stage.effects State.react) = done State.react (heard 0 log) :=
    effects_alone fun s mem t told => Nat.lt_one_iff.1 (h.client_lt_of_told mem told)
  have contributions : (contributionsOf world.timeline).map (·.2) =
      (finishes (heard 0 log)).flatMap (·.contributions) ++ [.merged c.state.diff] := by
    rw [contributionsOf_timeline h, effects, standing.contributions, diff_of_play play bounds,
      closing, if_pos (by rw [standing.worker, bounds])]
  have found : ∀ key, ∀ l : LastCheck (finishes (heard 0 log)) key, ∃ source target : Outcome,
      l.results.source[l.slot]? = some ⟨key, some source⟩ ∧
      l.results.target[l.slot]? = some ⟨key, some target⟩ ∧
      Brought log ⟨0, l.round, .source, l.slot, key⟩ source ∧
      Brought log ⟨0, l.round, .target, l.slot, key⟩ target ∧
      c.state.diff.Tells key (compare ⟨key, some source⟩ ⟨key, some target⟩) := by
    intro key l
    have brought := exists_brought h here l.split l.succeeded l.at_slot
    obtain ⟨s, ofSource, fromSource⟩ := brought .source
    obtain ⟨t, ofTarget, fromTarget⟩ := brought .target
    refine ⟨s, t, ofSource, ofTarget, fromSource, fromTarget, ?_⟩
    rw [diff]
    exact l.findings_tells standing.answer ofSource ofTarget
  have unheard : ∀ key, (∀ f ∈ finishes (heard 0 log), ¬f.Checked key) →
      c.state.diff.Tells key none := by
    intro key none
    rw [diff]
    exact findings_tells_none none
  have keys : (teamFinishes [w].length log).flatMap (·.keys) = w.span.slice w.keys := by
    rw [keys_teamFinishes h ended, List.flatMap_singleton, w.flatten_batchKeys inside fits]
  have number : ((teamFinishes [w].length log).flatMap (·.keys)).length = w.span.length := by
    rw [keys, Span.length_slice inside]
  have small : w.span.length < 2 ^ 64 := Nat.lt_of_le_of_lt (Nat.sub_le _ _) w.span.stop.toNat_lt
  refine ⟨c, clients, ?_⟩
  constructor
  case batches => exact batches_of_over h ended here
  case share => exact w.flatten_batchKeys inside fits
  case attempts =>
    intro f mem
    obtain ⟨some, allowed⟩ := counted.ended f mem
    exact ⟨some, allowed, fun failed => Nat.le_antisymm allowed (attempts_of_failed h here mem failed)⟩
  case found => exact found
  case checked => exact fun key checked => exists_lastCheck checked
  case unchecked => exact fun key none => (unheard key none).contains_of_none
  case once =>
    intro key
    by_cases checked : ∃ f ∈ finishes (heard 0 log), f.Checked key
    · obtain ⟨l⟩ := exists_lastCheck checked
      obtain ⟨s, t, -, -, -, -, tells⟩ := found key l
      exact tells.once
    · exact (unheard key fun f mem own => checked ⟨f, mem, own⟩).once
  case contributions => exact contributions
  case errorKeys =>
    unfold tallyOf
    rw [Tally.addAll_keysWithError, contributions, List.flatMap_append,
      flatMap_uncheckedKeys_contributions, failedOf_flatMap_keys]
    simp [Tally.empty, Contribution.uncheckedKeys]
  case processed =>
    rw [processed_eq h ended (number ▸ small), number, UInt64.toNat_ofNat', Nat.mod_eq_of_lt small]
  case warnings =>
    rw [warningsOf_eq, h.map_timeline, effects]
    exact warned_of_play play

end Alone

/-- A worker on its own, over any keys and any stores, comes to an end; and in whatever order its
tasks are fired, it accounts at the end for what became of its batches. -/
theorem run_accounts (w : Worker) (source target : Store)
    (inside : w.span.stop.toNat ≤ w.keys.length)
    (fits : w.span.stop.toNat + w.settings.batchSize.toNat < 2 ^ 64) :
    w.inBounds = true ∧
    (∃ log, Schedule State.react (initial source target [State.initial w]) log
      (runAll source target [w])) ∧
    (runAll source target [w]).isOver = true ∧
    ∀ log world, Schedule State.react (initial source target [State.initial w]) log world →
      world.isOver = true → ∃ c, world.clients = [c] ∧
        Account w (finishes (heard 0 log)) log world.timeline c.state.diff := by
  have ends := w.span.batchesEnd_fits w.settings.batchSize fits
  obtain ⟨log, schedule, -, -⟩ := exists_prompt_schedule State.react _ _
    (Orderly.initial source target [State.initial w])
  refine ⟨w.inBounds_of_fits inside ends, ⟨log, schedule⟩, isOver_runAll source target [w], ?_⟩
  intro log world h ended
  exact account_of_over h ended inside ends

/-- A source that brings three versions of one key, one after the other, and then never answers for
it again. -/
def fadingSource : Store :=
  let version (byte : UInt8) : Store.Plan := ⟨0, .answer (.ok ⟨[byte], 0, 0, 0⟩)⟩
  Bucket.empty.store.wrap
    (.scripted (KeyMap.empty.insert "a" [version 1, version 2, version 3, ⟨0, .stall⟩]))

/-- A worker with a key in each of its three batches, and twice in the second. -/
def oneKeyFourTimes : Worker where
  id := 0
  keys := ["a", "b", "a", "a", "a"]
  span := ⟨0, 5⟩
  settings := { (Config.inMemory "").workerSettings with batchSize := 2 }

/-- The worker gives its last batch up, and hands over the third version. -/
theorem run_accounts_one_key :
    ∃ (log : List (Stage State WorkerEffect)) (world : World State WorkerEffect) (c : Client State),
      Schedule State.react
        (initial fadingSource Bucket.empty.store [State.initial oneKeyFourTimes]) log world ∧
      Account oneKeyFourTimes (finishes (heard 0 log)) log world.timeline c.state.diff ∧
      (tallyOf world.timeline).results.keysWithError = ["a"] ∧
      c.state.diff.missingFromTarget.find? "a" = some ⟨[3], 0, 0, 0⟩ := by
  obtain ⟨-, ⟨log, schedule⟩, ended, accounts⟩ :=
    run_accounts oneKeyFourTimes fadingSource Bucket.empty.store (by decide) (by decide)
  obtain ⟨c, clients, account⟩ := accounts log _ schedule ended
  have kept : (runAll fadingSource Bucket.empty.store [oneKeyFourTimes]).clients.map
      (fun c => c.state.diff.missingFromTarget.find? "a") = [some ⟨[3], 0, 0, 0⟩] := by
    decide +kernel
  rw [clients] at kept
  exact ⟨log, _, c, schedule, account, by decide +kernel, List.head_eq_of_cons_eq kept⟩

end ReplicaDiff.Worker
