/-
# ReplicaDiff.Proofs.Run.Progress — what a run says of its progress

A worker that is told something lets the reporter notice the batch that is over
with it, and nothing else (`noticed_react`).  The counters that the reporter reads
at a tick hold, therefore, the keys of the batches that are over before the tick,
and of those the unchecked ones (`before_history`).

While workers are busy these are not all keys, so that no tick sees all of them
processed.  The reporter goes on until it is told of the end, and reports at each
tick before that (`progress_reported`).  A tick at the moment of some other event
does not see the event; at the end of the run there is none.
-/
import ReplicaDiff.Proofs.Run.Budget
import ReplicaDiff.Proofs.Worker.Counting

namespace ReplicaDiff

set_option autoImplicit false

open ReplicaDiff.World ReplicaDiff.Worker
open ReplicaDiff.Progress (Counters First History Notice Reporter ToldToStop)

namespace Run

/-! ## What the reporter notices -/

/-- What the reporter notices of a batch that is over. -/
def notices (f : Finish) : List Notice := f.contributions.filterMap notice?

/-- That a worker goes on is nothing that the reporter notices, whatever it does then. -/
theorem noticed_onward {s : State} {effects : List WorkerEffect}
    {reaction : Reaction State WorkerEffect} (went : Onward s effects reaction) :
    (contributed reaction.effects).filterMap notice? =
      (contributed effects).filterMap notice? := by
  cases went <;> simp [State.send, contributed, notice?]

/-- What the reporter notices when a worker is told something is the batch that is over with it. -/
theorem noticed_react (s : State) (signal : Signal) :
    (contributed (s.react signal).effects).filterMap notice? =
      (Finish.of? s signal).toList.flatMap notices := by
  cases signal with
  | begun => exact noticed_onward (onward s _)
  | rested => rfl
  | settled verdict =>
      cases verdict with
      | ok results => exact noticed_onward (onward _ _)
      | error error =>
          cases next : s.course.next? s.worker.settings.retry with
          | none =>
              rw [react_of_last next, noticed_onward (onward s _)]
              simp [Finish.of?, next, notices, Finish.contributions, contributed, State.countBatch]
          | some course =>
              rcases react_of_next next error with reacts | reacts <;> rw [reacts] <;>
                simp [Finish.of?, next, contributed, State.send, backingOff]

/-- The reporter of a run is told to stop when the workers have finished, and at no other moment. -/
theorem toldToStop_iff {timeline : Array (Nat × WorkerEffect)} {finished moment : Nat} :
    ToldToStop (history timeline finished) moment ↔ moment = finished :=
  Progress.toldToStop_of_signal (quiet_notices timeline) finished moment

/-- What the reporter notices at one stage. -/
def noticesOf (s : Stage State WorkerEffect) : List Notice := (finish? s).toList.flatMap notices

theorem noticed_stage (s : Stage State WorkerEffect) :
    (contributed (s.effects State.react)).filterMap notice? = noticesOf s := by
  unfold Stage.effects noticesOf finish?
  cases s.told? with
  | none => rfl
  | some t => exact noticed_react t.state t.signal

/-- What the reporter notices at some stages, with the moment of each. -/
def noticed (log : List (Stage State WorkerEffect)) : History :=
  log.flatMap fun s => (noticesOf s).map fun n => (s.moment, n)

section Schedule

variable {source target : Store} {team : List Worker} {log : List (Stage State WorkerEffect)}
  {w : World State WorkerEffect}

/-- The history of a run is what the reporter notices at its stages, and then the end. -/
theorem history_eq
    (h : Schedule State.react (initial source target (team.map State.initial)) log w)
    (finished : Nat) : history w.timeline finished = noticed log ++ [(finished, .signal true)] := by
  unfold history contributionsOf noticed
  rw [List.filterMap_filterMap, h.timeline_toList, List.filterMap_flatMap]
  refine congrArg (· ++ _) (List.flatMap_congr fun s _ => ?_)
  rw [← noticed_stage, contributed, List.filterMap_map, List.filterMap_filterMap, List.map_filterMap]
  refine List.filterMap_congr fun e _ => ?_
  cases e <;> rfl

/-- The history of a run is in order of time. -/
theorem sorted_history
    (h : Schedule State.react (initial source target (team.map State.initial)) log w) :
    (history w.timeline w.now).Sorted := by
  obtain ⟨sorted, past⟩ := h.moments
  rw [history_eq h]
  refine List.pairwise_append.2 ⟨List.pairwise_flatMap.2 ⟨fun s _ => ?_, ?_⟩,
    List.pairwise_singleton _ _, fun n mem last mem' => ?_⟩
  · exact List.pairwise_map.2 (List.pairwise_of_forall fun _ _ => Nat.le_refl _)
  · refine sorted.imp fun le n mem n' mem' => ?_
    obtain ⟨-, -, rfl⟩ := List.mem_map.1 mem
    obtain ⟨-, -, rfl⟩ := List.mem_map.1 mem'
    exact le
  · obtain ⟨s, stage, own⟩ := List.mem_flatMap.1 mem
    obtain ⟨-, -, rfl⟩ := List.mem_map.1 own
    rw [List.mem_singleton.1 mem']
    exact past s stage

end Schedule

/-! ## The counters -/

theorem foldl_notices (finished : List Finish) (c : Counters) :
    (finished.flatMap notices).foldl Counters.add c =
      ⟨c.processed + .ofNat (keyCount finished), c.errors + .ofNat (uncheckedCount finished)⟩ := by
  induction finished generalizing c with
  | nil => simp [keyCount, uncheckedCount]
  | cons f finished ih =>
      have own : (notices f).foldl Counters.add c =
          ⟨c.processed + .ofNat f.keys.length, c.errors + .ofNat f.uncheckedKeys.length⟩ := by
        unfold notices Finish.contributions Finish.uncheckedKeys
        split <;> simp [notice?, Counters.add]
      rw [List.flatMap_cons, List.foldl_append, own, ih]
      simp [keyCount, uncheckedCount, UInt64.ofNat_add, UInt64.add_assoc]

/-- What the reporter has noticed before a moment are the batches that are over by then. -/
theorem noticed_before (log : List (Stage State WorkerEffect)) (moment : Nat) :
    ((noticed log).filter fun n => n.1 < moment).map (·.2) =
      (finishedBefore log moment).flatMap notices := by
  unfold finishedBefore
  rw [List.filterMap_eq_flatMap_toList, List.flatMap_assoc]
  show _ = (stagesBefore log moment).flatMap noticesOf
  unfold noticed stagesBefore
  induction log with
  | nil => rfl
  | cons s log ih =>
      rw [List.flatMap_cons, List.filter_append, List.map_append, ih]
      by_cases early : s.moment < moment
      · rw [List.filter_cons_of_pos (by simpa using early), List.flatMap_cons]
        simp [List.filter_map, Function.comp_def, early]
      · rw [List.filter_cons_of_neg (by simpa using early)]
        simp [List.filter_map, Function.comp_def, early]

section Schedule

variable {source target : Store} {team : List Worker} {log : List (Stage State WorkerEffect)}
  {w : World State WorkerEffect}

/-- The counters that a tick reads hold the keys of the batches that are over before it. -/
theorem before_history
    (h : Schedule State.react (initial source target (team.map State.initial)) log w)
    (moment : Nat) :
    Counters.before ⟨0, 0⟩ (history w.timeline w.now) moment =
      ⟨.ofNat (keyCount (finishedBefore log moment)),
        .ofNat (uncheckedCount (finishedBefore log moment))⟩ := by
  unfold Counters.before
  rw [Progress.takeWhile_eq_filter (sorted_history h), history_eq h, List.filter_append,
    List.map_append, noticed_before, List.foldl_append, foldl_notices]
  by_cases early : w.now < moment <;> simp [early, Counters.add]

end Schedule

end Run

/-! ## Who says what -/

/-- The event tells of the progress of a run. -/
def Event.ofReporter : Event → Bool
  | .progressed _ _ _ => true
  | .keysSkipped _ => true
  | _ => false

namespace Worker

theorem Onward.not_ofReporter {s : State} {effects : List WorkerEffect}
    {reaction : Reaction State WorkerEffect} (went : Onward s effects reaction)
    (own : ∀ e, .say e ∈ effects → e.ofReporter = false) {e : Event}
    (mem : .say e ∈ reaction.effects) : e.ofReporter = false := by
  cases went with
  | sends waiting =>
      rcases List.mem_append.1 mem with mem | same
      · exact own e mem
      · cases List.mem_singleton.1 same
        rfl
  | finishes waiting bounds =>
      simp only [List.mem_append, List.mem_cons, List.not_mem_nil, or_false] at mem
      rcases mem with mem | same | same
      · exact own e mem
      · cases same
        rfl
      · cases same
  | breaksOff waiting bounds =>
      rcases List.mem_append.1 mem with mem | same
      · exact own e mem
      · cases List.mem_singleton.1 same

/-- Workers say nothing of the progress of a run. -/
theorem not_ofReporter_of_react {s : State} {signal : Signal} {e : Event}
    (mem : .say e ∈ (s.react signal).effects) : e.ofReporter = false := by
  cases signal with
  | begun =>
      refine (onward s _).not_ofReporter (fun e mem => ?_) mem
      cases List.mem_singleton.1 mem
      rfl
  | rested =>
      cases List.mem_singleton.1 mem
      rfl
  | settled verdict =>
      cases verdict with
      | ok results =>
          refine (onward _ _).not_ofReporter (fun e mem => ?_) mem
          cases List.mem_singleton.1 mem
      | error error =>
          cases next : s.course.next? s.worker.settings.retry with
          | none =>
              rw [react_of_last next] at mem
              refine (onward s _).not_ofReporter (fun e mem => ?_) mem
              simp [State.countBatch] at mem
              rw [mem]
              rfl
          | some course =>
              rcases react_of_next next error with reacts | reacts <;> rw [reacts] at mem <;>
                simp [State.send, backingOff] at mem
              · rcases mem with same | same <;> rw [same] <;> rfl
              · rw [mem]
                rfl

end Worker

namespace Run

theorem not_ofReporter_of_mem_eventsOf {source target : Store} {team : List Worker}
    {log : List (Stage State WorkerEffect)} {w : World State WorkerEffect}
    (h : Schedule State.react (initial source target (team.map State.initial)) log w)
    {e : Nat × Event} (mem : e ∈ eventsOf w.timeline) : e.2.ofReporter = false := by
  unfold eventsOf at mem
  rw [h.timeline_toList] at mem
  obtain ⟨⟨moment, effect⟩, listed, said⟩ := List.mem_filterMap.1 mem
  obtain ⟨s, -, placed⟩ := List.mem_flatMap.1 listed
  obtain ⟨effect', own, same⟩ := List.mem_map.1 placed
  cases same
  cases effect with
  | contribute contribution => cases said
  | brokeOff worker => cases said
  | say event =>
      cases said
      unfold Stage.effects at own
      split at own
      · exact not_ofReporter_of_react own
      · cases own

theorem not_ofReporter_of_mem_awaited {timeline : Array (Nat × WorkerEffect)} {team : List Worker}
    {moment : Nat} {e : Nat × Event} (mem : e ∈ awaited timeline moment team) :
    e.2.ofReporter = false := by
  induction team generalizing moment with
  | nil => cases mem
  | cons w rest ih =>
      unfold awaited at mem
      split at mem
      · exact ih mem
      · rename_i stop lost _
        rcases List.mem_append.1 mem with now | later
        · cases lost with
          | true =>
              cases List.mem_singleton.1 now
              rfl
          | false => cases now
        · exact ih later

/-- On the part of the workers nothing is said of the progress of a run. -/
theorem not_ofReporter_of_mem_toldOf {source target : Store} {team : List Worker}
    {log : List (Stage State WorkerEffect)} {w : World State WorkerEffect}
    (h : Schedule State.react (initial source target (team.map State.initial)) log w)
    {e : Nat × Event} (mem : e ∈ toldOf team w.timeline) : e.2.ofReporter = false := by
  unfold toldOf interleave at mem
  rcases List.mem_merge.1 mem with own | lost
  · exact not_ofReporter_of_mem_eventsOf h own
  · exact not_ofReporter_of_mem_awaited lost

/-- A merge holds what one of the lists holds, if nothing of the other is of interest. -/
theorem filter_merge {α : Type} {p : α → Bool} {le : α → α → Bool} {first : List α}
    (none : ∀ a ∈ first, p a = false) (second : List α) :
    (List.merge first second le).filter p = second.filter p := by
  induction first generalizing second with
  | nil => rw [List.nil_merge]
  | cons a first ih =>
      have own : ¬p a = true := by simp [none a List.mem_cons_self]
      have rest := ih fun b mem => none b (List.mem_cons_of_mem _ mem)
      induction second with
      | nil => rw [List.merge_right, List.filter_cons_of_neg own, ← List.merge_right first, rest]
      | cons b second later =>
          rw [List.cons_merge_cons]
          split
          · rw [List.filter_cons_of_neg own, rest]
          · rw [List.filter_cons, later, List.filter_cons]

/-! ## What is said at a tick -/

/-- The ticks of an interval of `p` milliseconds that come before a moment. -/
def ticksBefore (p moment : Nat) : List Nat :=
  (List.range moment).filter fun tick => 0 < tick ∧ tick * p < moment

theorem le_div_iff {p moment tick : Nat} (positive : 0 < p) (counted : 1 ≤ tick) :
    tick ≤ (moment - 1) / p ↔ tick * p < moment := by
  have some : 1 * 1 ≤ tick * p := Nat.mul_le_mul counted positive
  rw [Nat.le_div_iff_mul_le positive]
  omega

theorem ticksBefore_eq_range' {p : Nat} (positive : 0 < p) (moment : Nat) :
    ticksBefore p moment = List.range' 1 ((moment - 1) / p) := by
  refine List.Pairwise.eq_of_mem_iff (List.pairwise_lt_range.filter _) List.pairwise_lt_range'
    fun tick => ?_
  have longer : tick ≤ tick * p := Nat.le_mul_of_pos_right tick positive
  rw [ticksBefore, List.mem_filter, List.mem_range, decide_eq_true_eq, List.mem_range'_1]
  constructor
  · rintro ⟨-, counted, before⟩
    have := (le_div_iff positive counted).2 before
    omega
  · rintro ⟨counted, le⟩
    have before : tick * p < moment := (le_div_iff positive counted).1 (by omega)
    omega

/-- A number of keys in one interval, as keys per second. -/
def rateText (keys : Nat) (interval : Duration) : String :=
  Decimal.wholeText ((UInt64.ofNat keys).toFloat / Progress.seconds interval)

/-- What is said of a reading of counters that hold numbers of keys. -/
theorem sample_events (total : UInt64) (interval : Duration) {done unchecked : Nat}
    {earlier : Option Nat} (fits : done < 2 ^ 64) (part : unchecked ≤ done)
    (grown : ∀ e ∈ earlier, e ≤ done) :
    (Progress.Sample.ofReading (.ofNat done) (.ofNat unchecked) (earlier.map .ofNat) interval).events
        total =
      .progressed (.ofNat done) total (earlier.map fun e => rateText (done - e) interval) ::
        if unchecked = 0 then [] else [.keysSkipped (.ofNat unchecked)] := by
  have number : ∀ n ≤ done, (UInt64.ofNat n).toNat = n := fun n le => by
    rw [UInt64.toNat_ofNat', Nat.mod_eq_of_lt (Nat.lt_of_le_of_lt le fits)]
  have none : UInt64.ofNat unchecked = 0 ↔ unchecked = 0 := by
    rw [← UInt64.toNat_inj, number _ part]
    rfl
  have difference : ∀ e ∈ earlier, (if UInt64.ofNat e ≤ .ofNat done then
      UInt64.ofNat done - .ofNat e else 0) = .ofNat (done - e) := by
    intro e mem
    have le := grown e mem
    have bigger : UInt64.ofNat e ≤ .ofNat done := by
      rwa [UInt64.le_iff_toNat_le, number e le, number done (Nat.le_refl _)]
    rw [if_pos bigger, ← UInt64.toNat_inj, UInt64.toNat_sub_of_le _ _ bigger, number e le,
      number done (Nat.le_refl _), number _ (Nat.sub_le done e)]
  unfold Progress.Sample.events Progress.Sample.ofReading rateText
  simp only [none]
  cases earlier with
  | none => rfl
  | some e => simp only [Option.map_some, difference e rfl]

/-- How many keys were done at the tick before this one, unless this is the first. -/
def doneEarlier (log : List (Stage State WorkerEffect)) (p tick : Nat) : Option Nat :=
  if tick = 1 then none else some (keyCount (finishedBefore log ((tick - 1) * p)))

theorem le_of_mem_doneEarlier {log : List (Stage State WorkerEffect)} {p tick n : Nat}
    (mem : n ∈ doneEarlier log p tick) : n ≤ keyCount (finishedBefore log (tick * p)) := by
  unfold doneEarlier at mem
  split at mem
  · cases mem
  · cases mem
    exact keyCount_le_of_sublist (finishedBefore_sublist (Nat.mul_le_mul_right p (Nat.sub_le tick 1)))

/-- What is said of the progress of a run at a tick, with ticks every `p` milliseconds: how many keys
are done, from the second tick on at which rate, and how many of them are unchecked, if any are. -/
def progressLines (config : Config) (total : Nat) (log : List (Stage State WorkerEffect))
    (p tick : Nat) : List (Nat × Event) :=
  let done := keyCount (finishedBefore log (tick * p))
  let unchecked := uncheckedCount (finishedBefore log (tick * p))
  let rate := (doneEarlier log p tick).map fun e => rateText (done - e) config.reportInterval
  let events := Event.progressed (.ofNat done) (.ofNat total) rate ::
    if unchecked = 0 then [] else [.keysSkipped (.ofNat unchecked)]
  events.map fun e => (tick * p, e)

theorem ofReporter_of_mem_progressLines {config : Config} {total p tick : Nat}
    {log : List (Stage State WorkerEffect)} {e : Nat × Event}
    (mem : e ∈ progressLines config total log p tick) : e.2.ofReporter = true := by
  obtain ⟨event, said, rfl⟩ := List.mem_map.1 mem
  rcases List.mem_cons.1 said with rfl | said
  · rfl
  · split at said
    · cases said
    · cases List.mem_singleton.1 said
      rfl

/-! ## The run -/

namespace Ended

variable {config : Config} {setup : Setup} {log : List (Stage State WorkerEffect)}
  {world : World State WorkerEffect}

section Counts

variable (h : Ended config setup log world) (positive : config.numWorkers ≠ 0)
  (small : setup.keys.length < 2 ^ 64)

include h positive

/-- A run without keys takes no time. -/
theorem now_eq_zero (none : setup.keys = []) : world.now = 0 := by
  rw [h.now_eq_sup, none, workers_nil positive]
  rfl

include small

/-- As long as a run takes, some of its keys are not done. -/
theorem keyCount_lt {moment : Nat} (before : moment < world.now) :
    keyCount (finishedBefore log moment) < setup.keys.length := by
  have tiles := shares_tile config setup.keys positive small
  have shares : ∀ worker ∈ workers config setup.keys,
      worker.span.isEmpty = false ∧ worker.span.stop.toNat ≤ worker.keys.length := by
    intro worker mem
    obtain ⟨own, -, some, share⟩ := mem_workers mem
    exact ⟨some, own ▸ (tiles.bounds share).2⟩
  have pieces := flatMap_shares config setup.keys positive h.room small
  have total : ((workers config setup.keys).map (·.span.length)).sum = setup.keys.length := by
    conv_rhs => rw [← pieces, List.length_flatMap]
    refine congrArg List.sum (List.map_congr_left fun worker mem => ?_)
    obtain ⟨own, -, -, share⟩ := mem_workers mem
    exact (Span.length_slice (tiles.bounds share).2).symm
  have busy : workers config setup.keys ≠ [] := fun none => by
    rw [none] at pieces
    have := h.now_eq_zero positive pieces.symm
    omega
  rw [← total]
  exact keyCount_finishedBefore_lt h.schedule h.finished busy shares (Nat.le_of_lt before)

end Counts

section Reports

variable {p : Nat} (h : Ended config setup log world) (valid : config.validate = .ok ())
  (whole : config.reportInterval.toNanos = p * 1000000) (small : setup.keys.length < 2 ^ 64)

include h valid small

/-- While a run goes on, no tick sees all of its keys processed. -/
theorem not_seesAll {moment : Nat} (before : moment < world.now) :
    ¬(reporter config setup.keys.length).SeesAll (history world.timeline world.now) moment := by
  have lt := h.keyCount_lt (config.sound_of_validate valid).workers small before
  have fits : keyCount (finishedBefore log moment) < 2 ^ 64 := Nat.lt_trans lt small
  unfold Progress.Reporter.SeesAll reporter
  rw [before_history h.schedule, UInt64.le_iff_toNat_le, UInt64.toNat_ofNat', UInt64.toNat_ofNat',
    Nat.mod_eq_of_lt small, Nat.mod_eq_of_lt fits]
  exact Nat.not_le_of_lt lt

/-- The reporter of a run stops when it is told that the workers have finished. -/
theorem reported_stopped : (reported config setup world).stopped = some world.now := by
  have positive : 0 < (reporter config setup.keys.length).interval.toNanos :=
    config.reportInterval_pos_of_validate valid
  refine (Progress.Reporter.report_stopped_iff positive (sorted_history h.schedule)).2
    ⟨Nat.le_refl _, .inl (toldToStop_iff.2 rfl), ?_⟩
  rintro earlier before (told | ⟨-, -, -, full⟩)
  · exact Nat.ne_of_lt before (toldToStop_iff.1 told)
  · exact h.not_seesAll valid small before full

include whole

/-- At a tick before its end a run says how many of its keys are done. -/
theorem lines_eq {tick : Nat} (before : tick * p < world.now) :
    (reporter config setup.keys.length).lines (history world.timeline world.now) tick =
      progressLines config setup.keys.length log p tick := by
  have moments : ∀ i, Progress.tickMoment config.reportInterval i = i * p :=
    Progress.tickMoment_of_millis whole
  have counters : ∀ i, Counters.before ⟨0, 0⟩ (history world.timeline world.now)
      (Progress.tickMoment config.reportInterval i) =
        ⟨.ofNat (keyCount (finishedBefore log (i * p))),
          .ofNat (uncheckedCount (finishedBefore log (i * p)))⟩ := by
    intro i
    rw [moments]
    exact before_history h.schedule _
  have previous : (reporter config setup.keys.length).previous
      (history world.timeline world.now) tick = (doneEarlier log p tick).map .ofNat := by
    unfold Progress.Reporter.previous doneEarlier reporter
    rw [counters]
    split <;> rfl
  have sample := sample_events (.ofNat setup.keys.length) config.reportInterval
    (Nat.lt_trans (h.keyCount_lt (config.sound_of_validate valid).workers small before) small)
    (uncheckedCount_le _) (fun _ => le_of_mem_doneEarlier)
  unfold Progress.Reporter.lines Progress.Reporter.linesAt Progress.Reporter.sampleAt
  rw [previous]
  unfold reporter
  dsimp only
  rw [counters, moments, sample]
  rfl

/-- The reporter reports at the ticks before the end of the run, and at no other. -/
theorem reportsAt_iff (positive : 0 < p) {tick : Nat} (counted : 1 ≤ tick) :
    tick ≤ (world.now - 1) / p ↔ (reporter config setup.keys.length).ReportsAt
      (history world.timeline world.now) world.now tick := by
  have moments : ∀ i, Progress.tickMoment config.reportInterval i = i * p :=
    Progress.tickMoment_of_millis whole
  unfold Progress.Reporter.ReportsAt
  show _ ↔ Progress.tickMoment config.reportInterval tick ≤ world.now ∧
    (∀ moment ≤ Progress.tickMoment config.reportInterval tick, _) ∧ _
  rw [le_div_iff positive counted, moments]
  constructor
  · intro before
    refine ⟨Nat.le_of_lt before, fun moment le told => ?_, fun earlier _ lt => ?_⟩
    · have := toldToStop_iff.1 told
      omega
    · refine h.not_seesAll valid small ?_
      show Progress.tickMoment config.reportInterval earlier < world.now
      rw [moments]
      exact Nat.lt_of_le_of_lt (Nat.mul_le_mul_right p (Nat.le_of_lt lt)) before
  · rintro ⟨within, untold, -⟩
    refine Nat.lt_of_le_of_ne within fun same => ?_
    exact untold world.now (Nat.le_of_eq same.symm) (toldToStop_iff.2 rfl)

/-- At each tick before its end a run says how many of its keys are done. -/
theorem reported_events : (reported config setup world).events =
    (ticksBefore p world.now).flatMap (progressLines config setup.keys.length log p) := by
  have some : 0 < (reporter config setup.keys.length).interval.toNanos :=
    config.reportInterval_pos_of_validate valid
  have positive : 0 < p := by
    have same : (reporter config setup.keys.length).interval.toNanos = p * 1000000 := whole
    omega
  unfold reported
  rw [Progress.Reporter.report_events some (sorted_history h.schedule)
    fun _ => h.reportsAt_iff valid whole small positive, ticksBefore_eq_range' positive]
  refine List.flatMap_congr fun tick mem => h.lines_eq valid whole small ?_
  have bounds := List.mem_range'_1.1 mem
  exact (le_div_iff positive bounds.1).1 (by omega)

/-- Of what a run says that has begun, this is about its progress. -/
theorem filter_events (report : Output.Report) :
    ((concluded config setup world).events ++ report.events.map fun e => (world.now, e)).filter
        (·.2.ofReporter) =
      (ticksBefore p world.now).flatMap (progressLines config setup.keys.length log p) := by
  have workers : ∀ e ∈ toldOf (Run.workers config setup.keys) world.timeline,
      e.2.ofReporter = false := fun _ => not_ofReporter_of_mem_toldOf h.schedule
  have files : (report.events.map fun e => (world.now, e)).filter (·.2.ofReporter) = [] := by
    refine List.filter_eq_nil_iff.2 fun e mem => ?_
    obtain ⟨_, written, rfl⟩ := List.mem_map.1 mem
    obtain ⟨f, -, rfl⟩ := List.mem_map.1 written
    exact Bool.false_ne_true
  have own : ∀ e ∈ (reported config setup world).events, e.2.ofReporter = true := by
    intro e mem
    rw [h.reported_events valid whole small] at mem
    obtain ⟨tick, -, line⟩ := List.mem_flatMap.1 mem
    exact ofReporter_of_mem_progressLines line
  have events : (concluded config setup world).events =
      [(0, .runStarted setup.keys.length config.numWorkers config.batchSize),
        (0, .workersLaunched (Run.workers config setup.keys).length)] ++
      interleave (toldOf (Run.workers config setup.keys) world.timeline)
        (reported config setup world).events ++
      [(world.now, .runFinished (tallyOf world.timeline).processed
        (tallyOf world.timeline).results.diffs.size
        (tallyOf world.timeline).results.keysWithError.length)] := rfl
  rw [events, List.filter_append, List.filter_append, List.filter_append, interleave,
    filter_merge workers, List.filter_eq_self.2 own, files, h.reported_events valid whole small]
  simp [Event.ofReporter]

end Reports

end Ended

/-- Settings for stores in memory, with a report every 997 milliseconds. -/
def rareReports : Config := { Config.inMemory "" with reportInterval := .ofMillis 997 }

end Run

end ReplicaDiff
