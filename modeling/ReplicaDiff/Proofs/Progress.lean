/-
# ReplicaDiff.Proofs.Progress — when a reporter reports and when it stops

A reporter is told to stop at a moment if nobody is left to tell it anything, or
if the last signal of the moment says that the run has finished (`ToldToStop`).
It stops at the first moment at which it is told to or at which one of its ticks
sees all keys processed (`Reporter.report_stopped_iff`).  Its ticks come at an
interval that is not empty, so that one of them comes later than any given moment
(`lt_tickMoment`) and the ticks are enough for that.

Up to then it reports at each tick what the notices before the tick add up to
(`Reporter.report_events`).
-/
import Mathlib.Data.Nat.Find
import ReplicaDiff.Progress

namespace ReplicaDiff.Progress

set_option autoImplicit false

/-- Notices that come in order of time. -/
def History.Sorted (history : History) : Prop := history.Pairwise fun a b => a.1 ≤ b.1

/-- In notices that come in order of time, those before a moment are those that come earlier. -/
theorem takeWhile_eq_filter {history : History} (sorted : history.Sorted) (moment : Nat) :
    history.takeWhile (fun n => n.1 < moment) = history.filter fun n => n.1 < moment := by
  induction history with
  | nil => rfl
  | cons n rest ih =>
      obtain ⟨earliest, sorted⟩ := List.pairwise_cons.1 sorted
      by_cases early : n.1 < moment
      · rw [List.takeWhile_cons_of_pos (by simpa using early),
          List.filter_cons_of_pos (by simpa using early), ih sorted]
      · have late : ∀ m ∈ rest, ¬decide (m.1 < moment) = true := by
          intro m mem
          have := earliest m mem
          simp
          omega
        rw [List.takeWhile_cons_of_neg (by simpa using early),
          List.filter_cons_of_neg (by simpa using early), List.filter_eq_nil_iff.2 late]

/-- The first moment with some property. -/
def First (p : Nat → Prop) (moment : Nat) : Prop := p moment ∧ ∀ earlier < moment, ¬p earlier

theorem First.unique {p : Nat → Prop} {a b : Nat} (first : First p a) (first' : First p b) : a = b :=
  Nat.le_antisymm (Nat.le_of_not_lt fun lt => first.2 b lt first'.1)
    (Nat.le_of_not_lt fun lt => first'.2 a lt first.1)

theorem First.eq_some_iff {p : Nat → Prop} {a b last : Nat} (within : a ≤ last) (first : First p a) :
    some a = some b ↔ b ≤ last ∧ First p b := by
  constructor
  · rintro ⟨⟩
    exact ⟨within, first⟩
  · rintro ⟨-, first'⟩
    rw [first.unique first']

theorem exists_first {p : Nat → Prop} {moment : Nat} (own : p moment) :
    ∃ first ≤ moment, First p first := by
  classical
  have some : ∃ n, p n := ⟨moment, own⟩
  exact ⟨Nat.find some, Nat.find_min' some own, Nat.find_spec some, fun _ => Nat.find_min some⟩

namespace Notice

/-- A notice that says nothing of the end of a run. -/
def Quiet (n : Notice) : Prop := n ≠ .abandoned ∧ ∀ finished, n ≠ .signal finished

/-- What a signal says. -/
def signal? : Notice → Option Bool
  | .signal finished => some finished
  | _ => none

theorem Quiet.signal?_eq_none {n : Notice} (quiet : n.Quiet) : n.signal? = none := by
  cases n with
  | signal finished => exact absurd rfl (quiet.2 finished)
  | _ => rfl

end Notice

/-! ## Being told to stop -/

/-- The notices of one moment. -/
def noticesAt (history : History) (moment : Nat) : List Notice :=
  (history.filter fun n => n.1 = moment).map (·.2)

/-- At a moment the reporter has been abandoned, or the last signal says that the run has finished. -/
def ToldToStop (history : History) (moment : Nat) : Prop :=
  .abandoned ∈ noticesAt history moment ∨
    ((noticesAt history moment).filterMap Notice.signal?).getLast? = some true

theorem stops_iff (notices : List Notice) (finished : Bool) :
    stops finished notices = true ↔
      .abandoned ∈ notices ∨ (notices.filterMap Notice.signal?).getLast?.getD finished = true := by
  induction notices generalizing finished with
  | nil => simp [stops]
  | cons n rest ih =>
      cases n with
      | processed count => simpa [stops, Notice.signal?] using ih finished
      | unchecked count => simpa [stops, Notice.signal?] using ih finished
      | signal said => simpa [stops, Notice.signal?, List.getLast?_cons] using ih said
      | abandoned => simp [stops]

theorem stops_noticesAt_iff {history : History} {moment : Nat} :
    stops false (noticesAt history moment) = true ↔ ToldToStop history moment := by
  rw [stops_iff, ToldToStop]
  refine or_congr_right ?_
  cases ((noticesAt history moment).filterMap Notice.signal?).getLast? <;> simp

/-- Who is told to stop notices something at that moment. -/
theorem ToldToStop.exists_mem {history : History} {moment : Nat} (told : ToldToStop history moment) :
    ∃ n ∈ history, n.1 = moment := by
  obtain ⟨n, mem⟩ : ∃ n, n ∈ noticesAt history moment := by
    rcases told with mem | last
    · exact ⟨_, mem⟩
    · obtain ⟨n, mem, -⟩ := List.mem_filterMap.1 (List.mem_of_getLast? last)
      exact ⟨n, mem⟩
  obtain ⟨entry, mem, -⟩ := List.mem_map.1 mem
  exact ⟨entry, (List.mem_filter.1 mem).1, of_decide_eq_true (List.mem_filter.1 mem).2⟩

theorem stopMoment_eq (history : History) : stopMoment history =
    (history.find? fun n => stops false (noticesAt history n.1)).map (·.1) := rfl

/-- The reporter may stop at a moment at which it is told to. -/
theorem toldToStop_of_stopMoment {history : History} {moment : Nat}
    (stop : stopMoment history = some moment) : ToldToStop history moment := by
  rw [stopMoment_eq] at stop
  obtain ⟨n, found, rfl⟩ := Option.map_eq_some_iff.1 stop
  have told := List.find?_some found
  exact stops_noticesAt_iff.1 told

theorem stopMoment_eq_none_iff {history : History} :
    stopMoment history = none ↔ ∀ moment, ¬ToldToStop history moment := by
  rw [stopMoment_eq, Option.map_eq_none_iff, List.find?_eq_none]
  constructor
  · intro untold moment told
    obtain ⟨n, mem, rfl⟩ := told.exists_mem
    exact untold n mem (stops_noticesAt_iff.2 told)
  · intro untold n _ told
    exact untold n.1 (stops_noticesAt_iff.1 told)

/-- With notices in order of time, the reporter may stop at the first moment at which it is told
to. -/
theorem stopMoment_eq_some_iff {history : History} (sorted : history.Sorted) {moment : Nat} :
    stopMoment history = some moment ↔ First (ToldToStop history) moment := by
  have first : ∀ {moment}, stopMoment history = some moment →
      First (ToldToStop history) moment := by
    intro moment stop
    refine ⟨toldToStop_of_stopMoment stop, fun earlier lt told => ?_⟩
    rw [stopMoment_eq] at stop
    obtain ⟨n, found, rfl⟩ := Option.map_eq_some_iff.1 stop
    obtain ⟨-, before, after, rfl, untold⟩ := List.find?_eq_some_iff_append.1 found
    obtain ⟨m, mem, rfl⟩ := told.exists_mem
    rcases List.mem_append.1 mem with mem | mem
    · exact absurd (stops_noticesAt_iff.2 told) (by simpa using untold m mem)
    · have later : n.1 ≤ m.1 := by
        rcases List.mem_cons.1 mem with rfl | mem
        · exact Nat.le_refl _
        · exact (List.pairwise_cons.1 (List.pairwise_append.1 sorted).2.1).1 m mem
      omega
  refine ⟨first, fun own => ?_⟩
  cases stop : stopMoment history with
  | none => exact absurd own.1 (stopMoment_eq_none_iff.1 stop moment)
  | some s => rw [(first stop).unique own]

/-- The reporter may not have stopped by a moment just when it has not been told to. -/
theorem untold_iff {history : History} (sorted : history.Sorted) {moment : Nat} :
    (∀ s, stopMoment history = some s → moment < s) ↔
      ∀ earlier ≤ moment, ¬ToldToStop history earlier := by
  cases stop : stopMoment history with
  | none => simp [stopMoment_eq_none_iff.1 stop]
  | some s =>
      obtain ⟨told, untold⟩ := (stopMoment_eq_some_iff sorted).1 stop
      constructor
      · intro before earlier le
        exact untold earlier (Nat.lt_of_le_of_lt le (before s rfl))
      · rintro none _ ⟨⟩
        exact Nat.lt_of_not_le fun le => none s le told

/-- A history in which all but its last notice, a signal of the end, are quiet tells the reporter to
stop at the moment of that signal and at no other. -/
theorem toldToStop_of_signal {history : History} (quiet : ∀ n ∈ history, n.2.Quiet)
    (finished moment : Nat) :
    ToldToStop (history ++ [(finished, .signal true)]) moment ↔ moment = finished := by
  have silent : ∀ n ∈ noticesAt history moment, n.Quiet := by
    intro n mem
    obtain ⟨entry, own, rfl⟩ := List.mem_map.1 mem
    exact quiet entry (List.mem_filter.1 own).1
  have unsignalled : (noticesAt history moment).filterMap Notice.signal? = [] :=
    List.filterMap_eq_nil_iff.2 fun n mem => (silent n mem).signal?_eq_none
  have split : noticesAt (history ++ [(finished, .signal true)]) moment =
      noticesAt history moment ++ if finished = moment then [.signal true] else [] := by
    unfold noticesAt
    rw [List.filter_append, List.map_append]
    by_cases same : finished = moment <;> simp [same]
  have unabandoned : .abandoned ∉ noticesAt history moment := fun mem =>
    (silent _ mem).1 rfl
  unfold ToldToStop
  rw [split, List.filterMap_append, unsignalled]
  by_cases same : finished = moment
  · simp [same, Notice.signal?]
  · simp [same, unabandoned, Ne.symm same]

/-- A signal at the end of a history is what lets its reporter stop. -/
theorem stopMoment_of_signal {history : History} (quiet : ∀ n ∈ history, n.2.Quiet) (finished : Nat) :
    stopMoment (history ++ [(finished, .signal true)]) = some finished := by
  have told := toldToStop_of_signal quiet finished
  cases stop : stopMoment (history ++ [(finished, .signal true)]) with
  | none => exact absurd ((told finished).2 rfl) (stopMoment_eq_none_iff.1 stop finished)
  | some s => rw [(told s).1 (toldToStop_of_stopMoment stop)]

/-! ## The ticks -/

variable {interval : Duration}

theorem tickMoment_mono {i j : Nat} (le : i ≤ j) : tickMoment interval i ≤ tickMoment interval j :=
  Nat.div_le_div_right (Nat.add_le_add_right (Nat.mul_le_mul_right _ le) _)

/-- The ticks of an interval of whole milliseconds come at its multiples. -/
theorem tickMoment_of_millis {p : Nat} (whole : interval.toNanos = p * 1000000) (tick : Nat) :
    tickMoment interval tick = tick * p := by
  unfold tickMoment
  rw [whole, ← Nat.mul_assoc]
  omega

/-- The tick after as many as fit before a moment comes later than the moment. -/
theorem lt_tickMoment (positive : 0 < interval.toNanos) (last : Nat) :
    last < tickMoment interval (last * 1000000 / interval.toNanos + 1) := by
  have beyond : last * 1000000 < (last * 1000000 / interval.toNanos + 1) * interval.toNanos := by
    rw [Nat.mul_comm (_ + 1)]
    exact Nat.lt_mul_div_succ _ positive
  unfold tickMoment
  omega

namespace Reporter

/-- The reporter has nothing to say at a moment, and may have stopped, if it has been told to stop by
then or the moment is past the last one. -/
theorem ending?_eq_none_iff {stop : Option Nat} {last moment : Nat} :
    ending? stop last moment = none ↔ moment ≤ last ∧ ∀ s, stop = some s → moment < s := by
  unfold ending?
  cases stop with
  | none => simp
  | some s =>
      by_cases reached : s ≤ moment
      · simp [reached]
      · simp [reached]
        omega

theorem ending?_eq_some {stop stopped : Option Nat} {last moment : Nat}
    (ends : ending? stop last moment = some stopped) :
    (∃ s, stop = some s ∧ stopped = some s ∧ s ≤ moment ∧ s ≤ last) ∨
      stopped = none ∧ last < moment ∧ ∀ s, stop = some s → last < s := by
  unfold ending? at ends
  cases stop with
  | none =>
      by_cases late : last < moment
      · simp [late] at ends
        simp [← ends, late]
      · simp [late] at ends
  | some s =>
      by_cases reached : s ≤ moment
      · by_cases early : s ≤ last
        · simp [reached, early] at ends
          simp [← ends, reached, early]
        · simp [reached, early] at ends
          simp [← ends]
          omega
      · by_cases late : last < moment
        · simp [reached, late] at ends
          simp [← ends]
          omega
        · simp [reached, late] at ends

/-- What a reporter says of a sample at some moment. -/
def linesAt (r : Reporter) (history : History) (moment : Nat) (previous : Option UInt64) :
    List (Nat × Event) :=
  ((r.sampleAt history moment previous).events r.total).map fun e => (moment, e)

/-- What a reporter that reports at each tick has counted at the tick before this one. -/
def previous (r : Reporter) (history : History) (tick : Nat) : Option UInt64 :=
  if tick = 1 then none
  else some (r.start.before history (tickMoment r.interval (tick - 1))).processed

/-- What a reporter says at one of its ticks. -/
def lines (r : Reporter) (history : History) (tick : Nat) : List (Nat × Event) :=
  r.linesAt history (tickMoment r.interval tick) (r.previous history tick)

/-- At a moment the reporter sees that all keys are processed. -/
def SeesAll (r : Reporter) (history : History) (moment : Nat) : Prop :=
  r.total ≤ (r.start.before history moment).processed

/-- One of the ticks comes at a moment, and sees that all keys are processed. -/
def FullTick (r : Reporter) (history : History) (moment : Nat) : Prop :=
  ∃ tick, 1 ≤ tick ∧ tickMoment r.interval tick = moment ∧ r.SeesAll history moment

/-- No tick before this one has seen all keys processed. -/
def UnfullBefore (r : Reporter) (history : History) (tick : Nat) : Prop :=
  ∀ earlier, 1 ≤ earlier → earlier < tick → ¬r.SeesAll history (tickMoment r.interval earlier)

/-- The last tick that a reporter can need. -/
def lastTick (r : Reporter) (last : Nat) : Nat := last * 1000000 / r.interval.toNanos + 1

variable {r : Reporter} {history : History} {stop stopped : Option Nat} {last tick fuel moment : Nat}
  {before : Option UInt64}

/-! ## One tick -/

theorem reportFrom_of_ending (ends : ending? stop last (tickMoment r.interval tick) = some stopped) :
    r.reportFrom history stop last (fuel + 1) tick before = ⟨[], stopped⟩ := by
  simp only [reportFrom, ends]

theorem reportFrom_of_full (goes : ending? stop last (tickMoment r.interval tick) = none)
    (full : r.SeesAll history (tickMoment r.interval tick)) :
    r.reportFrom history stop last (fuel + 1) tick before =
      ⟨r.linesAt history (tickMoment r.interval tick) before, some (tickMoment r.interval tick)⟩ := by
  simp only [reportFrom, goes]
  exact if_pos full

theorem reportFrom_of_unfull (goes : ending? stop last (tickMoment r.interval tick) = none)
    (unfull : ¬r.SeesAll history (tickMoment r.interval tick)) :
    let counters := r.start.before history (tickMoment r.interval tick)
    let rest := r.reportFrom history stop last fuel (tick + 1) (some counters.processed)
    r.reportFrom history stop last (fuel + 1) tick before =
      ⟨r.linesAt history (tickMoment r.interval tick) before ++ rest.events, rest.stopped⟩ := by
  simp only [reportFrom, goes]
  exact if_neg unfull

namespace UnfullBefore

theorem first : r.UnfullBefore history 1 := fun _ counted lt =>
  absurd lt (Nat.not_lt_of_le counted)

theorem succ (unfull : r.UnfullBefore history tick)
    (own : ¬r.SeesAll history (tickMoment r.interval tick)) : r.UnfullBefore history (tick + 1) := by
  intro earlier counted lt
  rcases Nat.lt_succ_iff_lt_or_eq.1 lt with lt | rfl
  · exact unfull earlier counted lt
  · exact own

/-- Where no tick before this one has seen all keys processed, none that comes earlier has. -/
theorem not_fullTick (unfull : r.UnfullBefore history tick)
    (early : moment < tickMoment r.interval tick) : ¬r.FullTick history moment := by
  rintro ⟨i, counted, rfl, full⟩
  have before : i < tick :=
    Nat.lt_of_not_le fun le => Nat.not_lt_of_le (tickMoment_mono le) early
  exact unfull i counted before full

end UnfullBefore

/-- A tick that comes early enough to be reported is not the last one. -/
theorem ne_lastTick (positive : 0 < r.interval.toNanos) (within : tickMoment r.interval tick ≤ last) :
    tick ≠ r.lastTick last := by
  rintro rfl
  exact Nat.not_lt_of_le within (lt_tickMoment positive last)

/-! ## All ticks -/

section Reporting

variable (positive : 0 < r.interval.toNanos)

include positive

/-- A reporter that has enough ticks left stops at the first moment that is the one of `stop` or that
of a tick that sees all keys processed. -/
theorem reportFrom_stopped_iff (counted : 1 ≤ tick) (ahead : tick ≤ r.lastTick last)
    (enough : r.lastTick last < fuel + tick) (unfull : r.UnfullBefore history tick) :
    (r.reportFrom history stop last fuel tick before).stopped = some moment ↔
      moment ≤ last ∧ First (fun t => stop = some t ∨ r.FullTick history t) moment := by
  induction fuel generalizing tick before with
  | zero => omega
  | succ fuel ih =>
      cases ends : ending? stop last (tickMoment r.interval tick) with
      | some stopped =>
          rw [reportFrom_of_ending ends]
          rcases ending?_eq_some ends with ⟨s, rfl, rfl, reached, within⟩ | ⟨rfl, late, untold⟩
          · refine First.eq_some_iff within ⟨.inl rfl, ?_⟩
            rintro earlier lt (same | full)
            · exact absurd lt (Option.some.inj same ▸ Nat.lt_irrefl _)
            · exact unfull.not_fullTick (Nat.lt_of_lt_of_le lt reached) full
          · simp only [reduceCtorEq, false_iff, not_and]
            rintro le ⟨told | full, -⟩
            · exact Nat.not_lt_of_le le (untold moment told)
            · exact unfull.not_fullTick (Nat.lt_of_le_of_lt le late) full
      | none =>
          obtain ⟨within, untold⟩ := ending?_eq_none_iff.1 ends
          by_cases full : r.SeesAll history (tickMoment r.interval tick)
          · rw [reportFrom_of_full ends full]
            refine First.eq_some_iff within ⟨.inr ⟨tick, counted, rfl, full⟩, ?_⟩
            rintro earlier lt (told | full)
            · exact Nat.lt_asymm lt (untold earlier told)
            · exact unfull.not_fullTick lt full
          · rw [reportFrom_of_unfull ends full]
            have later := ne_lastTick positive within
            exact ih (by omega) (by omega) (by omega) (unfull.succ full)

/-- With notices in order of time, a reporter stops at the first moment at which it is told to, or at
which one of its ticks sees all keys processed. -/
theorem report_stopped_iff (sorted : history.Sorted) :
    (r.report history last).stopped = some moment ↔
      moment ≤ last ∧ First (fun t => ToldToStop history t ∨ r.FullTick history t) moment := by
  unfold report
  rw [reportFrom_stopped_iff positive (Nat.le_refl 1) (Nat.succ_pos _)
    (by unfold lastTick; omega) .first]
  refine and_congr_right fun _ => ?_
  cases stop : stopMoment history with
  | none => simp [stopMoment_eq_none_iff.1 stop]
  | some s =>
      obtain ⟨told, untold⟩ := (stopMoment_eq_some_iff sorted).1 stop
      constructor
      · rintro ⟨own, none⟩
        refine ⟨own.imp_left fun same => ?_, fun earlier lt => ?_⟩
        · cases same
          exact told
        · rintro (told' | full)
          · have le : s ≤ earlier := Nat.le_of_not_lt fun lt => untold earlier lt told'
            exact none s (Nat.lt_of_le_of_lt le lt) (.inl rfl)
          · exact none earlier lt (.inr full)
      · rintro ⟨own, none⟩
        have le : moment ≤ s := Nat.le_of_not_lt fun lt => none s lt (.inl told)
        refine ⟨own.imp_left fun told' => ?_, fun earlier lt => ?_⟩
        · rw [Nat.le_antisymm le (Nat.le_of_not_lt fun lt => untold moment lt told')]
        · rintro (same | full)
          · cases same
            exact none _ lt (.inl told)
          · exact none earlier lt (.inr full)

/-- A reporter stops no later than it may. -/
theorem stopped_of_stopMoment {s : Nat} (stop : stopMoment history = some s) (le : s ≤ last) :
    ∃ t ≤ s, (r.report history last).stopped = some t := by
  obtain ⟨t, early, first⟩ := exists_first
    (p := fun t => stopMoment history = some t ∨ r.FullTick history t) (.inl stop)
  refine ⟨t, early, ?_⟩
  exact (reportFrom_stopped_iff positive (Nat.le_refl 1) (Nat.succ_pos _)
    (by unfold lastTick; omega) .first).2 ⟨Nat.le_trans early le, first⟩

/-- At a tick up to the last moment a reporter reports, unless it has been told to stop by then or an
earlier tick has seen all keys processed. -/
def ReportsAt (r : Reporter) (history : History) (last tick : Nat) : Prop :=
  tickMoment r.interval tick ≤ last ∧
    (∀ moment ≤ tickMoment r.interval tick, ¬ToldToStop history moment) ∧
    r.UnfullBefore history tick

variable (sorted : history.Sorted) {n : Nat}
  (reports : ∀ i, 1 ≤ i → (i ≤ n ↔ r.ReportsAt history last i))

include sorted reports

/-- A reporter that has enough ticks left says at each of them what it says at that tick. -/
theorem reportFrom_events (counted : 1 ≤ tick) (next : tick ≤ n + 1) (ahead : tick ≤ r.lastTick last)
    (enough : r.lastTick last < fuel + tick) (unfull : r.UnfullBefore history tick) :
    (r.reportFrom history (stopMoment history) last fuel tick (r.previous history tick)).events =
      (List.range' tick (n + 1 - tick)).flatMap (r.lines history) := by
  induction fuel generalizing tick with
  | zero => omega
  | succ fuel ih =>
      cases ends : ending? (stopMoment history) last (tickMoment r.interval tick) with
      | some stopped =>
          rw [reportFrom_of_ending ends]
          have silent : ¬r.ReportsAt history last tick := fun own => by
            rw [ending?_eq_none_iff.2 ⟨own.1, (untold_iff sorted).2 own.2.1⟩] at ends
            cases ends
          have past := mt (reports tick counted).1 silent
          have none : n + 1 - tick = 0 := by omega
          rw [none]
          rfl
      | none =>
          obtain ⟨within, untold⟩ := ending?_eq_none_iff.1 ends
          have own := (reports tick counted).2 ⟨within, (untold_iff sorted).1 untold, unfull⟩
          by_cases full : r.SeesAll history (tickMoment r.interval tick)
          · rw [reportFrom_of_full ends full]
            have silent : ¬r.ReportsAt history last (tick + 1) := fun next =>
              next.2.2 tick counted (Nat.lt_succ_self _) full
            have past := mt (reports (tick + 1) (Nat.succ_pos _)).1 silent
            have one : n + 1 - tick = 1 := by omega
            rw [one, List.range'_one, List.flatMap_singleton]
            rfl
          · rw [reportFrom_of_unfull ends full]
            have later := ne_lastTick positive within
            have counters : r.previous history (tick + 1) =
                some (r.start.before history (tickMoment r.interval tick)).processed :=
              if_neg (by omega)
            have split : n + 1 - tick = n + 1 - (tick + 1) + 1 := by omega
            rw [split, List.range'_succ, List.flatMap_cons,
              ← ih (by omega) (by omega) (by omega) (by omega) (unfull.succ full), counters]
            rfl

/-- A reporter says at each tick at which it reports what it says at that tick, and nothing else. -/
theorem report_events : (r.report history last).events = (List.range' 1 n).flatMap (r.lines history) :=
  reportFrom_events positive sorted reports (Nat.le_refl 1) (Nat.succ_pos _) (Nat.succ_pos _)
    (by unfold lastTick; omega) .first

end Reporting

end Reporter

end ReplicaDiff.Progress
