/-
# ReplicaDiff.Progress — reports at regular moments

A reporter reads the counters of a run at every multiple of its interval and
reports how many keys are processed.  It stops by itself when all are, and
otherwise when it is told that the run has finished or when nobody is left to
tell it.

What happens around it is a history of notices.  A reading at some moment sees
the notices of every earlier moment.

Moments have no end here.  Where a clock cannot hold the first tick of an interval,
of 2 ^ 63 seconds or so, the reporter is given up with a warning instead, which is
left out: that tick comes later than any run lasts.
-/
import ReplicaDiff.Decimal.Whole
import ReplicaDiff.Event
import ReplicaDiff.Progress.Sample

namespace ReplicaDiff.Progress

set_option autoImplicit false

/-- What a reporter can notice. -/
inductive Notice where
  /-- Keys have been processed. -/
  | processed (count : UInt64)
  /-- Keys could not be checked. -/
  | unchecked (count : UInt64)
  /-- The reporter is told whether the run has finished. -/
  | signal (finished : Bool)
  /-- Nobody is left to tell the reporter anything. -/
  | abandoned
deriving DecidableEq

/-- The notices of a run with the milliseconds at which they came, in order. -/
abbrev History := List (Nat × Notice)

/-- The counters of a run. -/
structure Counters where
  processed : UInt64
  errors : UInt64
deriving DecidableEq, Inhabited

/-- The counters after one more notice. -/
def Counters.add (c : Counters) : Notice → Counters
  | .processed count => { c with processed := c.processed + count }
  | .unchecked count => { c with errors := c.errors + count }
  | .signal _ => c
  | .abandoned => c

/-- The counters as they stand before some moment. -/
def Counters.before (start : Counters) (history : History) (moment : Nat) : Counters :=
  ((history.takeWhile fun n => n.1 < moment).map (·.2)).foldl Counters.add start

/-- What the notices of one moment come to: the last signal counts, unless the reporter has been
abandoned. -/
def stops (finished : Bool) : List Notice → Bool
  | [] => finished
  | .signal said :: rest => stops said rest
  | .abandoned :: _ => true
  | _ :: rest => stops finished rest

/-- The first moment at which a history lets the reporter stop. -/
def stopMoment (history : History) : Option Nat :=
  (history.find? fun n => stops false ((history.filter fun m => m.1 = n.1).map (·.2))).map (·.1)

/-- The moment of the tick with a given number; the clock shows whole milliseconds. -/
def tickMoment (interval : Duration) (tick : Nat) : Nat :=
  (tick * interval.toNanos + 999999) / 1000000

/-- What is reported of a sample. -/
def Sample.events (s : Sample) (total : UInt64) : List Event :=
  .progressed s.processed total (s.rate.map Decimal.wholeText) ::
    if s.errors = 0 then [] else [.keysSkipped s.errors]

/-- A reporter: the number of keys of the run, its interval, and the counters at the start. -/
structure Reporter where
  total : UInt64
  interval : Duration
  start : Counters

/-- What a reporter has said, and when it stopped, if it has. -/
structure Report where
  events : List (Nat × Event)
  stopped : Option Nat

namespace Reporter

/-- Whether a reporter says nothing more from some moment on, and if so, when it stopped: `stop`
is the moment at which it may, and `last` the moment up to which it is watched. -/
def ending? (stop : Option Nat) (last moment : Nat) : Option (Option Nat) :=
  match stop with
  | some stop =>
      if stop ≤ moment then some (if stop ≤ last then some stop else none)
      else if last < moment then some none
      else none
  | none => if last < moment then some none else none

/-- The sample that is taken at some moment. -/
def sampleAt (r : Reporter) (history : History) (moment : Nat) (previous : Option UInt64) :
    Sample :=
  let counters := r.start.before history moment
  Sample.ofReading counters.processed counters.errors previous r.interval

/-- Report from one tick on, up to the moment `last` and while `stop` has not come; `fuel` exceeds
the number of ticks left. -/
def reportFrom (r : Reporter) (history : History) (stop : Option Nat) (last : Nat) :
    Nat → Nat → Option UInt64 → Report
  | 0, _, _ => ⟨[], none⟩
  | fuel + 1, tick, previous =>
      let moment := tickMoment r.interval tick
      match ending? stop last moment with
      | some stopped => ⟨[], stopped⟩
      | none =>
          let sample := r.sampleAt history moment previous
          let said := (sample.events r.total).map fun e => (moment, e)
          if r.total ≤ sample.processed then ⟨said, some moment⟩
          else
            let rest := reportFrom r history stop last fuel (tick + 1) (some sample.processed)
            { rest with events := said ++ rest.events }

/-- Report up to and at the moment `last`. -/
def report (r : Reporter) (history : History) (last : Nat) : Report :=
  r.reportFrom history (stopMoment history) last (last * 1000000 / r.interval.toNanos + 2) 1 none

end Reporter

end ReplicaDiff.Progress
