import NeuronFleet.Number.Reading
import NeuronFleet.Number.Layout

/-
  The fleet's metrics and their text exposition.

  The registry counts workers spawned, completed, faulted and
  terminated, local steps taken and failed, publications made and
  failed; it gauges the workers alive and the best loss; and it keeps a
  histogram of publication durations over fixed bounds from a
  millisecond to thirty seconds.  Counters are 64-bit and wrap, the
  workers alive are a signed 64-bit gauge.

  The exposition lists every metric in the order of its name: a `HELP`
  line, a `TYPE` line and its samples.  Every sample value is written as
  a double with all its digits and no exponent; a histogram writes, per
  bound, the observations at most that bound, then all observations
  under `+Inf`, their sum and their count.

  Main definitions:
    * `Metrics.Histogram`, `Metrics.Counter`, `Metrics.Registry`
    * `Metrics.Update`, `Metrics.Registry.apply`, `Metrics.Registry.gather`
-/

namespace NeuronFleet

namespace Metrics

------------------------------------------------------------
-- Histograms
------------------------------------------------------------

/- Observations counted against ascending upper bounds. -/
structure Histogram where
  bounds : List F64
  -- per bound, the observations at most that bound
  atMost : List Nat
  count : Nat
  sum : F64

namespace Histogram

/- A histogram without observations. -/
def empty (bounds : List F64) : Histogram := ⟨bounds, bounds.map fun _ => 0, 0, 0⟩

/- Counts an observation; a NaN is at most no bound. -/
def observe
    (h : Histogram)
    (x : F64) :
    Histogram :=
  { h with atMost := List.zipWith (fun b n => if F64.le x b then n + 1 else n) h.bounds h.atMost
           count := h.count + 1, sum := h.sum + x }

end Histogram

/- The bounds of publication durations, in seconds. -/
def durationBounds : List F64 :=
  [F64.ofDecimal false 1 (-3), F64.ofDecimal false 5 (-3), F64.ofDecimal false 1 (-2),
   F64.ofDecimal false 5 (-2), F64.ofDecimal false 1 (-1), F64.ofDecimal false 5 (-1),
   F64.ofNat 1, F64.ofNat 5, F64.ofNat 12, F64.ofNat 30]

------------------------------------------------------------
-- The registry
------------------------------------------------------------

/- The counters of the registry. -/
inductive Counter where
  | workersSpawned
  | workersCompleted
  | workerFaults
  | workersTerminated
  | localSteps
  | stepFailures
  | publishes
  | publishFailures
  deriving DecidableEq, Repr

/- The name a counter is exposed under. -/
def Counter.name : Counter → String
  | .workersSpawned => "supervisor_workers_spawned_total"
  | .workersCompleted => "supervisor_workers_completed_total"
  | .workerFaults => "supervisor_worker_faults_total"
  | .workersTerminated => "supervisor_workers_terminated_total"
  | .localSteps => "sync_local_steps_total"
  | .stepFailures => "sync_step_failures_total"
  | .publishes => "sync_publishes_total"
  | .publishFailures => "sync_publish_failures_total"

/- What a counter counts. -/
def Counter.help : Counter → String
  | .workersSpawned => "Total number of worker processes spawned"
  | .workersCompleted => "Total number of worker processes that exited cleanly"
  | .workerFaults => "Total number of worker faults observed"
  | .workersTerminated => "Total number of workers terminated during fault escalation"
  | .localSteps => "Total number of successful local steps"
  | .stepFailures => "Total number of local steps that failed and were skipped"
  | .publishes => "Total number of completed publish/pull cycles"
  | .publishFailures => "Total number of failed publish/pull attempts"

/- Every counter. -/
def Counter.all : List Counter :=
  [.workersSpawned, .workersCompleted, .workerFaults, .workersTerminated, .localSteps, .stepFailures,
   .publishes, .publishFailures]

/- The registry's metrics. -/
structure Registry where
  counts : Counter → UInt64
  -- workers alive and supervised
  active : Int64
  bestLoss : F64
  publishDuration : Histogram

/- A change to the registry. -/
inductive Update where
  | bump (c : Counter) (amount : UInt64)
  | shiftActive (amount : Int64)
  | setBestLoss (x : F64)
  | observeDuration (seconds : F64)

namespace Registry

/- A registry with every metric at zero. -/
def new : Registry := ⟨fun _ => 0, 0, 0, Histogram.empty durationBounds⟩

/- Applies a change. -/
def apply (r : Registry) : Update → Registry
  | .bump c k => { r with counts := fun d => if d = c then r.counts d + k else r.counts d }
  | .shiftActive k => { r with active := r.active + k }
  | .setBestLoss x => { r with bestLoss := x }
  | .observeDuration x => { r with publishDuration := r.publishDuration.observe x }

/- A sample value as the exposition writes it. -/
def number (x : F64) : String := Decimal.displayLayout.writeF64 x

/- The text of one metric: its help, its type and its sample lines. -/
def family
    (name help kind : String)
    (samples : List String) :
    String :=
  "# HELP " ++ name ++ " " ++ help ++ "\n# TYPE " ++ name ++ " " ++ kind ++ "\n" ++
    String.join (samples.map (· ++ "\n"))

/- A counter's text. -/
def counter
    (r : Registry)
    (c : Counter) :
    String :=
  family c.name c.help "counter" [c.name ++ " " ++ number (F64.ofNat (r.counts c).toNat)]

/- The histogram's sample lines. -/
def histogramLines
    (name : String)
    (h : Histogram) :
    List String :=
  List.zipWith (fun b n => name ++ "_bucket\x7ble=\"" ++ number b ++ "\"\x7d " ++ number (F64.ofNat n))
      h.bounds h.atMost ++
    [name ++ "_bucket\x7ble=\"+Inf\"\x7d " ++ number (F64.ofNat h.count),
     name ++ "_sum " ++ number h.sum, name ++ "_count " ++ number (F64.ofNat h.count)]

/- The exposition of every metric, in the order of their names. -/
def gather (r : Registry) : String :=
  String.join
    [r.counter .workerFaults,
     family "supervisor_workers_active" "Current number of supervised worker processes" "gauge"
       ["supervisor_workers_active " ++ number (F64.ofInt r.active.toInt)],
     r.counter .workersCompleted, r.counter .workersSpawned, r.counter .workersTerminated,
     family "sync_best_loss" "Best local loss seen so far" "gauge" ["sync_best_loss " ++ number r.bestLoss],
     r.counter .localSteps,
     family "sync_publish_duration_seconds" "Publish/pull cycle duration in seconds" "histogram"
       (histogramLines "sync_publish_duration_seconds" r.publishDuration),
     r.counter .publishFailures, r.counter .publishes, r.counter .stepFailures]

end Registry

end Metrics

end NeuronFleet
