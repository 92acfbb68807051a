import NeuronFleet.Supervision.Slot
import NeuronFleet.Metrics
import NeuronFleet.Identity
import NeuronFleet.Error

/-
  Supervising a pool of worker processes, in virtual time.

  Each worker is a process with a report channel.  What happens to the
  processes is a timeline: a report is written, a process exits (with a
  code, or by a signal without one), a process closes its report
  stream, or reading a process's status starts to fail.

  Launching starts one worker per identity; a launch that fails kills
  the workers started so far.  Running polls every `poll` milliseconds,
  on ticks at multiples of it (a late tick fires at once).  A tick
  checks every worker not yet reaped, in order:
    * a fault already reported ends the run with the worker's trace;
    * a status that cannot be read ends the run with that I/O error;
    * a worker still running is left alone;
    * an exited worker is given up to `settle` milliseconds to finish
      its reports; a fault among them ends the run;
    * a clean exit reaps the worker;
    * otherwise, `lag` milliseconds later, the supervisor reads the
      worker's reports once more to learn whether it started: an exit
      before a start is a startup failure, any other exit a crash with
      a trace of its own.  A fault read only then is kept by the slot
      but does not decide the error.
  The run ends well when every worker is reaped.  When a check ends the
  run, the other workers not yet reaped are terminated: killed, unless
  the supervisor saw them exit already.  Virtual time never passes a
  limit: a run still going there halts.

  Main definitions:
    * `Supervision.ExitInfo`, `Supervision.Happening`, `Supervision.Worker`
    * `Supervision.Pool`, `Supervision.Timed`, `Supervision.launch`
    * `Supervision.settle`, `Supervision.check`, `Supervision.run`,
      `Supervision.runOn`
-/

namespace NeuronFleet

namespace Supervision

------------------------------------------------------------
-- Workers
------------------------------------------------------------

/- How a process ended: its exit code, none after a signal, and how
the system describes the end. -/
structure ExitInfo where
  code : Option Int
  description : String
  deriving Repr, DecidableEq

/- Whether the process exited with code 0. -/
def ExitInfo.success (e : ExitInfo) : Bool := e.code == some 0

/- The end of a process killed by the supervisor. -/
def ExitInfo.killed : ExitInfo := ⟨none, "signal: 9 (SIGKILL)"⟩

/- Something that happens to a worker process. -/
inductive Happening where
  | report (r : Report)
  | exit (info : ExitInfo)
  | close
  -- reading the process's status fails from now on, with this cause
  | waitFails (cause : String)

/- A supervised worker process. -/
structure Worker where
  index : Nat
  identity : Identity
  slot : Slot
  -- how the process ended, once it has
  status : Option ExitInfo
  -- why reading the status fails, once it does
  waitError : Option String
  killed : Bool
  -- the end the supervisor has seen, kept once seen
  exit : Option ExitInfo
  reaped : Bool

namespace Worker

/- A worker just started. -/
def new
    (index : Nat)
    (identity : Identity) :
    Worker :=
  ⟨index, identity, Slot.new, none, none, false, none, false⟩

/- `worker-N (identity)`. -/
def name (w : Worker) : String := "worker-" ++ toString w.index ++ " (" ++ w.identity.display ++ ")"

/- What a happening does to the worker. -/
def happen (w : Worker) : Happening → Worker
  | .report r => { w with slot := w.slot.send r }
  | .exit info => { w with status := some info }
  | .close => { w with slot := w.slot.close }
  | .waitFails cause => { w with waitError := some cause }

/- The end of the process as the supervisor polls it: the end seen,
kept once seen; until then the process's status, whose reading can
fail. -/
def pollExit (w : Worker) : Outcome (Option ExitInfo) :=
  match w.exit, w.waitError with
  | some info, _ => .ok (some info)
  | none, some cause => .error (.io cause)
  | none, none => .ok w.status

/- Kills the worker unless it is reaped or seen to have exited; a
killed worker is reaped. -/
def terminate (w : Worker) : Worker :=
  if w.reaped || w.exit.isSome then w
  else { w with killed := true, reaped := true, status := w.status.getD ExitInfo.killed }

end Worker

------------------------------------------------------------
-- The pool
------------------------------------------------------------

/- The supervised workers, what is still to happen to them, and the
supervisor's metrics, at a point of virtual time. -/
structure Pool where
  now : Nat
  -- time beyond which nothing runs
  limit : Nat
  workers : List Worker
  -- happenings to come, in time order: when, to which worker, what
  timeline : List (Nat × Nat × Happening)
  metrics : Metrics.Registry

/- A step in virtual time; running into the limit halts with the pool
as it is there. -/
abbrev Timed := StateT Pool (Except Pool)

namespace Pool

/- Worker `i`. -/
def worker
    (p : Pool)
    (i : Nat) :
    Option Worker := p.workers[i]?

/- Changes worker `i`. -/
def change
    (p : Pool)
    (i : Nat)
    (f : Worker → Worker) :
    Pool :=
  { p with workers := p.workers.mapIdx fun j w => if j = i then f w else w }

/- Records a metric update. -/
def note
    (p : Pool)
    (u : Metrics.Update) :
    Pool := { p with metrics := p.metrics.apply u }

/- Lets everything due by `t` happen, in order, and moves time to `t`
when it is later. -/
def advance
    (p : Pool)
    (t : Nat) :
    Pool :=
  let due := p.timeline.filter (·.1 ≤ t)
  let p' := due.foldl (fun q e => q.change e.2.1 (·.happen e.2.2)) p
  { p' with now := max p.now t, timeline := p.timeline.filter (·.1 > t) }

/- When the next happening is due. -/
def nextDue (p : Pool) : Option Nat := p.timeline.head?.map (·.1)

/- Workers not yet reaped. -/
def live (p : Pool) : Nat := (p.workers.filter (!·.reaped)).length

/- Terminates every worker not yet reaped except `except`; each counts
as terminated and leaves the active ones, killed or not. -/
def terminateAll
    (p : Pool)
    (except : Option Nat) :
    Pool :=
  p.workers.foldl (fun q w =>
    if except == some w.index || w.reaped then q
    else ((q.change w.index Worker.terminate).note (.bump .workersTerminated 1)).note (.shiftActive (-1))) p

end Pool

/- Starts one worker per identity; `failure` names the launch that
fails and its error.  A failed launch kills the workers started so far
and is a startup failure. -/
def launch
    (identities : List Identity)
    (failure : Option (Nat × Error))
    (limit : Nat)
    (timeline : List (Nat × Nat × Happening)) :
    Except (Error × Pool) Pool :=
  let sorted := timeline.mergeSort fun a b => decide (a.1 ≤ b.1)
  go identities.zipIdx ⟨0, limit, [], sorted, Metrics.Registry.new⟩
where
  go : List (Identity × Nat) → Pool → Except (Error × Pool) Pool
    | [], p => .ok p
    | (id, i) :: rest, p =>
      match failure with
      | some (k, e) =>
        if k = i then
          let e := match e with
            | .workerStartup _ => e
            | other => .workerStartup ("worker-" ++ toString i ++ ": " ++ other.message)
          .error (e, p.terminateAll none)
        else go rest (((({ p with workers := p.workers ++ [Worker.new i id] } : Pool)).note
          (.bump .workersSpawned 1)).note (.shiftActive 1))
      | none => go rest ((({ p with workers := p.workers ++ [Worker.new i id] } : Pool).note
          (.bump .workersSpawned 1)).note (.shiftActive 1))

------------------------------------------------------------
-- Running
------------------------------------------------------------

/- Moves time to `t`, halting at the limit when `t` lies beyond it. -/
def waitUntil (t : Nat) : Timed Unit := do
  let p ← get
  if t > p.limit then throw (p.advance p.limit) else set (p.advance t)

/- Changes worker `i`. -/
def changeWorker
    (i : Nat)
    (f : Worker → Worker) :
    Timed Unit := modify (·.change i f)

/- Reads worker `i`'s reports without waiting, then gives the worker. -/
def queryWorker (i : Nat) : Timed (Option Worker) := do
  changeWorker i fun w => { w with slot := w.slot.query }
  return (← get).worker i

/- Waits at most `bound` for worker `i`'s fault or the end of its
reports, unless it holds a fault or its reports ended already. -/
def settle (i bound : Nat) : Timed Unit := do
  let p ← get
  match p.worker i with
  | none => pure ()
  | some w =>
    if w.slot.fault.isSome || w.slot.closed then pure ()
    else go (p.now + bound) (w.slot.queue.length + 2 * p.timeline.length + 2)
where
  go (deadline : Nat) : Nat → Timed Unit
    | 0 => pure ()
    | n + 1 => do
      let p ← get
      match p.worker i with
      | none => pure ()
      | some w =>
        match w.slot.queue with
        | r :: rest =>
          let slot := Slot.record { w.slot with queue := rest } r
          changeWorker i fun w => { w with slot }
          if slot.fault.isSome then pure () else go deadline n
        | [] =>
          if !w.slot.sendersLeft then changeWorker i fun w => { w with slot := { w.slot with closed := true } }
          else
            match p.nextDue with
            | some t => if t ≤ deadline then do waitUntil t; go deadline n else waitUntil deadline
            | none => waitUntil deadline

/- A fault as the error ending a run. -/
def escalate
    (w : Worker)
    (trace : String) :
    Error := .childProcess w.name trace

/- Checks worker `i`; gives the error that ends the run, if any.  The
supervisor's own work between the end of the settle and the last read
of the reports takes `lag` milliseconds. -/
def check (settleMs lag i : Nat) : Timed (Option Error) := do
  let some w ← queryWorker i | pure none
  if let some (_, trace) := w.slot.fault then return some (escalate w trace)
  match w.pollExit with
  | .error e => return some e
  | .ok exit =>
    changeWorker i fun w => { w with exit }
    match exit with
    | none => return none
    | some info =>
      settle i settleMs
      let some w := (← get).worker i | pure none
      if let some (_, trace) := w.slot.fault then return some (escalate w trace)
      if info.success then
        changeWorker i fun w => { w with reaped := true }
        modify fun p => (p.note (.bump .workersCompleted 1)).note (.shiftActive (-1))
        return none
      waitUntil ((← get).now + lag)
      let some w ← queryWorker i | pure none
      if !w.slot.started then
        return some (.workerStartup (w.name ++ ": not started and not exited (" ++ info.description ++ ")"))
      return some (escalate w ("worker process terminated with " ++ info.description ++
        " without reporting a fault"))

/- Checks the workers not yet reaped, in order, until one ends the run. -/
def sweep (settleMs lag : Nat) : List Nat → Timed (Option (Nat × Error))
  | [] => pure none
  | i :: rest => do
    match (← get).worker i with
    | some w =>
      if w.reaped then sweep settleMs lag rest
      else
        match ← check settleMs lag i with
        | some e => return some (i, e)
        | none => sweep settleMs lag rest
    | none => sweep settleMs lag rest

/- Polls on ticks at multiples of `pollMs` until every worker is reaped
(giving their number) or a check fails; `pollMs` is positive. -/
def run (pollMs settleMs lag : Nat) : Timed (Outcome Nat) := do
  go 0 ((← get).limit / pollMs + 2)
where
  go (k : Nat) : Nat → Timed (Outcome Nat)
    | 0 => do
      let p ← get
      throw (p.advance p.limit)
    | n + 1 => do
      waitUntil (k * pollMs)
      let p ← get
      match ← sweep settleMs lag (List.range p.workers.length) with
      | some (i, e) =>
        modify fun p => ((p.note (.bump .workerFaults 1)).note (.shiftActive (-1))).terminateAll (some i)
        return .error e
      | none =>
        let p ← get
        if p.live = 0 then return .ok p.workers.length else go (k + 1) n

/- The supervisor's run from the pool `p`: its poll timer needs a
positive interval, and with an interval of 0 the supervisor aborts (a
panic) before its first check.  Otherwise the run, or the pool where it
halts at the limit. -/
def runOn
    (pollMs settleMs lag : Nat)
    (p : Pool) :
    Except Halt (Except Pool (Outcome Nat × Pool)) :=
  if pollMs = 0 then .error .abort else .ok (run pollMs settleMs lag p)

end Supervision

end NeuronFleet
