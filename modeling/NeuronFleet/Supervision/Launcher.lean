import NeuronFleet.Supervision.Pool

/-
  Launching a pool with a launcher of any kind.

  A launcher starts worker processes one at a time and keeps a state of
  its own: a table of scripted failures, the file tree it writes each
  worker's configuration into, a log of the calls it was given.  The
  supervisor calls it for each identity in order, with the identity's
  index; a worker it starts joins the pool, fresh, and is counted as
  spawned and active.  The first launch that fails ends the launch: the
  workers started so far are terminated, the launcher is not called
  again, and the error is a startup failure, kept when it is one and
  otherwise named after the worker.

  Main definitions:
    * `Supervision.WorkerLauncher`, `Supervision.startupError`
    * `Supervision.Pool.spawn`, `Supervision.launchWith`, `Supervision.launchAll`
    * `Supervision.WorkerLauncher.scripted`
-/

namespace NeuronFleet

namespace Supervision

/- A launcher of worker processes with a state of type `σ`: from its
state, launching worker `i` with its identity starts the worker or fails
with an error, and gives the launcher's next state. -/
abbrev WorkerLauncher (σ : Type) := σ → Nat → Identity → σ × Outcome Unit

/- The error a failed launch of worker `i` ends with: a startup failure
as it is, any other error as a startup failure naming the worker. -/
def startupError (i : Nat) : Error → Error
  | .workerStartup t => .workerStartup t
  | other => .workerStartup ("worker-" ++ toString i ++ ": " ++ other.message)

namespace Pool

/- Worker `i`, just started, joins the pool and counts as spawned and
active. -/
def spawn
    (p : Pool)
    (i : Nat)
    (id : Identity) :
    Pool :=
  (({ p with workers := p.workers ++ [Worker.new i id] } : Pool).note (.bump .workersSpawned 1)).note
    (.shiftActive 1)

end Pool

variable {σ : Type}

/- Launches the numbered identities `L` into `p`, one after another,
stopping at the first launch that fails; gives the launcher's state
after its last call, and the pool, or the error with the pool after
the workers started were terminated. -/
def launchWith (start : WorkerLauncher σ) :
    List (Identity × Nat) → σ → Pool → σ × Except (Error × Pool) Pool
  | [], s, p => (s, .ok p)
  | (id, i) :: rest, s, p =>
    match start s i id with
    | (s', .ok ()) => launchWith start rest s' (p.spawn i id)
    | (s', .error e) => (s', .error (startupError i e, p.terminateAll none))

/- Launches one worker per identity into an empty pool that runs until
`limit`, with `timeline` ordered by time. -/
def launchAll
    (start : WorkerLauncher σ)
    (identities : List Identity)
    (s : σ)
    (limit : Nat)
    (timeline : List (Nat × Nat × Happening)) :
    σ × Except (Error × Pool) Pool :=
  launchWith start identities.zipIdx s
    ⟨0, limit, [], timeline.mergeSort fun a b => decide (a.1 ≤ b.1), Metrics.Registry.new⟩

namespace WorkerLauncher

/- A launcher without a state of its own that fails at most once: at
the index `failure` names, with its error. -/
def scripted (failure : Option (Nat × Error)) : WorkerLauncher Unit := fun _ i _ =>
  match failure with
  | some (k, e) => ((), if k = i then .error e else .ok ())
  | none => ((), .ok ())

/- The launcher's state after it was called for the numbered identities
`L`, one after another. -/
def after
    (start : WorkerLauncher σ)
    (s : σ)
    (L : List (Identity × Nat)) :
    σ :=
  L.foldl (fun s x => (start s x.2 x.1).1) s

end WorkerLauncher

end Supervision

end NeuronFleet
