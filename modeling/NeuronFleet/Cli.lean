import NeuronFleet.Workers

/-
  The fleet program.

  With the argument `--internal-worker` anywhere, the program is a
  worker process (see `FileTree.runWorker`).  Otherwise it supervises:
  it loads the configuration file its environment names, splits it into
  one configuration per identity, checks the device, exports the shared
  parameter table, and then serves the one identity in place, or, with
  shared keys, runs one worker process per identity under supervision.
  It exits with 0 when that succeeds and with 1 after printing the error
  that ended it.

  An error is printed as `Error: `, its message, and its causes under
  `Caused by:`, numbered when there are several.

  Main definitions:
    * `Error.report`, `Invocation`, `workerFlag`
    * `supervisorMain`, `runProgram`
-/

namespace NeuronFleet

/- An error as the program prints it: the message, then its causes. -/
def Error.report (e : Error) : String :=
  match e.causes with
  | [] => e.message
  | [c] => e.message ++ "\n\nCaused by:\n    " ++ c
  | cs => e.message ++ "\n\nCaused by:" ++
      String.join (cs.zipIdx.map fun (c, i) => "\n    " ++ toString i ++ ": " ++ c)

/- What the program is started with, beside its files. -/
structure Invocation where
  args : List String
  host : Host
  -- the id of a supervised run
  runId : String

/- The argument that makes the program a worker process. -/
def workerFlag : String := "--internal-worker"

/- The end of a program that failed with `e`. -/
def Exit.failure (e : Error) : Exit := ⟨some 1, [], some ("Error: " ++ e.report)⟩

/- The end of a program that succeeded. -/
def Exit.success : Exit := ⟨some 0, [], none⟩

/- The program as a supervisor. -/
def supervisorMain
    (inv : Invocation)
    (t : FileTree) :
    FileTree × Exit :=
  let h := inv.host
  match t.loadConfig (configPath h.env) h.env with
  | .error .abort => (t, ⟨some panicCode, [], none⟩)
  | .error (.error e) => (t, Exit.failure e)
  | .ok config =>
    let prepared : Outcome (List FleetConfig × FileTree) := do
      let configs ← config.fanOut
      let _ ← Device.parse config.neuron.device
      let t ← t.ensureParameters config (toString h.pid)
      return (configs, t)
    match prepared with
    | .error e => (t, Exit.failure e)
    | .ok (configs, t) =>
      if config.isShared then
        match t.superviseIn config configs (Config.joinPath config.runDir inv.runId) true h with
        | (t, .error e) | (t, .ok (.launchFailed e)) | (t, .ok (.finished (.error e))) => (t, Exit.failure e)
        | (t, .ok (.finished (.ok _))) => (t, Exit.success)
        | (t, .ok .running) => (t, ⟨none, [], none⟩)
      else
        let (t, serving) := t.serve config (h.trialIds 0) (toString h.pid) h.budget
        match serving with
        | .finished _ => (t, Exit.success)
        | .failed e => (t, Exit.failure e)
        | .ongoing => (t, ⟨none, [], none⟩)

/- Runs the program on the tree. -/
def runProgram
    (inv : Invocation)
    (t : FileTree) :
    FileTree × Exit :=
  if inv.args.contains workerFlag then
    t.runWorker inv.host
  else supervisorMain inv t

end NeuronFleet
