import NeuronFleet.Workspace
import NeuronFleet.Report.Run
import NeuronFleet.Supervision.Pool

/-
  Worker processes on a tree of files, and a supervised run of them.

  A worker process loads the configuration file its environment names
  and serves it under the report protocol: a `started` report, the run,
  then `completed` or a `fault`.  A configuration that cannot be loaded
  ends the process with code 2 before any report; a load that aborts
  ends it as a panic does, with code 101.

  A supervised run makes its directory, writes each worker's
  configuration there as `worker-N.yaml` and starts a worker process on
  it, without the environment's per-key overrides (they were applied
  before the configuration was split); a launch that fails ends the run.
  The processes then run one after another on the tree, each seeing the
  files the ones before it left, and what each wrote and how it ended
  is the timeline of the supervisor's pool, all of it at the start of
  the run.

  Main definitions:
    * `Exit`, `Host`, `configPath`, `FileTree.runWorker`
    * `Launcher`, `RunEnd`, `FileTree.launchWorkers`, `FileTree.supervise`,
      `FileTree.superviseIn`
-/

namespace NeuronFleet

/- How a process ended, as seen from outside. -/
structure Exit where
  -- the exit code; none while the process still runs
  code : Option Nat
  -- the reports written to standard output
  reports : List Report
  -- the error printed last on standard error, when there is one
  error : Option String

/- Code of a worker whose configuration could not be loaded. -/
def badConfigCode : Nat := 2

/- Code of a process that panicked. -/
def panicCode : Nat := 101

/- The environment variable naming the configuration file. -/
def Config.fileVariable : String := "AXONFLEET_CONFIG"

/- The configuration file an environment names, `configs/fleet.yaml`
when it names none. -/
def configPath (env : List (String × String)) : String :=
  (env.lookup Config.fileVariable).getD "configs/fleet.yaml"

/- What the processes of a program get from the machine they run on. -/
structure Host where
  env : List (String × String)
  -- the process id of the first process; later ones count up from it
  pid : Nat
  -- fresh trial ids: of the process serving in place (0), and of each worker by its index
  trialIds : Nat → String
  -- epochs a run without an epoch bound gets before it counts as still running
  budget : Nat

/- Sets a variable of an environment, replacing its value. -/
def setVariable
    (env : List (String × String))
    (key value : String) :
    List (String × String) :=
  env.filter (·.1 != key) ++ [(key, value)]

/- A worker's environment: the per-key overrides removed, the
configuration file set. -/
def workerEnvironment
    (env : List (String × String))
    (path : String) :
    List (String × String) :=
  setVariable (env.filter fun kv => !kv.1.startsWith (Config.environmentHead ++ "__"))
    Config.fileVariable path

namespace FileTree

/- Runs a worker process on the tree, as the host's first process. -/
def runWorker
    (t : FileTree)
    (h : Host) :
    FileTree × Exit :=
  match t.loadConfig (configPath h.env) h.env with
  | .error .abort => (t, ⟨some panicCode, [], none⟩)
  | .error (.error _) => (t, ⟨some badConfigCode, [], none⟩)
  | .ok config =>
    let (t, serving) := t.serve config (h.trialIds 0) (toString h.pid) h.budget
    let report (ending : Ending) : Exit :=
      let (reports, code) := runReported h.pid config.wallet.hotkey config.axon.port ending
      ⟨some code, reports, none⟩
    match serving with
    | .finished _ => (t, report .completed)
    | .failed e => (t, report (.failed e.failure))
    | .ongoing => (t, ⟨none, [.started h.pid config.wallet.hotkey config.axon.port], none⟩)

end FileTree

------------------------------------------------------------
-- Supervised runs
------------------------------------------------------------

/- How worker processes are started. -/
structure Launcher where
  -- the directory of the run's worker configurations
  runDir : String
  -- whether the worker program exists to be started
  spawns : Bool

/- How a supervised run ended. -/
inductive RunEnd where
  -- A worker could not be launched
  | launchFailed (e : Error)
  -- every worker completed (their number), or the error ending the run
  | finished (o : Outcome Nat)
  -- the run was still going when virtual time ran out
  | running

/- The end of a process as the system describes it. -/
def exitInfo (code : Nat) : Supervision.ExitInfo := ⟨some code, "exit status: " ++ toString code⟩

/- What a process that ran at the start of the run did: its reports,
then, when it ended, the end of its output and its exit. -/
def timelineOf
    (i : Nat)
    (x : Exit) :
    List (Nat × Nat × Supervision.Happening) :=
  x.reports.map (fun r => (0, i, .report r)) ++
    match x.code with
    | some c => [(0, i, .close), (0, i, .exit (exitInfo c))]
    | none => []

namespace FileTree

/- Writes each worker's configuration file and starts it, stopping at
the first launch that fails: gives the tree and that failure. -/
def launchWorkers
    (t : FileTree)
    (l : Launcher) :
    List FleetConfig → Nat → FileTree × Option (Nat × Error)
  | [], _ => (t, none)
  | c :: rest, i =>
    let name := "worker-" ++ toString i
    match t.write (Config.joinPath l.runDir (name ++ ".yaml")) c.toYaml.toUTF8 with
    | .error f => (t, some (i, ioError f))
    | .ok t =>
      if !l.spawns then
        (t, some (i, .workerStartup ("Failed to spawn " ++ name ++ ": No such file or directory (os error 2)")))
      else launchWorkers t l rest (i + 1)

/- Runs the worker processes one after another on the tree, worker `i`
as the host's process `i + 1`; gives the tree and the timeline of what
they did. -/
def runWorkers
    (t : FileTree)
    (l : Launcher)
    (h : Host) :
    List FleetConfig → Nat → FileTree × List (Nat × Nat × Supervision.Happening)
  | [], _ => (t, [])
  | _ :: rest, i =>
    let path := Config.joinPath l.runDir ("worker-" ++ toString i ++ ".yaml")
    let (t, x) := t.runWorker
      { h with env := workerEnvironment h.env path, pid := h.pid + i + 1, trialIds := fun _ => h.trialIds i }
    let (t, later) := runWorkers t l h rest (i + 1)
    (t, timelineOf i x ++ later)

/- A supervised run of one worker per configuration, polling every
`pollMs` and settling each exit for up to `settleMs`. -/
def supervise
    (t : FileTree)
    (l : Launcher)
    (configs : List FleetConfig)
    (h : Host)
    (pollMs settleMs : Nat) :
    FileTree × RunEnd :=
  let (t, failure) := t.launchWorkers l configs 0
  let identities := configs.map (·.identity)
  let limit := 50 * pollMs + (configs.length + 2) * settleMs
  match failure with
  | some f =>
    match Supervision.launch identities (some f) limit [] with
    | .error (e, _) => (t, .launchFailed e)
    | .ok _ => (t, .running)
  | none =>
    let (t, timeline) := t.runWorkers l h configs 0
    match Supervision.launch identities none limit timeline with
    | .error (e, _) => (t, .launchFailed e)
    | .ok pool =>
      -- the workers ran to their ends before the first tick, so the
      -- supervisor's own time between reads changes nothing here
      match (Supervision.run pollMs settleMs 0).run pool with
      | .ok (o, _) => (t, .finished o)
      | .error _ => (t, .running)

/- A supervised run in the directory `runDir`, made first, of one worker
per configuration of `configs`, polled and settled as `config` says. -/
def superviseIn
    (t : FileTree)
    (config : FleetConfig)
    (configs : List FleetConfig)
    (runDir : String)
    (spawns : Bool)
    (h : Host) :
    FileTree × Outcome RunEnd :=
  match t.makeDirAll runDir with
  | .error f => (t, .error (ioError f))
  | .ok t =>
    let (t, e) := t.supervise ⟨runDir, spawns⟩ configs h config.supervisor.pollIntervalMs
      config.supervisor.settleTimeoutMs
    (t, .ok e)

end FileTree

end NeuronFleet
