import NeuronFleet.Model
import NeuronFleet.Sync
import NeuronFleet.Schedule
import NeuronFleet.Checkpoint
import NeuronFleet.Config.Fleet

/-
  The serving loop of one identity.

  A neuron trains its model on batches and publishes the model's weight
  rows through a synchroniser.  Its collaborators are given as
  operations on their states: a `Learner` for the model, a `Link` to the
  shared state and a `BatchSource`.

  Making a neuron validates the configuration, makes its working
  directory, puts the model on the configured device and registers the
  identity.  An epoch switches the
  model to training, starts a synchroniser at the neuron's global step
  and takes `neuron.local_epochs` successful local steps.  A local step
  fetches a batch, widens the model to the row's width when it changed,
  runs a training pass and hands its weight rows to the synchroniser.
  A step failing with a transient error is counted and skipped; a
  thousand in a row, or any other error, end the epoch with an error.
  After the steps the learning rate schedule advances, and the
  checkpoint is written when its loss improves on the best.

  Main definitions:
    * `Learner`, `BatchSource`, `Collaborators`
    * `Neuron`, `Neuron.new`, `Neuron.localStep`, `Neuron.runEpoch`,
      `Neuron.run`, `Neuron.epochs`
    * `EpochReport`, `Summary`
-/

namespace NeuronFleet

------------------------------------------------------------
-- Collaborators
------------------------------------------------------------

/- What the serving loop asks of a model whose state is `μ`. -/
structure Learner (μ : Type) where
  -- runs a batch, training when asked and when the model trains, the routed path when
  -- asked; a failed pass may still change the state
  forward : μ → List (List Nat) → Bool → Bool → μ × Outcome Scores
  -- switches to training
  train : μ → μ
  setLearningRate : μ → F32 → μ
  -- widens the peer head
  resizePeers : μ → Nat → μ × Outcome Unit
  -- moves the model to a device
  toDevice : μ → Device → μ × Outcome Unit
  -- the trainable state as a document
  state : μ → Json

/- A source of batches whose state is `κ`. -/
structure BatchSource (κ : Type) where
  next : κ → κ × Outcome (List (List Nat))

/- The collaborators of a serving loop. -/
structure Collaborators (μ σ κ : Type) where
  learner : Learner μ
  link : Link σ
  source : BatchSource κ

------------------------------------------------------------
-- Neurons
------------------------------------------------------------

/- How one epoch went. -/
structure EpochReport where
  epoch : Nat
  globalStep : UInt64
  -- loss of the last successful step; infinite when there was none
  loss : F32
  -- the learning rate set after the epoch
  learningRate : F32
  publishes : Nat
  stepFailures : Nat
  checkpointed : Bool

/- Totals over a bounded run. -/
structure Summary where
  epochs : Nat := 0
  globalStep : UInt64 := 0
  publishes : Nat := 0
  stepFailures : Nat := 0
  checkpoints : Nat := 0
  -- the best checkpointed loss, when one was written
  bestLoss : Option F32 := none

/- A report as a keyed value, singles written by `single`. -/
def EpochReport.toJson
    (single : F32 → Json)
    (r : EpochReport) :
    Json :=
  .obj [("epoch", .int r.epoch), ("global_step", .int r.globalStep.toNat), ("loss", single r.loss),
    ("learning_rate", single r.learningRate), ("publishes", .int r.publishes),
    ("step_failures", .int r.stepFailures), ("checkpointed", .bool r.checkpointed)]

/- Totals as a keyed value, singles written by `single`; no best loss is `null`. -/
def Summary.toJson
    (single : F32 → Json)
    (s : Summary) :
    Json :=
  .obj [("epochs", .int s.epochs), ("global_step", .int s.globalStep.toNat), ("publishes", .int s.publishes),
    ("step_failures", .int s.stepFailures), ("checkpoints", .int s.checkpoints),
    ("best_loss", (s.bestLoss.map single).getD .null)]

/- Adds an epoch's report to the totals. -/
def Summary.add
    (s : Summary)
    (r : EpochReport) :
    Summary :=
  { s with epochs := s.epochs + 1, globalStep := r.globalStep, publishes := s.publishes + r.publishes
           stepFailures := s.stepFailures + r.stepFailures
           checkpoints := s.checkpoints + (if r.checkpointed then 1 else 0) }

/- Transient failures in a row after which an epoch gives up. -/
def maxConsecutiveFailures : Nat := 1000

/- One serving identity with the states of its collaborators. -/
structure Neuron (μ σ κ : Type) where
  config : FleetConfig
  trialId : String
  model : μ
  world : σ
  axon : Axon
  batches : κ
  schedule : Schedule
  checkpointer : Checkpointer
  settings : Sync.Settings
  -- the width the model was last widened to
  peers : Nat
  globalStep : UInt64
  -- epochs completed
  epoch : Nat

/- How an epoch stands between its local steps. -/
structure EpochProgress where
  sync : Synchronizer
  completed : Nat
  failures : Nat
  -- failures since the last success
  consecutive : Nat
  loss : F32

namespace Neuron

variable {μ σ κ : Type}

/- Validates the configuration, makes the working directory (`workdir`
is how that went, giving the checkpointer writing there), moves the
model to the configured device and
registers the identity; the trial is the configured one, or
`freshTrialId` when none is configured. -/
def new
    (c : Collaborators μ σ κ)
    (config : FleetConfig)
    (workdir : Outcome Checkpointer)
    (freshTrialId : String)
    (model : μ)
    (world : σ)
    (axon : Axon)
    (batches : κ) :
    Outcome (Neuron μ σ κ) := do
  config.validate
  let checkpointer ← workdir
  let device ← Device.parse config.neuron.device
  let (model, moved) := c.learner.toDevice model device
  moved
  let (world, registered) := c.link.register world
  let _ ← registered
  return { config, model, world, axon, batches, checkpointer
           trialId := config.neuron.trialId.getD freshTrialId
           schedule := Schedule.serving config.neuron.learningRate
           settings := Sync.Settings.make config.neuron.syncInterval config.neuron.smoothing
             config.neuron.syncRetries
           peers := 0, globalStep := 0, epoch := 0 }

/- Widens the model to `width` peers when it is not that wide already. -/
def widen
    (c : Collaborators μ σ κ)
    (n : Neuron μ σ κ)
    (width : Nat) :
    Neuron μ σ κ × Outcome Unit :=
  if width == n.peers then (n, .ok ())
  else
    let (model, r) := c.learner.resizePeers n.model width
    match r with
    | .ok () => ({ n with model, peers := width }, .ok ())
    | .error e => ({ n with model }, .error e)

/- One local step: the next batch, the model widened to the row's
width, a training pass with the routed path, and the synchroniser's
step on the pass's weight rows. -/
def localStep
    (c : Collaborators μ σ κ)
    (n : Neuron μ σ κ)
    (s : Synchronizer) :
    Neuron μ σ κ × Synchronizer × Outcome Scores :=
  let (batches, b) := c.source.next n.batches
  let n := { n with batches }
  match b with
  | .error e => (n, s, .error e)
  | .ok batch =>
    match widen c n s.row.length with
    | (n, .error e) => (n, s, .error e)
    | (n, .ok ()) =>
      let (model, pass) := c.learner.forward n.model batch true true
      let n := { n with model }
      match pass with
      | .error e => (n, s, .error e)
      | .ok out =>
        let (world, axon, s, r) := Synchronizer.step c.link s out.weights n.world n.axon
        ({ n with world, axon }, s, r.map fun _ => out)

/- Local steps until the epoch has its successful ones, counting and
skipping transient failures; `fuel` bounds the steps. -/
def steps (c : Collaborators μ σ κ) :
    Nat → Neuron μ σ κ → EpochProgress → Neuron μ σ κ × EpochProgress × Outcome Unit
  | 0, n, p => (n, p, .ok ())
  | fuel + 1, n, p =>
    if p.completed ≥ n.config.neuron.localEpochs then (n, p, .ok ())
    else
      let (n, sync, r) := localStep c n p.sync
      let p := { p with sync }
      match r with
      | .ok out =>
        steps c fuel n { p with completed := p.completed + 1, consecutive := 0, loss := out.localLoss }
      | .error e =>
        if e.isTransient then
          let p := { p with failures := p.failures + 1, consecutive := p.consecutive + 1 }
          if p.consecutive ≥ maxConsecutiveFailures then
            (n, p, .error (.internal (toString p.consecutive ++
              " consecutive local steps failed, last error: " ++ e.message)))
          else steps c fuel n p
        else (n, p, .error e)

/- Enough steps for an epoch: each success follows fewer than
`maxConsecutiveFailures` failures. -/
def stepBound (localEpochs : Nat) : Nat := (localEpochs + 1) * maxConsecutiveFailures + 1

/- One training epoch. -/
def runEpoch
    (c : Collaborators μ σ κ)
    (n : Neuron μ σ κ) :
    Neuron μ σ κ × Outcome EpochReport :=
  let n := { n with model := c.learner.train n.model }
  let (world, started) := Synchronizer.start c.link n.world n.settings n.globalStep
  let n := { n with world }
  match started with
  | .error e => (n, .error e)
  | .ok sync =>
    let start : EpochProgress := ⟨sync, 0, 0, 0, F32.infinity⟩
    match steps c (stepBound n.config.neuron.localEpochs) n start with
    | (n, _, .error e) => (n, .error e)
    | (n, p, .ok ()) =>
      let epoch := n.epoch + 1
      let (schedule, lr) := n.schedule.step
      let model := c.learner.setLearningRate n.model lr
      let ck : Checkpoint := ⟨epoch, p.sync.globalStep.toNat, p.loss, some n.trialId, c.learner.state model⟩
      let (checkpointer, saved) := n.checkpointer.saveIfBetter ck
      let n := { n with globalStep := p.sync.globalStep, epoch, schedule, model, checkpointer }
      match saved with
      | .error e => (n, .error e)
      | .ok checkpointed =>
        (n, .ok ⟨epoch, p.sync.globalStep, p.loss, lr, p.sync.publishes, p.failures, checkpointed⟩)

/- Runs epochs until `last` epochs are complete, stopping at the first
error; the summary's best loss is the checkpointer's when finite. -/
def run
    (c : Collaborators μ σ κ)
    (last : Nat)
    (n : Neuron μ σ κ) :
    Neuron μ σ κ × Outcome Summary :=
  go (last - n.epoch) n {}
where
  go : Nat → Neuron μ σ κ → Summary → Neuron μ σ κ × Outcome Summary
    | 0, n, s =>
      let best := n.checkpointer.bestLoss
      (n, .ok { s with bestLoss := if best.isFinite then some best else none })
    | k + 1, n, s =>
      match runEpoch c n with
      | (n, .error e) => (n, .error e)
      | (n, .ok r) => go k n (Summary.add s r)

/- Runs `k` epochs one by one, stopping after the first that fails. -/
def epochs (c : Collaborators μ σ κ) : Nat → Neuron μ σ κ → Neuron μ σ κ × List (Outcome EpochReport)
  | 0, n => (n, [])
  | k + 1, n =>
    match runEpoch c n with
    | (n, .error e) => (n, [.error e])
    | (n, .ok r) =>
      let (n, rest) := epochs c k n
      (n, .ok r :: rest)

end Neuron

end NeuronFleet
