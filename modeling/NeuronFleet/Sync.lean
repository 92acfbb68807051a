import NeuronFleet.Metagraph.Link
import NeuronFleet.Weights.Row
import NeuronFleet.Axon

/-
  The weight synchroniser: how a neuron's row follows its training and
  reaches the shared state.

  Each local step contributes a batch of weight rows.  Their column
  mean pulls the running row a fraction `smoothing` toward it, and the
  row is normalised again; a rejected contribution leaves everything as
  it was.  Every `interval` steps the row is published: emitted (and
  waited for), the snapshot refreshed, the neuron's own row and uid
  read back and the column of weights the peers put on it handed to the
  axon.  A publication is tried `retries + 1` times; when every attempt
  fails the step fails with the last error, keeps the accumulated row
  and does not advance.  The step counter and the interval are 64-bit
  words: the cadence is read off `(globalStep + 1) % interval` in that
  width, and the counter wraps past its largest value.

  Main definitions:
    * `Sync.Settings`, `Synchronizer`, `Synchronizer.start`
    * `Synchronizer.accumulate`, `Synchronizer.publish`,
      `Synchronizer.publishWithRetry`, `Synchronizer.step`
-/

namespace NeuronFleet

------------------------------------------------------------
-- Settings and state
------------------------------------------------------------

namespace Sync

/- How a synchroniser publishes. -/
structure Settings where
  -- publish every `interval` steps; at least one
  interval : UInt64
  -- how far a contribution pulls the row, in `(0, 1]`
  smoothing : F32
  -- extra attempts of a publication
  retries : Nat
  deriving Repr

/- Settings with the interval raised to at least one. -/
def Settings.make
    (interval : Nat)
    (smoothing : F32)
    (retries : Nat) :
    Settings :=
  ⟨UInt64.ofNat (Nat.max interval 1), smoothing, retries⟩

/- A synchroniser's phase: publishing while a publication runs,
accumulating otherwise. -/
inductive Phase where
  | accumulating
  | publishing
  deriving Repr, DecidableEq

/- What a successful step reports. -/
structure StepOutcome where
  globalStep : UInt64
  published : Bool
  deriving Repr

end Sync

/- A synchroniser's own state. -/
structure Synchronizer where
  settings : Sync.Settings
  phase : Sync.Phase
  -- the running weight row
  row : List F32
  uid : Nat
  globalStep : UInt64
  -- successful publications
  publishes : Nat
  deriving Repr

namespace Synchronizer

/- Refreshes the snapshot and takes the neuron's row from it. -/
def start
    (l : Link σ)
    (w : σ)
    (settings : Sync.Settings)
    (globalStep : UInt64) :
    σ × Outcome Synchronizer :=
  match l.sync w with
  | (w, .error e) => (w, .error e)
  | (w, .ok ()) =>
    match (l.view w).ownRow with
    | .error e => (w, .error e)
    | .ok (uid, row) => (w, .ok ⟨settings, .accumulating, row, uid, globalStep, 0⟩)

/- Pulls the row toward the mean of a contribution and normalises it. -/
def accumulate
    (s : Synchronizer)
    (contribution : List (List F32)) :
    Outcome Synchronizer := do
  return { s with row := ← WeightRow.absorb s.row contribution s.settings.smoothing }

/- One publication: emit and wait, refresh, read back the own row, hand
the own column to the axon.  The phase is publishing meanwhile and
accumulating again afterwards, also when the publication fails. -/
def publish
    (l : Link σ)
    (s : Synchronizer)
    (w : σ)
    (axon : Axon) :
    σ × Axon × Outcome Synchronizer :=
  let s := { s with phase := .publishing }
  match l.emit w s.row true with
  | (w, .error e) => (w, axon, .error e)
  | (w, .ok ()) =>
    match l.sync w with
    | (w, .error e) => (w, axon, .error e)
    | (w, .ok ()) =>
      let v := l.view w
      match v.ownRow with
      | .error e => (w, axon, .error e)
      | .ok (uid, row) =>
        match v.snapshot.weights.column? uid with
        | none => (w, axon, .error (.metagraph ("no column for uid " ++ toString uid)))
        | some column =>
          match axon.setPriority v.snapshot.neurons column with
          | .error e => (w, axon, .error e)
          | .ok axon => (w, axon, .ok { s with uid, row, phase := .accumulating })

/- Attempts of a publication: `retries + 1`. -/
def attempts (s : Synchronizer) : Nat := s.settings.retries + 1

/- Tries a publication `n` more times; `last` is the latest failure. -/
def retry
    (l : Link σ)
    (s : Synchronizer)
    (last : Option Error) :
    Nat → σ → Axon → σ × Axon × Outcome Synchronizer
  | 0, w, axon =>
    let cause := match last with
      | some e => e.message
      | none => ""
    (w, axon, .error (.sync ("publish at step " ++ toString s.globalStep ++ " failed after " ++
      toString s.attempts ++ " attempts: " ++ cause)))
  | n + 1, w, axon =>
    match publish l s w axon with
    | (w, axon, .ok s') => (w, axon, .ok { s' with publishes := s'.publishes + 1 })
    | (w, axon, .error e) => retry l s (some e) n w axon

/- A publication with its retries; success counts one publication. -/
def publishWithRetry
    (l : Link σ)
    (s : Synchronizer)
    (w : σ)
    (axon : Axon) :
    σ × Axon × Outcome Synchronizer :=
  retry l s none s.attempts w axon

/- A local step: accumulate the contribution, publish when due, advance
the step counter.  On failure the synchroniser returned is the one to
keep: unchanged for a rejected contribution, with the accumulated row
for a failed publication. -/
def step
    (l : Link σ)
    (s : Synchronizer)
    (contribution : List (List F32))
    (w : σ)
    (axon : Axon) :
    σ × Axon × Synchronizer × Outcome Sync.StepOutcome :=
  match s.accumulate contribution with
  | .error e => (w, axon, s, .error e)
  | .ok s =>
    if (s.globalStep + 1) % s.settings.interval = 0 then
      match publishWithRetry l s w axon with
      | (w, axon, .error e) => (w, axon, s, .error e)
      | (w, axon, .ok s) =>
        (w, axon, { s with globalStep := s.globalStep + 1 }, .ok ⟨s.globalStep, true⟩)
    else (w, axon, { s with globalStep := s.globalStep + 1 }, .ok ⟨s.globalStep, false⟩)

end Synchronizer

end NeuronFleet
