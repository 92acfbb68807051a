import NeuronFleet.Json.Read
import NeuronFleet.Error
import NeuronFleet.FileTree

/-
  Best-loss checkpoints.

  A checkpoint records where training stood (epoch, global step, loss,
  optionally the trial) and a free-form state.  The checkpointer keeps
  the best loss seen so far, starting at infinity, and writes a
  checkpoint only when its loss is finite and strictly below it; the
  written file then replaces the previous one whole.

  The file is the compact JSON of the checkpoint with the fields in the
  order `epoch`, `global_step`, `loss`, `trial_id` (left out when
  unset), `state`.

  Main definitions:
    * `Checkpoint`, `Checkpoint.toDocument`, `Checkpoint.readDocument`
    * `Checkpointer`, `Checkpointer.improves`, `Checkpointer.saveIfBetter`,
      `Checkpointer.load`
-/

namespace NeuronFleet

------------------------------------------------------------
-- Checkpoints
------------------------------------------------------------

/- A persisted checkpoint. -/
structure Checkpoint where
  epoch : Nat
  globalStep : Nat
  loss : F32
  trialId : Option String
  -- free-form state, as a keyed JSON value
  state : Json
  deriving Inhabited

namespace Checkpoint

/- The shape of a checkpoint file: only the trial may be left out. -/
def schema : Schema :=
  .record "Checkpoint"
    [("epoch", Schema.u64, none), ("global_step", Schema.u64, none), ("loss", .single, none),
     ("trial_id", .option .string, some .null), ("state", .any, none)]

/- A checkpoint from data of the shape `schema`. -/
def ofJson (j : Json) : Checkpoint :=
  let nat (k : String) : Nat := match j.field? k with
    | some (.int n) => n.toNat
    | _ => 0
  { epoch := nat "epoch", globalStep := nat "global_step"
    loss := match j.field? "loss" with
      | some (.single x) => x
      | _ => 0
    trialId := match j.field? "trial_id" with
      | some (.str s) => some s
      | _ => none
    state := (j.field? "state").getD .null }

/- The compact JSON text of a checkpoint. -/
def toDocument (c : Checkpoint) : String :=
  Json.write (.obj ([("epoch", .int c.epoch), ("global_step", .int c.globalStep),
    ("loss", .single c.loss)] ++
    (match c.trialId with
     | some t => [("trial_id", .str t)]
     | none => []) ++
    [("state", c.state)]))

/- Reads a checkpoint file; one that does not read is a serialization
error. -/
def readDocument (text : String) : Outcome Checkpoint :=
  match Json.readAs schema text with
  | .ok j => .ok (ofJson j)
  | .error e => .error (.serialization e.message)

end Checkpoint

------------------------------------------------------------
-- The checkpointer
------------------------------------------------------------

/- The best loss so far and the checkpoint file. -/
structure Checkpointer where
  bestLoss : F32
  -- the text of the checkpoint file, none while there is none
  file : Option String
  -- why writing the file fails, when it does
  blocked : Option IoFailure
  deriving Inhabited

namespace Checkpointer

/- A checkpointer that has written nothing; writing fails as `blocked`
says. -/
def new (blocked : Option IoFailure) : Checkpointer := ⟨F32.infinity, none, blocked⟩

/- Whether a loss would be written: finite and strictly below the best. -/
def improves
    (c : Checkpointer)
    (loss : F32) :
    Bool :=
  loss.isFinite && F32.lt loss c.bestLoss

/- Writes the checkpoint when its loss improves on the best; tells
whether it was written. -/
def saveIfBetter
    (c : Checkpointer)
    (ck : Checkpoint) :
    Checkpointer × Outcome Bool :=
  if !c.improves ck.loss then (c, .ok false)
  else
    match c.blocked with
    | some f => (c, .error (.io f.message))
    | none => ({ c with file := some ck.toDocument, bestLoss := ck.loss }, .ok true)

/- The checkpoint on file, if there is one. -/
def load (c : Checkpointer) : Outcome (Option Checkpoint) :=
  match c.file with
  | none => .ok none
  | some text => (Checkpoint.readDocument text).map some

end Checkpointer

end NeuronFleet
