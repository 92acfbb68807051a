import NeuronFleet.Neuron
import NeuronFleet.Corpus

/-
  Scripted runs of the serving loop.

  The model is a script: each pass takes the next entry, which gives
  the loss (with weight rows of ones, one per sequence, as wide as the
  model) or explicit weight rows, or fails; past the script's end every
  pass has loss one.  The model records the widths it is widened to.
  Batches come from a synthetic corpus whose listed calls fail instead.
  The shared state is a store in memory, with peers registered before
  the neuron, seen through a link that can be told to fail.

  Main definitions:
    * `Script.Pass`, `Script.ScriptedModel`, `Script.FlakyCorpus`
    * `Script.NeuronSetup`, `Script.runNeuron`
-/

namespace NeuronFleet

namespace Script

------------------------------------------------------------
-- The scripted model and the flaky corpus
------------------------------------------------------------

/- One scripted pass. -/
inductive Pass where
  -- succeeds with this loss and rows of ones
  | loss (x : F32)
  -- succeeds with this loss and these weight rows
  | rows (x : F32) (weights : List (List F32))
  -- fails
  | failure

/- A model that plays a script. -/
structure ScriptedModel where
  script : List Pass
  width : Nat
  learningRate : F32
  -- widths asked for, in order
  resizes : List Nat

namespace ScriptedModel

/- A model at the start of its script, one peer wide. -/
def new (script : List Pass) : ScriptedModel := ⟨script, 1, 0, []⟩

/- The scores of a pass with loss `x` and weight rows `w`. -/
def scores
    (x : F32)
    (w : List (List F32)) :
    Scores := ⟨x, x, 0, w⟩

/- The scripted model as a learner. -/
def learner : Learner ScriptedModel where
  forward m batch _ _ :=
    let ones := List.replicate batch.length (List.replicate m.width 1)
    match m.script with
    | [] => (m, .ok (scores 1 ones))
    | p :: rest =>
      let m := { m with script := rest }
      match p with
      | .loss x => (m, .ok (scores x ones))
      | .rows x w => (m, .ok (scores x w))
      | .failure => (m, .error (.model "scripted failure"))
  train m := m
  setLearningRate m lr := { m with learningRate := lr }
  resizePeers m n := ({ m with width := n, resizes := m.resizes ++ [n] }, .ok ())
  toDevice m _ := (m, .ok ())
  state _ := .obj []

end ScriptedModel

/- A corpus whose listed calls, counted from zero, fail. -/
structure FlakyCorpus where
  corpus : Corpus
  calls : Nat
  failing : List Nat

/- The flaky corpus as a source. -/
def FlakyCorpus.source : BatchSource FlakyCorpus where
  next f :=
    let call := f.calls
    let f := { f with calls := call + 1 }
    if f.failing.contains call then (f, .error (.invalidInput "corrupt batch"))
    else
      let (b, c) := f.corpus.nextBatch
      ({ f with corpus := c }, .ok b)

------------------------------------------------------------
-- Runs
------------------------------------------------------------

/- How a scripted neuron run begins. -/
structure NeuronSetup where
  config : FleetConfig
  -- the trial when the configuration names none
  freshTrialId : String
  -- registered in order before the neuron
  peers : List String
  script : List Pass
  failingBatches : List Nat
  failEmits : Nat
  failSyncs : Nat

/- What is run: epochs up to a last one, or a number of epochs one by one. -/
inductive NeuronMode where
  | until (last : Nat)
  | epochs (k : Nat)

/- How the run ended. -/
inductive NeuronResult where
  | summary (s : Summary)
  | epochs (reports : List (Outcome EpochReport))
  | failed (e : Error)

/- What a run leaves. -/
structure NeuronRun where
  result : NeuronResult
  globalStep : UInt64
  resizes : List Nat
  -- the text of the checkpoint file, when one was written
  checkpoint : Option String
  shared : SharedState

/- The world of a run: the store seen through a failing link. -/
abbrev NeuronWorld := Scripted MemoryWorld

/- The collaborators of a run. -/
def crew : Collaborators ScriptedModel NeuronWorld FlakyCorpus :=
  ⟨ScriptedModel.learner, Link.memory.scripted, FlakyCorpus.source⟩

/- Runs a scripted neuron; a neuron that cannot be made gives its
error. -/
def runNeuron
    (setup : NeuronSetup)
    (mode : NeuronMode) :
    Outcome NeuronRun := do
  let store := setup.peers.foldl (fun s p => (s.register p).2) SharedState.empty
  let world : NeuronWorld :=
    ⟨⟨store, View.fresh setup.config.wallet.hotkey⟩, setup.failEmits, setup.failSyncs, 0, 0⟩
  let corpus ← Corpus.new 32 2 4 1
  let n ← Neuron.new crew setup.config (.ok (Checkpointer.new none)) setup.freshTrialId (ScriptedModel.new setup.script) world
    Axon.unbound ⟨corpus, 0, setup.failingBatches⟩
  let (n, result) := match mode with
    | .until last =>
      match Neuron.run crew last n with
      | (n, .ok s) => (n, NeuronResult.summary s)
      | (n, .error e) => (n, .failed e)
    | .epochs k =>
      let (n, rs) := Neuron.epochs crew k n
      (n, .epochs rs)
  return ⟨result, n.globalStep, n.model.resizes, n.checkpointer.file, n.world.inner.store⟩

end Script

end NeuronFleet
