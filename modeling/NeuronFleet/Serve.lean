import NeuronFleet.Neuron
import NeuronFleet.Corpus
import NeuronFleet.Metagraph.Store

/-
  Serving one identity with the reference collaborators.

  The reference model is the peer-scoring model over the shared
  parameter table, scoring one peer at first; batches come from the
  synthetic corpus seeded with the model seed xor the axon port; the
  shared state is private memory or the document on disk, as the
  configuration's backend says.

  Serving first makes sure the table exists (generating it from the
  model's shape and seed when it does not) and that its shape is the
  model's, then makes the directory of a shared document on disk, opens
  the axon, builds the model and the corpus, makes the neuron and runs
  it to its last epoch.

  Main definitions:
    * `PeerModel.learner`, `Corpus.source`
    * `Footing`, `Served`, `serve`
-/

namespace NeuronFleet

------------------------------------------------------------
-- Reference collaborators
------------------------------------------------------------

/- The peer-scoring model as a learner; a failed operation leaves it
as it was. -/
def PeerModel.learner : Learner PeerModel where
  forward md batch training remote :=
    match md.forward batch training remote with
    | .ok (md', s) => (md', .ok s)
    | .error e => (md, .error e)
  train md := { md with training := true }
  setLearningRate md lr := { md with learningRate := lr }
  resizePeers md n :=
    match md.resizePeers n with
    | .ok md' => (md', .ok ())
    | .error e => (md, .error e)
  toDevice md d :=
    match md.toDevice d with
    | .ok md' => (md', .ok ())
    | .error e => (md, .error e)
  state md := md.state.toJson

/- The synthetic corpus as a source that never fails. -/
def Corpus.source : BatchSource Corpus where
  next c :=
    let (b, c) := c.nextBatch
    (c, .ok b)

------------------------------------------------------------
-- Serving
------------------------------------------------------------

/- What serving finds around it before it starts. -/
structure Footing where
  -- the table file
  parameters : FileEntry
  -- how making the shared document's directory went
  sharedDir : Outcome Unit
  -- the shared document and its lock, for a state kept on disk
  disk : Disk
  -- how making the neuron's working directory went, and the checkpointer writing there
  workdir : Outcome Checkpointer
  -- the endpoints other sockets hold
  heldEndpoints : List String

/- Nothing in the way: no table yet, directories made as asked, no
shared document yet at the configured place, and no port held. -/
def Footing.fresh (config : FleetConfig) : Footing :=
  let path := config.metagraph.path
  ⟨.missing, .ok (), Disk.fresh path (ParameterTable.withExtension path "lock")
    config.metagraph.inclusionTimeoutMs, .ok (Checkpointer.new none), []⟩

/- What a served run leaves. -/
structure Served where
  summary : Summary
  -- the text of the checkpoint file, when one was written
  checkpoint : Option String
  -- the shared document and its lock, when the state lives on disk
  disk : Option Disk

/- Makes the neuron over a link and runs it to epoch `last`. -/
def serveOn
    {σ : Type}
    (link : Link σ)
    (world : σ)
    (config : FleetConfig)
    (workdir : Outcome Checkpointer)
    (freshTrialId : String)
    (model : PeerModel)
    (axon : Axon)
    (corpus : Corpus)
    (last : Nat) :
    Outcome (Summary × Checkpointer × σ) := do
  let c : Collaborators PeerModel σ Corpus := ⟨PeerModel.learner, link, Corpus.source⟩
  let n ← Neuron.new c config workdir freshTrialId model world axon corpus
  let (n, r) := Neuron.run c last n
  let s ← r
  return (s, n.checkpointer, n.world)

/- Serves the configuration's identity until epoch `last`, on the given
footing; a missing table is generated first, and `freshTrialId` is the
trial when the configuration names none. -/
def serve
    (config : FleetConfig)
    (footing : Footing)
    (freshTrialId : String)
    (last : Nat) :
    Outcome Served := do
  let m := config.model
  let path := config.parametersPath
  let entry ← match footing.parameters with
    | .missing => do
      let (_, bytes) ← ParameterTable.generate path m.vocabSize m.embeddingDim m.seed "0" none
      pure (FileEntry.bytes bytes)
    | e => pure e
  let table ← match ParameterTable.load path entry with
    | .ok table => pure table
    | .error (.error e) => throw e
    -- opening panics only on a length within 8 of `2 ^ 64`, which neither an
    -- exported table nor a text file has; serving has no outcome for a
    -- panic, and reads such a file as the exact count does: truncated
    | .error .abort => throw (.model "File truncated: header length exceeds file size")
  let h := table.header
  if h.rows != m.vocabSize || h.cols != m.embeddingDim then
    throw (.config ("shared parameters are " ++ toString h.rows ++ "x" ++ toString h.cols ++
      " but the model expects " ++ toString m.vocabSize ++ "x" ++ toString m.embeddingDim))
  if config.metagraph.backend == .file then footing.sharedDir
  let axon ← Axon.atEndpoint config.axon.bindAddress config.axon.port config.axon.reservePort
    footing.heldEndpoints
  -- a table short of the values its header announces has sizes that wrap a
  -- word, and building heads of its shape runs out of memory; serving reads
  -- it as the exact count does: truncated
  let some table := table.full?
    | throw (.model ("File truncated: expected " ++ toString (h.rows * h.cols * 4) ++
        " bytes of parameters, found " ++ toString (table.bytes.size - table.dataOffset)))
  let model := PeerModel.new table 1 config.neuron.learningRate config.neuron.momentum m.seed
  let corpus ← Corpus.new m.vocabSize config.neuron.batchSizeTrain config.neuron.sequenceLength
    (UInt64.ofNat m.seed ^^^ UInt64.ofNat config.axon.port)
  let hotkey := config.wallet.hotkey
  match config.metagraph.backend with
  | .memory =>
    let (s, ck, _) ← serveOn Link.memory ⟨SharedState.empty, View.fresh hotkey⟩ config footing.workdir
      freshTrialId model axon corpus last
    return ⟨s, ck.file, none⟩
  | .file =>
    let (s, ck, (disk, _)) ← serveOn Store.disk.link (footing.disk, View.fresh hotkey) config
      footing.workdir freshTrialId model axon corpus last
    return ⟨s, ck.file, some disk⟩

end NeuronFleet
