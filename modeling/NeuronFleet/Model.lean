import NeuronFleet.Params
import NeuronFleet.Text.Blank
import NeuronFleet.Number.Layout

/-
  Compute devices and the peer-scoring model.

  The model reads a batch of token sequences.  Each sequence is split
  into a context (all tokens but the last) and a target (the last).
  The context is encoded as the mean of its rows of the shared table.
  Two heads read the encoding:
    * the token head scores every token of the vocabulary, and its
      softmax predicts the target; its loss is the negative log of the
      target's probability;
    * the peer head scores every known peer, and its softmax is the
      weight row of the sequence; its loss pulls the row toward the
      uniform one.
  Probabilities are bounded below by the least normal single before
  their logarithm is taken, so a loss is finite unless a score is not.

  A training pass takes the gradients of both losses, averaged over the
  batch, and steps every parameter by SGD with momentum:
  `v ← m·v + g`, `w ← w − lr·v`.

  A pass fails on an empty batch, on a sequence shorter than two tokens,
  on a target outside the vocabulary, on a context token outside the
  table, and on a non-finite loss; a failed pass changes nothing.

  Main definitions:
    * `Device`, `Device.parse`, `Device.display`
    * `softmax`, `Head`, `Head.logits`, `Head.step`
    * `PeerModel.new`, `PeerModel.read`, `PeerModel.take`, `PeerModel.forward`,
      `PeerModel.resizePeers`, `PeerModel.toDevice`, `PeerModel.state`,
      `PeerModel.parameters`
-/

namespace NeuronFleet

------------------------------------------------------------
-- Devices
------------------------------------------------------------

/- Where a model computes. -/
inductive Device where
  | cpu
  | cuda (ordinal : Nat)
  deriving Repr, DecidableEq, Inhabited

namespace Device

/- Largest ordinal a device can have: that of a 64-bit index. -/
def maxOrdinal : Nat := Nat.pow 2 64 - 1

/- Reads `cpu`, `cuda` (the first GPU) or `cuda:N`, ignoring blanks at
both ends and the case of ASCII letters. -/
def parse (s : String) : Outcome Device :=
  let t := (Text.trim s).toLower
  if t == "cpu" then .ok .cpu
  else if t == "cuda" then .ok (.cuda 0)
  else
    let ordinal := if t.startsWith "cuda:" then Text.readUnsigned (t.drop 5).toString maxOrdinal
      else none
    match ordinal with
    | some n => .ok (.cuda n)
    | none => .error (.config ("unknown device '" ++ t ++ "'"))

/- A device as a keyed value: `{"Cpu": null}` or `{"Cuda": N}`. -/
def toJson : Device → Json
  | .cpu => .obj [("Cpu", .null)]
  | .cuda n => .obj [("Cuda", .int n)]

/- The text of a device: `cpu` or `cuda:N`. -/
def display : Device → String
  | .cpu => "cpu"
  | .cuda n => "cuda:" ++ toString n

end Device

------------------------------------------------------------
-- Rows of scores
------------------------------------------------------------

/- The sum of products of two rows, left to right. -/
def dot (xs ys : List F32) : F32 := F32.sum (List.zipWith (· * ·) xs ys)

/- The normaliser of a softmax: the sum of the exponentials of the
scores shifted by `shift`. -/
def partition
    (shift : F32)
    (zs : List F32) :
    F32 :=
  F32.sum (zs.map fun z => F32.exp (z - shift))

/- The softmax of a row of scores, shifted by their largest (NaN
ignored) so that no exponential overflows. -/
def softmax (zs : List F32) : List F32 :=
  let top := zs.foldl F32.max F32.negInfinity
  let total := partition top zs
  zs.map fun z => F32.exp (z - top) / total

/- The logarithm of a probability bounded below by the least normal
single, so that it is finite for every probability. -/
def logFloor (p : F32) : F32 := F32.log (F32.max p F32.minPositive)

------------------------------------------------------------
-- Trainable heads
------------------------------------------------------------

/- A trainable number with its momentum. -/
structure Param where
  value : F32
  velocity : F32
  deriving Inhabited

namespace Param

/- A parameter at rest. -/
def ofValue (x : F32) : Param := ⟨x, 0⟩

/- One SGD step with momentum along gradient `g`. -/
def step
    (lr m : F32)
    (p : Param)
    (g : F32) :
    Param :=
  let v := m * p.velocity + g
  ⟨p.value - lr * v, v⟩

end Param

/- The gradient of one output of a head: one entry per input, and one
for the bias. -/
structure Grad where
  weights : List F32
  bias : F32
  deriving Inhabited

namespace Grad

/- A zero gradient of `n` inputs. -/
def zero (n : Nat) : Grad := ⟨List.replicate n 0, 0⟩

/- Adds the gradient of an output whose score's derivative is `d` at
input `h`. -/
def add
    (g : Grad)
    (d : F32)
    (h : List F32) :
    Grad :=
  ⟨List.zipWith (fun a x => a + d * x) g.weights h, g.bias + d⟩

/- Multiplies every entry by `c`. -/
def scale
    (c : F32)
    (g : Grad) :
    Grad := ⟨g.weights.map (· * c), g.bias * c⟩

end Grad

/- One output of a head: its weights over the inputs, and its bias. -/
structure HeadRow where
  weights : List Param
  bias : Param
  deriving Inhabited

/- A linear head: one unit per output, each as wide as the input. -/
structure Head where
  width : Nat
  units : List HeadRow
  deriving Inhabited

namespace Head

/- Number of outputs. -/
def outputs (hd : Head) : Nat := hd.units.length

/- A head whose weights are drawn uniformly from `[-s, s)`, row by row,
and whose biases are zero. -/
def random
    (rows width : Nat)
    (s : F32)
    (g : Random.ChaCha) :
    Head × Random.ChaCha :=
  let rec draws : Nat → Random.ChaCha → List Param × Random.ChaCha
    | 0, g => ([], g)
    | n + 1, g =>
      let (x, g) := g.rangeF32 (-s) s
      let (rest, g) := draws n g
      (Param.ofValue x :: rest, g)
  let rec units : Nat → Random.ChaCha → List HeadRow × Random.ChaCha
    | 0, g => ([], g)
    | n + 1, g =>
      let (ws, g) := draws width g
      let (rest, g) := units n g
      (⟨ws, Param.ofValue 0⟩ :: rest, g)
  let (us, g) := units rows g
  (⟨width, us⟩, g)

/- The scores of an input: each unit's weights dotted with it, plus
its bias. -/
def logits
    (hd : Head)
    (h : List F32) :
    List F32 :=
  hd.units.map fun u => dot (u.weights.map (·.value)) h + u.bias.value

/- Steps every parameter along its gradient. -/
def step
    (lr m : F32)
    (hd : Head)
    (gs : List Grad) :
    Head :=
  { hd with units := List.zipWith (fun u g =>
      ⟨List.zipWith (Param.step lr m) u.weights g.weights, u.bias.step lr m g.bias⟩) hd.units gs }

/- Adds zero units at rest up to `n` outputs; a head already that wide
is kept. -/
def grow
    (n : Nat)
    (hd : Head) :
    Head :=
  let zero : HeadRow := ⟨List.replicate hd.width (Param.ofValue 0), Param.ofValue 0⟩
  { hd with units := hd.units ++ List.replicate (n - hd.outputs) zero }

/- The weights row by row. -/
def weightValues (hd : Head) : List F32 := hd.units.flatMap fun u => u.weights.map (·.value)

/- The biases. -/
def biasValues (hd : Head) : List F32 := hd.units.map (·.bias.value)

end Head

------------------------------------------------------------
-- The model
------------------------------------------------------------

/- The losses of a batch and its weight rows. -/
structure Scores where
  localLoss : F32
  -- the loss of the routed path: the local loss when asked for, else zero
  remoteLoss : F32
  distillationLoss : F32
  -- one row over the peers per sequence
  weights : List (List F32)
  deriving Inhabited

/- The trainable state as it is saved. -/
structure ModelState where
  vocabSize : Nat
  embeddingDim : Nat
  nPeers : Nat
  learningRate : F32
  momentum : F32
  steps : Nat
  tokenHead : List F32
  tokenBias : List F32
  peerHead : List F32
  peerBias : List F32

/- The saved state as a keyed value, its singles written by `single`. -/
def ModelState.toJsonWith
    (single : F32 → Json)
    (s : ModelState) :
    Json :=
  let values (xs : List F32) : Json := .arr (xs.map single)
  .obj [("vocab_size", .int s.vocabSize), ("embedding_dim", .int s.embeddingDim),
    ("n_peers", .int s.nPeers), ("learning_rate", single s.learningRate),
    ("momentum", single s.momentum), ("steps", .int s.steps), ("token_head", values s.tokenHead),
    ("token_bias", values s.tokenBias), ("peer_head", values s.peerHead),
    ("peer_bias", values s.peerBias)]

/- The saved state as a keyed document, its numbers singles. -/
def ModelState.toJson (s : ModelState) : Json := s.toJsonWith .single

/- The losses and weight rows as a keyed value, singles written by `single`. -/
def Scores.toJson
    (single : F32 → Json)
    (s : Scores) :
    Json :=
  .obj [("local_loss", single s.localLoss), ("remote_loss", single s.remoteLoss),
    ("distillation_loss", single s.distillationLoss),
    ("weights", .arr (s.weights.map fun r => .arr (r.map single)))]

/- A named trainable tensor. -/
structure ParameterView where
  name : String
  shape : List Nat
  values : List F32

/- A model over a shared table, scoring the next token and the peers. -/
structure PeerModel where
  table : FullTable
  tokenHead : Head
  peerHead : Head
  learningRate : F32
  momentum : F32
  device : Device
  -- whether passes asked to train may step the parameters
  training : Bool
  -- steps taken so far
  steps : Nat

/- What one pass has gathered over the sequences read so far. -/
structure Pass where
  localLoss : F32
  distillation : F32
  weights : List (List F32)
  tokenGrads : List Grad
  peerGrads : List Grad

namespace PeerModel

/- A model scoring `nPeers` peers (at least one), its heads drawn from
the generator of `seed`, token head first; it starts in evaluation on
the CPU. -/
def new
    (table : FullTable)
    (nPeers : Nat)
    (learningRate momentum : F32)
    (seed : Nat) :
    PeerModel :=
  let dim := table.header.cols
  let s := 1 / F32.sqrt (F32.ofNat dim)
  let g := Random.ChaCha.ofSeed (UInt64.ofNat seed)
  let (tokenHead, g) := Head.random table.header.rows dim s g
  let (peerHead, _) := Head.random (max nPeers 1) dim s g
  ⟨table, tokenHead, peerHead, learningRate, momentum, .cpu, false, 0⟩

/- Number of peers scored. -/
def nPeers (md : PeerModel) : Nat := md.peerHead.outputs

/- The mean of the table's rows of the context tokens. -/
def encode
    (md : PeerModel)
    (context : List Nat) :
    Outcome (List F32) := do
  let sum ← context.foldlM (fun h t => md.table.accumulateRow t h)
    (List.replicate md.table.header.cols 0)
  let n := F32.ofNat context.length
  return sum.map (· / n)

/- Splits sequence `i` of a batch into its context and its target, and
encodes the context; the target must be in the vocabulary. -/
def read
    (md : PeerModel)
    (i : Nat)
    (sq : List Nat) :
    Outcome (List F32 × Nat) := do
  let (context, target) ← match sq.reverse with
    | t :: rest@(_ :: _) => pure (rest.reverse, t)
    | _ => throw (.model ("sequence " ++ toString i ++ " has " ++ toString sq.length ++
        " tokens, need at least 2"))
  if target ≥ md.tokenHead.outputs then
    throw (.model ("target token " ++ toString target ++ " outside vocabulary"))
  let h ← md.encode context
  return (h, target)

/- Adds a sequence, read as the encoding `h` of its context and its
target, into a pass; gradients are gathered only when `update` is set. -/
def take
    (md : PeerModel)
    (update : Bool)
    (acc : Pass)
    (h : List F32)
    (target : Nat) :
    Pass :=
  let vocab := md.tokenHead.outputs
  let p := softmax (md.tokenHead.logits h)
  let w := softmax (md.peerHead.logits h)
  let uniform := 1 / F32.ofNat md.nPeers
  let localLoss := acc.localLoss + -(logFloor (p.getD target 0))
  let distillation := acc.distillation + -(F32.sum (w.map logFloor)) * uniform
  let (tokenGrads, peerGrads) :=
    if update then
      (List.zipWith (fun (g : Grad) (r : Nat × F32) =>
          g.add (r.2 - (if r.1 == target then 1 else 0)) h) acc.tokenGrads (List.range vocab |>.zip p),
        List.zipWith (fun (g : Grad) y => g.add (y - uniform) h) acc.peerGrads w)
    else (acc.tokenGrads, acc.peerGrads)
  ⟨localLoss, distillation, acc.weights ++ [w], tokenGrads, peerGrads⟩

/- A pass over no sequence yet: no loss, no weight row, and a zero
gradient for every output of both heads. -/
def freshPass (md : PeerModel) : Pass :=
  ⟨0, 0, [], List.replicate md.tokenHead.outputs (Grad.zero md.table.header.cols),
    List.replicate md.nPeers (Grad.zero md.table.header.cols)⟩

/- Runs a batch.  When `training` is asked and the model trains, the
parameters take one step along the batch's mean gradient. -/
def forward
    (md : PeerModel)
    (batch : List (List Nat))
    (training remote : Bool) :
    Outcome (PeerModel × Scores) := do
  if batch.isEmpty then throw (.model "empty batch")
  let update := training && md.training
  let reads ← batch.zipIdx.mapM fun (sq, i) => md.read i sq
  let pass := reads.foldl (fun acc (h, target) => md.take update acc h target) md.freshPass
  let n := F32.ofNat batch.length
  let localLoss := pass.localLoss / n
  let distillation := pass.distillation / n
  let remoteLoss := if remote then localLoss else 0
  if !localLoss.isFinite || !distillation.isFinite then
    throw (.model ("non-finite loss (local=" ++ Decimal.displayLayout.writeF32 localLoss ++
      ", distillation=" ++ Decimal.displayLayout.writeF32 distillation ++ ")"))
  let scores : Scores := ⟨localLoss, remoteLoss, distillation, pass.weights⟩
  if update then
    let c := 1 / n
    let lr := md.learningRate
    let m := md.momentum
    let md := { md with
      tokenHead := md.tokenHead.step lr m (pass.tokenGrads.map (Grad.scale c))
      peerHead := md.peerHead.step lr m (pass.peerGrads.map (Grad.scale c))
      steps := md.steps + 1 }
    return (md, scores)
  else return (md, scores)

/- Widens the peer head to `n` peers with zero rows; it never narrows. -/
def resizePeers
    (md : PeerModel)
    (n : Nat) :
    Outcome PeerModel :=
  if n < md.nPeers then
    .error (.model ("cannot shrink peer head from " ++ toString md.nPeers ++ " to " ++ toString n))
  else .ok { md with peerHead := md.peerHead.grow n }

/- Moves the model to a device; only the CPU is available. -/
def toDevice
    (md : PeerModel)
    (d : Device) :
    Outcome PeerModel :=
  match d with
  | .cpu => .ok { md with device := d }
  | .cuda _ => .error (.config ("device " ++ d.display ++ " is not available to the reference model"))

/- The trainable state. -/
def state (md : PeerModel) : ModelState :=
  { vocabSize := md.tokenHead.outputs, embeddingDim := md.tokenHead.width, nPeers := md.nPeers
    learningRate := md.learningRate, momentum := md.momentum, steps := md.steps
    tokenHead := md.tokenHead.weightValues, tokenBias := md.tokenHead.biasValues
    peerHead := md.peerHead.weightValues, peerBias := md.peerHead.biasValues }

/- The trainable tensors with their shapes. -/
def parameters (md : PeerModel) : List ParameterView :=
  [⟨"token_head", [md.tokenHead.outputs, md.tokenHead.width], md.tokenHead.weightValues⟩,
   ⟨"token_bias", [md.tokenHead.outputs], md.tokenHead.biasValues⟩,
   ⟨"peer_head", [md.nPeers, md.peerHead.width], md.peerHead.weightValues⟩,
   ⟨"peer_bias", [md.nPeers], md.peerHead.biasValues⟩]

end PeerModel

end NeuronFleet
