import NeuronFleet.Identity
import NeuronFleet.Schema
import NeuronFleet.Number.Single

/-
  The configuration of a fleet.

  One `FleetConfig` describes a whole fleet: the wallet (coldkey,
  hotkey, and optionally a list of key pairs to serve), the axon
  endpoint (and the ports for those key pairs), the serving loop, the
  reference model, the shared state, the supervision of worker
  processes and, optionally, observability.  Every field has a default,
  so an empty document is a complete configuration.

  A configuration with shared keys fans out into one configuration per
  identity, each serving a single key pair on its own port.  Paths are
  joined like file system paths: an absolute part replaces what came
  before, and an empty part leaves a trailing separator.

  `validate` checks the values in a fixed order and reports the first
  failure; the float checks are written so that NaN fails them.

  Main definitions:
    * `FleetConfig`, `FleetConfig.schema`, `FleetConfig.ofJson`,
      `FleetConfig.toJson`
    * `FleetConfig.validate`, `FleetConfig.withIdentity`,
      `FleetConfig.fanOut`, `FleetConfig.fullPath`
    * `Config.joinPath`, `Config.directives`
-/

namespace NeuronFleet

------------------------------------------------------------
-- Sections
------------------------------------------------------------

/- Wallet keys. -/
structure WalletConfig where
  name : String := "default"
  hotkey : String := "default"
  -- comma-separated `coldkey:hotkey` pairs, one worker each
  sharedKeys : Option String := none
  deriving Repr, DecidableEq, Inhabited

/- The serving endpoint. -/
structure AxonConfig where
  bindAddress : String := "127.0.0.1"
  port : Nat := 8091
  -- comma-separated ports, parallel to the shared keys
  sharedPorts : Option String := none
  -- whether the port is bound at startup
  reservePort : Bool := true
  deriving Repr, DecidableEq, Inhabited

/- The serving loop. -/
structure NeuronConfig where
  name : String := "core_server"
  device : String := "cpu"
  syncInterval : Nat := 100
  localEpochs : Nat := 10
  smoothing : F32 := ⟨0x3CF5C28F⟩
  learningRate : F32 := ⟨0x3C23D70A⟩
  momentum : F32 := ⟨0x3F7AE148⟩
  batchSizeTrain : Nat := 4
  sequenceLength : Nat := 20
  logInterval : Nat := 10
  syncRetries : Nat := 2
  syncRetryBackoffMs : Nat := 500
  maxEpochs : Option Nat := none
  datapath : String := "data"
  parametersPath : Option String := none
  trialId : Option String := none
  deriving Repr, Inhabited

/- The reference model. -/
structure ModelConfig where
  vocabSize : Nat := 1024
  embeddingDim : Nat := 32
  seed : Nat := 42
  deriving Repr, DecidableEq, Inhabited

/- Where the shared state lives. -/
inductive Backend where
  | memory
  | file
  deriving Repr, DecidableEq, Inhabited

def Backend.name : Backend → String
  | .memory => "memory"
  | .file => "file"

/- The shared state. -/
structure MetagraphConfig where
  backend : Backend := .file
  path : String := "data/metagraph.json"
  inclusionTimeoutMs : Nat := 12000
  deriving Repr, DecidableEq, Inhabited

/- Supervision of worker processes. -/
structure SupervisorConfig where
  pollIntervalMs : Nat := 1000
  settleTimeoutMs : Nat := 1000
  runDir : Option String := none
  deriving Repr, DecidableEq, Inhabited

/- Logging and metrics. -/
structure ObservabilityConfig where
  logLevel : String := "info"
  enableMetrics : Bool := true
  deriving Repr, DecidableEq, Inhabited

/- The configuration of a fleet. -/
structure FleetConfig where
  wallet : WalletConfig := {}
  axon : AxonConfig := {}
  neuron : NeuronConfig := {}
  model : ModelConfig := {}
  metagraph : MetagraphConfig := {}
  supervisor : SupervisorConfig := {}
  observability : Option ObservabilityConfig := none
  deriving Repr, Inhabited

------------------------------------------------------------
-- Equality
------------------------------------------------------------

/- Equality of serving loops, the floats compared as numbers (so a NaN
differs from everything, itself included). -/
def NeuronConfig.same (a b : NeuronConfig) : Bool :=
  a.name == b.name && a.device == b.device && a.syncInterval == b.syncInterval &&
    a.localEpochs == b.localEpochs && a.smoothing.beq b.smoothing &&
    a.learningRate.beq b.learningRate && a.momentum.beq b.momentum &&
    a.batchSizeTrain == b.batchSizeTrain && a.sequenceLength == b.sequenceLength &&
    a.logInterval == b.logInterval && a.syncRetries == b.syncRetries &&
    a.syncRetryBackoffMs == b.syncRetryBackoffMs && a.maxEpochs == b.maxEpochs &&
    a.datapath == b.datapath && a.parametersPath == b.parametersPath && a.trialId == b.trialId

/- Equality of configurations, floats compared as numbers. -/
def FleetConfig.same (a b : FleetConfig) : Bool :=
  a.wallet == b.wallet && a.axon == b.axon && a.neuron.same b.neuron && a.model == b.model &&
    a.metagraph == b.metagraph && a.supervisor == b.supervisor &&
    a.observability == b.observability

------------------------------------------------------------
-- As data
------------------------------------------------------------

namespace Config

def optStr : Option String → Json
  | some s => .str s
  | none => .null

def optNat : Option Nat → Json
  | some n => .int n
  | none => .null

end Config

open Config

def WalletConfig.toJson (w : WalletConfig) : Json :=
  .obj [("name", .str w.name), ("hotkey", .str w.hotkey), ("shared_keys", optStr w.sharedKeys)]

def AxonConfig.toJson (a : AxonConfig) : Json :=
  .obj [("bind_address", .str a.bindAddress), ("port", .int a.port),
        ("shared_ports", optStr a.sharedPorts), ("reserve_port", .bool a.reservePort)]

/- The serving loop as data, its floats written by `single`. -/
def NeuronConfig.toJson
    (single : F32 → Json)
    (n : NeuronConfig) :
    Json :=
  .obj [("name", .str n.name), ("device", .str n.device), ("sync_interval", .int n.syncInterval),
        ("local_epochs", .int n.localEpochs), ("smoothing", single n.smoothing),
        ("learning_rate", single n.learningRate), ("momentum", single n.momentum),
        ("batch_size_train", .int n.batchSizeTrain), ("sequence_length", .int n.sequenceLength),
        ("log_interval", .int n.logInterval), ("sync_retries", .int n.syncRetries),
        ("sync_retry_backoff_ms", .int n.syncRetryBackoffMs), ("max_epochs", optNat n.maxEpochs),
        ("datapath", .str n.datapath), ("parameters_path", optStr n.parametersPath),
        ("trial_id", optStr n.trialId)]

def ModelConfig.toJson (m : ModelConfig) : Json :=
  .obj [("vocab_size", .int m.vocabSize), ("embedding_dim", .int m.embeddingDim),
        ("seed", .int m.seed)]

def MetagraphConfig.toJson (m : MetagraphConfig) : Json :=
  .obj [("backend", .str m.backend.name), ("path", .str m.path),
        ("inclusion_timeout_ms", .int m.inclusionTimeoutMs)]

def SupervisorConfig.toJson (s : SupervisorConfig) : Json :=
  .obj [("poll_interval_ms", .int s.pollIntervalMs), ("settle_timeout_ms", .int s.settleTimeoutMs),
        ("run_dir", optStr s.runDir)]

def ObservabilityConfig.toJson (o : ObservabilityConfig) : Json :=
  .obj [("log_level", .str o.logLevel), ("enable_metrics", .bool o.enableMetrics)]

/- The configuration as data, its floats written by `single`;
observability appears only when it is set. -/
def FleetConfig.toJson
    (single : F32 → Json)
    (c : FleetConfig) :
    Json :=
  .obj ([("wallet", c.wallet.toJson), ("axon", c.axon.toJson), ("neuron", c.neuron.toJson single),
         ("model", c.model.toJson), ("metagraph", c.metagraph.toJson),
         ("supervisor", c.supervisor.toJson)] ++
        match c.observability with
        | some o => [("observability", o.toJson)]
        | none => [])

namespace Config

/- A record schema whose fields default to the members of `defaults`. -/
def record
    (name : String)
    (defaults : Json)
    (fields : List (String × Schema)) :
    Schema :=
  .record name (fields.map fun (k, s) => (k, s, defaults.field? k))

def wallet : Schema :=
  record "WalletConfig" ({} : WalletConfig).toJson
    [("name", .string), ("hotkey", .string), ("shared_keys", .option .string)]

def axon : Schema :=
  record "AxonConfig" ({} : AxonConfig).toJson
    [("bind_address", .string), ("port", Schema.u16), ("shared_ports", .option .string),
     ("reserve_port", .bool)]

def neuron : Schema :=
  record "NeuronConfig" (({} : NeuronConfig).toJson .single)
    [("name", .string), ("device", .string), ("sync_interval", Schema.u64),
     ("local_epochs", Schema.u64), ("smoothing", .single), ("learning_rate", .single),
     ("momentum", .single), ("batch_size_train", Schema.usize), ("sequence_length", Schema.usize),
     ("log_interval", Schema.u64), ("sync_retries", Schema.u32),
     ("sync_retry_backoff_ms", Schema.u64), ("max_epochs", .option Schema.u64),
     ("datapath", .path), ("parameters_path", .option .path), ("trial_id", .option .string)]

def model : Schema :=
  record "ModelConfig" ({} : ModelConfig).toJson
    [("vocab_size", Schema.usize), ("embedding_dim", Schema.usize), ("seed", Schema.u64)]

def metagraph : Schema :=
  record "MetagraphConfig" ({} : MetagraphConfig).toJson
    [("backend", .choice "MetagraphBackend" ["memory", "file"]), ("path", .path),
     ("inclusion_timeout_ms", Schema.u64)]

def supervisor : Schema :=
  record "SupervisorConfig" ({} : SupervisorConfig).toJson
    [("poll_interval_ms", Schema.u64), ("settle_timeout_ms", Schema.u64),
     ("run_dir", .option .path)]

def observability : Schema :=
  record "ObservabilityConfig" ({} : ObservabilityConfig).toJson
    [("log_level", .string), ("enable_metrics", .bool)]

end Config

/- The shape of a configuration document: every section may be left
out, observability stays unset when it is. -/
def FleetConfig.schema : Schema :=
  .record "FleetConfig"
    [("wallet", Config.wallet, some ({} : WalletConfig).toJson),
     ("axon", Config.axon, some ({} : AxonConfig).toJson),
     ("neuron", Config.neuron, some (({} : NeuronConfig).toJson .single)),
     ("model", Config.model, some ({} : ModelConfig).toJson),
     ("metagraph", Config.metagraph, some ({} : MetagraphConfig).toJson),
     ("supervisor", Config.supervisor, some ({} : SupervisorConfig).toJson),
     ("observability", .option Config.observability, none)]

namespace Config

/- Members of a record read against its schema, each with a fallback. -/
def text
    (j : Json)
    (k : String)
    (d : String) :
    String :=
  match j.field? k with
  | some (.str s) => s
  | _ => d

def nat
    (j : Json)
    (k : String)
    (d : Nat) :
    Nat :=
  match j.field? k with
  | some (.int n) => n.toNat
  | _ => d

def flag
    (j : Json)
    (k : String)
    (d : Bool) :
    Bool :=
  match j.field? k with
  | some (.bool b) => b
  | _ => d

def single
    (j : Json)
    (k : String)
    (d : F32) :
    F32 :=
  match j.field? k with
  | some (.single x) => x
  | _ => d

def optText
    (j : Json)
    (k : String) :
    Option String :=
  match j.field? k with
  | some (.str s) => some s
  | _ => none

def optNatOf
    (j : Json)
    (k : String) :
    Option Nat :=
  match j.field? k with
  | some (.int n) => some n.toNat
  | _ => none

end Config

def WalletConfig.ofJson (j : Json) : WalletConfig :=
  let d : WalletConfig := {}
  ⟨Config.text j "name" d.name, Config.text j "hotkey" d.hotkey, Config.optText j "shared_keys"⟩

def AxonConfig.ofJson (j : Json) : AxonConfig :=
  let d : AxonConfig := {}
  ⟨Config.text j "bind_address" d.bindAddress, Config.nat j "port" d.port,
   Config.optText j "shared_ports", Config.flag j "reserve_port" d.reservePort⟩

def NeuronConfig.ofJson (j : Json) : NeuronConfig :=
  let d : NeuronConfig := {}
  { name := Config.text j "name" d.name, device := Config.text j "device" d.device,
    syncInterval := Config.nat j "sync_interval" d.syncInterval,
    localEpochs := Config.nat j "local_epochs" d.localEpochs,
    smoothing := Config.single j "smoothing" d.smoothing,
    learningRate := Config.single j "learning_rate" d.learningRate,
    momentum := Config.single j "momentum" d.momentum,
    batchSizeTrain := Config.nat j "batch_size_train" d.batchSizeTrain,
    sequenceLength := Config.nat j "sequence_length" d.sequenceLength,
    logInterval := Config.nat j "log_interval" d.logInterval,
    syncRetries := Config.nat j "sync_retries" d.syncRetries,
    syncRetryBackoffMs := Config.nat j "sync_retry_backoff_ms" d.syncRetryBackoffMs,
    maxEpochs := Config.optNatOf j "max_epochs",
    datapath := Config.text j "datapath" d.datapath,
    parametersPath := Config.optText j "parameters_path",
    trialId := Config.optText j "trial_id" }

def ModelConfig.ofJson (j : Json) : ModelConfig :=
  let d : ModelConfig := {}
  ⟨Config.nat j "vocab_size" d.vocabSize, Config.nat j "embedding_dim" d.embeddingDim,
   Config.nat j "seed" d.seed⟩

def MetagraphConfig.ofJson (j : Json) : MetagraphConfig :=
  let d : MetagraphConfig := {}
  ⟨if Config.text j "backend" "file" == "memory" then .memory else .file,
   Config.text j "path" d.path, Config.nat j "inclusion_timeout_ms" d.inclusionTimeoutMs⟩

def SupervisorConfig.ofJson (j : Json) : SupervisorConfig :=
  let d : SupervisorConfig := {}
  ⟨Config.nat j "poll_interval_ms" d.pollIntervalMs,
   Config.nat j "settle_timeout_ms" d.settleTimeoutMs, Config.optText j "run_dir"⟩

def ObservabilityConfig.ofJson (j : Json) : ObservabilityConfig :=
  let d : ObservabilityConfig := {}
  ⟨Config.text j "log_level" d.logLevel, Config.flag j "enable_metrics" d.enableMetrics⟩

/- A configuration from data of the shape `FleetConfig.schema`. -/
def FleetConfig.ofJson (j : Json) : FleetConfig :=
  let section_ (k : String) : Json := (j.field? k).getD (.obj [])
  { wallet := WalletConfig.ofJson (section_ "wallet"),
    axon := AxonConfig.ofJson (section_ "axon"),
    neuron := NeuronConfig.ofJson (section_ "neuron"),
    model := ModelConfig.ofJson (section_ "model"),
    metagraph := MetagraphConfig.ofJson (section_ "metagraph"),
    supervisor := SupervisorConfig.ofJson (section_ "supervisor"),
    observability := match j.field? "observability" with
      | some (.obj ms) => some (ObservabilityConfig.ofJson (.obj ms))
      | _ => none }

------------------------------------------------------------
-- Validation
------------------------------------------------------------

namespace FleetConfig

/- Checks the configuration, reporting the first failure in this
order: momentum in `(0, 1)`, a positive batch size, a positive learning
rate, a positive sync interval, smoothing in `(0, 1]`, positive local
epochs, sequences of at least two tokens, a positive vocabulary and
embedding, a positive poll interval, and shared keys and ports set
together. -/
def validate (c : FleetConfig) : Outcome Unit := do
  let n := c.neuron
  if !(F32.lt 0 n.momentum && F32.lt n.momentum 1) then
    throw (.config "neuron.momentum must be a value between 0 and 1")
  if n.batchSizeTrain == 0 then throw (.config "neuron.batch_size_train must be a positive value")
  if !F32.lt 0 n.learningRate then throw (.config "neuron.learning_rate must be a positive value")
  if n.syncInterval == 0 then throw (.config "neuron.sync_interval must be a positive value")
  if !(F32.lt 0 n.smoothing && F32.le n.smoothing 1) then
    throw (.config "neuron.smoothing must be in (0, 1]")
  if n.localEpochs == 0 then throw (.config "neuron.local_epochs must be a positive value")
  if n.sequenceLength < 2 then throw (.config "neuron.sequence_length must be at least 2")
  if c.model.vocabSize == 0 || c.model.embeddingDim == 0 then
    throw (.config "model.vocab_size and model.embedding_dim must be positive")
  if c.supervisor.pollIntervalMs == 0 then
    throw (.config "supervisor.poll_interval_ms must be a positive value")
  match c.wallet.sharedKeys, c.axon.sharedPorts with
  | some _, none => throw (.config "wallet.shared_keys is set but axon.shared_ports is missing")
  | none, some _ => throw (.config "axon.shared_ports is set but wallet.shared_keys is missing")
  | _, _ => pure ()

------------------------------------------------------------
-- Identities and paths
------------------------------------------------------------

/- Whether the configuration fans out into several workers. -/
def isShared (c : FleetConfig) : Bool := c.wallet.sharedKeys.isSome

/- The identity the configuration serves under. -/
def identity (c : FleetConfig) : Identity := ⟨c.wallet.name, c.wallet.hotkey, c.axon.port⟩

/- The configuration of one worker: the identity's keys and port, no
shared keys or ports. -/
def withIdentity
    (c : FleetConfig)
    (i : Identity) :
    FleetConfig :=
  { c with wallet := { c.wallet with name := i.coldkey, hotkey := i.hotkey, sharedKeys := none },
           axon := { c.axon with port := i.port, sharedPorts := none } }

/- The configurations of the fleet's workers: the configuration itself
when it has no shared keys, else one per identity of the shared keys
and ports. -/
def fanOut (c : FleetConfig) : Outcome (List FleetConfig) :=
  match c.wallet.sharedKeys with
  | none => .ok [c]
  | some keys =>
    match c.axon.sharedPorts with
    | none => .error (.config "wallet.shared_keys is set but axon.shared_ports is missing")
    | some ports => do
      let ids ← Identity.parseShared keys ports
      return ids.map c.withIdentity

end FleetConfig

namespace Config

/- Appends a part to a path: an absolute part replaces the path, and a
separator is added unless the path is empty or already ends in one. -/
def joinPath (base part : String) : String :=
  if part.startsWith "/" then part
  else if base.isEmpty || base.endsWith "/" then base ++ part
  else base ++ "/" ++ part

/- The default logging directives: the configured level (or `info`)
for each of the fleet's components. -/
def directives (c : Option FleetConfig) : String :=
  let level := match c.bind (·.observability) with
    | some o => o.logLevel
    | none => "info"
  "axonfleet=" ++ level ++ ",axonfleet_supervisor=" ++ level ++ ",axonfleet_worker=" ++ level ++
    ",axonfleet_common=" ++ level

end Config

namespace FleetConfig

/- The working directory of the configuration's identity:
`datapath/wallet/hotkey/neuron`. -/
def fullPath (c : FleetConfig) : String :=
  Config.joinPath (Config.joinPath (Config.joinPath c.neuron.datapath c.wallet.name) c.wallet.hotkey)
    c.neuron.name

/- The shared parameter file: as set, else `datapath/shared_parameters.bin`. -/
def parametersPath (c : FleetConfig) : String :=
  c.neuron.parametersPath.getD (Config.joinPath c.neuron.datapath "shared_parameters.bin")

/- The directory of per-worker configuration files: as set, else
`datapath/runs`. -/
def runDir (c : FleetConfig) : String :=
  c.supervisor.runDir.getD (Config.joinPath c.neuron.datapath "runs")

/- The endpoint `address:port`. -/
def endpoint (c : FleetConfig) : String := c.axon.bindAddress ++ ":" ++ toString c.axon.port

end FleetConfig

end NeuronFleet
