import NeuronFleet.FileTree
import NeuronFleet.Serve
import NeuronFleet.Config.Load
import NeuronFleet.Config.Document

/-
  Serving on a tree of files.

  Serving reads and writes files: the shared parameter table, the shared
  document and its lock, the neuron's working directory and its
  checkpoint.  Here those files live in a `FileTree`, and serving is a
  function from the tree before the run to the tree after it.

  The table is exported only when nothing is at its path: its directory
  is made, the table written to a temporary sibling named after the
  writer and renamed into place.  Serving then makes the shared
  document's directory (for a document on disk) and the working
  directory, runs, and leaves the lock file, the document and the
  checkpoint behind.  A run without an epoch bound runs a budget of
  epochs; when none of them fails it is still serving.

  The configuration file is the path itself when it is a file, else the
  path with `.yaml` or `.yml` added, when one of those is a file.

  Main definitions:
    * `FileTree.exportTable`, `FileTree.ensureParameters`
    * `FileTree.tableEntry`, `FileTree.diskAt`, `FileTree.keepDisk`
    * `Serving`, `FileTree.serve`
    * `ConfigFile`, `FileTree.configFile`, `FileTree.loadConfig`
-/

namespace NeuronFleet

/- How a serving run ended. -/
inductive Serving where
  | finished (s : Summary)
  | failed (e : Error)
  -- no epoch bound is configured, and no epoch of the budget failed
  | ongoing

/- Where a configuration file was looked for, and what was found. -/
inductive ConfigFile where
  -- nothing is at the path
  | absent
  -- neither the path nor the path with `.yaml` or `.yml` added is a file
  | unfound
  -- the file found, by the name it was found under, and its text
  | found (name text : String)

namespace FileTree

------------------------------------------------------------
-- Files of the serving path
------------------------------------------------------------

/- A failed file operation as an operating-system error. -/
def ioError (f : IoFailure) : Error := .io f.message

/- The components of a path's directory. -/
def parentParts (p : String) : List String := (pathParts p).dropLast

/- Reads bytes as text; bytes that are not UTF-8 are read one
character a byte. -/
def textOf (b : ByteArray) : String :=
  (String.fromUTF8? b).getD (String.ofList (b.toList.map fun x => Char.ofNat x.toNat))

/- Writes the table of the model's shape and seed to `path`: makes its
directory, writes a temporary sibling named after `tag`, and renames
that into place. -/
def exportTable
    (t : FileTree)
    (path : String)
    (m : ModelConfig)
    (tag : String) :
    Outcome FileTree := do
  let (_, bytes) ← ParameterTable.generate path m.vocabSize m.embeddingDim m.seed tag none
  let t ← (t.makeDirAllParts (parentParts path)).mapError ioError
  let temp := ParameterTable.withExtension path ("tmp." ++ tag)
  let t ← (t.write temp bytes).mapError fun f =>
    Error.model ("Failed to create " ++ temp ++ ": " ++ f.message)
  (t.move temp path).mapError ioError

/- Exports the configured table unless something is at its path. -/
def ensureParameters
    (t : FileTree)
    (config : FleetConfig)
    (tag : String) :
    Outcome FileTree :=
  if t.present config.parametersPath then .ok t
  else t.exportTable config.parametersPath config.model tag

/- What a path holds, as the table reader sees it. -/
def tableEntry
    (t : FileTree)
    (p : String) :
    FileEntry :=
  match t.get p with
  | some (.file b) => .bytes b
  | some .dir => .directory
  | none => .missing

/- The configured shared document and its lock as they stand in the tree. -/
def diskAt
    (t : FileTree)
    (config : FleetConfig) :
    Disk :=
  let path := config.metagraph.path
  let lock := ParameterTable.withExtension path "lock"
  let doc : Entry := match t.get path with
    | some (.file b) => .file (textOf b)
    | some .dir => .directory
    | none => .missing
  { (Disk.fresh path lock config.metagraph.inclusionTimeoutMs : Disk) with
    doc, lockIsDirectory := t.isDir lock }

/- Writes a file, leaving the tree as it is when that fails. -/
def writeOver
    (t : FileTree)
    (p : String)
    (bytes : ByteArray) :
    FileTree :=
  match t.write p bytes with
  | .ok t' => t'
  | .error _ => t

/- Leaves the lock file (empty when new) and the document of a run. -/
def keepDisk
    (t : FileTree)
    (d : Disk) :
    FileTree :=
  let t := if t.present d.lockPath then t else t.writeOver d.lockPath ByteArray.empty
  match d.doc with
  | .file text => t.writeOver d.docPath text.toUTF8
  | _ => t

------------------------------------------------------------
-- Serving
------------------------------------------------------------

/- Makes a directory path, as a step of serving: `ok` gives the tree
after it and how it went. -/
def makeDirs
    (t : FileTree)
    (ps : List String)
    (failure : IoFailure → Error) :
    FileTree × Outcome Unit :=
  match t.makeDirAllParts ps with
  | .ok t' => (t', .ok ())
  | .error f => (t, .error (failure f))

/- Serves a configuration on the tree's files; without an epoch bound,
`budget` epochs are run.  `freshTrialId` is the trial when none is
configured, and `tag` names the writer of temporary files. -/
def serve
    (t : FileTree)
    (config : FleetConfig)
    (freshTrialId tag : String)
    (budget : Nat) :
    FileTree × Serving :=
  match t.ensureParameters config tag with
  | .error e => (t, .failed e)
  | .ok t =>
    let (t, sharedDir) :=
      if config.metagraph.backend == .file then t.makeDirs (parentParts config.metagraph.path) ioError
      else (t, .ok ())
    let work := config.fullPath
    let (t, workdir) := t.makeDirs (pathParts work) fun f =>
      .config ("Failed to create " ++ work ++ ": " ++ f.message)
    let file := Config.joinPath work "model.json"
    let blocked := if t.isDir (file ++ ".tmp") || t.isDir file then some IoFailure.isDirectory else none
    -- the tree holds files only: no other socket holds an endpoint
    let footing : Footing :=
      ⟨t.tableEntry config.parametersPath, sharedDir, t.diskAt config,
        workdir.map fun () => Checkpointer.new blocked, []⟩
    match NeuronFleet.serve config footing freshTrialId (config.neuron.maxEpochs.getD budget) with
    | .error e => (t, .failed e)
    | .ok s =>
      let t := match s.disk with
        | some d => t.keepDisk d
        | none => t
      let t := match s.checkpoint with
        | some text => t.writeOver file text.toUTF8
        | none => t
      (t, if config.neuron.maxEpochs.isSome then .finished s.summary else .ongoing)

------------------------------------------------------------
-- Configuration files
------------------------------------------------------------

/- Looks for the configuration file at `path`. -/
def configFile
    (t : FileTree)
    (path : String) :
    ConfigFile :=
  if !t.present path then .absent
  else
    let candidates := path :: ["yaml", "yml"].map fun ext => path ++ "." ++ ext
    match candidates.findSome? fun c =>
        match t.get c with
        | some (.file b) => some (c, textOf b)
        | _ => none with
    | some (name, text) => .found name text
    | none => .unfound

/- Loads and validates the configuration file at `path` under the
environment `env`. -/
def loadConfig
    (t : FileTree)
    (path : String)
    (env : List (String × String)) :
    Except Halt FleetConfig :=
  match t.configFile path with
  | .absent => FleetConfig.load path none env
  | .unfound =>
    throw (.error (.config ("Failed to read config file " ++ path ++ ": configuration file \"" ++
      path ++ "\" not found")))
  | .found name text => FleetConfig.loadFound path name text env

end FileTree

end NeuronFleet
