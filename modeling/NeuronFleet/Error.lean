/-
  Errors of the fleet.

  Each constructor names a cause; `Error.message` gives its one-line
  text with a prefix naming the kind, `Error.isTransient` tells the
  errors a training loop may skip over (a bad batch, a model step that
  failed), and `Error.trace` writes the error followed by its chain of
  underlying causes.  A reading, YAML or I/O error carries the text of
  the underlying problem, which is also its one cause.

  Main definitions:
    * `Error`, `Error.message`, `Error.isTransient`, `Error.causes`,
      `Error.trace`, `Outcome`, `Halt`
-/

namespace NeuronFleet

------------------------------------------------------------
-- Errors
------------------------------------------------------------

/- Why an operation of the fleet failed. -/
inductive Error where
  -- the configuration is invalid or cannot be read
  | config (text : String)
  -- the model or its parameter table rejected an operation
  | model (text : String)
  -- A batch or a weight contribution is malformed
  | invalidInput (text : String)
  -- the shared state rejected an operation or cannot be read
  | metagraph (text : String)
  -- publishing the weight row failed for good
  | sync (text : String)
  -- the priority table or its endpoint rejected an operation
  | axon (text : String)
  -- A worker could not be started
  | workerStartup (text : String)
  -- A worker reported a fault or ended without completing
  | childProcess (worker trace : String)
  -- A report violated the protocol
  | protocol (text : String)
  -- A JSON document could not be read
  | serialization (cause : String)
  -- A YAML document could not be read
  | yaml (cause : String)
  -- an operating system operation failed
  | io (cause : String)
  -- A wait ran out
  | timeout (text : String)
  -- an invariant of the fleet broke
  | internal (text : String)
  deriving Repr, DecidableEq, Inhabited

namespace Error

/- The one-line text: a prefix naming the kind, then the details. -/
def message : Error → String
  | .config t => "Configuration error: " ++ t
  | .model t => "Model error: " ++ t
  | .invalidInput t => "Invalid input: " ++ t
  | .metagraph t => "Metagraph error: " ++ t
  | .sync t => "Weight sync failed: " ++ t
  | .axon t => "Axon error: " ++ t
  | .workerStartup t => "Worker startup failed: " ++ t
  | .childProcess w t => "Child process error in worker " ++ w ++ ":\n" ++ t
  | .protocol t => "Protocol error: " ++ t
  | .serialization c => "Serialization error: " ++ c
  | .yaml c => "YAML error: " ++ c
  | .io c => "I/O error: " ++ c
  | .timeout t => "Operation timed out: " ++ t
  | .internal t => "Internal error: " ++ t

/- The name of the error's kind. -/
def kind : Error → String
  | .config _ => "Config"
  | .model _ => "Model"
  | .invalidInput _ => "InvalidInput"
  | .metagraph _ => "Metagraph"
  | .sync _ => "Sync"
  | .axon _ => "Axon"
  | .workerStartup _ => "WorkerStartup"
  | .childProcess _ _ => "ChildProcess"
  | .protocol _ => "Protocol"
  | .serialization _ => "Serialization"
  | .yaml _ => "Yaml"
  | .io _ => "Io"
  | .timeout _ => "Timeout"
  | .internal _ => "Internal"

/- The error of a kind that carries only a text, from the kind's name
and the text; none for other names. -/
def ofKind (kind text : String) : Option Error :=
  ([config text, model text, invalidInput text, metagraph text, sync text, axon text,
    workerStartup text, protocol text, io text, timeout text, internal text] : List Error).find?
    (·.kind == kind)

/- Errors a training loop counts and skips: model and input errors. -/
def isTransient : Error → Bool
  | .model _ | .invalidInput _ => true
  | _ => false

/- The underlying causes, outermost first. -/
def causes : Error → List String
  | .serialization c | .yaml c | .io c => [c]
  | _ => []

/- The message, then a `Caused by:` section with one numbered line per
cause, when there are causes. -/
def trace (e : Error) : String :=
  match e.causes with
  | [] => e.message
  | cs =>
    e.message ++ "\n\nCaused by:" ++
      String.join ((List.range cs.length).zip cs |>.map fun (i, c) =>
        "\n    " ++ toString i ++ ": " ++ c)

end Error

/- Results of the fleet's operations. -/
abbrev Outcome (α : Type) := Except Error α

/- How an operation ends when it does not succeed: with an error, or
by aborting on an input outside what it handles at all. -/
inductive Halt where
  | error (e : Error)
  | abort
  deriving Repr, DecidableEq, Inhabited

end NeuronFleet
