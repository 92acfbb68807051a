import NeuronFleet.Metagraph.Link
import NeuronFleet.Json.Read
import NeuronFleet.Text.Duration

/-
  Stores of the shared state, and handles on them.

  A store is where the shared state lives between the neurons that
  use it.  `Store.memory` keeps it in memory: every change applies at
  once.  `Store.disk` keeps it as a JSON document on disk that several
  processes share.  A writer opens a lock file beside the document,
  making it when missing (an empty document, when the document's path
  is the lock's), takes an exclusive lock on it, reads the document (a
  missing one is the empty state), changes it and writes it back
  whole; a lock held elsewhere makes the writer give up after the
  inclusion timeout.  A writer that
  waits for inclusion reads the document once more and asks that its
  row be there, or that a later version be.

  A `StateCodec` writes the state to a document and reads it back.  The
  document is the compact JSON text of the state,
  `{"version":V,"neurons":[..],"weights":{"n":N,"data":[..]}}`, floats
  in their shortest form and NaN written `null` (so a state holding NaN
  does not read back).

  A handle acts for one hotkey and keeps its own snapshot of the state:
  registering registers and then refreshes the snapshot, refreshing
  reads the store, publishing leaves the snapshot as it was.  A
  `Session` holds a store and the handles on it.

  Main definitions:
    * `SharedState.schema`, `SharedState.ofJson`, `SharedState.toDocument`,
      `SharedState.readDocument`, `StateCodec`
    * `Store`, `Store.memory`, `Disk`, `Store.disk`, `Store.link`
    * `Request`, `Reply`, `Session`, `Session.handle`
-/

namespace NeuronFleet

------------------------------------------------------------
-- The document
------------------------------------------------------------

namespace SharedState

/- The shape of the shared document; every field is required. -/
def schema : Schema :=
  .record "SharedState"
    [("version", Schema.u64, none), ("neurons", .list .string, none),
     ("weights", .record "WeightMatrix" [("n", Schema.usize, none), ("data", .list .single, none)],
       none)]

/- A natural number member of a document. -/
def natField
    (j : Json)
    (k : String) :
    Nat :=
  match j.field? k with
  | some (.int n) => n.toNat
  | _ => 0

/- A state from data of the shape `schema`. -/
def ofJson (j : Json) : SharedState :=
  let neurons := match j.field? "neurons" with
    | some (.arr xs) => xs.filterMap fun
      | .str s => some s
      | _ => none
    | _ => []
  let w := (j.field? "weights").getD .null
  let data := match w.field? "data" with
    | some (.arr xs) => xs.filterMap fun
      | .single x => some x
      | _ => none
    | _ => []
  ⟨UInt64.ofNat (natField j "version"), neurons, ⟨natField w "n", data⟩⟩

/- The compact JSON document of a state. -/
def toDocument (s : SharedState) : String :=
  Json.write (.obj [("version", .int s.version.toNat), ("neurons", .arr (s.neurons.map .str)),
    ("weights", .obj [("n", .int s.weights.n), ("data", .arr (s.weights.data.map .single))])])

/- Reads a shared document; a document that does not read is a
serialization error. -/
def readDocument (text : String) : Outcome SharedState :=
  match Json.readAs schema text with
  | .ok j => .ok (ofJson j)
  | .error e => .error (.serialization e.message)

/- Whether the row of `hotkey` in the state begins with `row`, entry by
entry equal as numbers (so never when `row` holds NaN). -/
def holdsRow
    (s : SharedState)
    (hotkey : String)
    (row : List F32) :
    Bool :=
  match s.rowOf hotkey with
  | some r => row.length ≤ r.length && (row.zip r).all fun (a, b) => a == b
  | none => false

end SharedState

/- How the shared state is written to a document of type `δ`, and read
back from one. -/
class StateCodec (δ : Type) where
  encode : SharedState → δ
  decode : δ → Outcome SharedState
  -- what an empty file holds
  blank : δ

/- The state as its compact JSON text. -/
instance : StateCodec String :=
  ⟨SharedState.toDocument, SharedState.readDocument, ""⟩

------------------------------------------------------------
-- Stores
------------------------------------------------------------

/- A store of the shared state inside a world `β`. -/
structure Store (β : Type) where
  -- the state as a handle reads it now
  read : β → Outcome SharedState
  -- registers a hotkey; gives its uid
  register : β → String → β × Outcome Nat
  -- publishes the row of a hotkey, waiting for its inclusion when asked
  publish : β → String → List F32 → Bool → β × Outcome Unit

/- The state held in memory; changes apply at once. -/
def Store.memory : Store SharedState where
  read s := .ok s
  register s h :=
    let (uid, s') := s.register h
    (s', .ok uid)
  publish s h row _ :=
    match s.applyRow h row with
    | .ok (_, s') => (s', .ok ())
    | .error e => (s, .error e)

/- What the document's path holds: documents are of type `δ`, JSON text
unless said otherwise. -/
inductive Entry (δ : Type := String) where
  | missing
  | directory
  | file (content : δ)
  deriving Repr, DecidableEq, Inhabited

/- The shared document on disk and its lock. -/
structure Disk (δ : Type := String) where
  -- where the document lives
  docPath : String
  -- where its lock file lives
  lockPath : String
  doc : Entry δ
  -- whether someone else holds the lock
  lockHeld : Bool
  -- whether the lock's path is a directory, so it cannot be opened
  lockIsDirectory : Bool
  -- how long a writer waits for the lock, and for inclusion
  timeoutMs : Nat
  deriving Repr, Inhabited

namespace Disk

variable {δ : Type}

/- A disk where the document does not exist yet. -/
def fresh
    (docPath lockPath : String)
    (timeoutMs : Nat) :
    Disk δ :=
  ⟨docPath, lockPath, .missing, false, false, timeoutMs⟩

/- The state on disk now: a missing document is the empty state. -/
def read
    [StateCodec δ]
    (d : Disk δ) :
    Outcome SharedState :=
  match d.doc with
  | .missing => .ok SharedState.empty
  | .directory => .error (.metagraph ("Failed to read " ++ d.docPath ++ ": Is a directory (os error 21)"))
  | .file content => StateCodec.decode content

/- Takes the writer lock. -/
def lock (d : Disk δ) : Outcome Unit :=
  if d.lockIsDirectory then
    .error (.metagraph ("Failed to open lock " ++ d.lockPath ++ ": Is a directory (os error 21)"))
  else if d.lockHeld then
    .error (.timeout ("metagraph lock " ++ d.lockPath ++ " still held after " ++
      Text.millisText d.timeoutMs))
  else .ok ()

/- Opens the lock file, which makes it when it is missing: a missing
document whose lock has its path becomes an empty file. -/
def openLock
    [StateCodec δ]
    (d : Disk δ) :
    Disk δ :=
  match d.doc with
  | .missing => if d.lockPath = d.docPath then { d with doc := .file StateCodec.blank } else d
  | _ => d

/- Opens the lock file and, under the lock, reads the state, changes it
and writes it back; a lock path that is a directory does not open. -/
def update
    [StateCodec δ]
    (d : Disk δ)
    (f : SharedState → Outcome (α × SharedState)) :
    Disk δ × Outcome α :=
  let d := if d.lockIsDirectory then d else d.openLock
  let r := do
    d.lock
    let s ← d.read
    f s
  match r with
  | .ok (a, s') => ({ d with doc := .file (StateCodec.encode s') }, .ok a)
  | .error e => (d, .error e)

/- Reads the document once more after publishing version `version`:
the row must be there, or a later version. -/
def checkInclusion
    [StateCodec δ]
    (d : Disk δ)
    (hotkey : String)
    (row : List F32)
    (version : UInt64) :
    Outcome Unit := do
  let s ← d.read
  if (s.version ≥ version && s.holdsRow hotkey row) || s.version > version then pure ()
  else throw (.timeout ("row for " ++ hotkey ++ " not included after " ++ Text.millisText d.timeoutMs))

end Disk

/- The state as a shared document on disk. -/
def Store.disk
    {δ : Type}
    [StateCodec δ] :
    Store (Disk δ) where
  read d := d.read
  register d h := d.update fun s =>
    let (uid, s') := s.register h
    .ok (uid, s')
  publish d h row wait :=
    let (d, r) := d.update fun s => s.applyRow h row
    match r with
    | .error e => (d, .error e)
    | .ok version => (d, if wait then d.checkInclusion h row version else .ok ())

/- A link for one hotkey through a store: refreshing reads the store,
publishing publishes, and registering registers and then refreshes. -/
def Store.link (st : Store β) : Link (β × View) where
  sync w :=
    match st.read w.1 with
    | .ok s => ((w.1, { w.2 with snapshot := s }), .ok ())
    | .error e => (w, .error e)
  emit w row wait :=
    let (b, r) := st.publish w.1 w.2.hotkey row wait
    ((b, w.2), r)
  register w :=
    let (b, r) := st.register w.1 w.2.hotkey
    match r with
    | .error e => ((b, w.2), .error e)
    | .ok uid =>
      match st.read b with
      | .ok s => ((b, { w.2 with snapshot := s }), .ok uid)
      | .error e => ((b, w.2), .error e)
  view w := w.2

------------------------------------------------------------
-- Handles
------------------------------------------------------------

/- What a handle is asked to do. -/
inductive Request where
  | register (hotkey : String)
  | sync (hotkey : String)
  | emit (hotkey : String) (row : List F32) (wait : Bool)
  | snapshot (hotkey : String)
  | uidOf (hotkey peer : String)

/- What a handle answers. -/
inductive Reply where
  | registered (uid : Nat) (view : View)
  | synced (view : View)
  | emitted (view : View)
  | snapshot (view : View)
  | uid (uid : Option Nat)
  | failed (e : Error)

/- A store and the handles on it, each with its hotkey and snapshot. -/
structure Session (β : Type) where
  store : β
  views : List View

namespace Session

/- The view of a hotkey's handle; a handle is made on first use. -/
def view
    (ses : Session β)
    (hotkey : String) :
    View :=
  (ses.views.find? (·.hotkey == hotkey)).getD (View.fresh hotkey)

/- Replaces the view of a handle, or adds it. -/
def setView
    (ses : Session β)
    (v : View) :
    Session β :=
  if ses.views.any (·.hotkey == v.hotkey) then
    { ses with views := ses.views.map fun w => if w.hotkey == v.hotkey then v else w }
  else { ses with views := ses.views ++ [v] }

/- Makes sure a hotkey has a handle. -/
def touch
    (ses : Session β)
    (hotkey : String) :
    Session β := ses.setView (ses.view hotkey)

/- Carries out one request on a store. -/
def handle
    (st : Store β)
    (ses : Session β) :
    Request → Session β × Reply
  | .register h =>
    let ses := ses.touch h
    let (b, r) := st.register ses.store h
    let ses := { ses with store := b }
    match r with
    | .error e => (ses, .failed e)
    | .ok uid =>
      match st.read b with
      | .error e => (ses, .failed e)
      | .ok s =>
        let v := { ses.view h with snapshot := s }
        (ses.setView v, .registered uid v)
  | .sync h =>
    let ses := ses.touch h
    match st.read ses.store with
    | .error e => (ses, .failed e)
    | .ok s =>
      let v := { ses.view h with snapshot := s }
      (ses.setView v, .synced v)
  | .emit h row wait =>
    let ses := ses.touch h
    let (b, r) := st.publish ses.store h row wait
    let ses := { ses with store := b }
    match r with
    | .error e => (ses, .failed e)
    | .ok () => (ses, .emitted (ses.view h))
  | .snapshot h =>
    let ses := ses.touch h
    (ses, .snapshot (ses.view h))
  | .uidOf h peer =>
    let ses := ses.touch h
    (ses, .uid ((ses.view h).snapshot.uidOf peer))

end Session

end NeuronFleet
