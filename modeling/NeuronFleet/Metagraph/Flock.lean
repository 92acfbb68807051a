import NeuronFleet.Metagraph.Store
import Mathlib.Logic.Function.Basic

/-
  Writers of one shared document in several processes, their steps
  interleaved.

  Files are named by paths and live in inodes: a path names an inode,
  an inode holds a document, and an exclusive lock (a flock) is held on
  an inode, not on a path.  A writer makes each of its changes in five
  steps of its own, and any other writer may step between them:
    1. it opens the lock file, making it, empty, when it is missing;
    2. it takes the lock on the inode it opened, or finds it held and
       tries again later, or gives up after its timeout;
    3. it reads the document, a missing one being the empty state, and
       makes its change; a document that does not read, or a change
       that is refused, ends the update and releases the lock;
    4. it writes the changed state, whole, to a temporary file of its
       own;
    5. it renames that file over the document and releases the lock.
  Renaming makes the document's path name the temporary file's inode.
  Reading the document at any moment reads the inode its path names.

  Main definitions:
    * `Volume`, `Volume.openFile`, `Volume.writeFile`, `Volume.rename`,
      `Volume.readState`, `Volume.disk`
    * `UpdatePaths`
    * `Stage`, `Writer`, `Commit`, `Writers`, `Writers.step`, `Writers.run`
-/

namespace NeuronFleet

open SharedState (Change)

------------------------------------------------------------
-- Files and Locks
------------------------------------------------------------

/- The files writers share, and the locks held on them. -/
structure Volume (δ : Type) where
  -- the inode a path names
  entry : String → Option Nat
  -- the document an inode holds
  content : Nat → δ
  -- the inode the next new file gets
  next : Nat
  -- the writer holding the lock on an inode
  holder : Nat → Option Nat

namespace Volume

variable {δ : Type}

/- A volume with no files and no locks. -/
def empty [StateCodec δ] : Volume δ :=
  ⟨fun _ => none, fun _ => StateCodec.blank, 0, fun _ => none⟩

/- Makes a new file at a path, holding `c`. -/
def create
    (v : Volume δ)
    (path : String)
    (c : δ) :
    Volume δ :=
  { v with
    entry := Function.update v.entry path (some v.next)
    content := Function.update v.content v.next c
    next := v.next + 1 }

/- Opens a file to write, making it empty when it is missing: the volume and the inode opened. -/
def openFile
    [StateCodec δ]
    (v : Volume δ)
    (path : String) :
    Volume δ × Nat :=
  match v.entry path with
  | some i => (v, i)
  | none => (v.create path StateCodec.blank, v.next)

/- Writes `c` as the whole of the file at a path, making the file when it is missing. -/
def writeFile
    (v : Volume δ)
    (path : String)
    (c : δ) :
    Volume δ :=
  match v.entry path with
  | some i => { v with content := Function.update v.content i c }
  | none => v.create path c

/- Renames `src` over `dst`: `dst` names what `src` named, and `src` nothing. -/
def rename
    (v : Volume δ)
    (src dst : String) :
    Volume δ :=
  if src = dst then v
  else
    match v.entry src with
    | some i => { v with entry := Function.update (Function.update v.entry dst (some i)) src none }
    | none => v

/- The state the file at a path holds; a missing file is the empty state. -/
def readState
    [StateCodec δ]
    (v : Volume δ)
    (path : String) :
    Outcome SharedState :=
  match v.entry path with
  | none => .ok SharedState.empty
  | some i => StateCodec.decode (v.content i)

def lockBy
    (v : Volume δ)
    (i pid : Nat) :
    Volume δ :=
  { v with holder := Function.update v.holder i (some pid) }

def unlock
    (v : Volume δ)
    (i : Nat) :
    Volume δ :=
  { v with holder := Function.update v.holder i none }

/-
  What one writer sees of the volume as the disk of a single store: the
  document at its path, and whether a writer holds the lock.
-/
def disk
    (v : Volume δ)
    (docPath lockPath : String)
    (timeoutMs : Nat) :
    Disk δ :=
  { docPath
    lockPath
    doc := match v.entry docPath with
      | none => .missing
      | some j => .file (v.content j)
    lockHeld := match v.entry lockPath with
      | some i => (v.holder i).isSome
      | none => false
    lockIsDirectory := false
    timeoutMs }

end Volume

/-
  The paths an update uses: the document, its lock file, and the
  temporary file of each writer, named by its process id.
-/
structure UpdatePaths where
  doc : String
  lock : String
  temp : Nat → String

------------------------------------------------------------
-- Writers
------------------------------------------------------------

/- Where a writer is in the update of its change `c`, with the inode of the lock it opened. -/
inductive Stage where
  | idle
  | opened (c : Change) (lock : Nat)
  | locked (c : Change) (lock : Nat)
  | changed (c : Change) (lock : Nat) (read written : SharedState)
  | staged (c : Change) (lock : Nat) (read written : SharedState)

/- A writer: where it is, and the changes it has still to make, in order. -/
structure Writer where
  stage : Stage
  todo : List Change

/- An update that took effect: its writer and change, the state it read and the state it wrote. -/
structure Commit where
  pid : Nat
  change : Change
  read : SharedState
  written : SharedState

/- What a scheduler can let a writer do: take its next step, or give up waiting for the lock. -/
inductive Action where
  | advance (pid : Nat)
  | giveUp (pid : Nat)

/- The volume and every writer, by process id. -/
structure Writers (δ : Type) where
  volume : Volume δ
  writer : Nat → Writer

namespace Writers

variable {δ : Type} [StateCodec δ]

/- Writers with the changes `jobs` to make, before any file exists. -/
def start
    (jobs : Nat → List Change) : Writers δ :=
  ⟨Volume.empty, fun pid => ⟨.idle, jobs pid⟩⟩

/- The writers with the volume `v`, writer `pid` now being `w`. -/
def put
    (sys : Writers δ)
    (v : Volume δ)
    (pid : Nat)
    (w : Writer) :
    Writers δ :=
  ⟨v, Function.update sys.writer pid w⟩

/- The next step of writer `pid`, and the update it completes, if any. -/
def advance
    (P : UpdatePaths)
    (sys : Writers δ)
    (pid : Nat) :
    Writers δ × Option Commit :=
  let w := sys.writer pid
  match w.stage with
  | .idle =>
    match w.todo with
    | [] => (sys, none)
    | c :: rest =>
      let (v, i) := sys.volume.openFile P.lock
      (sys.put v pid ⟨.opened c i, rest⟩, none)
  | .opened c i =>
    match sys.volume.holder i with
    | none => (sys.put (sys.volume.lockBy i pid) pid { w with stage := .locked c i }, none)
    | some _ => (sys, none)
  | .locked c i =>
    match sys.volume.readState P.doc >>= fun s => (c.run s).map fun s' => (s, s') with
    | .ok (s, s') => (sys.put sys.volume pid { w with stage := .changed c i s s' }, none)
    | .error _ => (sys.put (sys.volume.unlock i) pid { w with stage := .idle }, none)
  | .changed c i s s' =>
    (sys.put (sys.volume.writeFile (P.temp pid) (StateCodec.encode s')) pid
      { w with stage := .staged c i s s' }, none)
  | .staged c i s s' =>
    (sys.put ((sys.volume.rename (P.temp pid) P.doc).unlock i) pid { w with stage := .idle },
      some ⟨pid, c, s, s'⟩)

/- A writer waiting for a lock held by another gives up on its change. -/
def giveUp
    (sys : Writers δ)
    (pid : Nat) :
    Writers δ :=
  let w := sys.writer pid
  match w.stage with
  | .opened _ i =>
    match sys.volume.holder i with
    | some _ => sys.put sys.volume pid { w with stage := .idle }
    | none => sys
  | _ => sys

def step
    (P : UpdatePaths)
    (sys : Writers δ) :
    Action → Writers δ × Option Commit
  | .advance pid => sys.advance P pid
  | .giveUp pid => (sys.giveUp pid, none)

/- The writers after a schedule of actions, and the updates completed, in order. -/
def run
    (P : UpdatePaths)
    (sys : Writers δ) :
    List Action → Writers δ × List Commit
  | [] => (sys, [])
  | a :: rest =>
    let (sys', done) := sys.step P a
    let (sys'', more) := run P sys' rest
    (sys'', done.toList ++ more)

end Writers

end NeuronFleet
