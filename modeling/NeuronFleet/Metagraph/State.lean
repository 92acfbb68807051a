import NeuronFleet.Weights.Matrix

/-
  The shared state of a fleet: who is registered and who trusts whom.

  Neurons are listed in registration order; a neuron's index is its uid
  and names its row and column of the weight matrix.  Registering a new
  hotkey appends it, grows the matrix by a zero row and column and bumps
  the version; registering a known hotkey changes nothing.  Applying a
  row replaces the row of a registered hotkey, padded with zeros to the
  number of neurons, and bumps the version.

  Main definitions:
    * `SharedState`, `SharedState.uidOf`, `SharedState.rowOf`
    * `SharedState.register`, `SharedState.applyRow`
    * `SharedState.Change`, `SharedState.Change.run`
-/

namespace NeuronFleet

------------------------------------------------------------
-- The shared state
------------------------------------------------------------

/- The document all neurons of a fleet share. -/
structure SharedState where
  -- bumped on every change, in 64 bits
  version : UInt64
  -- hotkeys in registration order; the index is the uid
  neurons : List String
  weights : WeightMatrix
  deriving Repr, Inhabited

namespace SharedState

/- The state before anyone registers. -/
def empty : SharedState := ⟨0, [], ⟨0, []⟩⟩

/- The uid of a hotkey, if registered. -/
def uidOf
    (s : SharedState)
    (hotkey : String) :
    Option Nat := s.neurons.idxOf? hotkey

/- The row of a registered hotkey. -/
def rowOf
    (s : SharedState)
    (hotkey : String) :
    Option (List F32) :=
  (s.uidOf hotkey).bind s.weights.row?

/- Registers a hotkey: its uid, and the state with it appended if it
was new. -/
def register
    (s : SharedState)
    (hotkey : String) :
    Nat × SharedState :=
  match s.uidOf hotkey with
  | some uid => (uid, s)
  | none =>
    let neurons := s.neurons ++ [hotkey]
    (s.neurons.length, ⟨s.version + 1, neurons, s.weights.grow neurons.length⟩)

/- Replaces the row of a registered hotkey by `row` padded with zeros to
the number of neurons; gives the new version. -/
def applyRow
    (s : SharedState)
    (hotkey : String)
    (row : List F32) :
    Outcome (UInt64 × SharedState) := do
  let some uid := s.uidOf hotkey
    | throw (.metagraph ("hotkey " ++ hotkey ++ " is not registered"))
  let n := s.neurons.length
  if row.length > n then
    throw (.metagraph ("row has " ++ toString row.length ++ " entries but only " ++
      toString n ++ " peers are registered"))
  let weights ← s.weights.setRow uid (row ++ List.replicate (n - row.length) 0)
  return (s.version + 1, ⟨s.version + 1, s.neurons, weights⟩)

/- A change to the shared state: a hotkey registering, or publishing a row. -/
inductive Change where
  | register (hotkey : String)
  | applyRow (hotkey : String) (row : List F32)

/- The state a store writes for a change, or why it refuses it:
registering is never refused. -/
def Change.run (s : SharedState) : Change → Outcome SharedState
  | .register hotkey => .ok (s.register hotkey).2
  | .applyRow hotkey row => (s.applyRow hotkey row).map Prod.snd

end SharedState

end NeuronFleet
