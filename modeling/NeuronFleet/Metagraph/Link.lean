import NeuronFleet.Metagraph.State

/-
  Links to the shared state.

  A neuron works on a snapshot of the shared state.  A `Link` over a
  world `σ` says how to refresh the snapshot, publish a row, register,
  and what the neuron currently sees; every operation gives the world
  afterwards, also when it fails.  `Link.memory` reaches a store held in
  the same world; `Link.scripted` wraps a link so that the next few
  publications or refreshes fail, counting every call that reaches it.

  Main definitions:
    * `View`, `View.ownUid`, `View.ownRow`
    * `Link`, `Link.memory`, `Link.scripted`
-/

namespace NeuronFleet

------------------------------------------------------------
-- Views
------------------------------------------------------------

/- What a neuron holds: its hotkey and its last snapshot. -/
structure View where
  hotkey : String
  snapshot : SharedState
  deriving Repr, Inhabited

namespace View

/- A view that has not read the shared state yet. -/
def fresh (hotkey : String) : View := ⟨hotkey, SharedState.empty⟩

/- The neuron's uid in its snapshot. -/
def ownUid (v : View) : Option Nat := v.snapshot.uidOf v.hotkey

/- The neuron's uid and row in its snapshot. -/
def ownRow (v : View) : Outcome (Nat × List F32) := do
  let some uid := v.ownUid
    | throw (.metagraph ("hotkey " ++ v.hotkey ++ " is not registered"))
  let some row := v.snapshot.weights.row? uid
    | throw (.metagraph ("no row for uid " ++ toString uid))
  return (uid, row)

end View

------------------------------------------------------------
-- Links
------------------------------------------------------------

/- A link to the shared state inside a world `σ`. -/
structure Link (σ : Type) where
  -- refreshes the snapshot
  sync : σ → σ × Outcome Unit
  -- publishes a row, waiting for it to be included when asked
  emit : σ → List F32 → Bool → σ × Outcome Unit
  -- registers the neuron, then refreshes; gives its uid
  register : σ → σ × Outcome Nat
  -- what the neuron sees
  view : σ → View

/- A store and one neuron's view of it. -/
structure MemoryWorld where
  store : SharedState
  view : View
  deriving Repr, Inhabited

/- A link to a store in the same world: refreshing copies the store,
publishing applies the row to the store, registering registers in the
store and refreshes. -/
def Link.memory : Link MemoryWorld where
  sync w := ({ w with view := { w.view with snapshot := w.store } }, .ok ())
  emit w row _ :=
    match w.store.applyRow w.view.hotkey row with
    | .ok (_, s) => ({ w with store := s }, .ok ())
    | .error e => (w, .error e)
  register w :=
    let (uid, s) := w.store.register w.view.hotkey
    ({ store := s, view := { w.view with snapshot := s } }, .ok uid)
  view w := w.view

/- A world wrapped with failures to come and counts of calls. -/
structure Scripted (σ : Type) where
  inner : σ
  -- how many of the next publications fail
  failEmits : Nat
  -- how many of the next refreshes fail
  failSyncs : Nat
  -- publications that reached the link, failed ones included
  emits : Nat
  -- refreshes that reached the link, failed ones included
  syncs : Nat

/- Wraps a link: while failures are due, a publication fails with
`scripted emit failure` and a refresh with `scripted sync failure`,
without reaching the inner link. -/
def Link.scripted (l : Link σ) : Link (Scripted σ) where
  sync w :=
    let w := { w with syncs := w.syncs + 1 }
    if w.failSyncs > 0 then
      ({ w with failSyncs := w.failSyncs - 1 }, .error (.metagraph "scripted sync failure"))
    else
      let (i, r) := l.sync w.inner
      ({ w with inner := i }, r)
  emit w row wait :=
    let w := { w with emits := w.emits + 1 }
    if w.failEmits > 0 then
      ({ w with failEmits := w.failEmits - 1 }, .error (.metagraph "scripted emit failure"))
    else
      let (i, r) := l.emit w.inner row wait
      ({ w with inner := i }, r)
  register w :=
    let (i, r) := l.register w.inner
    ({ w with inner := i }, r)
  view w := l.view w.inner

end NeuronFleet
