import NeuronFleet.Sync

/-
  Scripted runs of a synchroniser.

  A run sets up an in-memory store (peers registered in order, then
  their rows applied), links the neuron `self` to it through a link that
  can be told to fail, starts a synchroniser and plays commands: local
  steps, bare accumulations and publications, other neurons registering
  or emitting, failures to come.  After each command the trace records
  the reply and what the synchroniser, the link, the axon and the store
  hold.

  Main definitions:
    * `Script.SyncSetup`, `Script.SyncCommand`, `Script.SyncReply`
    * `Script.runSync`
-/

namespace NeuronFleet

namespace Script

------------------------------------------------------------
-- Commands and replies
------------------------------------------------------------

/- How a scripted synchroniser run begins. -/
structure SyncSetup where
  peers : List String
  self : String
  -- rows applied to the store before the neuron starts, in order
  rows : List (String × List F32)
  -- replaces the store's matrix by a zero matrix of this size
  matrixSize : Option Nat
  failEmits : Nat
  failSyncs : Nat
  settings : Sync.Settings
  globalStep : UInt64

/- One command of a run. -/
inductive SyncCommand where
  | contribute (rows : List (List F32))
  | accumulate (rows : List (List F32))
  | publish
  | register (hotkey : String)
  | emit (hotkey : String) (row : List F32)
  | failEmits (k : Nat)
  | failSyncs (k : Nat)
  | repeatContribution (rows : List (List F32)) (times : Nat)

/- What a command answered. -/
inductive SyncReply where
  | stepped (o : Sync.StepOutcome)
  | done
  | registered (uid : Nat)
  -- steps at which a repeated contribution published, how many steps failed, and the last
  -- failure
  | repeated (publishedAt : List UInt64) (failures : Nat) (last : Option Error)
  | failed (e : Error)

/- The world of a run: the store seen through a failing link. -/
abbrev SyncWorld := Scripted MemoryWorld

/- What the trace shows after a command. -/
structure SyncTrace where
  reply : SyncReply
  sync : Synchronizer
  emits : Nat
  syncs : Nat
  axon : Axon
  store : SharedState

/- How a run ended. -/
inductive SyncRun where
  | setupFailed (e : Error)
  | startFailed (e : Error)
  | ran (start : Synchronizer) (trace : List SyncTrace)

------------------------------------------------------------
-- Running
------------------------------------------------------------

/- The link of a run. -/
def syncLink : Link SyncWorld := Link.memory.scripted

/- The store after the setup's registrations and rows. -/
def setupStore (setup : SyncSetup) : Outcome SharedState := do
  let s := setup.peers.foldl (fun s p => (s.register p).2) SharedState.empty
  let s ← setup.rows.foldlM (fun s (h, r) => do let (_, s) ← s.applyRow h r; pure s) s
  return match setup.matrixSize with
    | some k => { s with weights := WeightMatrix.zeros k }
    | none => s

/- Plays one command. -/
def syncCommand
    (w : SyncWorld)
    (axon : Axon)
    (s : Synchronizer) :
    SyncCommand → SyncWorld × Axon × Synchronizer × SyncReply
  | .contribute rows =>
    match s.step syncLink rows w axon with
    | (w, axon, s, .ok o) => (w, axon, s, .stepped o)
    | (w, axon, s, .error e) => (w, axon, s, .failed e)
  | .accumulate rows =>
    match s.accumulate rows with
    | .ok s => (w, axon, s, .done)
    | .error e => (w, axon, s, .failed e)
  | .publish =>
    match s.publish syncLink w axon with
    | (w, axon, .ok s) => (w, axon, s, .done)
    | (w, axon, .error e) => (w, axon, s, .failed e)
  | .register h =>
    let (uid, store) := w.inner.store.register h
    ({ w with inner := { w.inner with store } }, axon, s, .registered uid)
  | .emit h row =>
    match w.inner.store.applyRow h row with
    | .ok (_, store) => ({ w with inner := { w.inner with store } }, axon, s, .done)
    | .error e => (w, axon, s, .failed e)
  | .failEmits k => ({ w with failEmits := k }, axon, s, .done)
  | .failSyncs k => ({ w with failSyncs := k }, axon, s, .done)
  | .repeatContribution rows times =>
    let (w, axon, s, at_, fails, last) :=
      (List.range times).foldl (fun (w, axon, s, at_, fails, last) _ =>
        match s.step syncLink rows w axon with
        | (w, axon, s, .ok o) =>
          (w, axon, s, (if o.published then at_ ++ [o.globalStep] else at_), fails, last)
        | (w, axon, s, .error e) => (w, axon, s, at_, fails + 1, some e))
        (w, axon, s, ([] : List UInt64), 0, (none : Option Error))
    (w, axon, s, .repeated at_ fails last)

/- Runs a script: setup, start, then every command in order. -/
def runSync
    (setup : SyncSetup)
    (commands : List SyncCommand) :
    SyncRun :=
  match setupStore setup with
  | .error e => .setupFailed e
  | .ok store =>
    let w : SyncWorld := ⟨⟨store, View.fresh setup.self⟩, setup.failEmits, setup.failSyncs, 0, 0⟩
    match Synchronizer.start syncLink w setup.settings setup.globalStep with
    | (_, .error e) => .startFailed e
    | (w, .ok s) =>
      let (_, _, _, trace) := commands.foldl (fun (w, axon, s, trace) c =>
        let (w, axon, s, reply) := syncCommand w axon s c
        (w, axon, s, trace ++ [⟨reply, s, w.emits, w.syncs, axon, w.inner.store⟩]))
        (w, Axon.unbound, s, ([] : List SyncTrace))
      .ran s trace

end Script

end NeuronFleet
