import NeuronFleet.Proofs.Neuron.Tally
import NeuronFleet.Script.Neuron

/-
  Runs of a serving loop over a store in memory.

  Registering the neuron leaves its world ready: the store is well
  shaped and has the neuron, so every epoch's synchroniser starts.  An
  epoch that completes its `L` rounds ends `L` global steps on, having
  published at the due steps it passed and counted its failed attempts,
  and leaves the world ready again.  A run of `E` epochs therefore
  totals `E * L` steps, taken in 64 bits, and the due steps up to there,
  which are the multiples of the interval up to `E * L` while the
  counter does not wrap; unless an epoch fails, which ends the run with
  that epoch's error.

  Main declarations:
    * `MemoryWorld.Ready`, `Neuron.Tried`, `Neuron.Counted`, `Neuron.Fails`
    * `Neuron.runEpoch_spec`, `Neuron.Epochs`, `Neuron.run_counts`
-/

namespace NeuronFleet

------------------------------------------------------------
-- Worlds Ready for an Epoch
------------------------------------------------------------

theorem SharedState.mem_register
    (s : SharedState)
    (hotkey : String) :
    hotkey ∈ (s.register hotkey).2.neurons := by
  by_cases hMem : hotkey ∈ s.neurons
  · rw [register_of_mem hMem]
    exact hMem
  · rw [register_of_not_mem hMem]
    exact List.mem_append_right _ (List.mem_singleton_self _)

namespace MemoryWorld

/- A world in which an epoch can start: the store is well shaped and
has the neuron's hotkey. -/
structure Ready
    (w : MemoryWorld) : Prop where
  store_wellShaped : w.store.WellShaped
  registered : w.view.hotkey ∈ w.store.neurons

theorem Ready.of_aligned
    {w : MemoryWorld}
    {s : Synchronizer}
    (h : Synchronizer.Aligned w s) :
    w.Ready :=
  ⟨h.store_wellShaped, SharedState.mem_of_uidOf h.store_uid⟩

/- Registering the neuron in a well-shaped store makes its world ready. -/
theorem ready_register
    {w : MemoryWorld}
    (hStore : w.store.WellShaped) :
    (Link.memory.register w).1.Ready :=
  ⟨SharedState.register_wellShaped hStore _, SharedState.mem_register _ _⟩

end MemoryWorld

namespace Synchronizer

/- Starting in a ready world succeeds, refreshing the snapshot. -/
theorem start_memory_ok
    {w : MemoryWorld}
    (hReady : w.Ready)
    (settings : Sync.Settings)
    (globalStep : UInt64) :
    ∃ s, start Link.memory w settings globalStep =
      ({ w with view := { w.view with snapshot := w.store } }, .ok s) := by
  obtain ⟨hShape, hMem⟩ := hReady
  have hUid := SharedState.uidOf_of_mem hMem
  have hLt : w.store.neurons.idxOf w.view.hotkey < w.store.weights.n := by
    rw [hShape.1]
    exact List.idxOf_lt_length_of_mem hMem
  have hOwn := View.ownRow_of (v := { w.view with snapshot := w.store }) hUid
    (WeightMatrix.row?_of_lt hLt)
  unfold start
  dsimp only [Link.memory]
  rw [hOwn]
  exact ⟨_, rfl⟩

end Synchronizer

/- A valid configuration publishes every so many steps and runs some local steps. -/
theorem FleetConfig.validate_positive
    {config : FleetConfig}
    (hValid : config.validate = .ok ()) :
    0 < config.neuron.syncInterval ∧ 0 < config.neuron.localEpochs := by
  unfold FleetConfig.validate at hValid
  simp only [bind, Except.bind] at hValid
  constructor
  all_goals
    apply Nat.pos_of_ne_zero
    intro hZero
    -- that check throws, whichever of the checks before it pass
    simp [hZero, throw, throwThe, MonadExceptOf.throw] at hValid
    split_ifs at hValid

/- Writing a checkpoint fails only with an i/o error. -/
theorem Checkpointer.saveIfBetter_error
    {ck : Checkpointer}
    {point : Checkpoint}
    {e : Error}
    (hSave : (ck.saveIfBetter point).2 = .error e) :
    ∃ msg, e = .io msg := by
  unfold Checkpointer.saveIfBetter at hSave
  split at hSave
  · cases hSave
  · split at hSave
    · cases hSave
      exact ⟨_, rfl⟩
    · cases hSave

namespace Neuron

variable {μ σ κ : Type}

/-
  A new neuron has the configuration it was made with, has registered,
  publishes with the configured settings and has neither run a step nor
  an epoch.
-/
theorem new_eq_ok
    {c : Collaborators μ σ κ}
    {config : FleetConfig}
    {workdir : Outcome Checkpointer}
    {freshTrialId : String}
    {model : μ}
    {world : σ}
    {axon : Axon}
    {batches : κ}
    {n : Neuron μ σ κ}
    (hNew : new c config workdir freshTrialId model world axon batches = .ok n) :
    config.validate = .ok () ∧ n.config = config ∧ n.world = (c.link.register world).1 ∧
      n.settings = Sync.Settings.make config.neuron.syncInterval config.neuron.smoothing
        config.neuron.syncRetries ∧
      n.globalStep = 0 ∧ n.epoch = 0 := by
  unfold new at hNew
  simp only [bind, Except.bind] at hNew
  -- the validation, the directory, the device, the move and the
  -- registration each either fail, which the result rules out, or pass
  split at hNew
  · cases hNew
  rename_i hValid
  split at hNew
  · cases hNew
  split at hNew
  · cases hNew
  split at hNew
  · cases hNew
  split at hNew
  · cases hNew
  cases hNew
  exact ⟨hValid, rfl, rfl, rfl, rfl, rfl⟩

/- The attempts of the epoch a neuron runs next: its local steps from
the synchroniser started at the neuron's global step, with the model
switched to training. -/
def Tried
    (c : Collaborators μ σ κ)
    (n : Neuron μ σ κ)
    (rs : List (Outcome Scores)) :
    Prop :=
  ∃ world s n' s', Synchronizer.start c.link n.world n.settings n.globalStep = (world, .ok s) ∧
    Attempted c { n with model := c.learner.train n.model, world } s rs n' s'

/- How an epoch with the attempts `rs` of `L` rounds ends in the error
`e`: it gives up with an internal error, stops at `e`, or completes and
fails to write its checkpoint. -/
def Fails
    (L : Nat)
    (rs : List (Outcome Scores))
    (e : Error) :
    Prop :=
  (GivesUp L rs ∧ ∃ msg, e = .internal msg) ∨ StopsAt L rs e ∨
    (Completes L rs ∧ ∃ msg, e = .io msg)

/- What an epoch of `L` rounds from global step `g` reports when its
attempts `rs` complete it, publishing at the due steps of the interval
`I`. -/
def Counted
    (L : Nat)
    (I g : UInt64)
    (rs : List (Outcome Scores))
    (report : EpochReport) :
    Prop :=
  Completes L rs ∧ report.globalStep = g + UInt64.ofNat L ∧
    report.publishes = Synchronizer.duePasses g I L ∧ report.stepFailures = failures rs

------------------------------------------------------------
-- Epochs
------------------------------------------------------------

/-
  Epochs completed one after another from a neuron: the attempts and
  the report of each, and the neuron they leave.
-/
inductive Epochs
    (c : Collaborators μ σ κ) :
    Neuron μ σ κ → List (List (Outcome Scores) × EpochReport) → Neuron μ σ κ → Prop
  | nil
      {n : Neuron μ σ κ} :
      Epochs c n [] n
  | cons
      {n n₁ n' : Neuron μ σ κ}
      {rs : List (Outcome Scores)}
      {report : EpochReport}
      {done : List (List (Outcome Scores) × EpochReport)}
      (hTried : Tried c n rs)
      (hEpoch : runEpoch c n = (n₁, .ok report))
      (hRest : Epochs c n₁ done n') :
      Epochs c n ((rs, report) :: done) n'

section Memory

variable {c : Collaborators μ MemoryWorld κ}

/-
  Over a store in memory, attempts that complete `L` rounds move the
  synchroniser `L` steps on, publishing at the due steps passed, and
  leave the world ready for the next epoch.
-/
theorem Attempted.completed_memory
    (hLink : c.link = Link.memory)
    {n n' : Neuron μ MemoryWorld κ}
    {s s' : Synchronizer}
    {rs : List (Outcome Scores)}
    {L : Nat}
    (hTried : Attempted c n s rs n' s')
    (hAligned : Synchronizer.Aligned n.world s)
    (hComplete : Completes L rs) :
    s'.globalStep = s.globalStep + UInt64.ofNat L ∧
      s'.publishes = s.publishes + Synchronizer.duePasses s.globalStep s.settings.interval L ∧
      n'.world.Ready := by
  obtain ⟨hCalls, hAligned'⟩ := hTried.calls hLink hAligned .nil
  obtain ⟨-, hCount, hPublishes, -⟩ := hCalls.counters
  rw [Nat.zero_add, hComplete.successes] at hCount hPublishes
  exact ⟨hCount, hPublishes, .of_aligned hAligned'⟩

/-
  An epoch over a store in memory, from a ready world.  Its synchroniser
  starts, and the epoch either completes, reporting the steps, the
  publications and the failed attempts it counted, with the next
  epoch's world ready; or it ends with an error as `Fails` says.
-/
theorem runEpoch_spec
    (hLink : c.link = Link.memory)
    {n n' : Neuron μ MemoryWorld κ}
    {r : Outcome EpochReport}
    (hReady : n.world.Ready)
    (hEpoch : runEpoch c n = (n', r)) :
    ∃ rs, Tried c n rs ∧
      ((∃ report, r = .ok report ∧
          Counted n.config.neuron.localEpochs n.settings.interval n.globalStep rs report ∧
          n'.world.Ready ∧ n'.config = n.config ∧ n'.settings = n.settings ∧
          n'.globalStep = n.globalStep + UInt64.ofNat n.config.neuron.localEpochs) ∨
        ∃ e, r = .error e ∧ Fails n.config.neuron.localEpochs rs e) := by
  obtain ⟨s, hStart⟩ := Synchronizer.start_memory_ok hReady n.settings n.globalStep
  have hAligned := Synchronizer.start_memory hReady.store_wellShaped hStart
  obtain ⟨hSettings, -, hCount, hPublishes⟩ := Synchronizer.start_eq_ok hStart
  unfold runEpoch at hEpoch
  rw [hLink] at hEpoch
  dsimp only at hEpoch
  rw [hStart] at hEpoch
  dsimp only at hEpoch
  split at hEpoch
  case h_1 n₂ p e hSteps =>
    -- the loop gave up or stopped
    obtain ⟨rs, hTried, hShape⟩ := steps_start hSteps
    refine ⟨rs, ⟨_, s, _, _, by rw [hLink]; exact hStart, hTried⟩, ?_⟩
    rcases hShape with ⟨hRes, -, -⟩ | ⟨e', hRes, hHow⟩
    case inl => cases hRes
    cases hRes
    cases hEpoch
    rcases hHow with hGiveUp | hStop
    · exact .inr ⟨e, rfl, .inl hGiveUp⟩
    · exact .inr ⟨e, rfl, .inr (.inl hStop)⟩
  case h_2 n₂ p hSteps =>
    -- the loop completed its rounds; the checkpoint is written or fails
    obtain ⟨rs, hTried, hShape⟩ := steps_start hSteps
    have hTry : Tried c n rs := ⟨_, s, _, _, by rw [hLink]; exact hStart, hTried⟩
    rcases hShape with ⟨-, hComplete, hFailures⟩ | ⟨e, hRes, -⟩
    case inr => cases hRes
    obtain ⟨hCount', hPublishes', hReady'⟩ :=
      hTried.completed_memory hLink hAligned hComplete
    have hKeeps := hTried.keeps
    split at hEpoch
    case h_1 e hSave =>
      cases hEpoch
      exact ⟨rs, hTry, .inr ⟨e, rfl, .inr (.inr ⟨hComplete, Checkpointer.saveIfBetter_error hSave⟩)⟩⟩
    case h_2 checkpointed hSave =>
      cases hEpoch
      have hGlobal :
          p.sync.globalStep = n.globalStep + UInt64.ofNat n.config.neuron.localEpochs := by
        rw [hCount', hCount]
      refine ⟨rs, hTry, .inl ⟨_, rfl, ⟨hComplete, hGlobal, ?_, hFailures⟩, hReady', hKeeps.config,
        hKeeps.settings, hGlobal⟩⟩
      rw [hPublishes', hPublishes, hSettings, hCount, Nat.zero_add]

/-
  The epoch loop of a run, `k` epochs still to go, adding to the totals
  `sum₀`.  The epochs before the first that fails are completed, each
  counted from the global step the previous one left; when none fails
  the totals add up all `k` of them.
-/
theorem go_spec
    (hLink : c.link = Link.memory)
    {k : Nat}
    {n n' : Neuron μ MemoryWorld κ}
    {sum₀ : Summary}
    {r : Outcome Summary}
    (hReady : n.world.Ready)
    (hSum : sum₀.globalStep = n.globalStep)
    (hGo : run.go c k n sum₀ = (n', r)) :
    ∃ done m, Epochs c n done m ∧
      (∀ j (hj : j < done.length),
        Counted n.config.neuron.localEpochs n.settings.interval
          (n.globalStep + UInt64.ofNat (j * n.config.neuron.localEpochs)) done[j].1 done[j].2) ∧
      ((done.length = k ∧ ∃ sum, r = .ok sum ∧ sum.epochs = sum₀.epochs + k ∧
          sum.globalStep = n.globalStep + UInt64.ofNat (k * n.config.neuron.localEpochs) ∧
          sum.publishes = sum₀.publishes + Synchronizer.duePasses n.globalStep n.settings.interval
            (k * n.config.neuron.localEpochs) ∧
          sum.stepFailures = sum₀.stepFailures + (done.map fun x => failures x.1).sum) ∨
        (done.length < k ∧ ∃ rs e, Tried c m rs ∧ r = .error e ∧
          Fails n.config.neuron.localEpochs rs e)) := by
  induction k generalizing n sum₀ with
  | zero =>
      rw [run.go, Prod.mk.injEq] at hGo
      obtain ⟨rfl, rfl⟩ := hGo
      refine ⟨[], n, .nil, fun j hj => absurd hj (Nat.not_lt_zero j), .inl ⟨rfl, _, rfl, ?_⟩⟩
      simp [hSum, Synchronizer.duePasses]
  | succ k ih =>
      rw [run.go] at hGo
      split at hGo
      case h_1 n₁ e hEpoch =>
        -- the first epoch failed
        cases hGo
        obtain ⟨rs, hTry, ⟨report, hRes, -⟩ | ⟨e', hRes, hFails⟩⟩ := runEpoch_spec hLink hReady hEpoch
        case inl => cases hRes
        cases hRes
        exact ⟨[], n, .nil, fun j hj => absurd hj (Nat.not_lt_zero j),
          .inr ⟨Nat.succ_pos k, rs, e, hTry, rfl, hFails⟩⟩
      case h_2 n₁ report hEpoch =>
        -- the first epoch completed: the others run from the neuron it left
        obtain ⟨rs, hTry, ⟨report', hRes, hCounted, hReady₁, hConfig, hSettings, hGlobal⟩ |
          ⟨e, hRes, -⟩⟩ := runEpoch_spec hLink hReady hEpoch
        case inr => cases hRes
        cases hRes
        have hSum₁ : (sum₀.add report).globalStep = n₁.globalStep := by
          rw [hGlobal]
          exact hCounted.2.1
        obtain ⟨done, m, hEpochs, hCounts, hEnd⟩ := ih hReady₁ hSum₁ hGo
        rw [hConfig, hSettings, hGlobal] at hCounts hEnd
        -- epoch `j` of the rest is epoch `j + 1` of the run
        have hShift (j : Nat) : n.globalStep + UInt64.ofNat n.config.neuron.localEpochs +
            UInt64.ofNat (j * n.config.neuron.localEpochs) =
              n.globalStep + UInt64.ofNat ((j + 1) * n.config.neuron.localEpochs) := by
          rw [Nat.succ_mul, UInt64.ofNat_add, UInt64.add_assoc,
            UInt64.add_comm (UInt64.ofNat n.config.neuron.localEpochs)]
        refine ⟨(rs, report) :: done, m, .cons hTry hEpoch hEpochs, ?_, ?_⟩
        · intro j hj
          cases j with
          | zero => simpa using hCounted
          | succ j =>
              have hCount := hCounts j (by simpa using hj)
              rw [hShift j] at hCount
              simpa using hCount
        · rcases hEnd with ⟨hLength, sum, rfl, hEpochCount, hStepCount, hPublishCount, hFailureCount⟩ |
            ⟨hShort, hFailed⟩
          · refine .inl ⟨by simp [hLength], sum, rfl, ?_, ?_, ?_, ?_⟩
            · rw [hEpochCount]
              simp only [Summary.add]
              omega
            · rw [hStepCount, hShift k]
            · -- the first epoch's due steps, then the rest's
              rw [hPublishCount, Nat.succ_mul, Nat.add_comm (k * _), Synchronizer.duePasses_add]
              simp only [Summary.add]
              rw [hCounted.2.2.1]
              omega
            · rw [hFailureCount]
              simp only [Summary.add, List.map_cons, List.sum_cons]
              rw [hCounted.2.2.2]
              omega
          · exact .inr ⟨by simp only [List.length_cons]; omega, hFailed⟩

end Memory

/-
  A run of `E` epochs of a new neuron over a store in memory.  Every
  epoch it completes takes `L` rounds of local steps and is counted from
  the global step where the previous one ended: it ends `L` steps on and
  publishes at the due steps it passes.  Either all `E` epochs complete,
  and the totals are `E` epochs, `E * L` steps in 64 bits, every failed
  attempt, and the due steps up to `E * L`; these are exactly `E * L`
  steps and the multiples of the interval up to `E * L` whenever the
  counter does not wrap, as in any run of fewer than `2 ^ 64` steps.  Or
  the first epoch that does not complete ends the run with its error: an
  internal error after a thousand transient failures in a row, a failure
  that is not transient unchanged, or the error of writing the
  checkpoint.
-/
theorem run_counts
    {learner : Learner μ}
    {source : BatchSource κ}
    {config : FleetConfig}
    {workdir : Outcome Checkpointer}
    {freshTrialId : String}
    {model : μ}
    {world : MemoryWorld}
    {axon : Axon}
    {batches : κ}
    {n n' : Neuron μ MemoryWorld κ}
    {E : Nat}
    {r : Outcome Summary}
    (hStore : world.store.WellShaped)
    (hNew : new ⟨learner, Link.memory, source⟩ config workdir freshTrialId model world axon batches =
      .ok n)
    (hRun : run ⟨learner, Link.memory, source⟩ E n = (n', r)) :
    ∃ done m, Epochs ⟨learner, Link.memory, source⟩ n done m ∧
      (∀ j (hj : j < done.length),
        Counted config.neuron.localEpochs (UInt64.ofNat config.neuron.syncInterval)
          (UInt64.ofNat (j * config.neuron.localEpochs)) done[j].1 done[j].2) ∧
      ((done.length = E ∧ ∃ sum, r = .ok sum ∧ sum.epochs = E ∧
          sum.globalStep = UInt64.ofNat (E * config.neuron.localEpochs) ∧
          sum.publishes = Synchronizer.duePasses 0 (UInt64.ofNat config.neuron.syncInterval)
            (E * config.neuron.localEpochs) ∧
          (E * config.neuron.localEpochs < 18446744073709551616 →
            config.neuron.syncInterval < 18446744073709551616 →
            sum.globalStep.toNat = E * config.neuron.localEpochs ∧
              sum.publishes = E * config.neuron.localEpochs / config.neuron.syncInterval) ∧
          sum.stepFailures = (done.map fun x => failures x.1).sum) ∨
        (done.length < E ∧ ∃ rs e, Tried ⟨learner, Link.memory, source⟩ m rs ∧ r = .error e ∧
          Fails config.neuron.localEpochs rs e)) := by
  obtain ⟨hValid, hConfig, hWorld, hSettings, hGlobal, hEpoch⟩ := new_eq_ok hNew
  have hInterval : n.settings.interval = UInt64.ofNat config.neuron.syncInterval := by
    have hPositive := (FleetConfig.validate_positive hValid).1
    rw [hSettings]
    simp only [Sync.Settings.make, Nat.max_def]
    congr 1
    split <;> omega
  have hReady : n.world.Ready := hWorld ▸ MemoryWorld.ready_register hStore
  unfold run at hRun
  rw [hEpoch, Nat.sub_zero] at hRun
  obtain ⟨done, m, hEpochs, hCounts, hEnd⟩ := go_spec rfl hReady (by rw [hGlobal]) hRun
  rw [hConfig, hInterval, hGlobal] at hCounts hEnd
  refine ⟨done, m, hEpochs, fun j hj => by simpa using hCounts j hj, ?_⟩
  rcases hEnd with ⟨hLength, sum, rfl, hE, hS, hP, hF⟩ | hFailed
  · have hSteps : sum.globalStep = UInt64.ofNat (E * config.neuron.localEpochs) := by
      simpa using hS
    have hPublishes : sum.publishes = Synchronizer.duePasses 0
        (UInt64.ofNat config.neuron.syncInterval) (E * config.neuron.localEpochs) := by
      simpa using hP
    refine .inl ⟨hLength, sum, rfl, by simpa using hE, hSteps, hPublishes, ?_, by simpa using hF⟩
    -- without a wrap the counters read as naturals
    intro hNoWrap hInterval
    have hZero : (0 : UInt64).toNat + E * config.neuron.localEpochs < 18446744073709551616 := by
      rw [UInt64.toNat_zero, Nat.zero_add]
      exact hNoWrap
    constructor
    · rw [hSteps, UInt64.toNat_ofNat', Nat.mod_eq_of_lt hNoWrap]
    · rw [hPublishes, Synchronizer.duePasses_of_lt hZero, UInt64.toNat_ofNat',
        Nat.mod_eq_of_lt hInterval, UInt64.toNat_zero, Nat.zero_add, Nat.zero_div, Nat.sub_zero]
  · exact .inr hFailed

/-
  A scripted model whose first pass fails, over a corpus whose fourth
  batch fails, run for two epochs of two local steps with an interval
  of three.
-/
open Script in
theorem run_counts_scripted :
    ∃ n, new ⟨ScriptedModel.learner, Link.memory, FlakyCorpus.source⟩
        { neuron := { syncInterval := 3, localEpochs := 2 } } (.ok (Checkpointer.new none)) "trial"
        (ScriptedModel.new [.failure, .loss 1]) ⟨SharedState.empty, View.fresh "hot"⟩ Axon.unbound
        ⟨⟨Random.ChaCha.ofSeed 1, 32, 2, 4, 0⟩, 0, [3]⟩ = .ok n ∧
      ∃ n' r, run ⟨ScriptedModel.learner, Link.memory, FlakyCorpus.source⟩ 2 n = (n', r) ∧
      ∃ done m, Epochs ⟨ScriptedModel.learner, Link.memory, FlakyCorpus.source⟩ n done m ∧
        (∀ j (hj : j < done.length),
          Counted 2 (UInt64.ofNat 3) (UInt64.ofNat (j * 2)) done[j].1 done[j].2) ∧
        ((done.length = 2 ∧ ∃ sum, r = .ok sum ∧ sum.epochs = 2 ∧
            sum.globalStep = UInt64.ofNat (2 * 2) ∧
            sum.publishes = Synchronizer.duePasses 0 (UInt64.ofNat 3) (2 * 2) ∧
            (2 * 2 < 18446744073709551616 → 3 < 18446744073709551616 →
              sum.globalStep.toNat = 2 * 2 ∧ sum.publishes = 2 * 2 / 3) ∧
            sum.stepFailures = (done.map fun x => failures x.1).sum) ∨
          (done.length < 2 ∧ ∃ rs e, Tried ⟨ScriptedModel.learner, Link.memory, FlakyCorpus.source⟩ m rs ∧
            r = .error e ∧ Fails 2 rs e)) := by
  have hMade : (new ⟨ScriptedModel.learner, Link.memory, FlakyCorpus.source⟩
      { neuron := { syncInterval := 3, localEpochs := 2 } } (.ok (Checkpointer.new none)) "trial"
      (ScriptedModel.new [.failure, .loss 1]) ⟨SharedState.empty, View.fresh "hot"⟩ Axon.unbound
      ⟨⟨Random.ChaCha.ofSeed 1, 32, 2, 4, 0⟩, 0, [3]⟩).isOk = true := by
    decide +kernel
  cases hNew : new ⟨ScriptedModel.learner, Link.memory, FlakyCorpus.source⟩
      { neuron := { syncInterval := 3, localEpochs := 2 } } (.ok (Checkpointer.new none)) "trial"
      (ScriptedModel.new [.failure, .loss 1]) ⟨SharedState.empty, View.fresh "hot"⟩ Axon.unbound
      ⟨⟨Random.ChaCha.ofSeed 1, 32, 2, 4, 0⟩, 0, [3]⟩ with
  | error e =>
      rw [hNew] at hMade
      cases hMade
  | ok n =>
      have hRun : run ⟨ScriptedModel.learner, Link.memory, FlakyCorpus.source⟩ 2 n =
          ((run ⟨ScriptedModel.learner, Link.memory, FlakyCorpus.source⟩ 2 n).1,
            (run ⟨ScriptedModel.learner, Link.memory, FlakyCorpus.source⟩ 2 n).2) := rfl
      exact ⟨n, rfl, _, _, hRun, run_counts SharedState.empty_wellShaped hNew hRun⟩

end Neuron

end NeuronFleet
