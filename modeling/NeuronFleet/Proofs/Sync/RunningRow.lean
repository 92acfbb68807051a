import NeuronFleet.Proofs.Metagraph.Shape
import NeuronFleet.Proofs.Weights.Normalize
import NeuronFleet.Sync

/-
  The running row of a synchroniser over an in-memory store.

  A neuron's synchroniser starts on a well-shaped store and is stepped
  while any neuron registers or publishes a row in between.  Over every
  such run the world and the synchroniser stay aligned: the store well
  shaped, the snapshot's neurons a prefix of the store's, the neuron's
  uid read from its snapshot and its row as wide as the snapshot.  So a
  publication over the store never fails, and it pulls back the
  published row padded with zeros for the neurons that joined since.
  After every successful step the row is normalised: every entry a
  finite number in `[0, 1]`, the entries summing to one within the
  row's width, unless the smoothed row's norm overflowed and left every
  entry zero.

  Main declarations:
    * `Synchronizer.Aligned`, `Synchronizer.Reachable`
    * `Synchronizer.publish_memory`, `Synchronizer.step_memory`
    * `Synchronizer.running_row_normalized`
-/

namespace NeuronFleet

------------------------------------------------------------
-- Views and Axons
------------------------------------------------------------

namespace View

theorem ownRow_of
    {v : View}
    {uid : Nat}
    {row : List F32}
    (hUid : v.ownUid = some uid)
    (hRow : v.snapshot.weights.row? uid = some row) :
    v.ownRow = .ok (uid, row) := by
  simp [ownRow, hUid, hRow]
  rfl

/- The own row is read only where the snapshot has the neuron and its row. -/
theorem ownRow_eq_ok
    {v : View}
    {uid : Nat}
    {row : List F32}
    (hOwn : v.ownRow = .ok (uid, row)) :
    v.ownUid = some uid ∧ v.snapshot.weights.row? uid = some row := by
  unfold ownRow at hOwn
  cases hUid : v.ownUid with
  | none => simp [hUid] at hOwn
  | some u =>
      cases hRow : v.snapshot.weights.row? u with
      | none => simp [hUid, hRow] at hOwn
      | some r =>
          simp [hUid, hRow] at hOwn
          obtain ⟨rfl, rfl⟩ := hOwn
          exact ⟨rfl, hRow⟩

end View

theorem Axon.setPriority_of_length
    (a : Axon)
    {peers : List String}
    {priorities : List F32}
    (hLength : peers.length = priorities.length) :
    ∃ a', a.setPriority peers priorities = .ok a' := by
  unfold Axon.setPriority
  rw [if_neg (not_not.mpr hLength)]
  exact ⟨_, rfl⟩

namespace Synchronizer

open WeightRow

------------------------------------------------------------
-- Accumulating
------------------------------------------------------------

/-
  Accumulating changes only the row, to the normalised form of a row as
  wide as the running one.
-/
theorem accumulate_eq_ok
    {s acc : Synchronizer}
    {contribution : List (List F32)}
    (hAcc : s.accumulate contribution = .ok acc) :
    acc = { s with row := acc.row } ∧
      ∃ smoothed : List F32,
        smoothed.length = s.row.length ∧ acc.row = normalize smoothed := by
  unfold accumulate at hAcc
  cases hAbsorb : absorb s.row contribution s.settings.smoothing with
  | error e => simp [hAbsorb, bind, Except.bind] at hAcc
  | ok r =>
      simp [hAbsorb, bind, Except.bind, pure, Except.pure] at hAcc
      subst hAcc
      exact ⟨rfl, absorb_eq_ok hAbsorb⟩

/- What accumulating keeps: the counters, the settings and the phase. -/
theorem accumulate_keeps
    {s acc : Synchronizer}
    {contribution : List (List F32)}
    (hAcc : s.accumulate contribution = .ok acc) :
    acc.globalStep = s.globalStep ∧ acc.settings = s.settings ∧ acc.publishes = s.publishes ∧
      acc.phase = s.phase := by
  have hFrame := (accumulate_eq_ok hAcc).1
  refine ⟨?_, ?_, ?_, ?_⟩ <;> rw [hFrame]

------------------------------------------------------------
-- Aligned Worlds
------------------------------------------------------------

/-
  A world and a synchroniser that agree: the store is well shaped, the
  snapshot's neurons are a prefix of the store's, the synchroniser's uid
  is the neuron's in its snapshot and its row is as wide as the
  snapshot.
-/
structure Aligned
    (w : MemoryWorld)
    (s : Synchronizer) : Prop where
  store_wellShaped : w.store.WellShaped
  snapshot_prefix : w.view.snapshot.neurons <+: w.store.neurons
  ownUid_eq : w.view.ownUid = some s.uid
  row_length : s.row.length = w.view.snapshot.neurons.length

namespace Aligned

variable {w : MemoryWorld} {s : Synchronizer}

/- Alignment reads only the uid and the row of the synchroniser. -/
theorem of_uid_row
    {t : Synchronizer}
    (h : Aligned w s)
    (hUid : t.uid = s.uid)
    (hLength : t.row.length = s.row.length) :
    Aligned w t :=
  ⟨h.store_wellShaped, h.snapshot_prefix, hUid ▸ h.ownUid_eq,
    hLength ▸ h.row_length⟩

theorem store_uid
    (h : Aligned w s) :
    w.store.uidOf w.view.hotkey = some s.uid :=
  SharedState.uidOf_of_prefix h.snapshot_prefix h.ownUid_eq

theorem row_fits
    (h : Aligned w s) :
    s.row.length ≤ w.store.neurons.length :=
  h.row_length ▸ h.snapshot_prefix.length_le

theorem row_ne_nil
    (h : Aligned w s) :
    s.row ≠ [] := by
  have hUid : s.uid < w.view.snapshot.neurons.length :=
    SharedState.uidOf_lt h.ownUid_eq
  rw [← List.length_pos_iff, h.row_length]
  omega

/- Accumulating keeps the alignment: the uid stays and the row keeps its width. -/
theorem accumulate
    {acc : Synchronizer}
    {contribution : List (List F32)}
    (h : Aligned w s)
    (hAcc : s.accumulate contribution = .ok acc) :
    Aligned w acc := by
  obtain ⟨hAccEq, smoothed, hWidth, hRow⟩ := accumulate_eq_ok hAcc
  have hAccUid : acc.uid = s.uid := by
    rw [hAccEq]
  exact h.of_uid_row hAccUid (by rw [hRow, normalize_length, hWidth])

/- Another neuron registering keeps the alignment. -/
theorem register
    (h : Aligned w s)
    (hotkey : String) :
    Aligned { w with store := (w.store.register hotkey).2 } s :=
  ⟨SharedState.register_wellShaped h.store_wellShaped hotkey,
    h.snapshot_prefix.trans (SharedState.register_neurons_prefix _ _),
    h.ownUid_eq, h.row_length⟩

/- Any neuron publishing a row keeps the alignment. -/
theorem emit
    {hotkey : String}
    {row : List F32}
    {version : UInt64}
    {store : SharedState}
    (h : Aligned w s)
    (hApply : w.store.applyRow hotkey row = .ok (version, store)) :
    Aligned { w with store := store } s :=
  ⟨SharedState.applyRow_wellShaped h.store_wellShaped hApply,
    (SharedState.applyRow_eq_ok hApply).1 ▸ h.snapshot_prefix,
    h.ownUid_eq, h.row_length⟩

end Aligned

------------------------------------------------------------
-- Publishing over the Store
------------------------------------------------------------

/-
  A publication over the store of an aligned world succeeds: the row is
  applied, the snapshot refreshed, and the row pulled back padded with
  zeros to the store's neurons, the phase accumulating again; the world
  stays aligned.
-/
theorem publish_memory
    {w : MemoryWorld}
    {s : Synchronizer}
    (hAligned : Aligned w s)
    (axon : Axon) :
    ∃ w' axon',
      s.publish Link.memory w axon =
        (w', axon', .ok { s with
          row := (s.row ++
            List.replicate (w'.view.snapshot.neurons.length - s.row.length) 0),
          phase := .accumulating }) ∧
      w'.view.snapshot.neurons = w.store.neurons ∧
      Aligned w' { s with row := (s.row ++
        List.replicate (w'.view.snapshot.neurons.length - s.row.length) 0) } := by
  obtain ⟨store, hApply, hNeurons, hShape, hRow⟩ :=
    SharedState.applyRow_ok hAligned.store_wellShaped hAligned.store_uid
      hAligned.row_fits
  have hUid : store.uidOf w.view.hotkey = some s.uid := by
    unfold SharedState.uidOf
    rw [hNeurons]
    exact hAligned.store_uid
  obtain ⟨column, hColumn, hColumnLength⟩ :=
    WeightMatrix.column?_of_lt (hShape.1 ▸ SharedState.uidOf_lt hUid)
  obtain ⟨axon', hAxon⟩ :=
    Axon.setPriority_of_length axon
      (show store.neurons.length = column.length by
        rw [hColumnLength, hShape.1])
  have hOwn :
      ({ w.view with snapshot := store } : View).ownRow =
        .ok (s.uid, s.row ++
          List.replicate (store.neurons.length - s.row.length) 0) :=
    View.ownRow_of hUid (by rw [hNeurons]; exact hRow)
  refine ⟨⟨store, { w.view with snapshot := store }⟩, axon', ?_, hNeurons, ?_⟩
  · simp only [publish, Link.memory, hApply, hOwn, hColumn, hAxon]
  · refine ⟨hShape, List.prefix_refl _, hUid, ?_⟩
    simp only [List.length_append, List.length_replicate]
    have hFits := hAligned.row_fits
    rw [← hNeurons] at hFits
    omega

/-
  A publication with attempts left succeeds at its first attempt and
  counts one publication.
-/
theorem retry_memory
    {w : MemoryWorld}
    {s : Synchronizer}
    (hAligned : Aligned w s)
    (last : Option Error)
    (k : Nat)
    (axon : Axon) :
    ∃ w' axon',
      retry Link.memory s last (k + 1) w axon =
        (w', axon', .ok { s with
          row := (s.row ++
            List.replicate (w'.view.snapshot.neurons.length - s.row.length) 0),
          phase := .accumulating,
          publishes := s.publishes + 1 }) ∧
      w'.view.snapshot.neurons = w.store.neurons ∧
      Aligned w' { s with row := (s.row ++
        List.replicate (w'.view.snapshot.neurons.length - s.row.length) 0) } := by
  obtain ⟨w', axon', hPublish, hNeurons, hAligned'⟩ :=
    publish_memory hAligned axon
  exact ⟨w', axon', by simp only [retry, hPublish], hNeurons, hAligned'⟩

------------------------------------------------------------
-- Steps
------------------------------------------------------------

/-
  One step over the store of an aligned world keeps it aligned.  A
  successful step leaves the row normalised, and a step that published
  pulled back the accumulated row padded with zeros for the neurons
  that joined since the last snapshot.
-/
theorem step_memory
    {w w' : MemoryWorld}
    {s s' : Synchronizer}
    {contribution : List (List F32)}
    {axon axon' : Axon}
    {result : Outcome Sync.StepOutcome}
    (hAligned : Aligned w s)
    (hStep : s.step Link.memory contribution w axon = (w', axon', s', result)) :
    Aligned w' s' ∧
      ∀ outcome, result = .ok outcome →
        Normalized s'.row ∧
          (outcome.published = true →
            ∃ acc, s.accumulate contribution = .ok acc ∧
              s'.row = acc.row ++ List.replicate
                (w'.view.snapshot.neurons.length -
                  w.view.snapshot.neurons.length) 0) := by
  unfold step at hStep
  cases hAcc : s.accumulate contribution with
  | error e =>
      rw [hAcc] at hStep
      cases hStep
      exact ⟨hAligned, fun _ hResult => by cases hResult⟩
  | ok acc =>
      rw [hAcc] at hStep
      obtain ⟨-, smoothed, hWidth, hRow⟩ := accumulate_eq_ok hAcc
      have hAccLength : acc.row.length = s.row.length := by
        rw [hRow, normalize_length, hWidth]
      have hAccAligned : Aligned w acc := hAligned.accumulate hAcc
      have hNormalized : Normalized acc.row := by
        have hSmoothed : smoothed ≠ [] := by
          rw [← List.length_pos_iff, hWidth, List.length_pos_iff]
          exact hAligned.row_ne_nil
        rw [hRow]
        exact normalize_normalized hSmoothed
      dsimp only at hStep
      by_cases hDue : (acc.globalStep + 1) % acc.settings.interval = 0
      case pos =>
        rw [if_pos hDue] at hStep
        unfold publishWithRetry at hStep
        cases hAttempts : acc.attempts with
        | zero =>
            -- no attempt: the step fails and keeps the accumulated row
            rw [hAttempts] at hStep
            simp only [retry] at hStep
            cases hStep
            exact ⟨hAccAligned, fun _ hResult => by cases hResult⟩
        | succ k =>
            obtain ⟨w'', axon'', hRetry, hNeurons, hAligned''⟩ :=
              retry_memory hAccAligned none k axon
            rw [hAttempts, hRetry] at hStep
            cases hStep
            refine ⟨hAligned''.of_uid_row rfl rfl,
              fun _ _ => ⟨hNormalized.pad _, fun _ => ⟨acc, rfl, ?_⟩⟩⟩
            rw [hAccLength, hAligned.row_length]
      case neg =>
        rw [if_neg hDue] at hStep
        cases hStep
        refine ⟨hAccAligned.of_uid_row rfl rfl,
          fun _ hResult => ⟨hNormalized, fun hPublished => ?_⟩⟩
        cases hResult
        cases hPublished

------------------------------------------------------------
-- Runs
------------------------------------------------------------

/- Starting over a well-shaped store gives an aligned world. -/
theorem start_memory
    {w w' : MemoryWorld}
    {s : Synchronizer}
    {settings : Sync.Settings}
    {globalStep : UInt64}
    (hStore : w.store.WellShaped)
    (hStart : start Link.memory w settings globalStep = (w', .ok s)) :
    Aligned w' s := by
  unfold start at hStart
  dsimp only [Link.memory] at hStart
  cases hOwn : ({ w.view with snapshot := w.store } : View).ownRow with
  | error e =>
      rw [hOwn] at hStart
      cases hStart
  | ok p =>
      obtain ⟨uid, row⟩ := p
      rw [hOwn] at hStart
      cases hStart
      obtain ⟨hUid, hRow⟩ := View.ownRow_eq_ok hOwn
      exact ⟨hStore, List.prefix_refl _, hUid,
        by rw [WeightMatrix.length_of_row? hStore.2 hRow, hStore.1]⟩

/-
  The worlds and synchronisers of a neuron over an in-memory store:
  started on a well-shaped store, then stepped, while any neuron
  registers or publishes a row in between.
-/
inductive Reachable : MemoryWorld → Synchronizer → Prop
  | start
      {w w' : MemoryWorld}
      {s : Synchronizer}
      {settings : Sync.Settings}
      {globalStep : UInt64}
      (hStore : w.store.WellShaped)
      (hStart : Synchronizer.start Link.memory w settings globalStep = (w', .ok s)) :
      Reachable w' s
  | step
      {w w' : MemoryWorld}
      {s s' : Synchronizer}
      {contribution : List (List F32)}
      {axon axon' : Axon}
      {result : Outcome Sync.StepOutcome}
      (hReach : Reachable w s)
      (hStep : s.step Link.memory contribution w axon = (w', axon', s', result)) :
      Reachable w' s'
  | register
      {w : MemoryWorld}
      {s : Synchronizer}
      (hReach : Reachable w s)
      (hotkey : String) :
      Reachable { w with store := (w.store.register hotkey).2 } s
  | emit
      {w : MemoryWorld}
      {s : Synchronizer}
      {hotkey : String}
      {row : List F32}
      {version : UInt64}
      {store : SharedState}
      (hReach : Reachable w s)
      (hApply : w.store.applyRow hotkey row = .ok (version, store)) :
      Reachable { w with store := store } s

theorem Reachable.aligned
    {w : MemoryWorld}
    {s : Synchronizer}
    (hReach : Reachable w s) :
    Aligned w s := by
  induction hReach with
  | start hStore hStart => exact start_memory hStore hStart
  | step _ hStep ih => exact (step_memory ih hStep).1
  | register _ hotkey ih => exact ih.register hotkey
  | emit _ hApply ih => exact ih.emit hApply

/-
  After every successful step of a run over an in-memory store, the row
  has an entry for each neuron of the last snapshot and is normalised:
  its entries lie in `[0, 1]` and sum to one within the row's width, or
  are all zero.  A step that published pulled back the accumulated row
  padded with zeros for the neurons that joined since.
-/
theorem running_row_normalized
    {w w' : MemoryWorld}
    {s s' : Synchronizer}
    {contribution : List (List F32)}
    {axon axon' : Axon}
    {outcome : Sync.StepOutcome}
    (hReach : Reachable w s)
    (hStep : s.step Link.memory contribution w axon = (w', axon', s', .ok outcome)) :
    s'.row.length = w'.view.snapshot.neurons.length ∧ Normalized s'.row ∧
      (outcome.published = true →
        ∃ acc, s.accumulate contribution = .ok acc ∧
          s'.row = acc.row ++ List.replicate
            (w'.view.snapshot.neurons.length - w.view.snapshot.neurons.length) 0) := by
  obtain ⟨hAligned, hResult⟩ := step_memory hReach.aligned hStep
  exact ⟨hAligned.row_length, hResult outcome rfl⟩

/-
  Two neurons registered, a third joins, and the first steps with a
  publication due: the row `[1/4, 3/4]` is published and pulled back
  padded for the newcomer.
-/
set_option maxRecDepth 20000 in
theorem running_row_normalized_after_join :
    ∃ (w w' : MemoryWorld) (s s' : Synchronizer) (axon' : Axon)
      (outcome : Sync.StepOutcome),
      Reachable w s ∧
      s.step Link.memory [[1, F32.ofNat 3]] w Axon.unbound =
        (w', axon', s', .ok outcome) ∧
      s'.row.length = w'.view.snapshot.neurons.length ∧ Normalized s'.row ∧
      (outcome.published = true →
        ∃ acc, s.accumulate [[1, F32.ofNat 3]] = .ok acc ∧
          s'.row = acc.row ++ List.replicate
            (w'.view.snapshot.neurons.length - w.view.snapshot.neurons.length) 0) := by
  have hReach : Reachable _ _ :=
    .register (.start (by exact ⟨rfl, rfl⟩)
      (rfl : start Link.memory
        ⟨((SharedState.empty.register "hot").2.register "b").2, View.fresh "hot"⟩
        (Sync.Settings.make 1 1 0) 0 = (_, .ok _))) "c"
  exact ⟨_, _, _, _, _, _, hReach,
    (fun hStep => ⟨hStep, running_row_normalized hReach hStep⟩) rfl⟩

/-
  A contribution whose smoothed row overflows the norm: two weights of
  `3e38` sum beyond the largest single-precision number, the norm is
  infinite and the step leaves the row `[0, 0]`, which does not sum to
  one.
-/
set_option maxRecDepth 20000 in
theorem overflowing_contribution_zeroes_row :
    ∃ (w w' : MemoryWorld) (s s' : Synchronizer) (axon' : Axon)
      (outcome : Sync.StepOutcome),
      Reachable w s ∧
      s.step Link.memory [[⟨0x7F61B1E6⟩, ⟨0x7F61B1E6⟩]] w Axon.unbound =
        (w', axon', s', .ok outcome) ∧
      ¬SumsToOne s'.row := by
  have hReach : Reachable _ _ :=
    .start (by exact ⟨rfl, rfl⟩)
      (rfl : start Link.memory
        ⟨((SharedState.empty.register "hot").2.register "b").2, View.fresh "hot"⟩
        (Sync.Settings.make 100 1 0) 0 = (_, .ok _))
  refine ⟨_, _, _, _, _, _, hReach, rfl, ?_⟩
  show ¬SumsToOne [0, 0]
  have hZero : (0 : F32).toRat = 0 := by
    rw [(F32.nonneg_of_value F32.value_zero).toRat_eq,
      F32.units_of_value F32.value_zero]
    simp
  unfold SumsToOne
  norm_num [hZero]

end Synchronizer

end NeuronFleet
