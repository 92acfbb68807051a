import NeuronFleet.Proofs.Neuron.Tally
import NeuronFleet.Proofs.Number.Order
import NeuronFleet.Script.Neuron

/-
  Best-loss checkpoints along a sequence of offers.

  A checkpointer offered checkpoints one after another writes one
  exactly when its loss is a new low: finite and strictly below every
  finite loss offered before it.  So ties, NaN and the infinities are
  never written, and the checkpointer holds the loss and the document
  of the first checkpoint that reached the lowest finite loss, or
  infinity and no file while no loss was finite.  A checkpointer whose
  writes fail answers a new low with the i/o error and stays as it was.

  A run of the serving loop offers each epoch's last loss in turn, so
  its summary counts the epochs that reached a new low and has a best
  loss exactly when some epoch's loss was finite.

  Main declarations:
    * `Checkpointer.NewLow`, `Checkpointer.lowsAfter`, `Checkpointer.FirstLowest`
    * `Checkpointer.offerAll`, `Checkpointer.Holds`, `Checkpointer.Holds.offerAll`
    * `Neuron.runEpoch_offers`, `Neuron.run_offers`
-/

namespace NeuronFleet

namespace Checkpointer

------------------------------------------------------------
-- New Lows
------------------------------------------------------------

/- A loss is a new low after the losses `before` when it is finite and
strictly below each finite one of them. -/
def NewLow
    (before : List F32)
    (loss : F32) :
    Prop :=
  loss.isFinite = true ∧ ∀ x ∈ before, x.isFinite = true → F32.lt loss x = true

instance
    (before : List F32)
    (loss : F32) :
    Decidable (NewLow before loss) :=
  inferInstanceAs (Decidable (_ ∧ ∀ x ∈ before, _))

/- For each of `losses`, whether it is a new low after `before` and the
losses ahead of it. -/
def lowsAfter (before losses : List F32) : List Bool :=
  losses.mapIdx fun i loss => decide (NewLow (before ++ losses.take i) loss)

@[simp] theorem lowsAfter_nil
    (before : List F32) :
    lowsAfter before [] = [] :=
  rfl

@[simp] theorem lowsAfter_cons
    (before : List F32)
    (loss : F32)
    (losses : List F32) :
    lowsAfter before (loss :: losses) =
      decide (NewLow before loss) :: lowsAfter (before ++ [loss]) losses := by
  rw [lowsAfter, lowsAfter, List.mapIdx_cons, List.take_zero, List.append_nil]
  congr 2
  funext i x
  -- the losses ahead of position `i + 1` are `loss` and those ahead of `i`
  exact decide_eq_decide.mpr (by rw [List.take_succ_cons, List.append_assoc, List.singleton_append])

/- `low`, at position `i` of `losses`, is their first lowest finite loss:
a new low after the losses before it and at most every finite loss
after it. -/
def FirstLowest
    (losses : List F32)
    (i : Nat)
    (low : F32) :
    Prop :=
  losses[i]? = some low ∧ NewLow (losses.take i) low ∧
    ∀ x ∈ losses.drop (i + 1), x.isFinite = true → F32.le low x = true

namespace FirstLowest

variable {losses : List F32} {i : Nat} {low : F32}

theorem mem
    (h : FirstLowest losses i low) :
    low ∈ losses :=
  List.mem_of_getElem? h.1

theorem isFinite
    (h : FirstLowest losses i low) :
    low.isFinite = true :=
  h.2.1.1

/- The first lowest loss is at most every finite loss: those before it
are above it, it is itself, or they come after it. -/
theorem le
    (h : FirstLowest losses i low)
    {x : F32}
    (hx : x ∈ losses)
    (hFinite : x.isFinite = true) :
    F32.le low x = true := by
  obtain ⟨hAt, ⟨-, hBefore⟩, hAfter⟩ := h
  obtain ⟨hi, hGet⟩ := List.getElem?_eq_some_iff.mp hAt
  have hDrop : losses.drop i = low :: losses.drop (i + 1) := by
    rw [List.drop_eq_getElem_cons hi, hGet]
  rw [← List.take_append_drop i losses, hDrop] at hx
  rcases List.mem_append.mp hx with hTake | hRest
  · exact F32.le_of_lt (hBefore x hTake hFinite)
  · rcases List.mem_cons.mp hRest with rfl | hLater
    · exact F32.le_refl_of_isNaN_eq_false (F32.isNaN_eq_false_of_isFinite hFinite)
    · exact hAfter x hLater hFinite

/- A loss offered after the first lowest one that is not below it leaves
it the first lowest. -/
theorem concat
    (h : FirstLowest losses i low)
    {x : F32}
    (hx : x.isFinite = true → F32.le low x = true) :
    FirstLowest (losses ++ [x]) i low := by
  obtain ⟨hAt, hNew, hAfter⟩ := h
  have hi : i < losses.length := (List.getElem?_eq_some_iff.mp hAt).1
  refine ⟨by rw [List.getElem?_append_left hi]; exact hAt, ?_, ?_⟩
  · rw [List.take_append_of_le_length hi.le]
    exact hNew
  · intro y hy hFinite
    rw [List.drop_append_of_le_length hi] at hy
    rcases List.mem_append.mp hy with hOld | hLast
    · exact hAfter y hOld hFinite
    · rw [List.mem_singleton.mp hLast] at hFinite ⊢
      exact hx hFinite

end FirstLowest

/- A new low offered last is the first lowest loss. -/
theorem firstLowest_concat_of_newLow
    {losses : List F32}
    {x : F32}
    (hNew : NewLow losses x) :
    FirstLowest (losses ++ [x]) losses.length x := by
  refine ⟨by simp, by simpa using hNew, ?_⟩
  intro y hy
  simp at hy

------------------------------------------------------------
-- Offering Checkpoints
------------------------------------------------------------

theorem saveIfBetter_of_not_improves
    {c : Checkpointer}
    {ck : Checkpoint}
    (hImproves : c.improves ck.loss = false) :
    c.saveIfBetter ck = (c, .ok false) := by
  simp [saveIfBetter, hImproves]

theorem saveIfBetter_of_writes
    {c : Checkpointer}
    {ck : Checkpoint}
    (hImproves : c.improves ck.loss = true)
    (hWrites : c.blocked = none) :
    c.saveIfBetter ck = ({ c with file := some ck.toDocument, bestLoss := ck.loss }, .ok true) := by
  simp [saveIfBetter, hImproves, hWrites]

/- A checkpointer whose writes fail answers a loss that improves with
the i/o error, and stays as it was whatever it is offered. -/
theorem saveIfBetter_of_blocked
    {c : Checkpointer}
    {f : IoFailure}
    (ck : Checkpoint)
    (hBlocked : c.blocked = some f) :
    c.saveIfBetter ck =
      (c, if c.improves ck.loss then .error (.io f.message) else .ok false) := by
  cases hImproves : c.improves ck.loss
  · exact saveIfBetter_of_not_improves hImproves
  · simp [saveIfBetter, hImproves, hBlocked]

/- Offers the checkpoints in order; gives what each offer answered. -/
def offerAll (c : Checkpointer) : List Checkpoint → Checkpointer × List (Outcome Bool)
  | [] => (c, [])
  | ck :: rest =>
    let saved := c.saveIfBetter ck
    let after := saved.1.offerAll rest
    (after.1, saved.2 :: after.2)

/- What a checkpointer that writes holds after the checkpoints
`offered`. -/
inductive Holds : Checkpointer → List Checkpoint → Prop
  -- no loss offered was finite: the best is infinity and there is no file
  | noFinite
      {c : Checkpointer}
      {offered : List Checkpoint}
      (hWrites : c.blocked = none)
      (hNone : ∀ ck ∈ offered, ck.loss.isFinite = false)
      (hBest : c.bestLoss = F32.infinity)
      (hFile : c.file = none) :
      Holds c offered
  -- the checkpoint `ck` at `i` has the first lowest finite loss: it is the best, and the
  -- file is its document
  | lowest
      {c : Checkpointer}
      {offered : List Checkpoint}
      (i : Nat)
      (ck : Checkpoint)
      (hWrites : c.blocked = none)
      (hAt : offered[i]? = some ck)
      (hLowest : FirstLowest (offered.map (·.loss)) i ck.loss)
      (hBest : c.bestLoss = ck.loss)
      (hFile : c.file = some ck.toDocument) :
      Holds c offered

theorem holds_new :
    Holds (new none) [] :=
  .noFinite rfl (fun _ hck => absurd hck List.not_mem_nil) rfl rfl

namespace Holds

variable {c : Checkpointer} {offered : List Checkpoint}

theorem writes
    (h : Holds c offered) :
    c.blocked = none := by
  cases h with
  | noFinite hWrites => exact hWrites
  | lowest _ _ hWrites => exact hWrites

/- A checkpointer holding what it was offered writes exactly the new
lows. -/
theorem improves_iff
    (h : Holds c offered)
    {loss : F32} :
    c.improves loss = true ↔ NewLow (offered.map (·.loss)) loss := by
  unfold improves
  rw [Bool.and_eq_true]
  cases h with
  | noFinite _ hNone hBest =>
      -- nothing before is finite, and every finite loss is below infinity
      rw [hBest]
      constructor
      · rintro ⟨hFinite, -⟩
        refine ⟨hFinite, fun x hx hxFinite => ?_⟩
        obtain ⟨ck, hck, rfl⟩ := List.mem_map.mp hx
        rw [hNone ck hck] at hxFinite
        cases hxFinite
      · rintro ⟨hFinite, -⟩
        exact ⟨hFinite, F32.lt_infinity hFinite⟩
  | lowest i ck _ _ hLowest hBest =>
      -- below the first lowest loss is below every finite one
      rw [hBest]
      constructor
      · rintro ⟨hFinite, hBelow⟩
        exact ⟨hFinite, fun x hx hxFinite => F32.lt_of_lt_of_le hBelow (hLowest.le hx hxFinite)⟩
      · rintro ⟨hFinite, hBelow⟩
        exact ⟨hFinite, hBelow _ hLowest.mem hLowest.isFinite⟩

/- An offer that does not improve leaves what is held standing for the
longer sequence. -/
theorem concat
    (h : Holds c offered)
    {ck : Checkpoint}
    (hImproves : c.improves ck.loss = false) :
    Holds c (offered ++ [ck]) := by
  cases h with
  | noFinite hWrites hNone hBest hFile =>
      -- the loss is not finite, or it would be below infinity
      refine .noFinite hWrites ?_ hBest hFile
      intro x hx
      rcases List.mem_append.mp hx with hOld | hLast
      · exact hNone x hOld
      · rw [List.mem_singleton.mp hLast]
        cases hFinite : ck.loss.isFinite
        · rfl
        · simp [improves, hBest, hFinite, F32.lt_infinity hFinite] at hImproves
  | lowest i low hWrites hAt hLowest hBest hFile =>
      -- a finite loss that does not improve is at least the lowest one
      have hi : i < offered.length := (List.getElem?_eq_some_iff.mp hAt).1
      refine .lowest i low hWrites (by rw [List.getElem?_append_left hi]; exact hAt) ?_ hBest hFile
      rw [List.map_append, List.map_singleton]
      refine hLowest.concat fun hFinite => ?_
      have hNotBelow : F32.lt ck.loss low.loss = false := by
        simpa [improves, hFinite, hBest] using hImproves
      exact F32.le_of_not_lt (F32.isNaN_eq_false_of_isFinite hFinite)
        (F32.isNaN_eq_false_of_isFinite hLowest.isFinite) hNotBelow

/- One offer: the answer is whether the loss is a new low, and what is
held stands for the sequence with the offer. -/
theorem saveIfBetter
    (h : Holds c offered)
    (ck : Checkpoint) :
    (c.saveIfBetter ck).2 = .ok (decide (NewLow (offered.map (·.loss)) ck.loss)) ∧
      Holds (c.saveIfBetter ck).1 (offered ++ [ck]) := by
  cases hImproves : c.improves ck.loss
  case true =>
    have hNew := h.improves_iff.mp hImproves
    rw [saveIfBetter_of_writes hImproves h.writes, decide_eq_true hNew]
    refine ⟨rfl, .lowest offered.length ck h.writes (by simp) ?_ rfl rfl⟩
    rw [List.map_append, List.map_singleton]
    simpa using firstLowest_concat_of_newLow hNew
  case false =>
    have hOld : ¬NewLow (offered.map (·.loss)) ck.loss := fun hNew => by
      rw [h.improves_iff.mpr hNew] at hImproves
      cases hImproves
    rw [saveIfBetter_of_not_improves hImproves, decide_eq_false hOld]
    exact ⟨rfl, h.concat hImproves⟩

/- Offers one after another, by induction on the checkpoints offered,
what is held carrying from each offer to the next. -/
theorem offerAll
    (h : Holds c offered)
    (more : List Checkpoint) :
    (c.offerAll more).2 = (lowsAfter (offered.map (·.loss)) (more.map (·.loss))).map .ok ∧
      Holds (c.offerAll more).1 (offered ++ more) := by
  induction more generalizing c offered with
  | nil => exact ⟨rfl, by simpa [Checkpointer.offerAll] using h⟩
  | cons ck rest ih =>
      obtain ⟨hSaved, hNext⟩ := h.saveIfBetter ck
      obtain ⟨hAnswers, hLast⟩ := ih hNext
      refine ⟨?_, by simpa [Checkpointer.offerAll] using hLast⟩
      simp only [Checkpointer.offerAll, List.map_cons, lowsAfter_cons, hSaved, hAnswers,
        List.map_append, List.map_nil]

theorem isFinite_bestLoss_iff
    (h : Holds c offered) :
    c.bestLoss.isFinite = true ↔ ∃ ck ∈ offered, ck.loss.isFinite = true := by
  cases h with
  | noFinite _ hNone hBest =>
      have hInfinite : F32.infinity.isFinite = false := by decide
      rw [hBest, hInfinite]
      simp only [Bool.false_eq_true, false_iff, not_exists, not_and]
      intro ck hck hFinite
      rw [hNone ck hck] at hFinite
      cases hFinite
  | lowest i ck _ hAt hLowest hBest =>
      rw [hBest]
      exact ⟨fun hFinite => ⟨ck, List.mem_of_getElem? hAt, hFinite⟩, fun _ => hLowest.isFinite⟩

theorem firstLowest_bestLoss
    (h : Holds c offered)
    (hFinite : c.bestLoss.isFinite = true) :
    ∃ i, FirstLowest (offered.map (·.loss)) i c.bestLoss := by
  cases h with
  | noFinite _ _ hBest =>
      rw [hBest] at hFinite
      cases hFinite
  | lowest i ck _ _ hLowest hBest =>
      exact ⟨i, hBest ▸ hLowest⟩

end Holds

end Checkpointer

------------------------------------------------------------
-- Checkpoints along a Run
------------------------------------------------------------

namespace Neuron

variable {μ σ κ : Type} {c : Collaborators μ σ κ}

/- A new neuron keeps the checkpointer its working directory gave it. -/
theorem new_checkpointer
    {config : FleetConfig}
    {checkpointer : Checkpointer}
    {freshTrialId : String}
    {model : μ}
    {world : σ}
    {axon : Axon}
    {batches : κ}
    {n : Neuron μ σ κ}
    (hNew : new c config (.ok checkpointer) freshTrialId model world axon batches = .ok n) :
    n.checkpointer = checkpointer := by
  unfold new at hNew
  simp only [bind, Except.bind] at hNew
  -- each step before the neuron is built either fails, which the result
  -- rules out, or passes
  split at hNew
  · cases hNew
  split at hNew
  · cases hNew
  split at hNew
  · cases hNew
  split at hNew
  · cases hNew
  cases hNew
  rfl

/- An epoch that reports has offered its checkpointer one checkpoint,
with the epoch's loss, and reports what the offer answered. -/
theorem runEpoch_offers
    {n n' : Neuron μ σ κ}
    {r : EpochReport}
    (hEpoch : runEpoch c n = (n', .ok r)) :
    ∃ ck : Checkpoint, ck.loss = r.loss ∧
      n.checkpointer.saveIfBetter ck = (n'.checkpointer, .ok r.checkpointed) := by
  unfold runEpoch at hEpoch
  dsimp only at hEpoch
  split at hEpoch
  case h_1 => cases hEpoch
  case h_2 sync hStart =>
    split at hEpoch
    case h_1 => cases hEpoch
    case h_2 n₂ p hSteps =>
      -- the local steps leave the checkpointer as it was
      obtain ⟨rs, hTried, -⟩ := steps_start hSteps
      have hKept : n₂.checkpointer = n.checkpointer := hTried.keeps.checkpointer
      split at hEpoch
      case h_1 => cases hEpoch
      case h_2 checkpointed hSave =>
        cases hEpoch
        rw [hKept] at hSave ⊢
        refine ⟨_, ?_, Prod.ext rfl hSave⟩
        rfl

/- Epochs that all report have offered the checkpointer one checkpoint
each, in order, with the epochs' losses. -/
theorem epochs_offer
    {k : Nat}
    {n n' : Neuron μ σ κ}
    {reports : List EpochReport}
    (hEpochs : epochs c k n = (n', reports.map .ok)) :
    ∃ cks : List Checkpoint, cks.map (·.loss) = reports.map (·.loss) ∧
      n.checkpointer.offerAll cks = (n'.checkpointer, reports.map fun r => .ok r.checkpointed) := by
  induction k generalizing n reports with
  | zero =>
      rw [epochs, Prod.mk.injEq] at hEpochs
      obtain ⟨rfl, hNone⟩ := hEpochs
      rw [List.map_eq_nil_iff.mp hNone.symm]
      exact ⟨[], rfl, rfl⟩
  | succ k ih =>
      rw [epochs] at hEpochs
      split at hEpochs
      case h_1 e hEpoch =>
        -- a failed epoch would end the list with its error
        cases reports with
        | nil => cases hEpochs
        | cons r rest => simp at hEpochs
      case h_2 n₁ r hEpoch =>
        generalize hRest : epochs c k n₁ = rest at hEpochs
        obtain ⟨n₂, rest⟩ := rest
        cases reports with
        | nil => cases hEpochs
        | cons r' reports =>
            simp only [List.map_cons, Prod.mk.injEq, List.cons.injEq, Except.ok.injEq] at hEpochs
            obtain ⟨rfl, rfl, rfl⟩ := hEpochs
            obtain ⟨ck, hLoss, hSave⟩ := runEpoch_offers hEpoch
            obtain ⟨cks, hLosses, hOffer⟩ := ih hRest
            refine ⟨ck :: cks, by simp [hLoss, hLosses], ?_⟩
            simp [Checkpointer.offerAll, hSave, hOffer]

/- The epoch loop of a run that ends with totals: its epochs all
reported, the totals count the checkpoints they wrote, and the best
loss is the checkpointer's when finite. -/
theorem go_eq_ok
    {k : Nat}
    {n n' : Neuron μ σ κ}
    {s sum : Summary}
    (hGo : run.go c k n s = (n', .ok sum)) :
    ∃ reports : List EpochReport, epochs c k n = (n', reports.map .ok) ∧
      sum.checkpoints = s.checkpoints + (reports.map (·.checkpointed)).count true ∧
      sum.bestLoss =
        if n'.checkpointer.bestLoss.isFinite then some n'.checkpointer.bestLoss else none := by
  induction k generalizing n s with
  | zero =>
      rw [run.go] at hGo
      cases hGo
      exact ⟨[], rfl, by simp, rfl⟩
  | succ k ih =>
      rw [run.go] at hGo
      split at hGo
      case h_1 => cases hGo
      case h_2 n₁ r hEpoch =>
        obtain ⟨reports, hEpochs, hCount, hBest⟩ := ih hGo
        refine ⟨r :: reports, by simp [epochs, hEpoch, hEpochs], ?_, hBest⟩
        rw [hCount, List.map_cons, List.count_cons]
        simp only [Summary.add]
        cases r.checkpointed
        · simp
        · simp only [ite_true, beq_self_eq_true]
          omega

/- A run that ends with totals offered its checkpointer one checkpoint
per epoch, with the epochs' losses; the totals count the checkpoints
written and give the checkpointer's best loss when it is finite. -/
theorem run_offers
    {last : Nat}
    {n n' : Neuron μ σ κ}
    {sum : Summary}
    (hRun : run c last n = (n', .ok sum)) :
    ∃ reports : List EpochReport, epochs c (last - n.epoch) n = (n', reports.map .ok) ∧
      ∃ cks : List Checkpoint, cks.map (·.loss) = reports.map (·.loss) ∧
        n.checkpointer.offerAll cks = (n'.checkpointer, reports.map fun r => .ok r.checkpointed) ∧
        sum.checkpoints = (reports.map (·.checkpointed)).count true ∧
        sum.bestLoss =
          if n'.checkpointer.bestLoss.isFinite then some n'.checkpointer.bestLoss else none := by
  obtain ⟨reports, hEpochs, hCount, hBest⟩ := go_eq_ok hRun
  obtain ⟨cks, hLosses, hOffer⟩ := epochs_offer hEpochs
  exact ⟨reports, hEpochs, cks, hLosses, hOffer, by simpa using hCount, hBest⟩

end Neuron

------------------------------------------------------------
-- Best-Loss Checkpoints
------------------------------------------------------------

namespace Checkpointer

/-
  Offered checkpoints one after another, a fresh checkpointer whose
  writes succeed answers each offer with whether its loss is a new low
  after the losses before it, and holds the best loss and the document
  of the first lowest finite loss, or infinity and no file while none
  was finite.  One whose writes fail answers an offer that improves with
  the i/o error, and stays as it was.  So a run of the serving loop from
  a fresh checkpointer that ends with totals reports, for each epoch,
  whether its loss was a new low, counts those epochs, and has a best
  loss exactly when some epoch's loss was finite: the first lowest one.
-/
theorem writes_exactly_new_lows :
    (∀ cks : List Checkpoint,
      ((new none).offerAll cks).2 = (lowsAfter [] (cks.map (·.loss))).map .ok ∧
        Holds ((new none).offerAll cks).1 cks) ∧
    (∀ (c : Checkpointer) (f : IoFailure) (ck : Checkpoint), c.blocked = some f →
      c.saveIfBetter ck = (c, if c.improves ck.loss then .error (.io f.message) else .ok false)) ∧
    ∀ {μ σ κ : Type} (co : Collaborators μ σ κ) (last : Nat) (n n' : Neuron μ σ κ) (sum : Summary),
      n.checkpointer = new none → Neuron.run co last n = (n', .ok sum) →
      ∃ reports : List EpochReport,
        Neuron.epochs co (last - n.epoch) n = (n', reports.map .ok) ∧
        reports.map (·.checkpointed) = lowsAfter [] (reports.map (·.loss)) ∧
        sum.checkpoints = (lowsAfter [] (reports.map (·.loss))).count true ∧
        (sum.bestLoss = none ↔ ∀ r ∈ reports, r.loss.isFinite = false) ∧
        ∀ best, sum.bestLoss = some best → ∃ i, FirstLowest (reports.map (·.loss)) i best := by
  refine ⟨fun cks => by simpa using holds_new.offerAll cks,
    fun c f ck hBlocked => saveIfBetter_of_blocked ck hBlocked, ?_⟩
  intro μ σ κ co last n n' sum hFresh hRun
  obtain ⟨reports, hEpochs, cks, hLosses, hOffer, hCount, hBest⟩ := Neuron.run_offers hRun
  obtain ⟨hAnswers, hHolds⟩ := holds_new.offerAll cks
  rw [← hFresh, hOffer] at hAnswers hHolds
  simp only [List.map_nil, List.nil_append, hLosses] at hAnswers hHolds
  -- the reports carry the answers of the offers
  have hFlags : reports.map (·.checkpointed) = lowsAfter [] (reports.map (·.loss)) := by
    apply (List.map_inj_right fun (x y : Bool) (h : (Except.ok x : Outcome Bool) = .ok y) =>
      Except.ok.inj h).mp
    rw [List.map_map]
    exact hAnswers
  -- some loss offered is finite exactly when some epoch's loss is
  have hFinite : n'.checkpointer.bestLoss.isFinite = true ↔ ∃ r ∈ reports, r.loss.isFinite = true := by
    have hSame := congrArg (fun l : List F32 => ∃ x ∈ l, x.isFinite = true) hLosses
    simp only [List.mem_map, exists_exists_and_eq_and] at hSame
    rw [hHolds.isFinite_bestLoss_iff, hSame]
  refine ⟨reports, hEpochs, hFlags, by rw [hCount, hFlags], ?_, ?_⟩
  · rw [hBest]
    cases hBestFinite : n'.checkpointer.bestLoss.isFinite
    · simp only [hBestFinite, Bool.false_eq_true, false_iff, not_exists, not_and] at hFinite
      simpa using hFinite
    · obtain ⟨r, hr, hrFinite⟩ := hFinite.mp hBestFinite
      simp only [if_true, reduceCtorEq, false_iff, not_forall]
      exact ⟨r, hr, by simp [hrFinite]⟩
  · intro best hSome
    rw [hBest] at hSome
    split at hSome
    case isTrue hBestFinite =>
      cases hSome
      rw [← hLosses]
      exact hHolds.firstLowest_bestLoss hBestFinite
    case isFalse => cases hSome

/-
  Four one-step epochs of a scripted model with losses 3, 2, 2 and 1,
  from a new neuron; and a checkpointer whose directory is missing,
  offered a loss of one.
-/
open Script in
theorem scripted_run_writes_new_lows :
    (∃ n n' sum,
      Neuron.new ⟨ScriptedModel.learner, Link.memory, FlakyCorpus.source⟩
          { neuron := { localEpochs := 1 } } (.ok (new none)) "trial"
          (ScriptedModel.new [.loss (F32.ofNat 3), .loss (F32.ofNat 2), .loss (F32.ofNat 2), .loss 1])
          ⟨SharedState.empty, View.fresh "hot"⟩ Axon.unbound
          ⟨⟨Random.ChaCha.ofSeed 1, 32, 2, 4, 0⟩, 0, []⟩ = .ok n ∧
        n.checkpointer = new none ∧
        Neuron.run ⟨ScriptedModel.learner, Link.memory, FlakyCorpus.source⟩ 4 n = (n', .ok sum) ∧
        ∃ reports : List EpochReport,
          Neuron.epochs ⟨ScriptedModel.learner, Link.memory, FlakyCorpus.source⟩ (4 - n.epoch) n =
            (n', reports.map .ok) ∧
          reports.map (·.checkpointed) = lowsAfter [] (reports.map (·.loss)) ∧
          sum.checkpoints = (lowsAfter [] (reports.map (·.loss))).count true ∧
          (sum.bestLoss = none ↔ ∀ r ∈ reports, r.loss.isFinite = false) ∧
          ∀ best, sum.bestLoss = some best → ∃ i, FirstLowest (reports.map (·.loss)) i best) ∧
    (⟨F32.infinity, none, some .notFound⟩ : Checkpointer).improves 1 = true ∧
    (⟨F32.infinity, none, some .notFound⟩ : Checkpointer).saveIfBetter ⟨1, 0, 1, none, .null⟩ =
      (⟨F32.infinity, none, some .notFound⟩,
        if (⟨F32.infinity, none, some .notFound⟩ : Checkpointer).improves 1 then
          .error (.io IoFailure.notFound.message)
        else .ok false) := by
  refine ⟨?_, by decide, writes_exactly_new_lows.2.1 _ _ _ rfl⟩
  -- the neuron is made, and its run ends with totals
  have hRuns : ((Neuron.new ⟨ScriptedModel.learner, Link.memory, FlakyCorpus.source⟩
      { neuron := { localEpochs := 1 } } (.ok (new none)) "trial"
      (ScriptedModel.new [.loss (F32.ofNat 3), .loss (F32.ofNat 2), .loss (F32.ofNat 2), .loss 1])
      ⟨SharedState.empty, View.fresh "hot"⟩ Axon.unbound
      ⟨⟨Random.ChaCha.ofSeed 1, 32, 2, 4, 0⟩, 0, []⟩).toOption.map fun n =>
        (Neuron.run ⟨ScriptedModel.learner, Link.memory, FlakyCorpus.source⟩ 4 n).2.isOk) =
      some true := by
    decide +kernel
  cases hNew : Neuron.new ⟨ScriptedModel.learner, Link.memory, FlakyCorpus.source⟩
      { neuron := { localEpochs := 1 } } (.ok (new none)) "trial"
      (ScriptedModel.new [.loss (F32.ofNat 3), .loss (F32.ofNat 2), .loss (F32.ofNat 2), .loss 1])
      ⟨SharedState.empty, View.fresh "hot"⟩ Axon.unbound
      ⟨⟨Random.ChaCha.ofSeed 1, 32, 2, 4, 0⟩, 0, []⟩ with
  | error e =>
      rw [hNew] at hRuns
      cases hRuns
  | ok n =>
      rw [hNew] at hRuns
      have hFresh := Neuron.new_checkpointer hNew
      cases hSum : (Neuron.run ⟨ScriptedModel.learner, Link.memory, FlakyCorpus.source⟩ 4 n).2 with
      | error e =>
          simp [Except.toOption, hSum, Except.isOk, Except.toBool] at hRuns
      | ok sum =>
          have hRun : Neuron.run ⟨ScriptedModel.learner, Link.memory, FlakyCorpus.source⟩ 4 n =
              ((Neuron.run ⟨ScriptedModel.learner, Link.memory, FlakyCorpus.source⟩ 4 n).1, .ok sum) :=
            Prod.ext rfl hSum
          exact ⟨n, _, sum, rfl, hFresh, hRun,
            writes_exactly_new_lows.2.2 _ 4 n _ sum hFresh hRun⟩

end Checkpointer

end NeuronFleet
