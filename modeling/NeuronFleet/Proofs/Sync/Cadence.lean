import NeuronFleet.Proofs.Sync.RunningRow

/-
  The publication cadence of a synchroniser, over any link.

  A step either rejects its contribution, returning the invalid-input
  error and leaving everything as it was, or completes the step its
  counter names.  It publishes exactly when the next counter is a
  multiple of the interval, by one publication when that succeeds at
  its first attempt, and otherwise touches neither the world nor the
  axon.  Over any calls in which every due publication succeeds, the
  64-bit counter grows by the number of successful calls, wrapping past
  its last value, the publications count the due steps passed, and the
  phase between calls is accumulating.  While the counter does not wrap,
  the due steps are the multiples of the interval passed.

  Main declarations:
    * `Synchronizer.accumulate_error`
    * `Synchronizer.step_of_rejected`, `Synchronizer.step_of_not_due`,
      `Synchronizer.step_of_published`
    * `Synchronizer.DuePublishSucceeds`, `Synchronizer.Calls`
    * `Synchronizer.duePasses`, `Synchronizer.duePasses_add`,
      `Synchronizer.duePasses_of_lt`
    * `Synchronizer.step_cadence`
-/

namespace NeuronFleet

------------------------------------------------------------
-- Rejected Contributions
------------------------------------------------------------

namespace WeightRow

theorem addBatchRow_error
    {width i : Nat}
    {sums row : List F32}
    {e : Error}
    (hAdd : addBatchRow width i sums row = .error e) :
    ∃ msg, e = .invalidInput msg := by
  unfold addBatchRow at hAdd
  split at hAdd
  case isTrue =>
    cases hAdd
    exact ⟨_, rfl⟩
  case isFalse =>
    split at hAdd
    case isTrue =>
      cases hAdd
      exact ⟨_, rfl⟩
    case isFalse => cases hAdd

theorem foldlM_addBatchRow_error
    (width : Nat)
    (items : List (List F32 × Nat))
    (init : List F32)
    {e : Error}
    (hFold : items.foldlM (fun acc (row, i) => addBatchRow width i acc row) init =
      .error e) :
    ∃ msg, e = .invalidInput msg := by
  induction items generalizing init with
  | nil => cases hFold
  | cons item rest ih =>
      rw [List.foldlM_cons] at hFold
      cases hAdd : addBatchRow width item.2 init item.1 with
      | error e' =>
          simp only [hAdd, bind, Except.bind] at hFold
          cases hFold
          exact addBatchRow_error hAdd
      | ok sums =>
          simp only [hAdd, bind, Except.bind] at hFold
          exact ih sums hFold

/- Every way a batch mean fails is an invalid input. -/
theorem batchMean_error
    {rows : List (List F32)}
    {width : Nat}
    {e : Error}
    (hMean : batchMean rows width = .error e) :
    ∃ msg, e = .invalidInput msg := by
  unfold batchMean at hMean
  by_cases hEmpty : rows.isEmpty = true
  case pos =>
    simp only [hEmpty, if_true] at hMean
    cases hMean
    exact ⟨_, rfl⟩
  case neg =>
    simp only [hEmpty, Bool.false_eq_true, if_false] at hMean
    cases hFold : rows.zipIdx.foldlM
        (fun acc (row, i) => addBatchRow width i acc row) (zeros width) with
    | error e' =>
        simp only [hFold, bind, Except.bind] at hMean
        cases hMean
        exact foldlM_addBatchRow_error width _ _ hFold
    | ok sums =>
        simp only [hFold, bind, Except.bind, pure, Except.pure] at hMean
        cases hMean

theorem absorb_error
    {row : List F32}
    {batch : List (List F32)}
    {alpha : F32}
    {e : Error}
    (hAbsorb : absorb row batch alpha = .error e) :
    ∃ msg, e = .invalidInput msg := by
  unfold absorb smoothToward at hAbsorb
  cases hMean : batchMean batch row.length with
  | error e' =>
      simp only [hMean, bind, Except.bind] at hAbsorb
      cases hAbsorb
      exact batchMean_error hMean
  | ok mean =>
      simp only [hMean, bind, Except.bind, pure, Except.pure] at hAbsorb
      split at hAbsorb
      case h_1 hWidth =>
        split at hWidth
        case isTrue =>
          cases hWidth
          cases hAbsorb
          exact ⟨_, rfl⟩
        case isFalse => cases hWidth
      case h_2 => cases hAbsorb

end WeightRow

namespace Synchronizer

open WeightRow

/- A rejected contribution is an invalid input. -/
theorem accumulate_error
    {s : Synchronizer}
    {contribution : List (List F32)}
    {e : Error}
    (hAcc : s.accumulate contribution = .error e) :
    ∃ msg, e = .invalidInput msg := by
  unfold accumulate at hAcc
  cases hAbsorb : absorb s.row contribution s.settings.smoothing with
  | error e' =>
      simp only [hAbsorb, bind, Except.bind] at hAcc
      cases hAcc
      exact absorb_error hAbsorb
  | ok r =>
      simp only [hAbsorb, bind, Except.bind, pure, Except.pure] at hAcc
      cases hAcc

------------------------------------------------------------
-- One Step
------------------------------------------------------------

/-
  A successful publication changes only the uid and the row, and leaves
  the phase accumulating.
-/
theorem publish_eq_ok
    {σ : Type}
    {l : Link σ}
    {s p : Synchronizer}
    {w w' : σ}
    {axon axon' : Axon}
    (hPublish : s.publish l w axon = (w', axon', .ok p)) :
    p = { s with uid := p.uid, row := p.row, phase := .accumulating } := by
  unfold publish at hPublish
  dsimp only at hPublish
  -- the emit, the refresh, the own row, the column and the axon each
  -- either fail, which the result rules out, or pass to the next
  split at hPublish
  · cases hPublish
  split at hPublish
  · cases hPublish
  split at hPublish
  · cases hPublish
  split at hPublish
  · cases hPublish
  split at hPublish
  · cases hPublish
  cases hPublish
  rfl

theorem start_eq_ok
    {σ : Type}
    {l : Link σ}
    {w w' : σ}
    {settings : Sync.Settings}
    {globalStep : UInt64}
    {s : Synchronizer}
    (hStart : start l w settings globalStep = (w', .ok s)) :
    s.settings = settings ∧ s.phase = .accumulating ∧
      s.globalStep = globalStep ∧ s.publishes = 0 := by
  unfold start at hStart
  split at hStart
  · cases hStart
  split at hStart
  · cases hStart
  cases hStart
  exact ⟨rfl, rfl, rfl, rfl⟩

section Step

variable {σ : Type} {l : Link σ} {s acc p : Synchronizer}
variable {contribution : List (List F32)} {w w' : σ} {axon axon' : Axon}

theorem step_of_rejected
    {e : Error}
    (hAcc : s.accumulate contribution = .error e) :
    s.step l contribution w axon = (w, axon, s, .error e) := by
  unfold step
  rw [hAcc]

theorem step_of_not_due
    (hAcc : s.accumulate contribution = .ok acc)
    (hNotDue : (s.globalStep + 1) % s.settings.interval ≠ 0) :
    s.step l contribution w axon =
      (w, axon, { acc with globalStep := s.globalStep + 1 },
        .ok ⟨s.globalStep, false⟩) := by
  obtain ⟨hCount, hSettings, -, -⟩ := accumulate_keeps hAcc
  unfold step
  rw [hAcc]
  dsimp only
  rw [if_neg (by rwa [hCount, hSettings]), hCount]

theorem step_of_published
    (hAcc : s.accumulate contribution = .ok acc)
    (hDue : (s.globalStep + 1) % s.settings.interval = 0)
    (hPublish : acc.publish l w axon = (w', axon', .ok p)) :
    s.step l contribution w axon =
      (w', axon',
        { p with
          publishes := p.publishes + 1,
          globalStep := s.globalStep + 1 },
        .ok ⟨s.globalStep, true⟩) := by
  obtain ⟨hCount, hSettings, -, -⟩ := accumulate_keeps hAcc
  have hPublished : p.globalStep = acc.globalStep := by
    rw [publish_eq_ok hPublish]
  unfold step
  rw [hAcc]
  dsimp only
  rw [if_pos (by rwa [hCount, hSettings])]
  unfold publishWithRetry attempts
  simp only [retry, hPublish, hPublished, hCount]

/- Every due publication of a call succeeds at its first attempt. -/
def DuePublishSucceeds
    (l : Link σ)
    (s : Synchronizer)
    (contribution : List (List F32))
    (w : σ)
    (axon : Axon) :
    Prop :=
  (s.globalStep + 1) % s.settings.interval = 0 →
    ∀ acc, s.accumulate contribution = .ok acc →
      ∃ w' axon' p, acc.publish l w axon = (w', axon', .ok p)

/-
  What one call can do when its due publication succeeds: reject the
  contribution and change nothing, complete a step that is not due
  without touching the world or the axon, or complete a due step by
  exactly one publication.
-/
theorem call_cases
    {s' : Synchronizer}
    {r : Outcome Sync.StepOutcome}
    (hDue : DuePublishSucceeds l s contribution w axon)
    (hStep : s.step l contribution w axon = (w', axon', s', r)) :
    (∃ e, s.accumulate contribution = .error e ∧
        r = .error e ∧ s' = s ∧ w' = w ∧ axon' = axon) ∨
      (∃ acc, s.accumulate contribution = .ok acc ∧
        (s.globalStep + 1) % s.settings.interval ≠ 0 ∧
        r = .ok ⟨s.globalStep, false⟩ ∧
        s' = { acc with globalStep := s.globalStep + 1 } ∧ w' = w ∧ axon' = axon) ∨
      (∃ acc p, s.accumulate contribution = .ok acc ∧
        (s.globalStep + 1) % s.settings.interval = 0 ∧
        acc.publish l w axon = (w', axon', .ok p) ∧
        r = .ok ⟨s.globalStep, true⟩ ∧
        s' = { p with
          publishes := p.publishes + 1,
          globalStep := s.globalStep + 1 }) := by
  cases hAcc : s.accumulate contribution with
  | error e =>
      rw [step_of_rejected hAcc] at hStep
      cases hStep
      exact .inl ⟨e, rfl, rfl, rfl, rfl, rfl⟩
  | ok acc =>
      by_cases hDueNow : (s.globalStep + 1) % s.settings.interval = 0
      case neg =>
        rw [step_of_not_due hAcc hDueNow] at hStep
        cases hStep
        exact .inr (.inl ⟨acc, rfl, hDueNow, rfl, rfl, rfl, rfl⟩)
      case pos =>
        obtain ⟨w'', axon'', p, hPublish⟩ := hDue hDueNow acc hAcc
        rw [step_of_published hAcc hDueNow hPublish] at hStep
        cases hStep
        exact .inr (.inr ⟨acc, p, rfl, hDueNow, hPublish, rfl, rfl⟩)

end Step

------------------------------------------------------------
-- Runs of Calls
------------------------------------------------------------

/-
  Step calls on a synchroniser, each with any world and axon, where
  every due publication succeeds at its first attempt; `n` counts the
  calls that succeeded.
-/
inductive Calls
    {σ : Type}
    (l : Link σ)
    (s₀ : Synchronizer) : Synchronizer → Nat → Prop
  | nil : Calls l s₀ s₀ 0
  | call
      {s s' : Synchronizer}
      {n : Nat}
      {contribution : List (List F32)}
      {w w' : σ}
      {axon axon' : Axon}
      {r : Outcome Sync.StepOutcome}
      (hCalls : Calls l s₀ s n)
      (hDue : DuePublishSucceeds l s contribution w axon)
      (hStep : s.step l contribution w axon = (w', axon', s', r)) :
      Calls l s₀ s' (if r.isOk then n + 1 else n)

/-
  The due steps among `n` steps from counter `g`: step `k` is due when
  the counter after it, `g + k + 1` in 64 bits, is a multiple of `I`.
-/
def duePasses (g I : UInt64) : Nat → Nat
  | 0 => 0
  | n + 1 => duePasses g I n + if (g + UInt64.ofNat n + 1) % I = 0 then 1 else 0

theorem toNat_add_ofNat
    {g : UInt64}
    {n : Nat}
    (hLt : g.toNat + n < 18446744073709551616) :
    (g + UInt64.ofNat n).toNat = g.toNat + n := by
  have hn : n < 18446744073709551616 := by omega
  rw [UInt64.toNat_add, UInt64.toNat_ofNat', Nat.mod_eq_of_lt hn, Nat.mod_eq_of_lt hLt]

theorem mod_eq_zero_iff_toNat
    (x I : UInt64) :
    x % I = 0 ↔ x.toNat % I.toNat = 0 := by
  rw [← UInt64.toNat_inj, UInt64.toNat_mod, UInt64.toNat_zero]

/- The due steps of two stretches of steps, one after the other. -/
theorem duePasses_add
    (g I : UInt64)
    (a b : Nat) :
    duePasses g I (a + b) = duePasses g I a + duePasses (g + UInt64.ofNat a) I b := by
  induction b with
  | zero => rfl
  | succ b ih =>
      rw [← Nat.add_assoc, duePasses, duePasses, ih, Nat.add_assoc]
      simp only [UInt64.ofNat_add, UInt64.add_assoc]

/- Multiples of `I` passed when a counter goes from `a` to `a + 1`. -/
theorem div_succ_sub
    (g a I : Nat)
    (hLe : g ≤ a) :
    (a + 1) / I - g / I =
      (a / I - g / I) + if (a + 1) % I = 0 then 1 else 0 := by
  have hMono : g / I ≤ a / I := Nat.div_le_div_right hLe
  rw [Nat.succ_div]
  by_cases hDvd : I ∣ a + 1
  · rw [if_pos hDvd, if_pos (Nat.mod_eq_zero_of_dvd hDvd)]
    omega
  · rw [if_neg hDvd, if_neg (fun hMod => hDvd (Nat.dvd_of_mod_eq_zero hMod))]
    omega

/-
  While the counter does not wrap, the due steps are the multiples of
  the interval passed.
-/
theorem duePasses_of_lt
    {g I : UInt64}
    {n : Nat}
    (hLt : g.toNat + n < 18446744073709551616) :
    duePasses g I n = (g.toNat + n) / I.toNat - g.toNat / I.toNat := by
  induction n with
  | zero => simp [duePasses]
  | succ n ih =>
      have hNext : (g + UInt64.ofNat n + 1).toNat = g.toNat + n + 1 := by
        rw [UInt64.toNat_add, toNat_add_ofNat (by omega), UInt64.toNat_one,
          Nat.mod_eq_of_lt (by omega)]
      -- the step is due exactly when the next counter, as a natural, is a
      -- multiple of the interval
      rw [duePasses, ih (by omega)]
      simp only [mod_eq_zero_iff_toNat, hNext]
      rw [← Nat.add_assoc, div_succ_sub _ _ _ (Nat.le_add_right _ _)]

/-
  Over calls in which every due publication succeeds, the settings stay,
  the counter grows by the successful calls, the publications count the
  due steps passed, and an accumulating phase stays accumulating.
-/
theorem Calls.counters
    {σ : Type}
    {l : Link σ}
    {s₀ s : Synchronizer}
    {n : Nat}
    (hCalls : Calls l s₀ s n) :
    s.settings = s₀.settings ∧ s.globalStep = s₀.globalStep + UInt64.ofNat n ∧
      s.publishes = s₀.publishes + duePasses s₀.globalStep s₀.settings.interval n ∧
      (s₀.phase = .accumulating → s.phase = .accumulating) := by
  induction hCalls with
  | nil => simp [duePasses]
  | call _ hDue hStep ih =>
      obtain ⟨hSettings, hCount, hPublishes, hPhase⟩ := ih
      rcases call_cases hDue hStep with
        ⟨e, _, rfl, rfl, -, -⟩ |
        ⟨acc, hAcc, hNotDue, rfl, rfl, -, -⟩ |
        ⟨acc, p, hAcc, hDueNow, hPublish, rfl, rfl⟩
      case inl =>
        exact ⟨hSettings, hCount, hPublishes, hPhase⟩
      case inr.inl =>
        -- a step that is not due: only the counter moves
        have hFrame := (accumulate_eq_ok hAcc).1
        rw [hFrame]
        rw [hCount, hSettings] at hNotDue
        refine ⟨hSettings, ?_, ?_, hPhase⟩
        · simp only [Except.isOk, Except.toBool, if_true, hCount, UInt64.ofNat_add,
            UInt64.add_assoc]
          rfl
        · simp only [Except.isOk, Except.toBool, if_true, hPublishes, duePasses,
            if_neg hNotDue, Nat.add_zero]
      case inr.inr =>
        -- a due step: one more publication, and the phase is accumulating
        have hFrame := (accumulate_eq_ok hAcc).1
        have hPublished := publish_eq_ok hPublish
        rw [hPublished, hFrame]
        rw [hCount, hSettings] at hDueNow
        refine ⟨hSettings, ?_, ?_, fun _ => rfl⟩
        · simp only [Except.isOk, Except.toBool, if_true, hCount, UInt64.ofNat_add,
            UInt64.add_assoc]
          rfl
        · simp only [Except.isOk, Except.toBool, if_true, hPublishes, duePasses,
            if_pos hDueNow, Nat.add_assoc]

/-
  Over an in-memory store, every due publication of an aligned world
  succeeds at its first attempt.
-/
theorem duePublishSucceeds_memory
    {w : MemoryWorld}
    {s : Synchronizer}
    {contribution : List (List F32)}
    (hAligned : Aligned w s)
    (axon : Axon) :
    DuePublishSucceeds Link.memory s contribution w axon := by
  intro _ acc hAcc
  obtain ⟨w', axon', hPublish, -, -⟩ := publish_memory (hAligned.accumulate hAcc) axon
  exact ⟨w', axon', _, hPublish⟩

/-
  The cadence of a synchroniser started at step `g`.  After `n`
  successful calls in which every due publication succeeded, the counter
  is `g + n` in 64 bits, the publications count the due steps passed
  (while the counter has not wrapped, the multiples of the interval in
  `(g, g + n]`) and the phase is accumulating.  The next such call either
  rejects its contribution with an invalid input and changes nothing,
  or completes step `g + n`, publishing exactly when `g + n + 1`, taken
  in 64 bits, is a multiple of the interval: then by exactly one
  publication, whose world, axon, uid and row it keeps, and otherwise
  touching neither the world nor the axon.
-/
theorem step_cadence
    {σ : Type}
    {l : Link σ}
    {w₀ w₁ w w' : σ}
    {settings : Sync.Settings}
    {g : UInt64}
    {n : Nat}
    {s₀ s s' : Synchronizer}
    {contribution : List (List F32)}
    {axon axon' : Axon}
    {r : Outcome Sync.StepOutcome}
    (hStart : start l w₀ settings g = (w₁, .ok s₀))
    (hCalls : Calls l s₀ s n)
    (hDue : DuePublishSucceeds l s contribution w axon)
    (hStep : s.step l contribution w axon = (w', axon', s', r)) :
    s.globalStep = g + UInt64.ofNat n ∧
      s.publishes = duePasses g settings.interval n ∧
      (g.toNat + n < 18446744073709551616 →
        s.globalStep.toNat = g.toNat + n ∧
          s.publishes =
            (g.toNat + n) / settings.interval.toNat - g.toNat / settings.interval.toNat) ∧
      s.phase = .accumulating ∧
      (∀ e, r = .error e →
        (∃ msg, e = .invalidInput msg) ∧ s.accumulate contribution = .error e ∧
          s' = s ∧ w' = w ∧ axon' = axon) ∧
      (∀ o, r = .ok o →
        o = ⟨g + UInt64.ofNat n, decide ((g + UInt64.ofNat n + 1) % settings.interval = 0)⟩ ∧
          (o.published = true →
            ∃ acc p, s.accumulate contribution = .ok acc ∧
              acc.publish l w axon = (w', axon', .ok p) ∧
              s'.uid = p.uid ∧ s'.row = p.row) ∧
          (o.published = false → w' = w ∧ axon' = axon)) := by
  obtain ⟨hSettings₀, hPhase₀, hCount₀, hPublishes₀⟩ := start_eq_ok hStart
  obtain ⟨hSettings, hCount, hPublishes, hPhase⟩ := hCalls.counters
  have hInterval : s.settings.interval = settings.interval := by
    rw [hSettings, hSettings₀]
  have hStepCount : s.globalStep = g + UInt64.ofNat n := by rw [hCount, hCount₀]
  have hDuePasses : s.publishes = duePasses g settings.interval n := by
    rw [hPublishes, hPublishes₀, hCount₀, hSettings₀, Nat.zero_add]
  refine ⟨hStepCount, hDuePasses, ?_, hPhase hPhase₀, ?_, ?_⟩
  · -- without a wrap the 64-bit laws read as laws of naturals
    intro hLt
    exact ⟨by rw [hStepCount, toNat_add_ofNat hLt], by rw [hDuePasses, duePasses_of_lt hLt]⟩
  · intro e hError
    rcases call_cases hDue hStep with
      ⟨e', hAcc, rfl, rfl, rfl, rfl⟩ | ⟨_, _, _, rfl, _⟩ | ⟨_, _, _, _, _, rfl, _⟩
    case inl =>
      cases hError
      exact ⟨accumulate_error hAcc, hAcc, rfl, rfl, rfl⟩
    all_goals cases hError
  · intro o hOk
    rcases call_cases hDue hStep with
      ⟨_, _, rfl, _⟩ |
      ⟨acc, hAcc, hNotDue, rfl, rfl, rfl, rfl⟩ |
      ⟨acc, p, hAcc, hDueNow, hPublish, rfl, rfl⟩
    case inl => cases hOk
    case inr.inl =>
      -- not due: the outcome is unpublished and nothing else moved
      cases hOk
      rw [hInterval, hStepCount] at hNotDue
      refine ⟨?_, (fun hPublished => by cases hPublished), fun _ => ⟨rfl, rfl⟩⟩
      rw [hStepCount, decide_eq_false hNotDue]
    case inr.inr =>
      -- due: one publication, whose uid and row the step keeps
      cases hOk
      rw [hInterval, hStepCount] at hDueNow
      refine ⟨?_, fun _ => ⟨acc, p, hAcc, hPublish, rfl, rfl⟩,
        (fun hPublished => by cases hPublished)⟩
      rw [hStepCount, decide_eq_true hDueNow]

/-
  A neuron alone in its store, started at step 2 with an interval of 3:
  its first call completes step 2 and publishes.
-/
set_option maxRecDepth 20000 in
theorem step_cadence_due_first_call :
    ∃ (w₁ w' : MemoryWorld) (s₀ s' : Synchronizer) (axon' : Axon)
      (r : Outcome Sync.StepOutcome),
      start Link.memory ⟨(SharedState.empty.register "hot").2, View.fresh "hot"⟩
          (Sync.Settings.make 3 1 0) 2 = (w₁, .ok s₀) ∧
      Calls Link.memory s₀ s₀ 0 ∧
      DuePublishSucceeds Link.memory s₀ [[1]] w₁ Axon.unbound ∧
      s₀.step Link.memory [[1]] w₁ Axon.unbound = (w', axon', s', r) ∧
      (s₀.globalStep = 2 + UInt64.ofNat 0 ∧
        s₀.publishes = duePasses 2 3 0 ∧
        ((2 : UInt64).toNat + 0 < 18446744073709551616 →
          s₀.globalStep.toNat = (2 : UInt64).toNat + 0 ∧
            s₀.publishes =
              ((2 : UInt64).toNat + 0) / (3 : UInt64).toNat -
                (2 : UInt64).toNat / (3 : UInt64).toNat) ∧
        s₀.phase = .accumulating ∧
        (∀ e, r = .error e →
          (∃ msg, e = .invalidInput msg) ∧ s₀.accumulate [[1]] = .error e ∧
            s' = s₀ ∧ w' = w₁ ∧ axon' = Axon.unbound) ∧
        (∀ o, r = .ok o →
          o = ⟨2 + UInt64.ofNat 0, decide ((2 + UInt64.ofNat 0 + 1) % 3 = 0)⟩ ∧
            (o.published = true →
              ∃ acc p, s₀.accumulate [[1]] = .ok acc ∧
                acc.publish Link.memory w₁ Axon.unbound = (w', axon', .ok p) ∧
                s'.uid = p.uid ∧ s'.row = p.row) ∧
            (o.published = false → w' = w₁ ∧ axon' = Axon.unbound))) := by
  have hStart : start Link.memory
      ⟨(SharedState.empty.register "hot").2, View.fresh "hot"⟩
      (Sync.Settings.make 3 1 0) 2 = (_, .ok _) := rfl
  have hDue : DuePublishSucceeds Link.memory _ [[1]] _ Axon.unbound :=
    duePublishSucceeds_memory (start_memory (by exact ⟨rfl, rfl⟩) hStart) Axon.unbound
  exact ⟨_, _, _, _, _, _, hStart, .nil, hDue,
    (fun hStep => ⟨hStep, step_cadence hStart .nil hDue hStep⟩) rfl⟩

/-
  Started at the last 64-bit counter with an interval of 3, the first
  call publishes, since the counter after it wraps to zero; yet the step
  it completes, counted without a wrap, is not followed by a multiple
  of 3.
-/
set_option maxRecDepth 20000 in
theorem last_counter_publishes_and_wraps :
    ∃ (w₁ w' : MemoryWorld) (s₀ s' : Synchronizer) (axon' : Axon),
      start Link.memory ⟨(SharedState.empty.register "hot").2, View.fresh "hot"⟩
          (Sync.Settings.make 3 1 0) 18446744073709551615 = (w₁, .ok s₀) ∧
      s₀.step Link.memory [[1]] w₁ Axon.unbound =
        (w', axon', s', .ok ⟨18446744073709551615, true⟩) ∧
      s'.globalStep = 0 ∧ s'.publishes = 1 ∧
      (18446744073709551615 + 1) % 3 ≠ 0 := by
  exact ⟨_, _, _, _, _, rfl, rfl, rfl, rfl, by decide⟩

end Synchronizer

end NeuronFleet
