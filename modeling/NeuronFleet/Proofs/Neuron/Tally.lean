import NeuronFleet.Proofs.Sync.Cadence
import NeuronFleet.Proofs.Metagraph.Changes
import NeuronFleet.Neuron

/-
  The attempts of an epoch.

  An epoch reads the outcomes of its local steps in order.  It
  completes after `L` rounds, a round being fewer than a thousand
  transient failures followed by a success; it gives up at the
  thousandth transient failure in a row, and it stops at the first
  failure that is not transient, with that error.  The loop counts
  every failed attempt.  Over a store in memory the synchroniser's
  publications never fail, so each success is one successful call of
  the synchroniser.

  Main declarations:
    * `Neuron.Attempted`, `Neuron.Round`, `Neuron.Completes`,
      `Neuron.GivesUp`, `Neuron.StopsAt`
    * `Neuron.localStep_cases`, `Neuron.steps_spec`, `Neuron.Attempted.calls`
-/

namespace Except

theorem map_eq_error_iff
    {ε α β : Type}
    {res : Except ε α}
    {f : α → β}
    {e : ε} :
    res.map f = .error e ↔ res = .error e := by
  cases res <;> simp [Except.map]

theorem isOk_map
    {ε α β : Type}
    (res : Except ε α)
    (f : α → β) :
    (res.map f).isOk = res.isOk := by
  cases res <;> rfl

end Except

namespace NeuronFleet

namespace Neuron

variable {μ σ κ : Type}

------------------------------------------------------------
-- Attempts and Their Outcomes
------------------------------------------------------------

/-
  Local steps attempted one after another from a neuron and a
  synchroniser, whatever they give: their outcomes in order, and the
  neuron and synchroniser they leave.
-/
inductive Attempted
    (c : Collaborators μ σ κ) :
    Neuron μ σ κ → Synchronizer → List (Outcome Scores) → Neuron μ σ κ → Synchronizer → Prop
  | nil
      {n : Neuron μ σ κ}
      {s : Synchronizer} :
      Attempted c n s [] n s
  | cons
      {n n₁ n' : Neuron μ σ κ}
      {s s₁ s' : Synchronizer}
      {r : Outcome Scores}
      {rs : List (Outcome Scores)}
      (hStep : localStep c n s = (n₁, s₁, r))
      (hRest : Attempted c n₁ s₁ rs n' s') :
      Attempted c n s (r :: rs) n' s'

/- A failure that the loop may skip. -/
def TransientFailure (r : Outcome Scores) : Prop :=
  ∃ e, r = .error e ∧ e.isTransient

/- The failed attempts among outcomes. -/
def failures (rs : List (Outcome Scores)) : Nat :=
  rs.countP fun r => !r.isOk

/- The successful attempts among outcomes. -/
def successes (rs : List (Outcome Scores)) : Nat :=
  rs.countP fun r => r.isOk

/- A round of an epoch: fewer than a thousand transient failures, then a success. -/
def Round (rs : List (Outcome Scores)) : Prop :=
  ∃ fails out, rs = fails ++ [.ok out] ∧ fails.length < maxConsecutiveFailures ∧
    ∀ r ∈ fails, TransientFailure r

/- The attempts of an epoch that completes: `L` rounds. -/
def Completes
    (L : Nat)
    (rs : List (Outcome Scores)) :
    Prop :=
  ∃ rounds : List (List (Outcome Scores)),
    rounds.length = L ∧ (∀ r ∈ rounds, Round r) ∧ rs = rounds.flatten

/- The attempts of an epoch that gives up: fewer than `L` rounds, then
a thousand transient failures in a row. -/
def GivesUp
    (L : Nat)
    (rs : List (Outcome Scores)) :
    Prop :=
  ∃ (rounds : List (List (Outcome Scores))) (fails : List (Outcome Scores)),
    rounds.length < L ∧ (∀ r ∈ rounds, Round r) ∧
    fails.length = maxConsecutiveFailures ∧ (∀ r ∈ fails, TransientFailure r) ∧
    rs = rounds.flatten ++ fails

/- The attempts of an epoch stopped by a failure `e` that is not
transient: fewer than `L` rounds, fewer than a thousand transient
failures, then `e`. -/
def StopsAt
    (L : Nat)
    (rs : List (Outcome Scores))
    (e : Error) :
    Prop :=
  ∃ (rounds : List (List (Outcome Scores))) (fails : List (Outcome Scores)),
    rounds.length < L ∧ (∀ r ∈ rounds, Round r) ∧
    fails.length < maxConsecutiveFailures ∧ (∀ r ∈ fails, TransientFailure r) ∧
    e.isTransient = false ∧ rs = rounds.flatten ++ fails ++ [.error e]

------------------------------------------------------------
-- One Local Step
------------------------------------------------------------

/- Widening changes only the model and the width it was widened to. -/
theorem widen_frame
    {c : Collaborators μ σ κ}
    {n n' : Neuron μ σ κ}
    {width : Nat}
    {r : Outcome Unit}
    (hWiden : widen c n width = (n', r)) :
    ∃ model peers, n' = { n with model, peers } := by
  unfold widen at hWiden
  split at hWiden
  case isTrue =>
    cases hWiden
    exact ⟨n.model, n.peers, rfl⟩
  case isFalse =>
    generalize c.learner.resizePeers n.model width = resized at hWiden
    rcases resized with ⟨model, _ | _⟩ <;> cases hWiden
    · exact ⟨model, n.peers, rfl⟩
    · exact ⟨model, width, rfl⟩

/-
  What a local step can do: it changes only the batches, the model, the
  width it was widened to, the world and the axon.  Either it fails
  before reaching the synchroniser, which it leaves alone with the
  world, or it is the synchroniser's step on some contribution, with
  the same error or a success.
-/
theorem localStep_cases
    {c : Collaborators μ σ κ}
    {n n' : Neuron μ σ κ}
    {s s' : Synchronizer}
    {r : Outcome Scores}
    (hStep : localStep c n s = (n', s', r)) :
    n' = { n with batches := n'.batches, model := n'.model, peers := n'.peers,
                  world := n'.world, axon := n'.axon } ∧
      ((s' = s ∧ n'.world = n.world ∧ ∃ e, r = .error e) ∨
        ∃ contribution res,
          s.step c.link contribution n.world n.axon = (n'.world, n'.axon, s', res) ∧
          (∀ e, r = .error e ↔ res = .error e) ∧ (r.isOk = res.isOk)) := by
  unfold localStep at hStep
  generalize hNext : c.source.next n.batches = fetched at hStep
  rcases fetched with ⟨batches, _ | batch⟩
  case error e =>
    cases hStep
    exact ⟨rfl, .inl ⟨rfl, rfl, e, rfl⟩⟩
  case ok =>
    dsimp only at hStep
    generalize hWiden : widen c { n with batches } s.row.length = widened at hStep
    rcases widened with ⟨nw, _ | u⟩
    all_goals obtain ⟨model, peers, rfl⟩ := widen_frame hWiden
    case error e =>
      cases hStep
      exact ⟨rfl, .inl ⟨rfl, rfl, e, rfl⟩⟩
    case ok =>
      dsimp only at hStep
      split at hStep
      case h_1 e _ =>
        cases hStep
        exact ⟨rfl, .inl ⟨rfl, rfl, e, rfl⟩⟩
      case h_2 out _ =>
        cases hStep
        exact ⟨rfl, .inr ⟨out.weights, _, rfl, fun _ => Except.map_eq_error_iff,
          Except.isOk_map _ _⟩⟩

/- Two neurons that differ at most in the states of their
collaborators: the batches, the model, the width, the world and the
axon. -/
structure Keeps
    (n n' : Neuron μ σ κ) : Prop where
  config : n'.config = n.config
  trialId : n'.trialId = n.trialId
  schedule : n'.schedule = n.schedule
  checkpointer : n'.checkpointer = n.checkpointer
  settings : n'.settings = n.settings
  globalStep : n'.globalStep = n.globalStep
  epoch : n'.epoch = n.epoch

theorem Keeps.refl
    (n : Neuron μ σ κ) :
    Keeps n n :=
  ⟨rfl, rfl, rfl, rfl, rfl, rfl, rfl⟩

theorem Keeps.trans
    {n n₁ n₂ : Neuron μ σ κ}
    (h₁ : Keeps n n₁)
    (h₂ : Keeps n₁ n₂) :
    Keeps n n₂ :=
  ⟨h₂.config.trans h₁.config, h₂.trialId.trans h₁.trialId, h₂.schedule.trans h₁.schedule,
    h₂.checkpointer.trans h₁.checkpointer, h₂.settings.trans h₁.settings,
    h₂.globalStep.trans h₁.globalStep, h₂.epoch.trans h₁.epoch⟩

theorem localStep_keeps
    {c : Collaborators μ σ κ}
    {n n' : Neuron μ σ κ}
    {s s' : Synchronizer}
    {r : Outcome Scores}
    (hStep : localStep c n s = (n', s', r)) :
    Keeps n n' := by
  have hFrame := (localStep_cases hStep).1
  rw [hFrame]
  exact ⟨rfl, rfl, rfl, rfl, rfl, rfl, rfl⟩

theorem Attempted.keeps
    {c : Collaborators μ σ κ}
    {n n' : Neuron μ σ κ}
    {s s' : Synchronizer}
    {rs : List (Outcome Scores)}
    (hTried : Attempted c n s rs n' s') :
    Keeps n n' := by
  induction hTried with
  | nil => exact Keeps.refl _
  | cons hStep _ ih => exact (localStep_keeps hStep).trans ih

------------------------------------------------------------
-- Rounds
------------------------------------------------------------

section Rounds

variable {L : Nat} {r rs : List (Outcome Scores)} {e : Error}

theorem Completes.nil :
    Completes 0 [] :=
  ⟨[], rfl, by simp, rfl⟩

theorem Completes.round
    (hRound : Round r)
    (hRest : Completes L rs) :
    Completes (L + 1) (r ++ rs) := by
  obtain ⟨rounds, hLength, hRounds, rfl⟩ := hRest
  refine ⟨r :: rounds, by simp [hLength], ?_, by simp⟩
  intro x hx
  rcases List.mem_cons.mp hx with rfl | hx
  · exact hRound
  · exact hRounds x hx

theorem GivesUp.round
    (hRound : Round r)
    (hRest : GivesUp L rs) :
    GivesUp (L + 1) (r ++ rs) := by
  obtain ⟨rounds, fails, hLength, hRounds, hFails, hTransient, rfl⟩ := hRest
  refine ⟨r :: rounds, fails, by simp; omega, ?_, hFails, hTransient, by simp⟩
  intro x hx
  rcases List.mem_cons.mp hx with rfl | hx
  · exact hRound
  · exact hRounds x hx

theorem StopsAt.round
    (hRound : Round r)
    (hRest : StopsAt L rs e) :
    StopsAt (L + 1) (r ++ rs) e := by
  obtain ⟨rounds, fails, hLength, hRounds, hFails, hTransient, hStop, rfl⟩ := hRest
  refine ⟨r :: rounds, fails, by simp; omega, ?_, hFails, hTransient, hStop, by simp⟩
  intro x hx
  rcases List.mem_cons.mp hx with rfl | hx
  · exact hRound
  · exact hRounds x hx

@[simp]
theorem failures_nil :
    failures [] = 0 :=
  rfl

@[simp]
theorem failures_cons
    (x : Outcome Scores)
    (rs : List (Outcome Scores)) :
    failures (x :: rs) = failures rs + if x.isOk then 0 else 1 := by
  cases hx : x.isOk <;> simp [failures, hx]

@[simp]
theorem successes_nil :
    successes [] = 0 :=
  rfl

@[simp]
theorem successes_cons
    (x : Outcome Scores)
    (rs : List (Outcome Scores)) :
    successes (x :: rs) = successes rs + if x.isOk then 1 else 0 := by
  cases hx : x.isOk <;> simp [successes, hx]

@[simp]
theorem successes_append
    (rs rs' : List (Outcome Scores)) :
    successes (rs ++ rs') = successes rs + successes rs' :=
  List.countP_append

theorem successes_of_transient
    {fails : List (Outcome Scores)}
    (hTransient : ∀ r ∈ fails, TransientFailure r) :
    successes fails = 0 := by
  unfold successes
  rw [List.countP_eq_zero]
  intro r hr
  obtain ⟨e, rfl, -⟩ := hTransient r hr
  simp [Except.isOk, Except.toBool]

/- A transient failure joins the pending ones. -/
theorem transient_concat
    {pending : List (Outcome Scores)}
    {e : Error}
    (hTransient : ∀ r ∈ pending, TransientFailure r)
    (hTr : e.isTransient = true) :
    ∀ r ∈ pending ++ [.error e], TransientFailure r := by
  intro r hr
  rcases List.mem_append.mp hr with hr | hr
  · exact hTransient r hr
  · rw [List.mem_singleton.mp hr]
    exact ⟨e, rfl, hTr⟩

theorem Round.successes
    (hRound : Round r) :
    successes r = 1 := by
  obtain ⟨fails, out, rfl, -, hTransient⟩ := hRound
  simp [successes_of_transient hTransient, Except.isOk, Except.toBool]

/- An epoch that completes `L` rounds has exactly `L` successes. -/
theorem Completes.successes
    (hComplete : Completes L rs) :
    successes rs = L := by
  obtain ⟨rounds, rfl, hRounds, rfl⟩ := hComplete
  induction rounds with
  | nil => rfl
  | cons r rounds ih =>
      rw [List.flatten_cons, successes_append, List.length_cons,
        (hRounds r List.mem_cons_self).successes,
        ih (fun x hx => hRounds x (List.mem_cons_of_mem r hx))]
      omega

end Rounds

------------------------------------------------------------
-- The Local Steps of an Epoch
------------------------------------------------------------

/- How many more attempts the loop makes at most, past the one that
decides, with `completed` of `L` successes and `consecutive` failures
since the last one. -/
def budget (L completed consecutive : Nat) : Nat :=
  (L - completed) * maxConsecutiveFailures - consecutive

theorem budget_success
    {L completed consecutive : Nat}
    (hMissing : completed < L)
    (hConsecutive : consecutive < maxConsecutiveFailures) :
    budget L (completed + 1) 0 + 1 ≤ budget L completed consecutive := by
  obtain ⟨m, hm⟩ : ∃ m, L - completed = m + 1 := ⟨L - completed - 1, by omega⟩
  have hNext : L - (completed + 1) = m := by omega
  unfold budget maxConsecutiveFailures at *
  rw [hm, hNext, Nat.succ_mul]
  omega

theorem budget_failure
    {L completed consecutive : Nat}
    (hMissing : completed < L)
    (hConsecutive : consecutive + 1 < maxConsecutiveFailures) :
    budget L completed (consecutive + 1) + 1 ≤ budget L completed consecutive := by
  obtain ⟨m, hm⟩ : ∃ m, L - completed = m + 1 := ⟨L - completed - 1, by omega⟩
  unfold budget maxConsecutiveFailures at *
  rw [hm, Nat.succ_mul]
  omega

/-
  The loop of an epoch, read against its attempts.  `pending` stands for
  the failures since the last success, which the loop counts in
  `consecutive`.  With enough fuel (each round takes at most a thousand
  attempts), the loop's attempts, after `pending`, complete the rounds
  still missing, give up, or stop at a failure that is not transient,
  and the loop counts every failed attempt.
-/
theorem steps_spec
    {c : Collaborators μ σ κ}
    {fuel : Nat}
    {n n' : Neuron μ σ κ}
    {p p' : EpochProgress}
    {res : Outcome Unit}
    {pending : List (Outcome Scores)}
    (hPending : pending.length = p.consecutive)
    (hTransient : ∀ r ∈ pending, TransientFailure r)
    (hConsecutive : p.consecutive < maxConsecutiveFailures)
    (hCompleted : p.completed ≤ n.config.neuron.localEpochs)
    (hDone : p.completed = n.config.neuron.localEpochs → pending = [])
    (hFuel : budget n.config.neuron.localEpochs p.completed p.consecutive < fuel)
    (hSteps : steps c fuel n p = (n', p', res)) :
    ∃ rs, Attempted c n p.sync rs n' p'.sync ∧
      ((res = .ok () ∧ Completes (n.config.neuron.localEpochs - p.completed) (pending ++ rs) ∧
          p'.failures = p.failures + failures rs) ∨
        ∃ e, res = .error e ∧
          ((GivesUp (n.config.neuron.localEpochs - p.completed) (pending ++ rs) ∧
              ∃ msg, e = .internal msg) ∨
            StopsAt (n.config.neuron.localEpochs - p.completed) (pending ++ rs) e)) := by
  induction fuel generalizing n p pending with
  | zero => omega
  | succ fuel ih =>
      unfold steps at hSteps
      by_cases hFull : p.completed ≥ n.config.neuron.localEpochs
      case pos =>
        -- nothing is missing: no attempt is made
        rw [if_pos hFull, Prod.mk.injEq, Prod.mk.injEq] at hSteps
        obtain ⟨rfl, rfl, rfl⟩ := hSteps
        have hEq : p.completed = n.config.neuron.localEpochs := by omega
        rw [hDone hEq, hEq, Nat.sub_self]
        exact ⟨[], .nil, .inl ⟨rfl, Completes.nil, rfl⟩⟩
      case neg =>
        rw [if_neg hFull] at hSteps
        generalize hStep : localStep c n p.sync = stepped at hSteps
        rcases stepped with ⟨n₁, s₁, _ | out⟩
        all_goals have hConfig : n₁.config = n.config := (localStep_keeps hStep).config
        case error e =>
          dsimp only at hSteps
          by_cases hTr : e.isTransient = true
          case pos =>
            rw [if_pos hTr] at hSteps
            by_cases hGive : p.consecutive + 1 ≥ maxConsecutiveFailures
            case pos =>
              -- the thousandth failure in a row: the epoch gives up
              rw [if_pos hGive, Prod.mk.injEq, Prod.mk.injEq] at hSteps
              obtain ⟨rfl, rfl, rfl⟩ := hSteps
              refine ⟨[.error e], .cons hStep .nil, .inr ⟨_, rfl, .inl ⟨⟨[], pending ++ [.error e], by simp; omega, by simp, ?_,
                  transient_concat hTransient hTr, by simp⟩, _, rfl⟩⟩⟩
              simp only [List.length_append, List.length_singleton, hPending]
              unfold maxConsecutiveFailures at hGive hConsecutive ⊢
              omega
            case neg =>
              -- a failure to skip: it joins the pending ones
              rw [if_neg hGive] at hSteps
              have hMore : (pending ++ [(.error e : Outcome Scores)]).length =
                  p.consecutive + 1 := by
                simp [hPending]
              obtain ⟨rs, hTried, hShape⟩ := ih hMore (transient_concat hTransient hTr)
                (by dsimp only; omega) (by rw [hConfig]; exact hCompleted)
                (by intro hEq; rw [hConfig] at hEq; dsimp only at hEq; omega)
                (by
                  rw [hConfig]
                  dsimp only
                  have hLess : budget n.config.neuron.localEpochs p.completed (p.consecutive + 1) + 1 ≤
                      budget n.config.neuron.localEpochs p.completed p.consecutive :=
                    budget_failure (by omega) (Nat.lt_of_not_le hGive)
                  omega) hSteps
              rw [hConfig] at hShape
              refine ⟨.error e :: rs, .cons hStep hTried, ?_⟩
              rcases hShape with ⟨hRes, hComplete, hFailures⟩ | hStopped
              · refine .inl ⟨hRes, by simpa using hComplete, ?_⟩
                rw [hFailures]
                simp [Except.isOk, Except.toBool]
                omega
              · exact .inr (by simpa using hStopped)
          case neg =>
            -- a failure that is not transient stops the epoch
            rw [if_neg hTr, Prod.mk.injEq, Prod.mk.injEq] at hSteps
            obtain ⟨rfl, rfl, rfl⟩ := hSteps
            refine ⟨[.error e], .cons hStep .nil, .inr ⟨e, rfl, .inr
              ⟨[], pending, by simp; omega, by simp, by omega, hTransient, by simpa using hTr,
                by simp⟩⟩⟩
        case ok =>
          -- a success closes the pending round
          dsimp only at hSteps
          have hNone : ([] : List (Outcome Scores)).length = 0 := rfl
          obtain ⟨rs, hTried, hShape⟩ := ih hNone (by simp) (by dsimp only; unfold maxConsecutiveFailures; omega)
            (by rw [hConfig]; dsimp only; omega) (fun _ => rfl)
            (by
              rw [hConfig]
              dsimp only
              have hLess : budget n.config.neuron.localEpochs (p.completed + 1) 0 + 1 ≤
                  budget n.config.neuron.localEpochs p.completed p.consecutive :=
                budget_success (by omega) hConsecutive
              omega) hSteps
          rw [hConfig] at hShape
          have hRound : Round (pending ++ [.ok out]) := ⟨pending, out, rfl, hPending ▸ hConsecutive,
            hTransient⟩
          have hMissing : n.config.neuron.localEpochs - p.completed =
              (n.config.neuron.localEpochs - (p.completed + 1)) + 1 := by omega
          have hSplit : pending ++ .ok out :: rs = (pending ++ [.ok out]) ++ rs := by simp
          refine ⟨.ok out :: rs, .cons hStep hTried, ?_⟩
          rw [hMissing, hSplit]
          simp only [List.nil_append] at hShape
          rcases hShape with ⟨rfl, hComplete, hFailures⟩ | ⟨e, rfl, ⟨hGiveUp, hMsg⟩ | hStop⟩
          · refine .inl ⟨rfl, hComplete.round hRound, ?_⟩
            rw [hFailures]
            simp [Except.isOk, Except.toBool]
          · exact .inr ⟨e, rfl, .inl ⟨hGiveUp.round hRound, hMsg⟩⟩
          · exact .inr ⟨e, rfl, .inr (hStop.round hRound)⟩

/- The loop of an epoch from its start, with the fuel the epoch gives it. -/
theorem steps_start
    {c : Collaborators μ σ κ}
    {n n' : Neuron μ σ κ}
    {s : Synchronizer}
    {loss : F32}
    {p' : EpochProgress}
    {res : Outcome Unit}
    (hSteps : steps c (stepBound n.config.neuron.localEpochs) n ⟨s, 0, 0, 0, loss⟩ = (n', p', res)) :
    ∃ rs, Attempted c n s rs n' p'.sync ∧
      ((res = .ok () ∧ Completes n.config.neuron.localEpochs rs ∧ p'.failures = failures rs) ∨
        ∃ e, res = .error e ∧
          ((GivesUp n.config.neuron.localEpochs rs ∧ ∃ msg, e = .internal msg) ∨
            StopsAt n.config.neuron.localEpochs rs e)) := by
  have hNone : ([] : List (Outcome Scores)).length = 0 := rfl
  -- every round takes at most a thousand attempts
  have hFuel : budget n.config.neuron.localEpochs 0 0 < stepBound n.config.neuron.localEpochs := by
    unfold budget stepBound maxConsecutiveFailures
    rw [Nat.sub_zero, Nat.sub_zero, Nat.succ_mul]
    omega
  obtain ⟨rs, hTried, hShape⟩ := steps_spec (p := ⟨s, 0, 0, 0, loss⟩) hNone (by simp)
    (by show 0 < maxConsecutiveFailures; decide) (Nat.zero_le _) (fun _ => rfl) hFuel hSteps
  simp only [List.nil_append, Nat.sub_zero, Nat.zero_add] at hShape
  exact ⟨rs, hTried, hShape⟩

------------------------------------------------------------
-- Attempts over a Store in Memory
------------------------------------------------------------

section Memory

variable {c : Collaborators μ MemoryWorld κ}

/-
  Over a store in memory, attempts are calls of the synchroniser in
  which every due publication succeeds, one successful call for each
  success, and they keep the world aligned with the synchroniser.
-/
theorem Attempted.calls
    (hLink : c.link = Link.memory)
    {n n' : Neuron μ MemoryWorld κ}
    {s s' s₀ : Synchronizer}
    {rs : List (Outcome Scores)}
    {k : Nat}
    (hTried : Attempted c n s rs n' s')
    (hAligned : Synchronizer.Aligned n.world s)
    (hCalls : Synchronizer.Calls Link.memory s₀ s k) :
    Synchronizer.Calls Link.memory s₀ s' (k + successes rs) ∧
      Synchronizer.Aligned n'.world s' := by
  induction hTried generalizing k with
  | nil => exact ⟨hCalls, hAligned⟩
  | @cons n n₁ n' s s₁ s' r rs hStep _ ih =>
      rcases (localStep_cases hStep).2 with ⟨rfl, hWorld, e, rfl⟩ | ⟨contribution, res, hSync, -, hOk⟩
      case inl =>
        -- the attempt failed before the synchroniser
        obtain ⟨hCalls', hAligned'⟩ := ih (hWorld ▸ hAligned) hCalls
        refine ⟨?_, hAligned'⟩
        simpa [Except.isOk, Except.toBool] using hCalls'
      case inr =>
        -- the attempt was a call of the synchroniser
        rw [hLink] at hSync
        have hCall := Synchronizer.Calls.call hCalls
          (Synchronizer.duePublishSucceeds_memory hAligned _) hSync
        obtain ⟨hCalls', hAligned'⟩ := ih (Synchronizer.step_memory hAligned hSync).1 hCall
        refine ⟨?_, hAligned'⟩
        rw [successes_cons, hOk]
        convert hCalls' using 1
        split <;> omega

end Memory

end Neuron

end NeuronFleet
