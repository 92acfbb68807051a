import NeuronFleet.Proofs.Supervision.RunOutcome

/-
  The supervisor's worker metrics, read against its workers.

  The supervisor moves its gauge of active workers together with each
  of its four worker counters: up with a spawn, down with a clean exit,
  a fault and a termination.  So the gauge is always the workers
  spawned less those completed, faulted and terminated, and it counts
  the workers still supervised: not reaped, and not the worker whose
  check failed.  A termination counted is a kill, since the supervisor
  terminates only workers it has not seen exit.  This holds where a
  launch leaves the pool, wherever a run halts in virtual time, and
  where a run returns; and when a launch fails or a run returns, no
  worker is left active.

  Main declarations:
    * `Metrics.Registry.Balanced`, `Pool.Gauged`
    * `Timed.Reaches`, `check_reaches`, `sweep_gauged`
    * `Pool.Gauged.terminateAll`, `run_go_gauged`, `launch_go_gauged`
    * `SupervisionGauged`, `supervision_gauge_balanced`
-/

namespace NeuronFleet

------------------------------------------------------------
-- Balanced Registries
------------------------------------------------------------

namespace Metrics

namespace Registry

/- The gauge of active workers is the workers spawned less those
completed, faulted and terminated, in the registry's own arithmetic. -/
def Balanced (r : Registry) : Prop :=
  r.active = (r.counts .workersSpawned - r.counts .workersCompleted - r.counts .workerFaults -
    r.counts .workersTerminated).toInt64

variable {r : Registry}

@[simp] theorem counts_apply_bump
    (r : Registry)
    (c d : Counter)
    (k : UInt64) :
    (r.apply (.bump c k)).counts d = if d = c then r.counts d + k else r.counts d := rfl

@[simp] theorem active_apply_bump
    (r : Registry)
    (c : Counter)
    (k : UInt64) :
    (r.apply (.bump c k)).active = r.active := rfl

@[simp] theorem counts_apply_shiftActive
    (r : Registry)
    (k : Int64) :
    (r.apply (.shiftActive k)).counts = r.counts := rfl

@[simp] theorem active_apply_shiftActive
    (r : Registry)
    (k : Int64) :
    (r.apply (.shiftActive k)).active = r.active + k := rfl

theorem new_balanced : Registry.new.Balanced := rfl

/- A spawn moves the gauge up with its counter. -/
theorem Balanced.spawn
    (h : r.Balanced) :
    ((r.apply (.bump .workersSpawned 1)).apply (.shiftActive 1)).Balanced := by
  unfold Balanced at h ⊢
  simp only [active_apply_shiftActive, active_apply_bump, counts_apply_shiftActive,
    counts_apply_bump, h]
  simp only [reduceCtorEq, if_true, if_false, UInt64.toInt64_sub, UInt64.toInt64_add,
    UInt64.toInt64_ofNat]
  grind

/- A clean exit, a fault and a termination each move the gauge down with
their counter. -/
theorem Balanced.close
    {c : Counter}
    (h : r.Balanced)
    (hc : c = .workersCompleted ∨ c = .workerFaults ∨ c = .workersTerminated) :
    ((r.apply (.bump c 1)).apply (.shiftActive (-1))).Balanced := by
  unfold Balanced at h ⊢
  simp only [active_apply_shiftActive, active_apply_bump, counts_apply_shiftActive,
    counts_apply_bump, h]
  rcases hc with rfl | rfl | rfl <;>
    simp only [reduceCtorEq, if_true, if_false, UInt64.toInt64_sub, UInt64.toInt64_add,
      UInt64.toInt64_ofNat] <;>
    grind

end Registry

end Metrics

namespace Supervision

------------------------------------------------------------
-- What the Metrics See of the Workers
------------------------------------------------------------

namespace Worker

/- Still supervised: neither the worker whose check failed nor reaped.
These are the workers that terminating all but the failed one visits. -/
def supervisedBy
    (failed : Option Nat)
    (w : Worker) :
    Bool :=
  !(failed == some w.index || w.reaped)

/- What the metrics see of a worker: its place, whether it is reaped
and whether it was killed. -/
def tally (w : Worker) : Nat × Bool × Bool := (w.index, w.reaped, w.killed)

@[simp] theorem supervisedBy_eq_true
    {failed : Option Nat}
    {w : Worker} :
    w.supervisedBy failed = true ↔ failed ≠ some w.index ∧ w.reaped = false := by
  simp [supervisedBy]

/- A worker not reaped is not killed, as long as killing reaps. -/
theorem killed_eq_false_of_live
    {w : Worker}
    (h : w.killed = true → w.reaped = true)
    (hLive : w.reaped = false) :
    w.killed = false := by
  cases hKilled : w.killed with
  | false => rfl
  | true => simp [h hKilled] at hLive

/- A healthy worker not reaped has not been seen to exit. -/
theorem Healthy.exit_eq_none
    {w : Worker}
    (h : w.Healthy)
    (hLive : w.reaped = false) :
    w.exit = none := by
  obtain ⟨-, hReaped, -⟩ := h
  rw [hLive] at hReaped
  cases hExit : w.exit with
  | none => rfl
  | some info => simp [hExit] at hReaped

@[simp] theorem happen_tally
    (w : Worker)
    (h : Happening) :
    (w.happen h).tally = w.tally := by
  cases h <;> rfl

@[simp] theorem receive_tally
    (w : Worker)
    (i : Nat)
    (events : List (Nat × Nat × Happening)) :
    (w.receive i events).tally = w.tally := by
  induction events generalizing w with
  | nil => rfl
  | cons e events ih =>
      simp only [receive, List.foldl_cons] at ih ⊢
      rw [ih]
      split <;> simp

/- Terminating a worker kills it and reaps it, unless it is reaped or seen
to have exited already. -/
theorem terminate_of_fresh
    {w : Worker}
    (hReaped : w.reaped = false)
    (hExit : w.exit = none) :
    w.terminate.reaped = true ∧ w.terminate.killed = true := by
  simp [terminate, hReaped, hExit]

theorem terminate_killed_reaped
    {w : Worker}
    (h : w.killed = true → w.reaped = true) :
    w.terminate.killed = true → w.terminate.reaped = true := by
  unfold terminate
  split
  · exact h
  · intro _
    rfl

end Worker

/-
  The supervisor's metrics tell its workers.  The gauge is balanced
  against the counters and counts the workers still supervised, with
  `failed` the worker whose check failed, if one did; the terminations
  counted are the workers killed; and a killed worker is reaped.
-/
structure Pool.Gauged
    (failed : Option Nat)
    (p : Pool) : Prop where
  balanced : p.metrics.Balanced
  active_eq : p.metrics.active = Int64.ofNat (p.workers.countP (Worker.supervisedBy failed))
  terminated_eq : p.metrics.counts .workersTerminated = UInt64.ofNat (p.workers.countP (·.killed))
  killed_reaped : ∀ w ∈ p.workers, w.killed = true → w.reaped = true

/- Two pools the metrics cannot tell apart: the same registry, and
workers of the same places, reaped and killed alike. -/
def Pool.SameTally (p p' : Pool) : Prop :=
  p'.metrics = p.metrics ∧ p'.workers.map Worker.tally = p.workers.map Worker.tally

namespace Pool

variable {p p' p'' : Pool} {failed : Option Nat}

theorem SameTally.refl (p : Pool) : p.SameTally p := ⟨rfl, rfl⟩

theorem SameTally.trans
    (h₁ : p.SameTally p')
    (h₂ : p'.SameTally p'') :
    p.SameTally p'' :=
  ⟨h₂.1.trans h₁.1, h₂.2.trans h₁.2⟩

/- Counting workers by what the metrics see of them counts alike. -/
theorem SameTally.countP_eq
    (h : p.SameTally p')
    (P : Nat × Bool × Bool → Bool) :
    p'.workers.countP (fun w => P w.tally) = p.workers.countP (fun w => P w.tally) := by
  have hCount := congrArg (List.countP P) h.2
  rw [List.countP_map, List.countP_map] at hCount
  exact hCount

theorem SameTally.worker_tally
    {i : Nat}
    {w : Worker}
    (h : p.SameTally p')
    (hi : p.worker i = some w) :
    ∃ w', p'.worker i = some w' ∧ w'.tally = w.tally := by
  have hAt := congrArg (·[i]?) h.2
  simp only [List.getElem?_map] at hAt
  rw [show p.workers[i]? = some w from hi] at hAt
  obtain ⟨w', hw', hTally⟩ := Option.map_eq_some_iff.mp hAt
  exact ⟨w', hw', hTally⟩

theorem Gauged.of_sameTally
    (h : p.Gauged failed)
    (hSame : p.SameTally p') :
    p'.Gauged failed := by
  obtain ⟨hMetrics, hTallies⟩ := hSame
  have hSupervisedCount :=
    SameTally.countP_eq ⟨hMetrics, hTallies⟩ fun t => !(failed == some t.1 || t.2.1)
  have hKilledCount := SameTally.countP_eq ⟨hMetrics, hTallies⟩ fun t => t.2.2
  refine ⟨hMetrics ▸ h.balanced, ?_, ?_, fun w' hw' hKilled => ?_⟩
  · rw [hMetrics, h.active_eq]
    exact congrArg Int64.ofNat hSupervisedCount.symm
  · rw [hMetrics, h.terminated_eq]
    exact congrArg UInt64.ofNat hKilledCount.symm
  · -- a worker seen alike in the first pool is killed and reaped alike
    have hMem : w'.tally ∈ p.workers.map Worker.tally := hTallies ▸ List.mem_map_of_mem hw'
    obtain ⟨w, hw, hTally⟩ := List.mem_map.mp hMem
    simp only [Worker.tally, Prod.mk.injEq] at hTally
    rw [← hTally.2.1]
    exact h.killed_reaped w hw (hTally.2.2 ▸ hKilled)

@[simp] theorem change_metrics
    (p : Pool)
    (i : Nat)
    (f : Worker → Worker) :
    (p.change i f).metrics = p.metrics := rfl

@[simp] theorem note_metrics
    (p : Pool)
    (u : Metrics.Update) :
    (p.note u).metrics = p.metrics.apply u := rfl

/- Changing a worker in a way a view does not see keeps the view of
every worker. -/
theorem map_change
    {β : Type}
    {i : Nat}
    {f : Worker → Worker}
    (g : Worker → β)
    (hf : ∀ w, g (f w) = g w) :
    (p.change i f).workers.map g = p.workers.map g := by
  apply List.ext_getElem (by simp [change])
  intro j _ _
  simp only [change, List.getElem_map, List.getElem_mapIdx]
  split <;> simp [hf]

theorem metrics_foldl_change
    (events : List (Nat × Nat × Happening))
    (p : Pool) :
    (events.foldl (fun q e => q.change e.2.1 (·.happen e.2.2)) p).metrics = p.metrics := by
  induction events generalizing p with
  | nil => rfl
  | cons e events ih => rw [List.foldl_cons, ih, change_metrics]

theorem SameTally.change
    {i : Nat}
    {f : Worker → Worker}
    (hf : ∀ w, (f w).tally = w.tally) :
    p.SameTally (p.change i f) :=
  ⟨rfl, map_change Worker.tally hf⟩

/- Time passing changes nothing the metrics see. -/
theorem SameTally.advance
    (p : Pool)
    (t : Nat) :
    p.SameTally (p.advance t) := by
  refine ⟨metrics_foldl_change _ p, List.ext_getElem? fun j => ?_⟩
  rw [List.getElem?_map, List.getElem?_map]
  have hAt := worker_advance p t j
  simp only [worker] at hAt
  rw [hAt]
  cases p.workers[j]? <;> simp

end Pool

------------------------------------------------------------
-- Where a Step Leaves the Pool
------------------------------------------------------------

namespace Timed

variable {α β : Type} {R S : Pool → Pool → Prop} {p q : Pool}

/- The pool a step leaves: where it ends, or where it halts. -/
def last : Except Pool (α × Pool) → Pool
  | .ok (_, p) => p
  | .error p => p

@[simp] theorem last_ok
    (a : α)
    (p : Pool) :
    last (.ok (a, p)) = p := rfl

theorem bind_of_ok
    {x : Timed α}
    {f : α → Timed β}
    {a : α}
    (h : x p = .ok (a, q)) :
    (x >>= f) p = f a q := by
  simp [bind, StateT.bind, Except.bind, h]

theorem bind_of_error
    {x : Timed α}
    {f : α → Timed β}
    (h : x p = .error q) :
    (x >>= f) p = .error q := by
  simp [bind, StateT.bind, Except.bind, h]

/- From every pool, the pool that `x` leaves is related to it by `R`,
whether `x` ends or halts. -/
def Reaches
    (R : Pool → Pool → Prop)
    (x : Timed α) :
    Prop :=
  ∀ p, R p (last (x p))

theorem Reaches.pure
    (hRefl : ∀ p, R p p)
    (a : α) :
    Reaches R (Pure.pure a : Timed α) :=
  fun p => hRefl p

/- A step of `S` followed by steps of `R` is a step of `R`, when `R`
takes in `S` and goes on from it. -/
theorem Reaches.bind
    {x : Timed α}
    {f : α → Timed β}
    (hx : Reaches S x)
    (hf : ∀ a, Reaches R (f a))
    (hS : ∀ {p q}, S p q → R p q)
    (hThen : ∀ {p q r}, S p q → R q r → R p r) :
    Reaches R (x >>= f) := by
  intro p
  have hStep := hx p
  cases hx' : x p with
  | error q =>
      rw [bind_of_error hx']
      rw [hx'] at hStep
      exact hS hStep
  | ok v =>
      obtain ⟨a, q⟩ := v
      rw [bind_of_ok hx']
      rw [hx'] at hStep
      exact hThen hStep (hf a q)

theorem Reaches.get_bind
    {f : Pool → Timed β}
    (hf : ∀ q, Reaches R (f q)) :
    Reaches R ((get : Timed Pool) >>= f) :=
  fun p => hf p p

end Timed

open Timed

/- Steps the metrics do not see follow one another. -/
theorem Timed.Reaches.frame
    {α β : Type}
    {x : Timed α}
    {f : α → Timed β}
    (hx : Reaches Pool.SameTally x)
    (hf : ∀ a, Reaches Pool.SameTally (f a)) :
    Reaches Pool.SameTally (x >>= f) :=
  hx.bind hf id Pool.SameTally.trans

theorem changeWorker_reaches
    {i : Nat}
    {f : Worker → Worker}
    (hf : ∀ w, (f w).tally = w.tally) :
    Reaches Pool.SameTally (changeWorker i f) :=
  fun _ => Pool.SameTally.change hf

theorem waitUntil_reaches
    (t : Nat) :
    Reaches Pool.SameTally (waitUntil t) := by
  intro p
  unfold waitUntil
  rw [Timed.get_bind]
  split
  · exact Pool.SameTally.advance p p.limit
  · exact Pool.SameTally.advance p t

theorem queryWorker_reaches
    (i : Nat) :
    Reaches Pool.SameTally (queryWorker i) :=
  fun _ => Pool.SameTally.change fun _ => rfl

/- Waiting on a worker's reports reads its slot and lets time pass, and
nothing else. -/
theorem settle_go_reaches
    (i deadline n : Nat) :
    Reaches Pool.SameTally (settle.go i deadline n) := by
  induction n with
  | zero => exact Reaches.pure Pool.SameTally.refl ()
  | succ n ih =>
      unfold settle.go
      refine Reaches.get_bind fun q => ?_
      split
      · exact Reaches.pure Pool.SameTally.refl ()
      · split
        · refine Reaches.frame (changeWorker_reaches fun _ => rfl) fun _ => ?_
          split
          · exact Reaches.pure Pool.SameTally.refl ()
          · exact ih
        · split
          · exact changeWorker_reaches fun _ => rfl
          · split
            · split
              · exact Reaches.frame (waitUntil_reaches _) fun _ => ih
              · exact waitUntil_reaches _
            · exact waitUntil_reaches _

theorem settle_reaches
    (i bound : Nat) :
    Reaches Pool.SameTally (settle i bound) := by
  unfold settle
  refine Reaches.get_bind fun q => ?_
  split
  · exact Reaches.pure Pool.SameTally.refl ()
  · split
    · exact Reaches.pure Pool.SameTally.refl ()
    · exact settle_go_reaches _ _ _

------------------------------------------------------------
-- What a Check Does to the Metrics
------------------------------------------------------------

/- Reaping worker `i` after its clean exit, counted as completed and
taken off the gauge. -/
def Pool.reap
    (p : Pool)
    (i : Nat) :
    Pool :=
  ((p.change i fun w => { w with reaped := true }).note (.bump .workersCompleted 1)).note
    (.shiftActive (-1))

/- What a check of worker `i` does, as the metrics see it: nothing, or,
after steps they do not see, reaping the worker. -/
def CheckStep
    (i : Nat)
    (p p' : Pool) :
    Prop :=
  p.SameTally p' ∨ ∃ q, p.SameTally q ∧ p' = q.reap i

namespace CheckStep

variable {i : Nat} {p q r : Pool}

theorem refl
    (i : Nat)
    (p : Pool) :
    CheckStep i p p := .inl (Pool.SameTally.refl p)

theorem after
    (h₁ : p.SameTally q)
    (h₂ : CheckStep i q r) :
    CheckStep i p r := by
  rcases h₂ with h₂ | ⟨q', hq', rfl⟩
  · exact .inl (h₁.trans h₂)
  · exact .inr ⟨q', h₁.trans hq', rfl⟩

end CheckStep

theorem Timed.Reaches.check_frame
    {α β : Type}
    {i : Nat}
    {x : Timed α}
    {f : α → Timed β}
    (hx : Reaches Pool.SameTally x)
    (hf : ∀ a, Reaches (CheckStep i) (f a)) :
    Reaches (CheckStep i) (x >>= f) :=
  hx.bind hf .inl CheckStep.after

theorem check_reaches
    (settleMs lag i : Nat) :
    Reaches (CheckStep i) (check settleMs lag i) := by
  unfold check
  refine Reaches.check_frame (queryWorker_reaches i) fun w? => ?_
  split
  · split
    · exact Reaches.pure (CheckStep.refl i) _
    · split
      · -- the status could not be read
        exact Reaches.pure (CheckStep.refl i) _
      · -- the end the process reached is noted
        refine Reaches.check_frame (changeWorker_reaches fun _ => rfl) fun _ => ?_
        split
        · exact Reaches.pure (CheckStep.refl i) _
        · -- the process exited: its last reports are awaited
          refine Reaches.check_frame (settle_reaches i settleMs) fun _ => ?_
          refine Reaches.get_bind fun q => ?_
          split
          · split
            · exact Reaches.pure (CheckStep.refl i) _
            · split
              · -- a clean exit: the worker is reaped
                intro p
                exact .inr ⟨p, Pool.SameTally.refl p, rfl⟩
              · -- an unclean one: time passes before the last read
                refine Reaches.get_bind fun _ => ?_
                refine Reaches.check_frame (waitUntil_reaches _) fun _ => ?_
                refine Reaches.check_frame (queryWorker_reaches i) fun _ => ?_
                split
                · split <;> exact Reaches.pure (CheckStep.refl i) _
                · exact Reaches.pure (CheckStep.refl i) _
          · exact Reaches.pure (CheckStep.refl i) _
  · exact Reaches.pure (CheckStep.refl i) _

namespace Pool

variable {p q : Pool} {i : Nat} {w : Worker}

theorem change_workers_of_worker
    (hi : p.worker i = some w)
    (f : Worker → Worker) :
    (p.change i f).workers = p.workers.set i (f w) := by
  obtain ⟨hLength, hw⟩ := List.getElem?_eq_some_iff.mp hi
  apply List.ext_getElem?
  intro j
  simp only [change, List.getElem?_mapIdx, List.getElem?_set]
  by_cases hj : j = i
  · subst hj
    simp [hLength, hw]
  · simp [hj, Ne.symm hj]

/- A worker not yet reaped is not killed. -/
theorem Gauged.not_killed
    {failed : Option Nat}
    (h : p.Gauged failed)
    (hw : w ∈ p.workers)
    (hLive : w.reaped = false) :
    w.killed = false :=
  Worker.killed_eq_false_of_live (h.killed_reaped w hw) hLive

/- Reaping a worker not yet reaped moves it from the workers still
supervised to those completed, with the gauge. -/
theorem Gauged.reap
    (h : p.Gauged none)
    (hi : p.worker i = some w)
    (hLive : w.reaped = false) :
    (p.reap i).Gauged none := by
  obtain ⟨hLength, hw⟩ := List.getElem?_eq_some_iff.mp hi
  have hMem : w ∈ p.workers := List.mem_of_getElem? hi
  have hWorkers := change_workers_of_worker hi fun w => { w with reaped := true }
  have hKilled : w.killed = false := h.not_killed hMem hLive
  -- the worker was one of those still supervised
  have hPos : 1 ≤ p.workers.countP (Worker.supervisedBy none) :=
    List.countP_pos_iff.mpr ⟨w, hMem, by simp [hLive]⟩
  refine ⟨h.balanced.close (.inl rfl), ?_, ?_, fun v hv hKilledV => ?_⟩
  · simp only [Pool.reap, note_metrics, Metrics.Registry.active_apply_shiftActive,
      Metrics.Registry.active_apply_bump, change_metrics, note_workers, hWorkers]
    have hSupervised : Worker.supervisedBy none w = true := by
      simp [hLive]
    have hReaped : Worker.supervisedBy none { w with reaped := true } = false := by
      simp [Worker.supervisedBy]
    rw [List.countP_set hLength, hw, h.active_eq, if_pos hSupervised, hReaped,
      if_neg Bool.false_ne_true, Nat.add_zero, Int64.ofNat_sub _ _ hPos, Int64.sub_eq_add_neg]
    rfl
  · simp only [Pool.reap, note_metrics, Metrics.Registry.counts_apply_shiftActive,
      Metrics.Registry.counts_apply_bump, reduceCtorEq, if_false, change_metrics, note_workers,
      hWorkers]
    rw [List.countP_set hLength, hw, h.terminated_eq]
    simp [hKilled]
  · simp only [Pool.reap, note_workers, hWorkers] at hv
    rcases List.mem_or_eq_of_mem_set hv with hv | rfl
    · exact h.killed_reaped v hv hKilledV
    · rfl

end Pool

/- A check of a worker not yet reaped keeps the metrics telling the workers. -/
theorem CheckStep.gauged
    {i : Nat}
    {w : Worker}
    {p p' : Pool}
    (hStep : CheckStep i p p')
    (h : p.Gauged none)
    (hi : p.worker i = some w)
    (hLive : w.reaped = false) :
    p'.Gauged none := by
  rcases hStep with hSame | ⟨q, hSame, rfl⟩
  · exact h.of_sameTally hSame
  · -- the worker is not reaped where it is reaped
    obtain ⟨w', hi', hTally⟩ := hSame.worker_tally hi
    simp only [Worker.tally, Prod.mk.injEq] at hTally
    exact (h.of_sameTally hSame).reap hi' (hTally.2.1.trans hLive)

/- A sweep keeps the metrics telling the workers, wherever it ends or halts. -/
theorem sweep_gauged
    {settleMs lag : Nat}
    {indices : List Nat}
    {p : Pool}
    (h : p.Gauged none) :
    (Timed.last (sweep settleMs lag indices p)).Gauged none := by
  induction indices generalizing p with
  | nil => exact h
  | cons i rest ih =>
      rw [sweep, Timed.get_bind]
      cases hi : p.worker i with
      | none => exact ih h
      | some w =>
          dsimp only
          split
          · exact ih h
          · rename_i hLive
            have hCheck := check_reaches settleMs lag i p
            cases hResult : check settleMs lag i p with
            | error q =>
                rw [Timed.bind_of_error hResult]
                rw [hResult] at hCheck
                exact hCheck.gauged h hi (by simpa using hLive)
            | ok v =>
                obtain ⟨res, q⟩ := v
                rw [Timed.bind_of_ok hResult]
                rw [hResult] at hCheck
                have hq : q.Gauged none := hCheck.gauged h hi (by simpa using hLive)
                cases res with
                | some e => exact hq
                | none => exact ih hq

------------------------------------------------------------
-- Terminating the Workers Still Supervised
------------------------------------------------------------

namespace Pool

variable {p q q' : Pool} {failed : Option Nat}

/-
  Terminating all workers but `except` terminates exactly the workers
  still supervised, when each worker knows its place.
-/
theorem workers_terminateAll
    (hIndex : ∀ j w, p.worker j = some w → w.index = j)
    (except : Option Nat) :
    (p.terminateAll except).workers =
      p.workers.map fun w => if w.supervisedBy except then w.terminate else w := by
  apply List.ext_getElem?
  intro j
  have hAt := worker_foldl_terminate except p.workers p j
  simp only [worker] at hAt
  unfold terminateAll
  rw [hAt, List.getElem?_map]
  cases hw : p.workers[j]? with
  | none => rfl
  | some v =>
      -- the one turn that names worker `j` is the turn of the worker at place `j`
      have hAny : (p.workers.any fun w => w.index == j && !(except == some w.index || w.reaped)) =
          v.supervisedBy except := by
        rw [Bool.eq_iff_iff, List.any_eq_true]
        constructor
        · rintro ⟨u, hu, hSelected⟩
          simp only [Bool.and_eq_true, beq_iff_eq] at hSelected
          obtain ⟨k, hk, rfl⟩ := List.getElem_of_mem hu
          have hkj : k = j := (hIndex k _ (List.getElem?_eq_getElem hk)).symm.trans hSelected.1
          subst hkj
          rw [List.getElem?_eq_getElem hk, Option.some.injEq] at hw
          rw [← hw]
          exact hSelected.2
        · intro hSupervised
          refine ⟨v, List.mem_of_getElem? hw, ?_⟩
          simpa [hIndex j v hw] using hSupervised
      simp only [Option.map_some, hAny]

/- Each turn of terminating the workers moves the gauge down with the
terminations counted, by as many as the workers still supervised. -/
theorem metrics_foldl_terminate
    (except : Option Nat)
    (L : List Worker)
    (hq' : q' = L.foldl (fun q w =>
      if except == some w.index || w.reaped then q
      else ((q.change w.index Worker.terminate).note (.bump .workersTerminated 1)).note
        (.shiftActive (-1))) q)
    (hq : q.metrics.Balanced) :
    q'.metrics.Balanced ∧
      q'.metrics.active = q.metrics.active - Int64.ofNat (L.countP (Worker.supervisedBy except)) ∧
      q'.metrics.counts .workersTerminated =
        q.metrics.counts .workersTerminated + UInt64.ofNat (L.countP (Worker.supervisedBy except)) := by
  induction L generalizing q with
  | nil =>
      subst hq'
      simp [hq]
  | cons w L ih =>
      rw [List.foldl_cons] at hq'
      by_cases hSkip : (except == some w.index || w.reaped) = true
      · -- a worker not supervised is passed over
        rw [if_pos hSkip] at hq'
        have hNot : w.supervisedBy except = false := by simp [Worker.supervisedBy, hSkip]
        simpa [List.countP_cons, hNot] using ih hq' hq
      · -- a worker still supervised is terminated and counted
        rw [if_neg hSkip] at hq'
        have hSupervised : w.supervisedBy except = true := by simpa [Worker.supervisedBy] using hSkip
        obtain ⟨hBalanced, hActive, hTerminated⟩ := ih hq' (hq.close (.inr (.inr rfl)))
        refine ⟨hBalanced, ?_, ?_⟩
        · rw [hActive]
          simp only [note_metrics, Metrics.Registry.active_apply_shiftActive,
            Metrics.Registry.active_apply_bump, change_metrics, List.countP_cons, hSupervised,
            if_true, Int64.ofNat_add]
          grind
        · rw [hTerminated]
          simp only [note_metrics, Metrics.Registry.counts_apply_shiftActive,
            Metrics.Registry.counts_apply_bump, if_true, change_metrics, List.countP_cons,
            hSupervised, UInt64.ofNat_add]
          grind

/- Terminating fresh workers still supervised kills them all: none is
left supervised, and the killed workers grow by their number. -/
theorem countP_terminate_supervised
    (ws : List Worker)
    (hFresh : ∀ w ∈ ws, w.supervisedBy failed = true → w.exit = none)
    (hKilledReaped : ∀ w ∈ ws, w.killed = true → w.reaped = true) :
    (ws.map fun w => if w.supervisedBy failed then w.terminate else w).countP
        (Worker.supervisedBy failed) = 0 ∧
      (ws.map fun w => if w.supervisedBy failed then w.terminate else w).countP (·.killed) =
        ws.countP (·.killed) + ws.countP (Worker.supervisedBy failed) := by
  induction ws with
  | nil => simp
  | cons w ws ih =>
      obtain ⟨hNone, hKills⟩ := ih (fun v hv => hFresh v (List.mem_cons_of_mem w hv))
        (fun v hv => hKilledReaped v (List.mem_cons_of_mem w hv))
      by_cases hSupervised : w.supervisedBy failed = true
      · -- a fresh worker is killed and reaped, and was not killed before
        have hReaped : w.reaped = false := (Worker.supervisedBy_eq_true.mp hSupervised).2
        have hKilled : w.killed = false :=
          Worker.killed_eq_false_of_live (hKilledReaped w List.mem_cons_self) hReaped
        obtain ⟨hReaped', hKilled'⟩ :=
          Worker.terminate_of_fresh hReaped (hFresh w List.mem_cons_self hSupervised)
        have hGone : w.terminate.supervisedBy failed = false := by
          simp [Worker.supervisedBy, hReaped']
        constructor
        · simp only [List.map_cons, List.countP_cons, hNone, hSupervised, if_true, hGone,
            Bool.false_eq_true, if_false]
        · simp only [List.map_cons, List.countP_cons, hKills, hSupervised, if_true, hKilled',
            hKilled, Bool.false_eq_true, if_false]
          omega
      · simp only [Bool.not_eq_true] at hSupervised
        constructor
        · simp only [List.map_cons, List.countP_cons, hNone, hSupervised, Bool.false_eq_true,
            if_false]
        · simp only [List.map_cons, List.countP_cons, hKills, hSupervised, Bool.false_eq_true,
            if_false]
          omega

/- Terminating all workers but the failed one kills every worker still
supervised, counts each as terminated and empties the gauge. -/
theorem Gauged.terminateAll
    (h : p.Gauged failed)
    (hIndex : ∀ j w, p.worker j = some w → w.index = j)
    (hFresh : ∀ w ∈ p.workers, w.supervisedBy failed = true → w.exit = none) :
    (p.terminateAll failed).Gauged failed ∧ (p.terminateAll failed).metrics.active = 0 := by
  obtain ⟨hBalanced, hActive, hTerminated⟩ :=
    metrics_foldl_terminate failed p.workers (rfl : p.terminateAll failed = _) h.balanced
  obtain ⟨hNone, hKills⟩ := countP_terminate_supervised p.workers hFresh h.killed_reaped
  have hWorkers := workers_terminateAll hIndex failed
  have hEmpty : (p.terminateAll failed).metrics.active = 0 := by
    rw [hActive, h.active_eq, Int64.sub_self]
  refine ⟨⟨hBalanced, ?_, ?_, fun w hw hKilled => ?_⟩, hEmpty⟩
  · rw [hEmpty, hWorkers, hNone]
    rfl
  · rw [hTerminated, h.terminated_eq, hWorkers, hKills, UInt64.ofNat_add]
  · rw [hWorkers, List.mem_map] at hw
    obtain ⟨v, hv, rfl⟩ := hw
    by_cases hSupervised : v.supervisedBy failed = true
    · rw [if_pos hSupervised] at hKilled ⊢
      exact Worker.terminate_killed_reaped (h.killed_reaped v hv) hKilled
    · rw [if_neg hSupervised] at hKilled ⊢
      exact h.killed_reaped v hv hKilled

/-
  With each worker at its place, the workers not reaped are those still
  supervised once worker `i` has failed, and worker `i` itself.
-/
theorem countP_not_reaped
    {i : Nat}
    {w : Worker}
    (hIndex : ∀ j w, p.worker j = some w → w.index = j)
    (hi : p.worker i = some w)
    (hLive : w.reaped = false) :
    p.workers.countP (Worker.supervisedBy none) =
      p.workers.countP (Worker.supervisedBy (some i)) + 1 := by
  have hMem : w ∈ p.workers := List.mem_of_getElem? hi
  -- the places of the workers are all different
  have hPlaces : p.workers.map Worker.index = List.range p.workers.length := by
    apply List.ext_getElem (by simp)
    intro k hk _
    simp only [List.getElem_map, List.getElem_range]
    exact hIndex k _ (List.getElem?_eq_getElem (by simpa using hk))
  have hOneAtPlace : p.workers.countP (fun v => v.index == i) = 1 := by
    have hNodup : (p.workers.map Worker.index).Nodup := by
      rw [hPlaces]
      exact List.nodup_range
    have hCount := List.count_eq_one_of_mem hNodup (List.mem_map_of_mem hMem)
    rw [hIndex i w hi, List.count, List.countP_map] at hCount
    exact hCount
  have hFailed : p.workers.countP (fun v => v.supervisedBy none && v.index == i) = 1 := by
    apply le_antisymm
    · rw [← hOneAtPlace]
      exact List.countP_mono_left fun v _ hv => by simp_all
    · exact List.countP_pos_iff.mpr ⟨w, hMem, by simp [hLive, hIndex i w hi]⟩
  rw [List.countP_eq_countP_filter_add p.workers _ (fun v => v.index == i), List.countP_filter,
    List.countP_filter, hFailed, Nat.add_comm]
  congr 1
  apply List.countP_congr
  intro v _
  simp only [Worker.supervisedBy, Bool.and_eq_true, Bool.not_eq_true', Bool.or_eq_false_iff]
  grind

/-
  A failed check of worker `i` counts a fault, takes the worker off the
  gauge, and terminates every other worker still supervised: healthy
  workers not reaped have not been seen to exit, so each is killed, and
  none is left active.
-/
theorem Gauged.fail
    {i : Nat}
    {w : Worker}
    (h : p.Gauged none)
    (hIndex : ∀ j w, p.worker j = some w → w.index = j)
    (hi : p.worker i = some w)
    (hLive : w.reaped = false)
    (hOthers : ∀ j v, j ≠ i → p.worker j = some v → v.Healthy) :
    (((p.note (.bump .workerFaults 1)).note (.shiftActive (-1))).terminateAll (some i)).Gauged
        (some i) ∧
      (((p.note (.bump .workerFaults 1)).note (.shiftActive (-1))).terminateAll (some i)).metrics.active
        = 0 := by
  -- the fault is counted and the failed worker leaves the gauge
  have hFaulted : ((p.note (.bump .workerFaults 1)).note (.shiftActive (-1))).Gauged (some i) := by
    refine ⟨h.balanced.close (.inr (.inl rfl)), ?_, ?_, h.killed_reaped⟩
    · simp only [note_metrics, Metrics.Registry.active_apply_shiftActive,
        Metrics.Registry.active_apply_bump, note_workers]
      rw [h.active_eq, countP_not_reaped hIndex hi hLive, Int64.ofNat_add]
      grind
    · simp only [note_metrics, Metrics.Registry.counts_apply_shiftActive,
        Metrics.Registry.counts_apply_bump, reduceCtorEq, if_false, note_workers]
      exact h.terminated_eq
  -- every other worker still supervised is healthy, so not seen to exit
  refine hFaulted.terminateAll hIndex fun v hv hSupervised => ?_
  simp only [note_workers] at hv
  obtain ⟨j, hj, rfl⟩ := List.getElem_of_mem hv
  have hAt : p.worker j = some (p.workers[j]) := List.getElem?_eq_getElem hj
  have hIndexJ := hIndex j _ hAt
  obtain ⟨hOther, hLiveJ⟩ := Worker.supervisedBy_eq_true.mp hSupervised
  rw [hIndexJ, ne_eq, Option.some.injEq] at hOther
  exact (hOthers j _ (Ne.symm hOther) hAt).exit_eq_none hLiveJ

/- With every worker reaped, no worker is active. -/
theorem Gauged.active_eq_zero
    (h : p.Gauged none)
    (hLive : p.live = 0) :
    p.metrics.active = 0 := by
  have hNone : p.workers.countP (Worker.supervisedBy none) = 0 := by
    rw [List.countP_eq_length_filter]
    simpa [Pool.live, Worker.supervisedBy] using hLive
  rw [h.active_eq, hNone]
  rfl

end Pool

------------------------------------------------------------
-- Runs and Launches
------------------------------------------------------------

/- What the metrics tell where a run leaves the pool: the workers
wherever it halts; and when it returns, no worker active, a failed run
with the worker whose check failed out of the count. -/
def RunGauged (lag : Nat) : Except Pool (Outcome Nat × Pool) → Prop
  | .ok (.ok _, p) => p.Gauged none ∧ p.metrics.active = 0
  | .ok (.error e, p) => ∃ i w, p.worker i = some w ∧ w.Fails lag e ∧ p.Gauged (some i) ∧
      p.metrics.active = 0
  | .error p => p.Gauged none

variable {identities : List Identity} {d : List (Nat × Nat × Happening)} {p : Pool}

theorem run_go_gauged
    {pollMs settleMs lag k n : Nat}
    (hSupervised : p.Supervised identities d)
    (hHealthy : p.Healthy)
    (hCaught : p.Caught ∨ p.now ≤ k * pollMs)
    (hGauged : p.Gauged none) :
    RunGauged lag (run.go pollMs settleMs lag k n p) := by
  induction n generalizing k p d with
  | zero =>
      rw [run.go, Timed.get_bind]
      exact hGauged.of_sameTally (Pool.SameTally.advance p p.limit)
  | succ n ih =>
      rw [run.go]
      -- the tick: time passes, or the run halts at its limit
      have hWaited := waitUntil_reaches (k * pollMs) p
      cases hWait : waitUntil (k * pollMs) p with
      | error q =>
          rw [Timed.bind_of_error hWait]
          rw [hWait] at hWaited
          exact hGauged.of_sameTally hWaited
      | ok v =>
          obtain ⟨u, p₁⟩ := v
          rw [Timed.bind_of_ok hWait, Timed.get_bind]
          obtain ⟨-, rfl⟩ := waitUntil_eq_ok hWait
          have hGauged₁ := hGauged.of_sameTally (Pool.SameTally.advance p (k * pollMs))
          -- every live worker is checked
          have hSwept : (Timed.last (sweep settleMs lag
              (List.range (p.advance (k * pollMs)).workers.length) (p.advance (k * pollMs)))).Gauged none :=
            sweep_gauged hGauged₁
          cases hSweep : sweep settleMs lag (List.range (p.advance (k * pollMs)).workers.length)
              (p.advance (k * pollMs)) with
          | error q =>
              rw [Timed.bind_of_error hSweep]
              rw [hSweep] at hSwept
              exact hSwept
          | ok v =>
              obtain ⟨res, p₂⟩ := v
              rw [Timed.bind_of_ok hSweep]
              rw [hSweep, Timed.last_ok] at hSwept
              obtain ⟨d₂, -, hSupervised₂, hCaught₂, -, hChecked⟩ :=
                sweep_spec (hSupervised.advance (k * pollMs)) (Pool.Caught.advance_of hCaught)
                  (hHealthy.advance (k * pollMs)) hSweep
              have hIndex : ∀ j w, p₂.worker j = some w → w.index = j :=
                fun j w hw => (hSupervised₂.sound.worker_follows j w hw).1
              cases res with
              | some r =>
                  -- a check failed: the others are terminated
                  obtain ⟨i, e⟩ := r
                  obtain ⟨w, hi, hLive, hFails, -, hOthers⟩ := hChecked
                  obtain ⟨hFailed, hEmpty⟩ := hSwept.fail hIndex hi hLive hOthers
                  refine ⟨i, w, ?_, hFails, hFailed, hEmpty⟩
                  dsimp only
                  rw [Pool.worker_terminateAll
                    (p := (p₂.note (.bump .workerFaults 1)).note (.shiftActive (-1))) hIndex, if_pos rfl]
                  exact hi
              | none =>
                  dsimp only
                  rw [Timed.get_bind]
                  split
                  · -- every worker is reaped: none is active
                    rename_i hLive
                    exact ⟨hSwept, hSwept.active_eq_zero hLive⟩
                  · exact ih hSupervised₂ hChecked (.inl hCaught₂) hSwept

/- A spawn adds a worker still supervised, with the gauge. -/
theorem Pool.Gauged.spawn
    {q : Pool}
    (h : q.Gauged none)
    (i : Nat)
    (id : Identity) :
    ((({ q with workers := q.workers ++ [Worker.new i id] } : Pool).note
      (.bump .workersSpawned 1)).note (.shiftActive 1)).Gauged none := by
  refine ⟨h.balanced.spawn, ?_, ?_, fun w hw hKilled => ?_⟩
  · simp only [Pool.note_metrics, Metrics.Registry.active_apply_shiftActive,
      Metrics.Registry.active_apply_bump, Pool.note_workers, List.countP_append, h.active_eq,
      Int64.ofNat_add]
    rfl
  · simp only [Pool.note_metrics, Metrics.Registry.counts_apply_shiftActive,
      Metrics.Registry.counts_apply_bump, reduceCtorEq, if_false, Pool.note_workers,
      List.countP_append, h.terminated_eq]
    rfl
  · simp only [Pool.note_workers, List.mem_append, List.mem_singleton] at hw
    rcases hw with hw | rfl
    · exact h.killed_reaped w hw hKilled
    · cases hKilled

/- What the metrics tell where a launch leaves the pool: the workers;
and after a launch that fails, every worker started killed and none
active. -/
def LaunchGauged : Except (Error × Pool) Pool → Prop
  | .ok p => p.Gauged none
  | .error (_, p) => p.Gauged none ∧ p.metrics.active = 0

/-
  Launching the identities `L`, numbered on from the workers started,
  keeps the metrics telling the workers, all of them just started.
-/
theorem launch_go_gauged
    {failure : Option (Nat × Error)}
    {L : List (Identity × Nat)}
    {q : Pool}
    (hGauged : q.Gauged none)
    (hStarted : ∀ j w, q.worker j = some w → w.index = j ∧ w.exit = none)
    (hNext : ∀ k x, L[k]? = some x → x.2 = q.workers.length + k) :
    LaunchGauged (launch.go failure L q) := by
  induction L generalizing q with
  | nil => exact hGauged
  | cons x L ih =>
      obtain ⟨id, i⟩ := x
      have hi : i = q.workers.length := hNext 0 (id, i) rfl
      -- unless this launch fails, the worker is spawned and the others follow
      have hSpawn : LaunchGauged (launch.go failure L ((({ q with workers := q.workers ++
          [Worker.new i id] } : Pool).note (.bump .workersSpawned 1)).note (.shiftActive 1))) := by
        refine ih (hGauged.spawn i id) (fun j w hw => ?_) (fun k x hx => ?_)
        · simp only [Pool.worker, Pool.note_workers, List.getElem?_append] at hw
          split at hw
          · exact hStarted j w hw
          · rename_i hj
            have hFirst : j - q.workers.length = 0 := by
              have := (List.getElem?_eq_some_iff.mp hw).1
              simp at this
              omega
            rw [hFirst] at hw
            cases hw
            exact ⟨by simp [Worker.new, hi]; omega, rfl⟩
        · have hx' := hNext (k + 1) x (by simpa using hx)
          simp only [Pool.note_workers, List.length_append, List.length_singleton]
          omega
      rw [launch.go.eq_def]
      dsimp only
      split
      · split
        · -- the launch fails: the workers started are terminated
          have hIndex : ∀ j w, q.worker j = some w → w.index = j :=
            fun j w hw => (hStarted j w hw).1
          refine Pool.Gauged.terminateAll hGauged hIndex fun w hw _ => ?_
          obtain ⟨j, hj, rfl⟩ := List.getElem_of_mem hw
          exact (hStarted j _ (List.getElem?_eq_getElem hj)).2
        · exact hSpawn
      · exact hSpawn

/- What the metrics tell through a supervision: where the launch
leaves the pool, and, after a launch that succeeds, where the run
leaves it. -/
def SupervisionGauged (pollMs settleMs lag : Nat) : Except (Error × Pool) Pool → Prop
  | .ok p₀ => p₀.Gauged none ∧ RunGauged lag (run pollMs settleMs lag p₀)
  | .error (_, p) => p.Gauged none ∧ p.metrics.active = 0

theorem supervision_gauge_balanced
    (identities : List Identity)
    (failure : Option (Nat × Error))
    (limit pollMs settleMs lag : Nat)
    (timeline : List (Nat × Nat × Happening)) :
    SupervisionGauged pollMs settleMs lag (launch identities failure limit timeline) := by
  -- the fresh registry tells the empty pool
  have hEmpty : (⟨0, limit, [], inOrder timeline, Metrics.Registry.new⟩ : Pool).Gauged none :=
    ⟨Metrics.Registry.new_balanced, rfl, rfl, by simp⟩
  have hLaunch : LaunchGauged (launch identities failure limit timeline) :=
    launch_go_gauged hEmpty (fun j w hw => by simp [Pool.worker] at hw)
      (fun k x hx => by
        obtain ⟨hk, rfl⟩ := List.getElem?_eq_some_iff.mp hx
        simp)
  cases hResult : launch identities failure limit timeline with
  | error v =>
      obtain ⟨e, p⟩ := v
      rw [hResult] at hLaunch
      exact hLaunch
  | ok p₀ =>
      rw [hResult] at hLaunch
      obtain ⟨hSupervised, hHealthy, -⟩ := launch_supervised hResult
      have hNow : p₀.now ≤ 0 * pollMs := by
        rw [(launch_eq_ok hResult).2.2.2, Nat.zero_mul]
      refine ⟨hLaunch, ?_⟩
      rw [run, Timed.get_bind]
      exact run_go_gauged hSupervised hHealthy (.inr hNow) hLaunch

end Supervision

end NeuronFleet
