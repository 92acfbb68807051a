import NeuronFleet.Proofs.Supervision.Check

/-
  How a supervised run ends.

  A tick checks the workers not yet reaped, in order, and the first
  check that fails ends the run; until then every worker is healthy: it
  reported no fault, and it is reaped exactly when it was seen to exit,
  cleanly.  So a run ends well only when every worker was seen to exit
  cleanly with no fault, and a run that ends with an error ends with the
  one worker whose check failed: with the trace of the first fault in
  its stream, with the error of reading its status, or, with no fault
  among the reports it was sent before the supervisor's last `lag`
  milliseconds, with the error its unclean end calls for.  A fault that
  came in those milliseconds is read and kept, but not reported.  Every
  other worker is then healthy and reaped, terminated if it was still
  running.

  Main declarations:
    * `Pool.Supervised`, `sweep_spec`, `worker_terminateAll`
    * `launch_eq_ok`, `run_go_spec`, `run_reports_first_failure`
-/

namespace NeuronFleet

namespace Supervision

/- The happenings of a timeline in the order they happen: by time, and
as given at equal times. -/
def inOrder
    (timeline : List (Nat × Nat × Happening)) : List (Nat × Nat × Happening) :=
  timeline.mergeSort fun a b => decide (a.1 ≤ b.1)

theorem inOrder_sorted
    (timeline : List (Nat × Nat × Happening)) :
    (inOrder timeline).Pairwise (fun a b => a.1 ≤ b.1) := by
  have hSorted : (inOrder timeline).Pairwise (fun a b => decide (a.1 ≤ b.1) = true) :=
    List.pairwise_mergeSort (fun a b c hab hbc => by simp at hab hbc ⊢; omega)
      (fun a b => by simp; omega) timeline
  exact hSorted.imp fun h => by simpa using h

------------------------------------------------------------
-- Supervised Pools
------------------------------------------------------------

/-
  A pool supervising one worker per identity, after the happenings `d`.
-/
structure Pool.Supervised
    (identities : List Identity)
    (d : List (Nat × Nat × Happening))
    (p : Pool) : Prop where
  sound : p.Sound d
  length_eq : p.workers.length = identities.length
  identity_eq : ∀ j w, p.worker j = some w → identities[j]? = some w.identity

/- Every worker of the pool is healthy. -/
def Pool.Healthy (p : Pool) : Prop :=
  ∀ j w, p.worker j = some w → w.Healthy

variable {identities : List Identity} {d : List (Nat × Nat × Happening)} {p p' : Pool}

namespace Pool.Supervised

/- Steps around one worker that keep its identity keep the pool supervised. -/
theorem around
    {i : Nat}
    {d' : List (Nat × Nat × Happening)}
    (h : p.Supervised identities d)
    (hSound : p'.Sound d')
    (hAround : Pool.Around i p p')
    (hIdentity : ∀ w w', p.worker i = some w → p'.worker i = some w' → w'.identity = w.identity) :
    p'.Supervised identities d' := by
  refine ⟨hSound, hAround.length_eq.trans h.length_eq, fun j w' hw' => ?_⟩
  -- the worker was there before, with the same identity
  have hLength := hAround.length_eq
  obtain ⟨w, hw⟩ : ∃ w, p.worker j = some w := by
    have hj : j < p'.workers.length := (List.getElem?_eq_some_iff.mp hw').1
    exact ⟨p.workers[j], List.getElem?_eq_getElem (by omega)⟩
  by_cases hj : j = i
  · subst hj
    rw [hIdentity w w' hw hw']
    exact h.identity_eq j w hw
  · have hSeen := hAround.seen_eq j hj
    rw [hw, hw'] at hSeen
    simp only [Option.map_some, Option.some.injEq, Worker.seen, Worker.standing,
      Prod.mk.injEq] at hSeen
    rw [hSeen.1.2.1]
    exact h.identity_eq j w hw

theorem advance
    (h : p.Supervised identities d)
    (t : Nat) :
    (p.advance t).Supervised identities (d ++ p.timeline.filter (·.1 ≤ t)) :=
  h.around (h.sound.advance t).1 (Pool.Evolves.advance 0 p t).toAround fun w w' hw hw' => by
    have := (Pool.Evolves.advance 0 p t).standing_of hw hw'
    simp only [Worker.standing, Prod.mk.injEq] at this
    exact this.2.1

end Pool.Supervised

/-
  What a sweep that ends with `res` says of the pool after the
  happenings `d`: with no error, every worker is healthy; with an error
  on worker `i`, that worker fails with it, and unless the error is the
  trace of a fault it holds, it was sent no fault before the last `lag`
  milliseconds; every other worker is healthy.
-/
def Pool.Swept
    (p : Pool)
    (lag : Nat)
    (d : List (Nat × Nat × Happening)) :
    Option (Nat × Error) → Prop
  | none => p.Healthy
  | some (i, e) => ∃ w, p.worker i = some w ∧ w.reaped = false ∧ w.Fails lag e ∧
      ((∃ err trace, w.slot.fault = some (err, trace) ∧ e = .childProcess w.name trace) ∨
        QuietBefore i lag p.now d) ∧
      ∀ j v, j ≠ i → p.worker j = some v → v.Healthy

theorem Pool.Healthy.advance
    (h : p.Healthy)
    (t : Nat) :
    (p.advance t).Healthy := by
  intro j w hw
  rw [Pool.worker_advance] at hw
  obtain ⟨w₀, hw₀, rfl⟩ := Option.map_eq_some_iff.mp hw
  exact (h j w₀ hw₀).of_seen (Worker.receive_seen w₀ j _)

------------------------------------------------------------
-- Sweeping the Workers
------------------------------------------------------------

/-
  A sweep over healthy workers either leaves them all healthy or ends
  with the first worker whose check fails, every other worker healthy.
-/
theorem sweep_spec
    {settleMs lag : Nat}
    {indices : List Nat}
    {res : Option (Nat × Error)}
    (hSupervised : p.Supervised identities d)
    (hCaught : p.Caught)
    (hHealthy : p.Healthy)
    (hSweep : sweep settleMs lag indices p = .ok (res, p')) :
    ∃ d', d ++ p.timeline = d' ++ p'.timeline ∧ p'.Supervised identities d' ∧ p'.Caught ∧
      p'.limit = p.limit ∧ p'.Swept lag d' res := by
  induction indices generalizing p d with
  | nil =>
      obtain ⟨rfl, rfl⟩ := Timed.pure_eq_ok hSweep
      exact ⟨d, rfl, hSupervised, hCaught, rfl, hHealthy⟩
  | cons i rest ih =>
      rw [sweep, Timed.get_bind] at hSweep
      cases hi : p.worker i with
      | none =>
          rw [hi] at hSweep
          exact ih hSupervised hCaught hHealthy hSweep
      | some w =>
          rw [hi] at hSweep
          dsimp only at hSweep
          split at hSweep
          · -- reaped already: skipped
            exact ih hSupervised hCaught hHealthy hSweep
          · rename_i hLive
            have hLive : w.reaped = false := by simpa using hLive
            -- a live healthy worker has not been seen to exit
            have hFresh : w.exit = none := by
              obtain ⟨-, hReaped, -⟩ := hHealthy i w hi
              rw [hLive] at hReaped
              cases hExit : w.exit with
              | none => rfl
              | some info => rw [hExit] at hReaped; cases hReaped
            obtain ⟨res', p₁, hCheck, hSweep⟩ := Timed.bind_eq_ok.mp hSweep
            obtain ⟨d₁, hd₁, hSound₁, hAround₁, w₁, hi₁, -, hIdentity₁, hChecked, hQuiet₁⟩ :=
              check_spec hSupervised.sound hCaught hi hFresh hLive hCheck
            have hSupervised₁ : p₁.Supervised identities d₁ :=
              hSupervised.around hSound₁ hAround₁ fun w₀ w₀' hw₀ hw₀' => by
                rw [hi] at hw₀
                rw [hi₁] at hw₀'
                cases hw₀
                cases hw₀'
                exact hIdentity₁
            -- every other worker is seen as before, so stays healthy
            have hOthers : ∀ j v, j ≠ i → p₁.worker j = some v → v.Healthy := by
              intro j v hj hv
              have hSeen := hAround₁.seen_eq j hj
              rw [hv] at hSeen
              obtain ⟨v₀, hv₀, hSeen₀⟩ := Option.map_eq_some_iff.mp hSeen.symm
              exact (hHealthy j v₀ hv₀).of_seen hSeen₀.symm
            cases res' with
            | some e =>
                obtain ⟨rfl, rfl⟩ := Timed.pure_eq_ok hSweep
                exact ⟨d₁, hd₁, hSupervised₁, hAround₁.caught hCaught, hAround₁.limit_eq, w₁, hi₁,
                  hChecked.1, hChecked.2, hQuiet₁ e rfl, hOthers⟩
            | none =>
                have hHealthy₁ : p₁.Healthy := by
                  intro j v hv
                  by_cases hj : j = i
                  · subst hj
                    rw [hi₁] at hv
                    cases hv
                    exact hChecked
                  · exact hOthers j v hj hv
                obtain ⟨d', hd', hSupervised', hCaught', hLimit', hRes⟩ :=
                  ih hSupervised₁ (hAround₁.caught hCaught) hHealthy₁ hSweep
                exact ⟨d', hd₁.trans hd', hSupervised', hCaught', hLimit'.trans hAround₁.limit_eq, hRes⟩

------------------------------------------------------------
-- Terminating the Others
------------------------------------------------------------

namespace Worker

theorem terminate_of_reaped
    {w : Worker}
    (hReaped : w.reaped = true) :
    w.terminate = w := by
  simp [terminate, hReaped]

theorem terminate_terminate
    (w : Worker) :
    w.terminate.terminate = w.terminate := by
  by_cases hSkip : (w.reaped || w.exit.isSome) = true
  · simp [terminate, hSkip]
  · exact terminate_of_reaped (by simp [terminate, hSkip])

@[simp] theorem terminate_slot (w : Worker) : w.terminate.slot = w.slot := by
  unfold terminate; split <;> rfl

@[simp] theorem terminate_index (w : Worker) : w.terminate.index = w.index := by
  unfold terminate; split <;> rfl

@[simp] theorem terminate_identity (w : Worker) : w.terminate.identity = w.identity := by
  unfold terminate; split <;> rfl

@[simp] theorem terminate_exit (w : Worker) : w.terminate.exit = w.exit := by
  unfold terminate; split <;> rfl

/- A healthy worker, once terminated, is reaped. -/
theorem Healthy.terminate_reaped
    {w : Worker}
    (h : w.Healthy) :
    w.terminate.reaped = true := by
  obtain ⟨-, hReaped, -⟩ := h
  unfold terminate
  split
  · rename_i hSkip
    cases hExit : w.exit <;> simp_all
  · rfl

end Worker

namespace Pool

/-
  Terminating workers in turn terminates, once, each worker that some
  turn names and does not skip.
-/
theorem worker_foldl_terminate
    (except : Option Nat)
    (L : List Worker)
    (q : Pool)
    (j : Nat) :
    (L.foldl (fun q w =>
      if except == some w.index || w.reaped then q
      else ((q.change w.index Worker.terminate).note (.bump .workersTerminated 1)).note
        (.shiftActive (-1))) q).worker j =
      (q.worker j).map fun v =>
        if L.any (fun w => w.index == j && !(except == some w.index || w.reaped)) then v.terminate
        else v := by
  induction L generalizing q with
  | nil =>
      rw [List.foldl_nil]
      cases q.worker j <;> rfl
  | cons w L ih =>
      rw [List.foldl_cons, ih]
      by_cases hSkip : (except == some w.index || w.reaped) = true
      · simp only [hSkip, if_true, List.any_cons, Bool.not_true, Bool.and_false, Bool.false_or]
      · simp only [hSkip, Bool.false_eq_true, if_false, note_worker, worker_change,
          List.any_cons, Bool.not_false, Bool.and_true]
        by_cases hj : j = w.index
        · -- this turn names worker `j`; a second termination changes nothing
          subst hj
          rw [if_pos rfl]
          cases q.worker w.index with
          | none => rfl
          | some v =>
              simp only [Option.map_some, beq_self_eq_true, Bool.true_or, if_true]
              split
              · rw [Worker.terminate_terminate]
              · rfl
        · have hj' : (w.index == j) = false := beq_eq_false_iff_ne.mpr (Ne.symm hj)
          rw [if_neg hj, hj', Bool.false_or]

theorem timeline_foldl_terminate
    (except : Option Nat)
    (L : List Worker)
    (q : Pool) :
    (L.foldl (fun q w =>
      if except == some w.index || w.reaped then q
      else ((q.change w.index Worker.terminate).note (.bump .workersTerminated 1)).note
        (.shiftActive (-1))) q).timeline = q.timeline ∧
    (L.foldl (fun q w =>
      if except == some w.index || w.reaped then q
      else ((q.change w.index Worker.terminate).note (.bump .workersTerminated 1)).note
        (.shiftActive (-1))) q).workers.length = q.workers.length ∧
    (L.foldl (fun q w =>
      if except == some w.index || w.reaped then q
      else ((q.change w.index Worker.terminate).note (.bump .workersTerminated 1)).note
        (.shiftActive (-1))) q).now = q.now := by
  induction L generalizing q with
  | nil => exact ⟨rfl, rfl, rfl⟩
  | cons w L ih =>
      rw [List.foldl_cons]
      obtain ⟨hTimeline, hLength, hNow⟩ := ih _
      rw [hTimeline, hLength, hNow]
      split <;> simp

/-
  Terminating all workers but `i` leaves worker `i` as it is and
  terminates every other one, when each worker knows its place.
-/
theorem worker_terminateAll
    (hIndex : ∀ j w, p.worker j = some w → w.index = j)
    (i j : Nat) :
    (p.terminateAll (some i)).worker j =
      if j = i then p.worker j else (p.worker j).map Worker.terminate := by
  unfold terminateAll
  rw [worker_foldl_terminate]
  cases hw : p.worker j with
  | none => by_cases hj : j = i <;> simp [hj]
  | some v =>
      have hv : v ∈ p.workers := List.mem_of_getElem? hw
      by_cases hj : j = i
      · -- worker `i` is skipped by every turn that names it
        subst hj
        have hNone : p.workers.any (fun w => w.index == j && !(some j == some w.index || w.reaped)) =
            false := by
          rw [List.any_eq_false]
          intro w _
          by_cases hw' : w.index = j <;> simp [hw']
        rw [if_pos rfl, Option.map_some, hNone]
        rfl
      · rw [if_neg hj, Option.map_some, Option.map_some]
        by_cases hAny : p.workers.any
            (fun w => w.index == j && !(some i == some w.index || w.reaped)) = true
        · rw [if_pos hAny]
        · -- the turn for worker `j` skipped it: it was reaped
          have hReaped : v.reaped = true := by
            by_contra hNot
            apply hAny
            rw [List.any_eq_true]
            exact ⟨v, hv, by simp [hIndex j v hw, Ne.symm hj, hNot]⟩
          rw [if_neg hAny, Worker.terminate_of_reaped hReaped]

theorem terminateAll_timeline
    (p : Pool)
    (except : Option Nat) :
    (p.terminateAll except).timeline = p.timeline :=
  (timeline_foldl_terminate except p.workers p).1

theorem length_terminateAll
    (p : Pool)
    (except : Option Nat) :
    (p.terminateAll except).workers.length = p.workers.length :=
  (timeline_foldl_terminate except p.workers p).2.1

theorem terminateAll_now
    (p : Pool)
    (except : Option Nat) :
    (p.terminateAll except).now = p.now :=
  (timeline_foldl_terminate except p.workers p).2.2

end Pool

theorem Pool.Supervised.note
    (h : p.Supervised identities d)
    (u : Metrics.Update) :
    (p.note u).Supervised identities d :=
  ⟨h.sound.note u, h.length_eq, h.identity_eq⟩

/- Terminating all workers but one keeps the pool supervised. -/
theorem Pool.Supervised.terminateAll
    (h : p.Supervised identities d)
    (i : Nat) :
    (p.terminateAll (some i)).Supervised identities d := by
  have hIndex : ∀ j w, p.worker j = some w → w.index = j :=
    fun j w hw => (h.sound.worker_follows j w hw).1
  refine ⟨⟨?_, fun j w hw => ?_⟩, (Pool.length_terminateAll p _).trans h.length_eq,
    fun j w hw => ?_⟩
  · rw [Pool.terminateAll_timeline]
    exact h.sound.timeline_sorted
  · rw [Pool.worker_terminateAll hIndex] at hw
    split at hw
    · exact h.sound.worker_follows j w hw
    · obtain ⟨w₀, hw₀, rfl⟩ := Option.map_eq_some_iff.mp hw
      obtain ⟨hIndex₀, hFollows₀⟩ := h.sound.worker_follows j w₀ hw₀
      exact ⟨by rw [Worker.terminate_index, hIndex₀], hFollows₀.of_slot_eq (Worker.terminate_slot w₀)⟩
  · rw [Pool.worker_terminateAll hIndex] at hw
    split at hw
    · exact h.identity_eq j w hw
    · obtain ⟨w₀, hw₀, rfl⟩ := Option.map_eq_some_iff.mp hw
      rw [Worker.terminate_identity]
      exact h.identity_eq j w₀ hw₀

------------------------------------------------------------
-- Launching
------------------------------------------------------------

theorem launch_go_eq_ok
    {failure : Option (Nat × Error)}
    {L : List (Identity × Nat)}
    {q q' : Pool}
    (h : launch.go failure L q = .ok q') :
    q'.workers = q.workers ++ L.map (fun x => Worker.new x.2 x.1) ∧
      q'.timeline = q.timeline ∧ q'.limit = q.limit ∧ q'.now = q.now := by
  induction L generalizing q with
  | nil =>
      cases h
      exact ⟨by simp, rfl, rfl, rfl⟩
  | cons x L ih =>
      obtain ⟨id, i⟩ := x
      -- unless this launch fails, the worker joins and the others follow
      have hNext : launch.go failure L ((({ q with workers := q.workers ++ [Worker.new i id] } :
            Pool).note (.bump .workersSpawned 1)).note (.shiftActive 1)) = .ok q' →
          q'.workers = q.workers ++ ((id, i) :: L).map (fun x => Worker.new x.2 x.1) ∧
            q'.timeline = q.timeline ∧ q'.limit = q.limit ∧ q'.now = q.now := by
        intro h
        obtain ⟨hWorkers, hTimeline, hLimit, hNow⟩ := ih h
        exact ⟨by simp [hWorkers], hTimeline, hLimit, hNow⟩
      rw [launch.go.eq_def] at h
      dsimp only at h
      split at h
      · split at h
        · cases h
        · exact hNext h
      · exact hNext h

/- A launch that succeeds starts one fresh worker per identity, in order. -/
theorem launch_eq_ok
    {failure : Option (Nat × Error)}
    {limit : Nat}
    {timeline : List (Nat × Nat × Happening)}
    (h : launch identities failure limit timeline = .ok p) :
    (∀ j, p.worker j = identities[j]?.map (Worker.new j)) ∧
      p.workers.length = identities.length ∧ p.timeline = inOrder timeline ∧ p.now = 0 := by
  obtain ⟨hWorkers, hTimeline, -, hNow⟩ := launch_go_eq_ok h
  refine ⟨fun j => ?_, by simp [hWorkers], hTimeline, hNow⟩
  simp only [Pool.worker, hWorkers, List.nil_append, List.getElem?_map, List.getElem?_zipIdx]
  cases identities[j]? <;> simp

/- A launched pool is supervised and healthy, before anything happens. -/
theorem launch_supervised
    {failure : Option (Nat × Error)}
    {limit : Nat}
    {timeline : List (Nat × Nat × Happening)}
    (h : launch identities failure limit timeline = .ok p) :
    p.Supervised identities [] ∧ p.Healthy ∧ p.timeline = inOrder timeline := by
  obtain ⟨hWorker, hLength, hTimeline, -⟩ := launch_eq_ok h
  have hFresh : ∀ j w, p.worker j = some w → ∃ id, identities[j]? = some id ∧ w = Worker.new j id := by
    intro j w hw
    rw [hWorker] at hw
    obtain ⟨id, hId, rfl⟩ := Option.map_eq_some_iff.mp hw
    exact ⟨id, hId, rfl⟩
  refine ⟨⟨⟨hTimeline ▸ inOrder_sorted timeline, fun j w hw => ?_⟩, hLength, fun j w hw => ?_⟩,
    fun j w hw => ?_, hTimeline⟩
  · obtain ⟨id, -, rfl⟩ := hFresh j w hw
    exact ⟨rfl, Slot.tracks_new, rfl, rfl⟩
  · obtain ⟨id, hId, rfl⟩ := hFresh j w hw
    exact hId
  · obtain ⟨id, -, rfl⟩ := hFresh j w hw
    exact ⟨rfl, rfl, fun _ h => by cases h⟩

------------------------------------------------------------
-- Running
------------------------------------------------------------

/-
  How a run that ends in `p` with `result`, after the happenings `d`,
  leaves its workers: all reaped and healthy when it ends well;
  otherwise one worker, not reaped, fails with the error, unless the
  error is the trace of a fault it holds it was sent no fault before the
  last `lag` milliseconds, and every other is reaped with no complaint.
-/
def Pool.Finished
    (p : Pool)
    (lag : Nat)
    (d : List (Nat × Nat × Happening))
    (count : Nat) :
    Outcome Nat → Prop
  | .ok n => n = count ∧ ∀ w ∈ p.workers, w.reaped = true ∧ w.Healthy
  | .error e => ∃ i w, p.worker i = some w ∧ w.reaped = false ∧ w.Fails lag e ∧
      ((∃ err trace, w.slot.fault = some (err, trace) ∧ e = .childProcess w.name trace) ∨
        QuietBefore i lag p.now d) ∧
      ∀ j v, j ≠ i → p.worker j = some v →
        v.reaped = true ∧ v.slot.fault = none ∧ ∀ info, v.exit = some info → info.success = true

theorem run_go_spec
    {pollMs settleMs lag k n : Nat}
    {result : Outcome Nat}
    (hSupervised : p.Supervised identities d)
    (hHealthy : p.Healthy)
    (hCaught : p.Caught ∨ p.now ≤ k * pollMs)
    (hGo : run.go pollMs settleMs lag k n p = .ok (result, p')) :
    ∃ d', d ++ p.timeline = d' ++ p'.timeline ∧ p'.Supervised identities d' ∧
      p'.Finished lag d' identities.length result := by
  induction n generalizing k p d with
  | zero =>
      rw [run.go, Timed.get_bind] at hGo
      cases hGo
  | succ n ih =>
      -- the tick: time passes, then every live worker is checked
      rw [run.go] at hGo
      obtain ⟨u, p₁, hWait, hGo⟩ := Timed.bind_eq_ok.mp hGo
      obtain ⟨-, rfl⟩ := waitUntil_eq_ok hWait
      have hd₁ := (hSupervised.sound.advance (k * pollMs)).2
      rw [Timed.get_bind] at hGo
      obtain ⟨res, p₂, hSweep, hGo⟩ := Timed.bind_eq_ok.mp hGo
      obtain ⟨d₂, hd₂, hSupervised₂, hCaught₂, -, hSwept⟩ :=
        sweep_spec (hSupervised.advance (k * pollMs)) (Pool.Caught.advance_of hCaught)
          (hHealthy.advance (k * pollMs)) hSweep
      cases res with
      | some r =>
          -- a check failed: every other worker is terminated
          obtain ⟨i, e⟩ := r
          obtain ⟨u, p₃, hModify, hGo⟩ := Timed.bind_eq_ok.mp hGo
          obtain ⟨rfl, rfl⟩ := Timed.pure_eq_ok hGo
          have hp₃ := modify_eq_ok hModify
          subst hp₃
          obtain ⟨w, hi, hLive, hFails, hQuiet, hOthers⟩ := hSwept
          have hSupervisedNoted := (hSupervised₂.note (.bump .workerFaults 1)).note (.shiftActive (-1))
          have hIndex : ∀ j w, ((p₂.note (.bump .workerFaults 1)).note (.shiftActive (-1))).worker j =
              some w → w.index = j :=
            fun j w hw => (hSupervisedNoted.sound.worker_follows j w hw).1
          refine ⟨d₂, ?_, hSupervisedNoted.terminateAll i, i, w, ?_, hLive, hFails, ?_, ?_⟩
          · rw [Pool.terminateAll_timeline]
            exact hd₁.trans hd₂
          · rw [Pool.worker_terminateAll hIndex, if_pos rfl]
            exact hi
          · rw [Pool.terminateAll_now]
            exact hQuiet
          · intro j v hj hv
            rw [Pool.worker_terminateAll hIndex, if_neg hj] at hv
            obtain ⟨v₀, hv₀, rfl⟩ := Option.map_eq_some_iff.mp hv
            obtain ⟨hNone, -, hClean⟩ := hOthers j v₀ hj hv₀
            exact ⟨(hOthers j v₀ hj hv₀).terminate_reaped, by simpa using hNone,
              by simpa using hClean⟩
      | none =>
          dsimp only at hGo
          rw [Timed.get_bind] at hGo
          split at hGo
          · -- every worker is reaped: the run ends well
            rename_i hLive
            obtain ⟨rfl, rfl⟩ := Timed.pure_eq_ok hGo
            refine ⟨d₂, hd₁.trans hd₂, hSupervised₂, hSupervised₂.length_eq, fun w hw => ?_⟩
            have hReaped : w.reaped = true := by
              have hNone := List.eq_nil_of_length_eq_zero hLive
              rw [List.filter_eq_nil_iff] at hNone
              simpa using hNone w hw
            obtain ⟨j, hj, hEq⟩ := List.getElem_of_mem hw
            exact ⟨hReaped, hSwept j w (List.getElem?_eq_some_iff.mpr ⟨hj, hEq⟩)⟩
          · obtain ⟨d', hd', hSupervised', hFinished⟩ := ih hSupervised₂ hSwept (.inl hCaught₂) hGo
            exact ⟨d', hd₁.trans (hd₂.trans hd'), hSupervised', hFinished⟩

------------------------------------------------------------
-- How a Run Ends
------------------------------------------------------------

/-
  The error `e` that worker `w` ends a run with, read against its
  stream, the part `delivered` of it that has happened, and the part
  `settled` delivered by the end of its settle: the trace of the first
  fault of the stream, held by the worker; the error of reading its
  status, before any end and with no fault delivered; or its unclean
  end, with no fault settled, a startup failure unless a start came
  before the first fault delivered.  A fault delivered after the settle
  is held by the worker without deciding the error.
-/
def Worker.FailsOn
    (w : Worker)
    (stream settled delivered : List Report)
    (e : Error) :
    Prop :=
  (∃ err trace, firstFault stream = some (err, trace) ∧ w.slot.fault = some (err, trace) ∧
      e = .childProcess w.name trace) ∨
    (∃ cause, w.exit = none ∧ w.waitError = some cause ∧ firstFault delivered = none ∧
      e = .io cause) ∨
    (∃ info, w.exit = some info ∧ info.success = false ∧ firstFault settled = none ∧
      w.slot.fault = firstFault delivered ∧
      e = if (beforeFault delivered).any Report.isStarted then
            .childProcess w.name
              ("worker process terminated with " ++ info.description ++ " without reporting a fault")
          else .workerStartup (w.name ++ ": not started and not exited (" ++ info.description ++ ")"))

/-
  A worker that fails, following its stream, fails on it: a fault it
  holds is the first of the whole stream, and the error of its unclean
  end is decided by what came before the first fault delivered.
-/
theorem Worker.Fails.failsOn
    {w : Worker}
    {i lag now : Nat}
    {e : Error}
    {d : List (Nat × Nat × Happening)}
    (h : w.Fails lag e)
    (hFollows : w.Follows i d)
    (hQuiet : (∃ err trace, w.slot.fault = some (err, trace) ∧ e = .childProcess w.name trace) ∨
      QuietBefore i lag now d)
    (rest : List (Nat × Nat × Happening)) :
    ∃ early late, d = early ++ late ∧ (∀ x ∈ late, now < x.1 + lag) ∧
      w.FailsOn (reportsTo i (d ++ rest)) (reportsTo i early) (reportsTo i d) e := by
  -- a fault the worker holds is the first of its whole stream
  have hHeld : ∀ err trace, w.slot.fault = some (err, trace) → e = .childProcess w.name trace →
      ∃ early late, d = early ++ late ∧ (∀ x ∈ late, now < x.1 + lag) ∧
        w.FailsOn (reportsTo i (d ++ rest)) (reportsTo i early) (reportsTo i d) e := by
    intro err trace hFault he
    refine ⟨d, [], by simp, by simp, .inl ⟨err, trace, ?_, hFault, he⟩⟩
    obtain ⟨more, hMore⟩ := reportsTo_prefix i d rest
    rw [← hMore, firstFault_append, hFollows.tracks.firstFault_of_fault hFault]
    rfl
  rcases h with ⟨err, trace, hFault, he⟩ | ⟨cause, hExit, hWait, hNone, hQueue, he⟩ |
      ⟨info, hExit, hUnclean, hRead, -, he⟩
  · exact hHeld err trace hFault he
  · -- with nothing left in the channel, no fault was delivered
    refine ⟨d, [], by simp, by simp, .inr (.inl ⟨cause, hExit, hWait, ?_, he⟩)⟩
    rw [← hFollows.tracks.fault_eq_of_queue_nil hQueue, hNone]
  · rcases hQuiet with ⟨err, trace, hFault, he'⟩ | ⟨early, late, hSplit, hLate, hEarly⟩
    · exact hHeld err trace hFault he'
    · refine ⟨early, late, hSplit, hLate, .inr (.inr ⟨info, hExit, hUnclean, hEarly, ?_, ?_⟩)⟩
      · -- the last read stopped at the first fault delivered, or read everything
        cases hFault : w.slot.fault with
        | none => rw [← hFault, hFollows.tracks.fault_eq_of_queue_nil (hRead hFault)]
        | some f => exact (hFollows.tracks.firstFault_of_fault hFault).symm
      · rw [he, hFollows.tracks.started_eq hRead]

/-
  What a run that ends in `p` with `result` says, reading each worker's
  stream off `timeline`, of which the happenings `applied` happened.
  It ends well, with the number of workers, only when every worker was
  seen to exit cleanly and reported no fault.  Otherwise it ends with
  the error of one worker `i`, left unreaped: the trace of the first
  fault of its stream; the error of reading its status; or, when no
  fault reached it before the last `lag` milliseconds, the error of its
  unclean end.  Every other worker is reaped, reported no fault, and any
  exit seen of it was clean.
-/
def Pool.Ended
    (p : Pool)
    (lag : Nat)
    (identities : List Identity)
    (timeline applied : List (Nat × Nat × Happening)) :
    Outcome Nat → Prop
  | .ok n => n = identities.length ∧
      ∀ w ∈ p.workers, w.reaped = true ∧ w.slot.fault = none ∧
        ∃ info, w.exit = some info ∧ info.success = true
  | .error e => ∃ i w, p.worker i = some w ∧ w.index = i ∧ identities[i]? = some w.identity ∧
      w.reaped = false ∧
      (∃ early late, applied = early ++ late ∧ (∀ x ∈ late, p.now < x.1 + lag) ∧
        w.FailsOn (reportsTo i (inOrder timeline)) (reportsTo i early) (reportsTo i applied) e) ∧
      ∀ j v, j ≠ i → p.worker j = some v →
        v.reaped = true ∧ v.slot.fault = none ∧ ∀ info, v.exit = some info → info.success = true

/-
  A run of launched workers, whatever their streams and whenever they
  exit, and however long the supervisor takes between a worker's settle
  and its last read, ends well only when every worker exited cleanly
  with no fault, and otherwise with the error of the first check that
  failed.
-/
theorem run_reports_first_failure
    {failure : Option (Nat × Error)}
    {limit pollMs settleMs lag : Nat}
    {timeline : List (Nat × Nat × Happening)}
    {p₀ : Pool}
    {result : Outcome Nat}
    (hLaunch : launch identities failure limit timeline = .ok p₀)
    (hRun : run pollMs settleMs lag p₀ = .ok (result, p)) :
    p.workers.length = identities.length ∧
      ∃ applied, applied ++ p.timeline = inOrder timeline ∧
        p.Ended lag identities timeline applied result := by
  obtain ⟨hSupervised₀, hHealthy₀, hTimeline₀⟩ := launch_supervised hLaunch
  have hNow₀ : p₀.now ≤ 0 * pollMs := by
    rw [(launch_eq_ok hLaunch).2.2.2, Nat.zero_mul]
  rw [run, Timed.get_bind] at hRun
  obtain ⟨applied, hApplied, hSupervised, hFinished⟩ :=
    run_go_spec hSupervised₀ hHealthy₀ (.inr hNow₀) hRun
  rw [List.nil_append, hTimeline₀] at hApplied
  refine ⟨hSupervised.length_eq, applied, hApplied.symm, ?_⟩
  cases result with
  | ok n =>
      obtain ⟨rfl, hAll⟩ := hFinished
      refine ⟨rfl, fun w hw => ?_⟩
      obtain ⟨hReaped, hNone, hExit, hClean⟩ := hAll w hw
      -- reaped means seen to exit
      cases hSeen : w.exit with
      | none => rw [hSeen, hReaped] at hExit; cases hExit
      | some info => exact ⟨hReaped, hNone, info, rfl, hClean info hSeen⟩
  | error e =>
      obtain ⟨i, w, hi, hLive, hFails, hQuiet, hOthers⟩ := hFinished
      obtain ⟨hIndex, hFollows⟩ := hSupervised.sound.worker_follows i w hi
      refine ⟨i, w, hi, hIndex, hSupervised.identity_eq i w hi, hLive, ?_, hOthers⟩
      rw [hApplied]
      exact hFails.failsOn hFollows hQuiet p.timeline

/-
  Two workers, polled every 10 ms, the supervisor taking 1 ms before a
  last read: worker 0 starts and exits cleanly, worker 1 reports a fault
  at 15 ms and exits with code 1.
-/
set_option maxRecDepth 20000 in
theorem run_ends_with_trace_of_faulting_worker :
    ∃ p₀ p result,
      launch [⟨"cold", "hot-0", 9000⟩, ⟨"cold", "hot-1", 9001⟩] none 200
          [(5, 0, .report (.started 1 "hot-0" 9000)), (12, 0, .exit ⟨some 0, "exit status: 0"⟩),
            (15, 1, .report (.fault "boom" "trace-1")), (16, 1, .exit ⟨some 1, "exit status: 1"⟩)] =
        .ok p₀ ∧
      run 10 5 1 p₀ = .ok (result, p) ∧
      (p.workers.length = 2 ∧
        ∃ applied, applied ++ p.timeline =
          inOrder [(5, 0, .report (.started 1 "hot-0" 9000)), (12, 0, .exit ⟨some 0, "exit status: 0"⟩),
            (15, 1, .report (.fault "boom" "trace-1")), (16, 1, .exit ⟨some 1, "exit status: 1"⟩)] ∧
          p.Ended 1 [⟨"cold", "hot-0", 9000⟩, ⟨"cold", "hot-1", 9001⟩]
            [(5, 0, .report (.started 1 "hot-0" 9000)), (12, 0, .exit ⟨some 0, "exit status: 0"⟩),
              (15, 1, .report (.fault "boom" "trace-1")), (16, 1, .exit ⟨some 1, "exit status: 1"⟩)]
            applied result) := by
  have hSorted : inOrder [(5, 0, Happening.report (.started 1 "hot-0" 9000)),
      (12, 0, .exit ⟨some 0, "exit status: 0"⟩), (15, 1, .report (.fault "boom" "trace-1")),
      (16, 1, .exit ⟨some 1, "exit status: 1"⟩)] =
      [(5, 0, .report (.started 1 "hot-0" 9000)), (12, 0, .exit ⟨some 0, "exit status: 0"⟩),
        (15, 1, .report (.fault "boom" "trace-1")), (16, 1, .exit ⟨some 1, "exit status: 1"⟩)] :=
    List.mergeSort_of_pairwise (by decide)
  have hLaunch : launch [⟨"cold", "hot-0", 9000⟩, ⟨"cold", "hot-1", 9001⟩] none 200
      [(5, 0, .report (.started 1 "hot-0" 9000)), (12, 0, .exit ⟨some 0, "exit status: 0"⟩),
        (15, 1, .report (.fault "boom" "trace-1")), (16, 1, .exit ⟨some 1, "exit status: 1"⟩)] =
      .ok ⟨0, 200, [Worker.new 0 ⟨"cold", "hot-0", 9000⟩, Worker.new 1 ⟨"cold", "hot-1", 9001⟩],
        [(5, 0, .report (.started 1 "hot-0" 9000)), (12, 0, .exit ⟨some 0, "exit status: 0"⟩),
          (15, 1, .report (.fault "boom" "trace-1")), (16, 1, .exit ⟨some 1, "exit status: 1"⟩)],
        (((Metrics.Registry.new.apply (.bump .workersSpawned 1)).apply (.shiftActive 1)).apply
          (.bump .workersSpawned 1)).apply (.shiftActive 1)⟩ := by
    show launch.go none _ ⟨0, 200, [], inOrder _, _⟩ = _
    rw [hSorted]
    rfl
  exact ⟨_, _, _, hLaunch, (fun hRun => ⟨hRun, run_reports_first_failure hLaunch hRun⟩) rfl⟩

/-
  One worker, polled every 10 ms and settled for 5 ms, the supervisor
  taking 2 ms before its last read: the worker exits with code 1 at
  3 ms, without a start, and reports a fault at 16 ms.  The exit is
  seen at 10 ms and the settle ends at 15 ms; the last read, at 17 ms,
  takes in the fault, which the worker then holds, yet the run ends
  with a startup failure and not with the fault's trace.
-/
set_option maxRecDepth 20000 in
theorem fault_read_after_settle_is_not_reported :
    ∃ p₀ p w,
      launch [⟨"cold", "hot-0", 9000⟩] none 200
          [(3, 0, .exit ⟨some 1, "exit status: 1"⟩), (16, 0, .report (.fault "boom" "trace-0"))] =
        .ok p₀ ∧
      run 10 5 2 p₀ =
        .ok (.error (.workerStartup
          "worker-0 (cold:hot-0@9000): not started and not exited (exit status: 1)"), p) ∧
      p.worker 0 = some w ∧ w.slot.fault = some ("boom", "trace-0") := by
  have hLaunch : launch [⟨"cold", "hot-0", 9000⟩] none 200
      [(3, 0, .exit ⟨some 1, "exit status: 1"⟩), (16, 0, .report (.fault "boom" "trace-0"))] =
      .ok ⟨0, 200, [Worker.new 0 ⟨"cold", "hot-0", 9000⟩],
        [(3, 0, .exit ⟨some 1, "exit status: 1"⟩), (16, 0, .report (.fault "boom" "trace-0"))],
        (Metrics.Registry.new.apply (.bump .workersSpawned 1)).apply (.shiftActive 1)⟩ := by
    show launch.go none _ ⟨0, 200, [], inOrder _, _⟩ = _
    rw [show inOrder [(3, 0, Happening.exit ⟨some 1, "exit status: 1"⟩),
        (16, 0, .report (.fault "boom" "trace-0"))] =
        [(3, 0, .exit ⟨some 1, "exit status: 1"⟩), (16, 0, .report (.fault "boom" "trace-0"))] from
      List.mergeSort_of_pairwise (by decide)]
    rfl
  exact ⟨_, _, _, hLaunch, rfl, rfl, rfl⟩

end Supervision

end NeuronFleet
