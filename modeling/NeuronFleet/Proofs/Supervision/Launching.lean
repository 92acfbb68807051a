import NeuronFleet.Supervision.Launcher
import NeuronFleet.Proofs.Supervision.Gauge

/-
  Launching with any launcher, and cleaning up after the first failure.

  `Starts start L s s'` says that the launcher, from state `s`, starts
  each of the numbered identities `L` in turn and is left in state `s'`:
  a chain of its own states through the calls for `L`, in order.  A
  launch first runs such a chain, so it meets the launcher's first
  failure at the identity right after it; from there on the launcher is
  not called again.  When the first failure is at index `k`, the launch
  leaves the launcher where that call left it, ends with the failure as
  a startup error, and gives a pool of the `k` workers started, each
  terminated once: killed, and counted as terminated.  When no launch
  fails, the pool holds one fresh worker per identity, in order, none of
  them killed.  The launch of the scripted launcher is the pool's own
  `launch`.

  Main declarations:
    * `Supervision.Starts`, `Supervision.Pool.spawnAll`
    * `Supervision.launchWith_append_of_starts`, `Supervision.terminateAll_spawnAll`
    * `Supervision.launch_eq_launchAll_scripted`
    * `Supervision.launchAll_stops_at_first_failure`
-/

namespace NeuronFleet

namespace Supervision

variable {σ : Type} {start : WorkerLauncher σ}

/- From state `s`, the launcher starts each of the numbered identities
`L` in turn, and is left in state `s'`. -/
inductive Starts (start : WorkerLauncher σ) : List (Identity × Nat) → σ → σ → Prop
  | nil (s : σ) : Starts start [] s s
  | cons {id : Identity} {i : Nat} {rest : List (Identity × Nat)} {s s₁ s' : σ} :
      start s i id = (s₁, .ok ()) → Starts start rest s₁ s' → Starts start ((id, i) :: rest) s s'

namespace Pool

/- The pool after the numbered identities `L` were started into it, one
after another. -/
def spawnAll
    (p : Pool)
    (L : List (Identity × Nat)) :
    Pool :=
  L.foldl (fun q x => q.spawn x.2 x.1) p

theorem workers_spawnAll
    (p : Pool)
    (L : List (Identity × Nat)) :
    (p.spawnAll L).workers = p.workers ++ L.map fun x => Worker.new x.2 x.1 := by
  induction L generalizing p with
  | nil => simp [spawnAll]
  | cons x rest ih =>
      simp only [spawnAll, List.foldl_cons] at ih ⊢
      rw [ih]
      simp [spawn]

theorem Gauged.spawnAll
    {p : Pool}
    (h : p.Gauged none)
    (L : List (Identity × Nat)) :
    (p.spawnAll L).Gauged none := by
  induction L generalizing p with
  | nil => exact h
  | cons x rest ih => exact ih (h.spawn x.2 x.1)

end Pool

------------------------------------------------------------
-- Launching, Call by Call
------------------------------------------------------------

/- A chain of successful launches is run through, each worker joining the pool. -/
theorem launchWith_append_of_starts
    {done : List (Identity × Nat)}
    {s s₁ : σ}
    (h : Starts start done s s₁)
    (rest : List (Identity × Nat))
    (p : Pool) :
    launchWith start (done ++ rest) s p = launchWith start rest s₁ (p.spawnAll done) := by
  induction h generalizing p with
  | nil => rfl
  | cons hStart _ ih =>
      rw [List.cons_append, launchWith, hStart]
      exact ih _

/- A failed launch ends the launch: the launcher stays where the call left
it, and the workers started are terminated. -/
theorem launchWith_cons_of_error
    {id : Identity}
    {i : Nat}
    {s s' : σ}
    {e : Error}
    (h : start s i id = (s', .error e))
    (rest : List (Identity × Nat))
    (p : Pool) :
    launchWith start ((id, i) :: rest) s p = (s', .error (startupError i e, p.terminateAll none)) := by
  rw [launchWith, h]

------------------------------------------------------------
-- The Scripted Launcher
------------------------------------------------------------

theorem launch_go_eq_launchWith
    (failure : Option (Nat × Error))
    (L : List (Identity × Nat))
    (p : Pool) :
    launch.go failure L p = (launchWith (WorkerLauncher.scripted failure) L () p).2 := by
  induction L generalizing p with
  | nil => rfl
  | cons x rest ih =>
      obtain ⟨id, i⟩ := x
      rw [launch.go.eq_def, launchWith]
      dsimp only
      -- the script fails at most at one index, with its error as given
      rcases failure with _ | ⟨k, e⟩
      · exact ih _
      · by_cases hk : k = i
        · subst hk
          simp only [WorkerLauncher.scripted, if_true]
          cases e <;> rfl
        · simp only [WorkerLauncher.scripted, hk, if_false]
          exact ih _

/- The pool's launch is the launch of the scripted launcher. -/
theorem launch_eq_launchAll_scripted
    (identities : List Identity)
    (failure : Option (Nat × Error))
    (limit : Nat)
    (timeline : List (Nat × Nat × Happening)) :
    launch identities failure limit timeline =
      (launchAll (WorkerLauncher.scripted failure) identities () limit timeline).2 :=
  launch_go_eq_launchWith failure _ _

------------------------------------------------------------
-- Launching, Whole
------------------------------------------------------------

/- The numbered identities up to the `k`-th, that one, and the rest. -/
theorem zipIdx_eq_take_append
    {identities : List Identity}
    {k : Nat}
    (hk : k < identities.length) :
    identities.zipIdx =
      identities.zipIdx.take k ++ (identities[k], k) :: identities.zipIdx.drop (k + 1) := by
  have hLength : k < identities.zipIdx.length := by simpa using hk
  have hAt : identities.zipIdx[k] = (identities[k], k) := by simp [List.getElem_zipIdx]
  rw [← hAt, ← List.drop_eq_getElem_cons hLength, List.take_append_drop]

/- The pool a launch starts from: no worker yet, the timeline in order,
and every metric at zero. -/
def emptyPool
    (limit : Nat)
    (timeline : List (Nat × Nat × Happening)) :
    Pool :=
  ⟨0, limit, [], inOrder timeline, Metrics.Registry.new⟩

theorem emptyPool_gauged
    (limit : Nat)
    (timeline : List (Nat × Nat × Happening)) :
    (emptyPool limit timeline).Gauged none :=
  ⟨Metrics.Registry.new_balanced, rfl, rfl, by simp [emptyPool]⟩

/- Terminating the workers started, each at its own index, kills each of
them once and counts each kill. -/
theorem terminateAll_spawnAll
    {L : List (Identity × Nat)}
    (hIndices : ∀ j (x : Identity × Nat), L[j]? = some x → x.2 = j)
    (limit : Nat)
    (timeline : List (Nat × Nat × Happening)) :
    (((emptyPool limit timeline).spawnAll L).terminateAll none).workers =
        L.map (fun x => (Worker.new x.2 x.1).terminate) ∧
      (∀ w ∈ (((emptyPool limit timeline).spawnAll L).terminateAll none).workers, w.killed = true) ∧
      (((emptyPool limit timeline).spawnAll L).terminateAll none).metrics.counts .workersTerminated =
        UInt64.ofNat L.length := by
  have hWorkers : ((emptyPool limit timeline).spawnAll L).workers = L.map fun x => Worker.new x.2 x.1 :=
    Pool.workers_spawnAll _ _
  -- the workers started are fresh, placed at their indices, and none is reaped
  have hIndex : ∀ j w, ((emptyPool limit timeline).spawnAll L).worker j = some w → w.index = j := by
    intro j w hw
    rw [Pool.worker, hWorkers, List.getElem?_map] at hw
    obtain ⟨x, hx, rfl⟩ := Option.map_eq_some_iff.mp hw
    exact hIndices j x hx
  have hFresh : ∀ w ∈ ((emptyPool limit timeline).spawnAll L).workers,
      w.supervisedBy none = true → w.exit = none := by
    intro w hw _
    rw [hWorkers] at hw
    obtain ⟨x, -, rfl⟩ := List.mem_map.mp hw
    rfl
  have hAll : (((emptyPool limit timeline).spawnAll L).terminateAll none).workers =
      L.map fun x => (Worker.new x.2 x.1).terminate := by
    rw [Pool.workers_terminateAll hIndex, hWorkers, List.map_map]
    rfl
  have hKilled : ∀ w ∈ (((emptyPool limit timeline).spawnAll L).terminateAll none).workers,
      w.killed = true := by
    intro w hw
    rw [hAll] at hw
    obtain ⟨x, -, rfl⟩ := List.mem_map.mp hw
    exact (Worker.terminate_of_fresh rfl rfl).2
  have hGauged := ((Pool.Gauged.spawnAll (emptyPool_gauged limit timeline) L).terminateAll hIndex hFresh).1
  have hCount : (((emptyPool limit timeline).spawnAll L).terminateAll none).workers.countP (·.killed) =
      L.length := by
    rw [List.countP_eq_length.mpr hKilled, hAll, List.length_map]
  exact ⟨hAll, hKilled, by rw [hGauged.terminated_eq, hCount]⟩

/-
  Launching with any launcher.  When the launcher starts the first `k`
  workers and fails the next, the launch stops there: the launcher is
  left where that call left it, the error is a startup error, and the
  pool holds the `k` workers started, each terminated once, killed and
  counted.  When it starts every worker, the pool holds them all, fresh
  and in order, and none is killed.
-/
theorem launchAll_stops_at_first_failure
    (start : WorkerLauncher σ)
    (identities : List Identity)
    (limit : Nat)
    (timeline : List (Nat × Nat × Happening)) :
    (∀ {k : Nat} {s s₁ s₂ : σ} {e : Error} (hk : k < identities.length),
      Starts start (identities.zipIdx.take k) s s₁ → start s₁ k identities[k] = (s₂, .error e) →
      ∃ p, launchAll start identities s limit timeline = (s₂, .error (startupError k e, p)) ∧
        p.workers = (identities.zipIdx.take k).map (fun x => (Worker.new x.2 x.1).terminate) ∧
        (∀ w ∈ p.workers, w.killed = true) ∧
        p.metrics.counts .workersTerminated = UInt64.ofNat k) ∧
    (∀ {s s' : σ}, Starts start identities.zipIdx s s' →
      ∃ p, launchAll start identities s limit timeline = (s', .ok p) ∧
        p.workers = identities.zipIdx.map (fun x => Worker.new x.2 x.1) ∧
        ∀ w ∈ p.workers, w.killed = false) := by
  constructor
  · intro k s s₁ s₂ e hk hStarts hFails
    have hLaunch : launchAll start identities s limit timeline = (s₂, .error (startupError k e,
        ((emptyPool limit timeline).spawnAll (identities.zipIdx.take k)).terminateAll none)) := by
      conv_lhs => rw [launchAll, zipIdx_eq_take_append hk]
      rw [launchWith_append_of_starts hStarts, launchWith_cons_of_error hFails]
      rfl
    -- the identities up to the `k`-th are numbered by their places
    have hIndices : ∀ j (x : Identity × Nat), (identities.zipIdx.take k)[j]? = some x → x.2 = j := by
      intro j x hx
      rw [List.getElem?_take] at hx
      split_ifs at hx
      obtain ⟨y, -, rfl⟩ := Option.map_eq_some_iff.mp (List.getElem?_zipIdx ▸ hx)
      exact Nat.zero_add j
    obtain ⟨hAll, hKilled, hCount⟩ := terminateAll_spawnAll hIndices limit timeline
    refine ⟨_, hLaunch, hAll, hKilled, ?_⟩
    rw [hCount, List.length_take, List.length_zipIdx, Nat.min_eq_left hk.le]
  · intro s s' hStarts
    have hLaunch := launchWith_append_of_starts hStarts [] (emptyPool limit timeline)
    rw [List.append_nil] at hLaunch
    refine ⟨_, hLaunch, Pool.workers_spawnAll _ _, fun w hw => ?_⟩
    rw [Pool.workers_spawnAll, emptyPool, List.nil_append] at hw
    obtain ⟨x, -, rfl⟩ := List.mem_map.mp hw
    rfl

/- A launcher that logs each call it is given, and fails the third
worker as a missing program does. -/
def failingThirdLauncher : WorkerLauncher (List (Nat × Identity)) := fun log i id =>
  (log ++ [(i, id)], if i = 2 then .error (.io "no such executable") else .ok ())

/- Four workers, on ports 9000 to 9003. -/
def fourIdentities : List Identity :=
  [⟨"default", "hot-0", 9000⟩, ⟨"default", "hot-1", 9001⟩, ⟨"default", "hot-2", 9002⟩,
    ⟨"default", "hot-3", 9003⟩]

theorem logged_launch_stops_at_third_worker :
    ∃ p, launchAll failingThirdLauncher fourIdentities [] 100 [] =
        ([(0, ⟨"default", "hot-0", 9000⟩), (1, ⟨"default", "hot-1", 9001⟩), (2, ⟨"default", "hot-2", 9002⟩)],
          .error (.workerStartup "worker-2: I/O error: no such executable", p)) ∧
      p.workers.length = 2 ∧ ∀ w ∈ p.workers, w.killed = true := by
  obtain ⟨p, hLaunch, hWorkers, hKilled, -⟩ :=
    (launchAll_stops_at_first_failure failingThirdLauncher fourIdentities 100 []).1 (k := 2) (s := [])
      (by decide) (.cons rfl (.cons rfl (.nil _))) rfl
  refine ⟨p, ?_, by simp [hWorkers, fourIdentities], hKilled⟩
  rw [hLaunch]
  congr 1

end Supervision

end NeuronFleet
