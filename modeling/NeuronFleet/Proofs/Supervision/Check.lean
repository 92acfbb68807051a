import NeuronFleet.Proofs.Supervision.Delivery

/-
  What one check of a worker does to a pool.

  The steps of a check are read off one at a time: a run that ends
  well goes through each of its steps.  Waiting on a worker's slot
  drains it: when it ends, the slot holds a fault, or its stream is
  closed, or nothing is left in its channel.  A check then ends the run
  exactly when the worker reported a fault, its status could not be
  read, or it exited other than cleanly, with the error its fault, the
  read or its end calls for, and leaves every other worker as the
  supervisor sees it.  The last read of an unclean end comes `lag`
  after the settle: with no lag it finds no new fault, and with one a
  fault it finds is kept without deciding the error, which then comes
  from a stream with no fault before that last stretch of time.

  Main declarations:
    * `Timed.bind_eq_ok`, `Pool.Caught`, `Pool.Evolves`
    * `settle_drains`, `Worker.Fails`, `QuietBefore`, `check_spec`
-/

namespace NeuronFleet

namespace Supervision

------------------------------------------------------------
-- Steps in Virtual Time
------------------------------------------------------------

namespace Timed

variable {α β : Type} {p p' p'' : Pool}

theorem bind_eq_ok
    {x : Timed α}
    {f : α → Timed β}
    {b : β} :
    (x >>= f) p = .ok (b, p'') ↔ ∃ a p', x p = .ok (a, p') ∧ f a p' = .ok (b, p'') := by
  cases hx : x p with
  | error e => simp [bind, StateT.bind, Except.bind, hx]
  | ok v =>
      obtain ⟨a, q⟩ := v
      simp [bind, StateT.bind, Except.bind, hx]

theorem get_bind
    (f : Pool → Timed β)
    (p : Pool) :
    ((get : Timed Pool) >>= f) p = f p p :=
  rfl

theorem pure_eq_ok
    {a b : α}
    (h : (pure a : Timed α) p = .ok (b, p')) :
    b = a ∧ p' = p := by
  cases h
  exact ⟨rfl, rfl⟩

end Timed

variable {i : Nat} {p p' : Pool}

theorem modify_eq_ok
    {f : Pool → Pool}
    {u : Unit}
    (h : (modify f : Timed Unit) p = .ok (u, p')) :
    p' = f p := by
  cases h
  rfl

theorem changeWorker_eq_ok
    {f : Worker → Worker}
    {u : Unit}
    (h : changeWorker i f p = .ok (u, p')) :
    p' = p.change i f := by
  cases h
  rfl

theorem waitUntil_eq_ok
    {t : Nat}
    {u : Unit}
    (h : waitUntil t p = .ok (u, p')) :
    t ≤ p.limit ∧ p' = p.advance t := by
  unfold waitUntil at h
  rw [Timed.get_bind] at h
  split at h
  · cases h
  · cases h
    exact ⟨by omega, rfl⟩

theorem queryWorker_eq_ok
    {w? : Option Worker}
    (h : queryWorker i p = .ok (w?, p')) :
    p' = p.change i (fun w => { w with slot := w.slot.query }) ∧ w? = p'.worker i := by
  cases h
  exact ⟨rfl, rfl⟩

------------------------------------------------------------
-- Pools Caught Up With Their Time
------------------------------------------------------------

/- Everything due by the pool's time has happened: the timeline holds only later happenings. -/
def Pool.Caught (p : Pool) : Prop :=
  ∀ x ∈ p.timeline, p.now < x.1

namespace Pool.Caught

/- Time moved to `t` leaves on the timeline only what is due after `t`, and after the old time. -/
theorem advance_of
    {t : Nat}
    (h : p.Caught ∨ p.now ≤ t) :
    (p.advance t).Caught := by
  intro x hx
  rw [Pool.advance_timeline, List.mem_filter] at hx
  have hLate : t < x.1 := by simpa using hx.2
  rw [Pool.advance_now]
  rcases h with h | h
  · have := h x hx.1
    omega
  · omega

theorem change
    (h : p.Caught)
    (f : Worker → Worker) :
    (p.change i f).Caught := by
  simpa [Pool.Caught] using h

theorem note
    (h : p.Caught)
    (u : Metrics.Update) :
    (p.note u).Caught :=
  h

/- What falls due within `lag` of the pool's time comes in those last `lag` milliseconds. -/
theorem late_within
    (h : p.Caught)
    (lag : Nat) :
    ∀ x ∈ p.timeline.filter (·.1 ≤ p.now + lag), p.now + lag < x.1 + lag := by
  intro x hx
  have := h x (List.mem_filter.mp hx).1
  omega

/- Nothing falls due at the pool's time itself. -/
theorem late_nil (h : p.Caught) : p.timeline.filter (·.1 ≤ p.now + 0) = [] := by
  rw [List.filter_eq_nil_iff]
  intro x hx
  have := h x hx
  simp only [decide_eq_true_eq]
  omega

end Pool.Caught

------------------------------------------------------------
-- Pools That Evolve Around One Worker
------------------------------------------------------------

/-
  The pool `p'` came from `p` by steps that touch worker `i` only, as
  the supervisor sees the workers: the limit and the workers stay,
  every other worker is seen as before, and a pool caught up with its
  time stays so.
-/
structure Pool.Around
    (i : Nat)
    (p p' : Pool) : Prop where
  limit_eq : p'.limit = p.limit
  length_eq : p'.workers.length = p.workers.length
  seen_eq : ∀ j, j ≠ i → (p'.worker j).map Worker.seen = (p.worker j).map Worker.seen
  caught : p.Caught → p'.Caught

/-
  The pool `p'` came from `p` by time passing and by worker `i`'s slot
  reading: worker `i` keeps its standing too.
-/
structure Pool.Evolves
    (i : Nat)
    (p p' : Pool) : Prop extends Pool.Around i p p' where
  standing_eq : (p'.worker i).map Worker.standing = (p.worker i).map Worker.standing

namespace Pool.Around

theorem refl
    (i : Nat)
    (p : Pool) :
    Pool.Around i p p :=
  ⟨rfl, rfl, fun _ _ => rfl, id⟩

theorem trans
    {p'' : Pool}
    (h₁ : Pool.Around i p p')
    (h₂ : Pool.Around i p' p'') :
    Pool.Around i p p'' :=
  ⟨h₂.limit_eq.trans h₁.limit_eq, h₂.length_eq.trans h₁.length_eq,
    fun j hj => (h₂.seen_eq j hj).trans (h₁.seen_eq j hj), h₂.caught ∘ h₁.caught⟩

theorem change
    (f : Worker → Worker) :
    Pool.Around i p (p.change i f) := by
  refine ⟨rfl, Pool.length_change p i f, fun j hj => ?_, fun h => h.change f⟩
  rw [Pool.worker_change, if_neg hj]

theorem note
    (u : Metrics.Update) :
    Pool.Around i p (p.note u) :=
  ⟨rfl, rfl, fun _ _ => rfl, fun h => h.note u⟩

end Pool.Around

namespace Pool.Evolves

theorem trans
    {p'' : Pool}
    (h₁ : Pool.Evolves i p p')
    (h₂ : Pool.Evolves i p' p'') :
    Pool.Evolves i p p'' :=
  ⟨h₁.toAround.trans h₂.toAround, h₂.standing_eq.trans h₁.standing_eq⟩

theorem advance
    (i : Nat)
    (p : Pool)
    (t : Nat) :
    Pool.Evolves i p (p.advance t) := by
  have hSeen : ∀ j, ((p.advance t).worker j).map Worker.seen = (p.worker j).map Worker.seen := by
    intro j
    rw [Pool.worker_advance]
    cases p.worker j <;> simp
  refine ⟨⟨Pool.advance_limit p t, Pool.length_advance p t, fun j _ => hSeen j,
    fun h => Pool.Caught.advance_of (.inl h)⟩, ?_⟩
  rw [Pool.worker_advance]
  cases p.worker i <;> simp

theorem change
    {f : Worker → Worker}
    (hf : ∀ w, (f w).standing = w.standing) :
    Pool.Evolves i p (p.change i f) := by
  refine ⟨Pool.Around.change f, ?_⟩
  rw [Pool.worker_change, if_pos rfl]
  cases p.worker i <;> simp [hf]

theorem standing_of
    {w w' : Worker}
    (h : Pool.Evolves i p p')
    (hi : p.worker i = some w)
    (hi' : p'.worker i = some w') :
    w'.standing = w.standing := by
  have := h.standing_eq
  rw [hi, hi'] at this
  exact Option.some.inj this

end Pool.Evolves

------------------------------------------------------------
-- Waiting on a Worker's Reports
------------------------------------------------------------

/-
  Waiting on worker `i` leaves its slot drained, when the fuel covers
  its channel and twice the timeline: each report read uses one unit,
  and each jump in time uses one and delivers fewer reports than the
  happenings it takes off the timeline.
-/
theorem settle_drains
    {deadline n : Nat}
    {d : List (Nat × Nat × Happening)}
    {w : Worker}
    (hSound : p.Sound d)
    (hi : p.worker i = some w)
    (hNone : w.slot.fault = none)
    (hFuel : w.slot.queue.length + 2 * p.timeline.length < n)
    (hGo : settle.go i deadline n p = .ok ((), p')) :
    ∃ d', d ++ p.timeline = d' ++ p'.timeline ∧ p'.Sound d' ∧ Pool.Evolves i p p' ∧
      ∃ w', p'.worker i = some w' ∧
        (w'.slot.fault.isSome ∨ w'.slot.closed ∨ w'.slot.queue = []) := by
  induction n generalizing p w d with
  | zero => omega
  | succ n ih =>
      rw [settle.go, Timed.get_bind, hi] at hGo
      dsimp only at hGo
      obtain ⟨hIndex, hFollows⟩ := hSound.worker_follows i w hi
      cases hQueue : w.slot.queue with
      | cons r rest =>
          -- read the next report
          rw [hQueue] at hGo
          dsimp only at hGo
          obtain ⟨u, p₁, hChange, hGo⟩ := Timed.bind_eq_ok.mp hGo
          have hp₁ := changeWorker_eq_ok hChange
          subst hp₁
          have hSound₁ := hSound.change
            (f := fun w' => { w' with slot := Slot.record { w.slot with queue := rest } r }) hi rfl
            (hFollows.record hNone hQueue)
          have hEvolves₁ : Pool.Evolves i p
              (p.change i fun w' => { w' with slot := Slot.record { w.slot with queue := rest } r }) :=
            Pool.Evolves.change fun _ => rfl
          have hi₁ := Pool.worker_change_self hi
            fun w' => { w' with slot := Slot.record { w.slot with queue := rest } r }
          split at hGo
          · -- a fault read: the wait ends
            rename_i hFault
            obtain ⟨-, rfl⟩ := Timed.pure_eq_ok hGo
            exact ⟨d, rfl, hSound₁, hEvolves₁, _, hi₁, .inl hFault⟩
          · rename_i hFault
            have hNone₁ : (Slot.record { w.slot with queue := rest } r).fault = none := by
              simpa using hFault
            have hFuel₁ : (Slot.record { w.slot with queue := rest } r).queue.length +
                2 * p.timeline.length < n := by
              simp only [Slot.record_queue]
              rw [hQueue] at hFuel
              simp at hFuel
              omega
            obtain ⟨d', hd', hSound', hEvolves', hDrained⟩ := ih hSound₁ hi₁ hNone₁ hFuel₁ hGo
            exact ⟨d', hd', hSound', hEvolves₁.trans hEvolves', hDrained⟩
      | nil =>
          rw [hQueue] at hGo
          dsimp only at hGo
          split at hGo
          · -- no sender left: the channel closes
            rename_i hSenders
            have hp' := changeWorker_eq_ok hGo
            subst hp'
            exact ⟨d, rfl, hSound.change (f := fun w' => { w' with slot := { w'.slot with closed := true } })
                hi rfl (hFollows.closing hQueue (by simpa using hSenders)),
              Pool.Evolves.change fun _ => rfl, _, Pool.worker_change_self hi _, .inr (.inl rfl)⟩
          · -- time passes: to the next happening, or to the deadline
            rename_i hSenders
            have hHead : ∀ {t}, p.nextDue = some t → p.timeline.head?.map (·.1) = some t :=
              fun h => h
            cases hDue : p.nextDue with
            | some t =>
              rw [hDue] at hGo
              dsimp only at hGo
              split at hGo
              · -- the next happening is due in time: it happens, and the wait goes on
                rename_i hLe
                obtain ⟨u, p₁, hWait, hGo⟩ := Timed.bind_eq_ok.mp hGo
                obtain ⟨-, rfl⟩ := waitUntil_eq_ok hWait
                obtain ⟨hSound₁, hd₁⟩ := hSound.advance t
                have hi₁ : (p.advance t).worker i =
                    some (w.receive i (p.timeline.filter (·.1 ≤ t))) := by
                  rw [Pool.worker_advance, hi]
                  rfl
                have hFuel₁ : (w.receive i (p.timeline.filter (·.1 ≤ t))).slot.queue.length +
                    2 * (p.advance t).timeline.length < n := by
                  have hReceived := w.receive_queue_length i (p.timeline.filter (·.1 ≤ t))
                  have hSplit := Pool.length_filter_le_add hSound.timeline_sorted t
                  have hDuePos := Pool.length_filter_le_pos (hHead hDue)
                  rw [hQueue] at hFuel hReceived
                  rw [Pool.advance_timeline]
                  simp only [List.length_nil] at hFuel hReceived
                  omega
                obtain ⟨d', hd', hSound', hEvolves', hDrained⟩ :=
                  ih hSound₁ hi₁ (by simpa using hNone) hFuel₁ hGo
                exact ⟨d', hd₁.trans hd', hSound', (Pool.Evolves.advance i p t).trans hEvolves',
                  hDrained⟩
              · -- nothing is due by the deadline
                rename_i hLate
                obtain ⟨-, rfl⟩ := waitUntil_eq_ok hGo
                obtain ⟨hSound₁, hd₁, hSame⟩ := hSound.advance_of_nothing_due (t := deadline)
                  (Pool.filter_le_eq_nil hSound.timeline_sorted (hHead hDue) (by omega))
                exact ⟨d, hd₁, hSound₁, Pool.Evolves.advance i p deadline, w, (hSame i).trans hi,
                  .inr (.inr hQueue)⟩
            | none =>
              -- nothing is left to happen
              rw [hDue] at hGo
              dsimp only at hGo
              obtain ⟨-, rfl⟩ := waitUntil_eq_ok hGo
              have hEmpty : p.timeline = [] := by simpa [Pool.nextDue] using hDue
              obtain ⟨hSound₁, hd₁, hSame⟩ := hSound.advance_of_nothing_due (t := deadline)
                (by rw [hEmpty, List.filter_nil])
              exact ⟨d, hd₁, hSound₁, Pool.Evolves.advance i p deadline, w, (hSame i).trans hi,
                .inr (.inr hQueue)⟩

/- Waiting on worker `i`, with no fault held, leaves its slot drained. -/
theorem settle_spec
    {bound : Nat}
    {d : List (Nat × Nat × Happening)}
    {w : Worker}
    (hSound : p.Sound d)
    (hi : p.worker i = some w)
    (hNone : w.slot.fault = none)
    (hSettle : settle i bound p = .ok ((), p')) :
    ∃ d', d ++ p.timeline = d' ++ p'.timeline ∧ p'.Sound d' ∧ Pool.Evolves i p p' ∧
      ∃ w', p'.worker i = some w' ∧
        (w'.slot.fault.isSome ∨ w'.slot.closed ∨ w'.slot.queue = []) := by
  unfold settle at hSettle
  rw [Timed.get_bind, hi] at hSettle
  dsimp only at hSettle
  split at hSettle
  · -- the channel is closed already
    rename_i hHeld
    obtain ⟨-, rfl⟩ := Timed.pure_eq_ok hSettle
    have hClosed : w.slot.closed = true := by simpa [hNone] using hHeld
    exact ⟨d, rfl, hSound, ⟨Pool.Around.refl i _, rfl⟩, w, hi, .inr (.inl hClosed)⟩
  · exact settle_drains hSound hi hNone (by omega) hSettle

------------------------------------------------------------
-- Checking a Worker
------------------------------------------------------------

namespace Worker

/-
  A worker the supervisor has no complaint about: it reported no fault,
  and it is reaped exactly when it was seen to exit, cleanly.
-/
def Healthy (w : Worker) : Prop :=
  w.slot.fault = none ∧ w.reaped = w.exit.isSome ∧ ∀ info, w.exit = some info → info.success = true

/-
  The error `e` that a check of `w` ends the run with: the trace of its
  fault; the I/O error of reading its status, before any end was seen
  and with nothing left to read; or what its unclean end calls for, by
  whether it started.  Whether it started is read once more, `lag` after
  the settle, up to the first fault or to the end of the channel: with
  no lag that read finds nothing new, and with one it may read a fault,
  which the slot then holds without deciding the error.
-/
def Fails
    (w : Worker)
    (lag : Nat)
    (e : Error) :
    Prop :=
  (∃ err trace, w.slot.fault = some (err, trace) ∧ e = .childProcess w.name trace) ∨
    (∃ cause, w.exit = none ∧ w.waitError = some cause ∧ w.slot.fault = none ∧
      w.slot.queue = [] ∧ e = .io cause) ∨
    (∃ info, w.exit = some info ∧ info.success = false ∧
      (w.slot.fault = none → w.slot.queue = []) ∧ (lag = 0 → w.slot.fault = none) ∧
      e = if w.slot.started then
            .childProcess w.name
              ("worker process terminated with " ++ info.description ++ " without reporting a fault")
          else .workerStartup (w.name ++ ": not started and not exited (" ++ info.description ++ ")"))

/- What a check that ends with `res` says of the worker. -/
def Checked
    (w : Worker)
    (lag : Nat) :
    Option Error → Prop
  | none => w.Healthy
  | some e => w.reaped = false ∧ w.Fails lag e

theorem Healthy.of_seen
    {w w' : Worker}
    (h : w.Healthy)
    (hSeen : w'.seen = w.seen) :
    w'.Healthy := by
  simp only [seen, standing, Prod.mk.injEq] at hSeen
  obtain ⟨⟨-, -, hExit, hReaped⟩, hFault, -⟩ := hSeen
  obtain ⟨hNone, hReapedEq, hClean⟩ := h
  exact ⟨hFault.trans hNone, by rw [hReaped, hReapedEq, hExit], hExit ▸ hClean⟩

end Worker

/-
  The happenings `d` sent worker `i` no fault, save perhaps those of the
  last `lag` milliseconds up to `now`.
-/
def QuietBefore
    (i lag now : Nat)
    (d : List (Nat × Nat × Happening)) :
    Prop :=
  ∃ early late, d = early ++ late ∧ (∀ x ∈ late, now < x.1 + lag) ∧
    firstFault (reportsTo i early) = none

theorem QuietBefore.of_quiet
    {d : List (Nat × Nat × Happening)}
    (h : firstFault (reportsTo i d) = none)
    (lag now : Nat) :
    QuietBefore i lag now d :=
  ⟨d, [], by simp, by simp, h⟩

/-
  A check of a live worker that has not been seen to exit either passes
  it, leaving it healthy, or ends the run with the error the worker
  fails with; every other worker is seen as before.  When the error is
  not the trace of a fault the worker holds, the worker was sent no
  fault before the last `lag` milliseconds.
-/
theorem check_spec
    {settleMs lag : Nat}
    {d : List (Nat × Nat × Happening)}
    {w : Worker}
    {res : Option Error}
    (hSound : p.Sound d)
    (hCaught : p.Caught)
    (hi : p.worker i = some w)
    (hFresh : w.exit = none)
    (hLive : w.reaped = false)
    (hCheck : check settleMs lag i p = .ok (res, p')) :
    ∃ d', d ++ p.timeline = d' ++ p'.timeline ∧ p'.Sound d' ∧ Pool.Around i p p' ∧
      ∃ w', p'.worker i = some w' ∧ w'.index = w.index ∧ w'.identity = w.identity ∧
        w'.Checked lag res ∧
        ∀ e, res = some e →
          (∃ err trace, w'.slot.fault = some (err, trace) ∧ e = .childProcess w'.name trace) ∨
            QuietBefore i lag p'.now d' := by
  obtain ⟨hIndex, hFollows⟩ := hSound.worker_follows i w hi
  -- read the reports in the channel
  unfold check at hCheck
  obtain ⟨w?, p₁, hQuery, hCheck⟩ := Timed.bind_eq_ok.mp hCheck
  obtain ⟨rfl, rfl⟩ := queryWorker_eq_ok hQuery
  have hSound₁ : (p.change i fun w => { w with slot := w.slot.query }).Sound d :=
    hSound.change hi rfl hFollows.query
  have hi₁ : (p.change i fun w => { w with slot := w.slot.query }).worker i =
      some { w with slot := w.slot.query } :=
    Pool.worker_change_self hi _
  rw [hi₁] at hCheck
  dsimp only at hCheck
  obtain ⟨-, hFirst₁, hDrained₁⟩ := hFollows.tracks.query
  cases hFault₁ : w.slot.query.fault with
  | some f =>
      -- a fault was read already
      obtain ⟨err, trace⟩ := f
      rw [hFault₁] at hCheck
      dsimp only at hCheck
      obtain ⟨rfl, rfl⟩ := Timed.pure_eq_ok hCheck
      exact ⟨d, rfl, hSound₁, Pool.Around.change _, _, hi₁, rfl, rfl,
        ⟨hLive, .inl ⟨err, trace, hFault₁, rfl⟩⟩, fun _ he => .inl ⟨err, trace, hFault₁, by cases he; rfl⟩⟩
  | none =>
      rw [hFault₁] at hCheck
      dsimp only at hCheck
      -- everything sent was read, and held no fault
      have hQuiet₁ : firstFault (reportsTo i d) = none := hFirst₁ ▸ hFault₁
      -- no end was seen yet: the status is read, which can fail
      cases hWait : w.waitError
      case some cause =>
        have hPoll : { w with slot := w.slot.query }.pollExit = .error (.io cause) := by
          simp [Worker.pollExit, hFresh, hWait]
        rw [hPoll] at hCheck
        obtain ⟨rfl, rfl⟩ := Timed.pure_eq_ok hCheck
        exact ⟨d, rfl, hSound₁, Pool.Around.change _, _, hi₁, rfl, rfl,
          ⟨hLive, .inr (.inl ⟨cause, hFresh, hWait, hFault₁, hDrained₁ hFault₁, rfl⟩)⟩,
          fun _ _ => .inr (QuietBefore.of_quiet hQuiet₁ lag _)⟩
      have hPoll : { w with slot := w.slot.query }.pollExit = .ok w.status := by
        simp [Worker.pollExit, hFresh, hWait]
      rw [hPoll] at hCheck
      dsimp only at hCheck
      -- take note of the end the process reached, if any
      generalize hStatus : w.status = status at hCheck
      obtain ⟨u, p₂, hChange, hCheck⟩ := Timed.bind_eq_ok.mp hCheck
      have hp₂ := changeWorker_eq_ok hChange
      subst hp₂
      set w₂ : Worker := { w with slot := w.slot.query, exit := status }
      have hi₂ : ((p.change i fun w => { w with slot := w.slot.query }).change i
          fun w' => { w' with exit := status }).worker i = some w₂ :=
        Pool.worker_change_self hi₁ _
      have hSound₂ : ((p.change i fun w => { w with slot := w.slot.query }).change i
          fun w' => { w' with exit := status }).Sound d :=
        hSound₁.change hi₁ rfl (hFollows.query.of_slot_eq rfl)
      have hAround₂ := (Pool.Around.change (i := i) (p := p)
        fun w => { w with slot := w.slot.query }).trans
          (Pool.Around.change fun w' => { w' with exit := status })
      cases status with
      | none =>
          -- still running: nothing to say
          dsimp only at hCheck
          obtain ⟨rfl, rfl⟩ := Timed.pure_eq_ok hCheck
          refine ⟨d, rfl, hSound₂, hAround₂, w₂, hi₂, rfl, rfl, ⟨hFault₁, ?_, ?_⟩, fun _ he => by cases he⟩
          · simp [w₂, hLive]
          · simp [w₂]
      | some info =>
          dsimp only at hCheck
          -- exited: wait for the last reports
          obtain ⟨u, p₃, hSettle, hCheck⟩ := Timed.bind_eq_ok.mp hCheck
          obtain ⟨d₃, hd₃, hSound₃, hEvolves₃, w₃, hi₃, hDrained⟩ :=
            settle_spec hSound₂ hi₂ hFault₁ hSettle
          have hStanding₃ : w₃.standing = w₂.standing := hEvolves₃.standing_of hi₂ hi₃
          simp only [Worker.standing, Prod.mk.injEq] at hStanding₃
          obtain ⟨hIndex₃, hIdentity₃, hExit₃, hReaped₃⟩ := hStanding₃
          have hAround₃ := hAround₂.trans hEvolves₃.toAround
          rw [Timed.get_bind, hi₃] at hCheck
          dsimp only at hCheck
          cases hFault₃ : w₃.slot.fault with
          | some f =>
              -- a fault among the last reports
              obtain ⟨err, trace⟩ := f
              rw [hFault₃] at hCheck
              dsimp only at hCheck
              obtain ⟨rfl, rfl⟩ := Timed.pure_eq_ok hCheck
              exact ⟨d₃, hd₃, hSound₃, hAround₃, w₃, hi₃, hIndex₃, hIdentity₃,
                ⟨hReaped₃.trans hLive, .inl ⟨err, trace, hFault₃, rfl⟩⟩,
                fun _ he => .inl ⟨err, trace, hFault₃, by cases he; rfl⟩⟩
          | none =>
              rw [hFault₃] at hCheck
              dsimp only at hCheck
              obtain ⟨-, hFollows₃⟩ := hSound₃.worker_follows i w₃ hi₃
              split at hCheck
              · -- a clean exit: the worker is reaped
                rename_i hSuccess
                obtain ⟨u, p₄, hChange, hCheck⟩ := Timed.bind_eq_ok.mp hCheck
                obtain ⟨u', p₅, hModify, hCheck⟩ := Timed.bind_eq_ok.mp hCheck
                obtain ⟨rfl, rfl⟩ := Timed.pure_eq_ok hCheck
                have hp₅ := modify_eq_ok hModify
                subst hp₅
                have hp₄ := changeWorker_eq_ok hChange
                subst hp₄
                refine ⟨d₃, hd₃,
                  (hSound₃.change hi₃ rfl (hFollows₃.of_slot_eq rfl)).note _ |>.note _,
                  (hAround₃.trans (Pool.Around.change _)).trans
                    ((Pool.Around.note _).trans (Pool.Around.note _)),
                  _, Pool.worker_change_self hi₃ _, hIndex₃, hIdentity₃, ⟨hFault₃, ?_, ?_⟩,
                  fun _ he => by cases he⟩
                · simp [hExit₃, w₂]
                · intro info' hInfo
                  simp only [hExit₃, w₂, Option.some.injEq] at hInfo
                  exact hInfo ▸ hSuccess
              · -- an unclean exit: the supervisor reads once more, `lag` later, whether it started
                rename_i hFailure
                rw [Timed.get_bind] at hCheck
                obtain ⟨u, p₄, hWait, hCheck⟩ := Timed.bind_eq_ok.mp hCheck
                obtain ⟨-, rfl⟩ := waitUntil_eq_ok hWait
                set late := p₃.timeline.filter (·.1 ≤ p₃.now + lag) with hLate
                obtain ⟨hSound₄, hd₄⟩ := hSound₃.advance (p₃.now + lag)
                set w₄ := w₃.receive i late with hw₄
                have hi₄ : (p₃.advance (p₃.now + lag)).worker i = some w₄ := by
                  rw [Pool.worker_advance, hi₃]
                  rfl
                obtain ⟨-, hFollows₄⟩ := hSound₄.worker_follows i w₄ hi₄
                obtain ⟨w?, p₅, hQuery, hCheck⟩ := Timed.bind_eq_ok.mp hCheck
                obtain ⟨rfl, rfl⟩ := queryWorker_eq_ok hQuery
                have hi₅ : ((p₃.advance (p₃.now + lag)).change i
                    fun w => { w with slot := w.slot.query }).worker i =
                      some { w₄ with slot := w₄.slot.query } :=
                  Pool.worker_change_self hi₄ _
                rw [hi₅] at hCheck
                dsimp only at hCheck
                -- the worker stands as after the settle
                have hSeen₄ : w₄.seen = w₃.seen := Worker.receive_seen w₃ i late
                simp only [Worker.seen, Worker.standing, Prod.mk.injEq] at hSeen₄
                obtain ⟨⟨hIndex₄, hIdentity₄, hExit₄, hReaped₄⟩, -, -⟩ := hSeen₄
                have hCaught₃ : p₃.Caught := hAround₃.caught hCaught
                have hDrained₃ : w₃.slot.closed = true ∨ w₃.slot.queue = [] :=
                  hDrained.resolve_left (by simp [hFault₃])
                -- what reached the worker after the settle came in the last `lag` milliseconds,
                -- and the settle left the slot holding the first fault sent before: none
                have hQuiet : QuietBefore i lag (p₃.now + lag) (d₃ ++ late) :=
                  ⟨d₃, late, rfl, hCaught₃.late_within lag,
                    hFollows₃.tracks.firstFault_of_drained hFault₃ hDrained₃⟩
                -- with no lag, nothing more reached it
                have hNoLag : lag = 0 → w₄.slot.query.fault = none := by
                  intro hLag
                  have hSame : w₄ = w₃ := by
                    rw [hw₄, hLate, hLag, hCaught₃.late_nil]
                    rfl
                  rw [hSame]
                  exact (hFollows₃.tracks.query_of_drained hFault₃ hDrained₃).1
                have hFails : ∀ e, e = (if w₄.slot.query.started then
                      .childProcess { w₄ with slot := w₄.slot.query }.name
                        ("worker process terminated with " ++ info.description ++
                          " without reporting a fault")
                    else .workerStartup ({ w₄ with slot := w₄.slot.query }.name ++
                      ": not started and not exited (" ++ info.description ++ ")")) →
                    { w₄ with slot := w₄.slot.query }.Checked lag (some e) := by
                  intro e he
                  refine ⟨hReaped₄.trans (hReaped₃.trans hLive),
                    .inr (.inr ⟨info, ?_, ?_, hFollows₄.tracks.query.2.2, hNoLag, he⟩)⟩
                  · simp [hExit₄, hExit₃, w₂]
                  · simpa using hFailure
                have hNow : ((p₃.advance (p₃.now + lag)).change i
                    fun w => { w with slot := w.slot.query }).now = p₃.now + lag := by
                  simp
                have hd₅ : d ++ p.timeline = (d₃ ++ late) ++ ((p₃.advance (p₃.now + lag)).change i
                    fun w => { w with slot := w.slot.query }).timeline := by
                  simp only [Pool.change_timeline] at hd₃ ⊢
                  rw [hd₃, hd₄]
                have hAround₅ := (hAround₃.trans (Pool.Evolves.advance i p₃ (p₃.now + lag)).toAround).trans
                  (Pool.Around.change (i := i) (p := p₃.advance (p₃.now + lag))
                    fun w => { w with slot := w.slot.query })
                have hQuiet₅ : QuietBefore i lag ((p₃.advance (p₃.now + lag)).change i
                    fun w => { w with slot := w.slot.query }).now (d₃ ++ late) := by
                  rw [hNow]
                  exact hQuiet
                split at hCheck
                · -- not started: a startup failure
                  rename_i hStarted
                  obtain ⟨rfl, rfl⟩ := Timed.pure_eq_ok hCheck
                  refine ⟨d₃ ++ late, hd₅, hSound₄.change hi₄ rfl hFollows₄.query, hAround₅, _, hi₅,
                    hIndex₄.trans hIndex₃, hIdentity₄.trans hIdentity₃, hFails _ ?_, fun _ _ => .inr hQuiet₅⟩
                  rw [if_neg (by simpa using hStarted)]
                · -- started: a crash
                  rename_i hStarted
                  obtain ⟨rfl, rfl⟩ := Timed.pure_eq_ok hCheck
                  refine ⟨d₃ ++ late, hd₅, hSound₄.change hi₄ rfl hFollows₄.query, hAround₅, _, hi₅,
                    hIndex₄.trans hIndex₃, hIdentity₄.trans hIdentity₃, hFails _ ?_, fun _ _ => .inr hQuiet₅⟩
                  rw [if_pos (by simpa using hStarted)]
                  rfl

end Supervision

end NeuronFleet
