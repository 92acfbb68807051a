import NeuronFleet.Proofs.Supervision.FaultSlot
import NeuronFleet.Supervision.Pool

/-
  What the timeline of a pool delivers to its workers.

  A pool's timeline is sorted by time, and advancing to a time applies
  a prefix of it, in order.  The reports aimed at a worker form its
  stream, which ends where a happening closes it.  A worker's slot
  follows its stream: it has read a prefix of the reports delivered so
  far and the rest wait in its channel, its main sender is held until
  the stream closes, and no courier is out.  No happening changes what
  the supervisor sees of a worker: who it is, the end it has seen,
  whether it is reaped, its fault and whether it started.

  Main declarations:
    * `reportsTo`, `closesStream`, `Worker.Follows`, `Pool.Sound`
    * `Pool.worker_advance`, `Pool.Sound.advance`, `Pool.Sound.change`
-/

namespace NeuronFleet

namespace Supervision

------------------------------------------------------------
-- Streams of Reports
------------------------------------------------------------

def Happening.isClose : Happening → Bool
  | .close => true
  | _ => false

/-
  The reports that happenings send worker `i`, in order, until one
  closes its stream.
-/
def reportsTo
    (i : Nat) :
    List (Nat × Nat × Happening) → List Report
  | [] => []
  | (_, j, h) :: rest =>
      if j = i then
        match h with
        | .report r => r :: reportsTo i rest
        | .exit _ => reportsTo i rest
        | .close => []
        | .waitFails _ => reportsTo i rest
      else reportsTo i rest

/- Whether one of the happenings closes worker `i`'s stream. -/
def closesStream
    (i : Nat)
    (events : List (Nat × Nat × Happening)) :
    Bool :=
  events.any fun e => e.2.1 == i && e.2.2.isClose

@[simp] theorem closesStream_append
    (i : Nat)
    (l₁ l₂ : List (Nat × Nat × Happening)) :
    closesStream i (l₁ ++ l₂) = (closesStream i l₁ || closesStream i l₂) :=
  List.any_append

@[simp] theorem closesStream_nil
    (i : Nat) :
    closesStream i [] = false :=
  rfl

theorem closesStream_cons
    (i : Nat)
    (e : Nat × Nat × Happening)
    (l : List (Nat × Nat × Happening)) :
    closesStream i (e :: l) = (e.2.1 == i && e.2.2.isClose || closesStream i l) :=
  rfl

/- Later happenings extend a stream only while it is open. -/
theorem reportsTo_append
    (i : Nat)
    (l₁ l₂ : List (Nat × Nat × Happening)) :
    reportsTo i (l₁ ++ l₂) =
      reportsTo i l₁ ++ if closesStream i l₁ then [] else reportsTo i l₂ := by
  induction l₁ with
  | nil => simp [closesStream, reportsTo]
  | cons e l₁ ih =>
      obtain ⟨t, j, h⟩ := e
      rw [closesStream_cons]
      by_cases hj : j = i
      · subst hj
        cases h <;> simp [reportsTo, ih, Happening.isClose]
      · have hj' : (j == i) = false := by simpa using hj
        simp [reportsTo, hj, hj', ih]

theorem reportsTo_prefix
    (i : Nat)
    (l₁ l₂ : List (Nat × Nat × Happening)) :
    reportsTo i l₁ <+: reportsTo i (l₁ ++ l₂) := by
  rw [reportsTo_append]
  exact List.prefix_append _ _

------------------------------------------------------------
-- What the Supervisor Sees of a Worker
------------------------------------------------------------

namespace Worker

/- Who a worker is, the end the supervisor has seen, and whether it is reaped. -/
def standing (w : Worker) : Nat × Identity × Option ExitInfo × Bool :=
  (w.index, w.identity, w.exit, w.reaped)

/- A worker's standing, its fault and whether it started. -/
def seen (w : Worker) : (Nat × Identity × Option ExitInfo × Bool) × Option (String × String) × Bool :=
  (w.standing, w.slot.fault, w.slot.started)

@[simp] theorem happen_seen
    (w : Worker)
    (h : Happening) :
    (w.happen h).seen = w.seen := by
  cases h <;> simp [happen, seen, standing, Slot.close]

@[simp] theorem slot_happen_report
    (w : Worker)
    (r : Report) :
    (w.happen (.report r)).slot = w.slot.send r := rfl

@[simp] theorem slot_happen_exit
    (w : Worker)
    (info : ExitInfo) :
    (w.happen (.exit info)).slot = w.slot := rfl

@[simp] theorem slot_happen_close (w : Worker) :
    (w.happen .close).slot = w.slot.close := rfl

@[simp] theorem slot_happen_waitFails
    (w : Worker)
    (cause : String) :
    (w.happen (.waitFails cause)).slot = w.slot := rfl

/- A happening puts at most one report in the channel. -/
theorem happen_queue_length
    (w : Worker)
    (h : Happening) :
    (w.happen h).slot.queue.length ≤ w.slot.queue.length + 1 := by
  cases h with
  | report r =>
      show (w.slot.send r).queue.length ≤ _
      unfold Slot.send
      split <;> simp
  | exit info => exact Nat.le_succ _
  | close => exact Nat.le_succ _
  | waitFails cause => exact Nat.le_succ _

/- The happenings aimed at worker `i`, applied in order. -/
def receive
    (w : Worker)
    (i : Nat)
    (events : List (Nat × Nat × Happening)) :
    Worker :=
  events.foldl (fun w e => if e.2.1 = i then w.happen e.2.2 else w) w

@[simp] theorem receive_seen
    (w : Worker)
    (i : Nat)
    (events : List (Nat × Nat × Happening)) :
    (w.receive i events).seen = w.seen := by
  induction events generalizing w with
  | nil => rfl
  | cons e events ih =>
      simp only [receive, List.foldl_cons] at ih ⊢
      rw [ih]
      split <;> simp

@[simp] theorem receive_standing
    (w : Worker)
    (i : Nat)
    (events : List (Nat × Nat × Happening)) :
    (w.receive i events).standing = w.standing :=
  congrArg (·.1) (receive_seen w i events)

@[simp] theorem receive_fault
    (w : Worker)
    (i : Nat)
    (events : List (Nat × Nat × Happening)) :
    (w.receive i events).slot.fault = w.slot.fault :=
  congrArg (·.2.1) (receive_seen w i events)

theorem receive_queue_length
    (w : Worker)
    (i : Nat)
    (events : List (Nat × Nat × Happening)) :
    (w.receive i events).slot.queue.length ≤ w.slot.queue.length + events.length := by
  induction events generalizing w with
  | nil => simp [receive]
  | cons e events ih =>
      simp only [receive, List.foldl_cons, List.length_cons] at ih ⊢
      have hStep : (if e.2.1 = i then w.happen e.2.2 else w).slot.queue.length ≤
          w.slot.queue.length + 1 := by
        split
        · exact happen_queue_length w e.2.2
        · exact Nat.le_succ _
      have := ih (if e.2.1 = i then w.happen e.2.2 else w)
      omega

------------------------------------------------------------
-- Workers Following Their Streams
------------------------------------------------------------

/-
  The slot of a worker follows the stream of worker `i` after the
  happenings `d`.
-/
structure Follows
    (w : Worker)
    (i : Nat)
    (d : List (Nat × Nat × Happening)) : Prop where
  tracks : w.slot.Tracks (reportsTo i d)
  mainHeld_eq : w.slot.mainHeld = !closesStream i d
  couriers_nil : w.slot.couriers = []

namespace Follows

variable {w : Worker} {i : Nat} {d : List (Nat × Nat × Happening)}

theorem of_slot_eq
    {w' : Worker}
    (h : w.Follows i d)
    (hSlot : w'.slot = w.slot) :
    w'.Follows i d :=
  ⟨hSlot ▸ h.tracks, hSlot ▸ h.mainHeld_eq, hSlot ▸ h.couriers_nil⟩

/- One happening, aimed at the worker or not, keeps it following its stream. -/
theorem happen
    (h : w.Follows i d)
    (e : Nat × Nat × Happening) :
    (if e.2.1 = i then w.happen e.2.2 else w).Follows i (d ++ [e]) := by
  obtain ⟨t, j, hap⟩ := e
  by_cases hj : j = i
  · subst hj
    rw [if_pos rfl]
    cases hap with
    | report r =>
        cases hClosed : closesStream j d with
        | false =>
            have hHeld : w.slot.mainHeld = true := by simpa [hClosed] using h.mainHeld_eq
            refine ⟨?_, ?_, ?_⟩
            · simpa [reportsTo_append, hClosed, reportsTo] using h.tracks.send hHeld r
            · simpa [closesStream_cons, Happening.isClose, hClosed] using h.mainHeld_eq
            · simpa using h.couriers_nil
        | true =>
            have hHeld : w.slot.mainHeld = false := by simpa [hClosed] using h.mainHeld_eq
            refine ⟨?_, ?_, ?_⟩
            · simpa [reportsTo_append, hClosed, Slot.send_of_not_held hHeld] using h.tracks
            · simp [hHeld, hClosed]
            · simpa using h.couriers_nil
    | exit _ | waitFails _ =>
        -- neither sends a report nor closes the stream
        refine ⟨?_, ?_, by simpa using h.couriers_nil⟩
        · simpa [reportsTo_append, reportsTo] using h.tracks
        · simpa [closesStream_cons, Happening.isClose] using h.mainHeld_eq
    | close =>
        refine ⟨?_, ?_, by simpa [Slot.close] using h.couriers_nil⟩
        · simpa [reportsTo_append, reportsTo] using h.tracks.close
        · simp [Slot.close, closesStream_cons, Happening.isClose]
  · rw [if_neg hj]
    have hj' : (j == i) = false := by simpa using hj
    refine ⟨?_, ?_, h.couriers_nil⟩
    · simpa [hj, reportsTo_append, reportsTo] using h.tracks
    · simpa [hj', closesStream_cons] using h.mainHeld_eq

theorem receive
    (h : w.Follows i d)
    (events : List (Nat × Nat × Happening)) :
    (w.receive i events).Follows i (d ++ events) := by
  induction events generalizing w d with
  | nil => simpa [Worker.receive] using h
  | cons e events ih =>
      have := ih (h.happen e)
      simpa [Worker.receive] using this

/- Reading without waiting keeps a slot following its stream. -/
theorem query
    (h : w.Follows i d) :
    { w with slot := w.slot.query }.Follows i d := by
  obtain ⟨hMain, hCouriers, -⟩ := Slot.query_frame w.slot
  exact ⟨h.tracks.query.1, hMain.trans h.mainHeld_eq, hCouriers.trans h.couriers_nil⟩

/- Reading the next report before any fault keeps a slot following its stream. -/
theorem record
    {r : Report}
    {rest : List Report}
    (h : w.Follows i d)
    (hNone : w.slot.fault = none)
    (hQueue : w.slot.queue = r :: rest) :
    { w with slot := Slot.record { w.slot with queue := rest } r }.Follows i d := by
  refine ⟨h.tracks.record hNone hQueue, ?_, ?_⟩
  · simpa [Slot.record_eq] using h.mainHeld_eq
  · simpa [Slot.record_eq] using h.couriers_nil

/- An empty channel with no sender left closes. -/
theorem closing
    (h : w.Follows i d)
    (hQueue : w.slot.queue = [])
    (hSenders : w.slot.sendersLeft = false) :
    { w with slot := { w.slot with closed := true } }.Follows i d := by
  have hMain : w.slot.mainHeld = false := by
    simp only [Slot.sendersLeft, Bool.or_eq_false_iff] at hSenders
    exact hSenders.1
  exact ⟨h.tracks.closing hQueue hMain, h.mainHeld_eq, h.couriers_nil⟩

end Follows

end Worker

------------------------------------------------------------
-- Pools
------------------------------------------------------------

namespace Pool

@[simp] theorem worker_change
    (p : Pool)
    (i : Nat)
    (f : Worker → Worker)
    (j : Nat) :
    (p.change i f).worker j = if j = i then (p.worker j).map f else p.worker j := by
  by_cases hj : j = i <;> simp [worker, change, hj]

theorem worker_change_self
    {p : Pool}
    {i : Nat}
    {w : Worker}
    (hi : p.worker i = some w)
    (f : Worker → Worker) :
    (p.change i f).worker i = some (f w) := by
  simp [hi]

@[simp] theorem length_change
    (p : Pool)
    (i : Nat)
    (f : Worker → Worker) :
    (p.change i f).workers.length = p.workers.length := by
  simp [change]

@[simp] theorem change_timeline
    (p : Pool)
    (i : Nat)
    (f : Worker → Worker) :
    (p.change i f).timeline = p.timeline := rfl

@[simp] theorem change_limit
    (p : Pool)
    (i : Nat)
    (f : Worker → Worker) :
    (p.change i f).limit = p.limit := rfl

@[simp] theorem change_now
    (p : Pool)
    (i : Nat)
    (f : Worker → Worker) :
    (p.change i f).now = p.now := rfl

@[simp] theorem note_workers
    (p : Pool)
    (u : Metrics.Update) :
    (p.note u).workers = p.workers := rfl

@[simp] theorem note_worker
    (p : Pool)
    (u : Metrics.Update)
    (j : Nat) :
    (p.note u).worker j = p.worker j := rfl

@[simp] theorem note_timeline
    (p : Pool)
    (u : Metrics.Update) :
    (p.note u).timeline = p.timeline := rfl

@[simp] theorem note_limit
    (p : Pool)
    (u : Metrics.Update) :
    (p.note u).limit = p.limit := rfl

@[simp] theorem note_now
    (p : Pool)
    (u : Metrics.Update) :
    (p.note u).now = p.now := rfl

/- Applying happenings in order applies, to each worker, those aimed at it. -/
theorem worker_foldl_change
    (events : List (Nat × Nat × Happening))
    (p : Pool)
    (j : Nat) :
    (events.foldl (fun q e => q.change e.2.1 (·.happen e.2.2)) p).worker j =
      (p.worker j).map (·.receive j events) := by
  induction events generalizing p with
  | nil =>
      rw [List.foldl_nil]
      cases p.worker j <;> rfl
  | cons e events ih =>
      rw [List.foldl_cons, ih, worker_change]
      by_cases hj : j = e.2.1
      · cases p.worker j <;> simp [Worker.receive, hj]
      · have hj' : ¬e.2.1 = j := fun h => hj h.symm
        cases p.worker j <;> simp [Worker.receive, hj, hj']

theorem length_foldl_change
    (events : List (Nat × Nat × Happening))
    (p : Pool) :
    (events.foldl (fun q e => q.change e.2.1 (·.happen e.2.2)) p).workers.length =
      p.workers.length := by
  induction events generalizing p with
  | nil => rfl
  | cons e events ih => rw [List.foldl_cons, ih, length_change]

theorem worker_advance
    (p : Pool)
    (t j : Nat) :
    (p.advance t).worker j =
      (p.worker j).map (·.receive j (p.timeline.filter (·.1 ≤ t))) :=
  worker_foldl_change _ p j

@[simp] theorem advance_timeline
    (p : Pool)
    (t : Nat) :
    (p.advance t).timeline = p.timeline.filter (·.1 > t) := rfl

theorem limit_foldl_change
    (events : List (Nat × Nat × Happening))
    (p : Pool) :
    (events.foldl (fun q e => q.change e.2.1 (·.happen e.2.2)) p).limit = p.limit := by
  induction events generalizing p with
  | nil => rfl
  | cons e events ih => rw [List.foldl_cons, ih, change_limit]

@[simp] theorem advance_limit
    (p : Pool)
    (t : Nat) :
    (p.advance t).limit = p.limit :=
  limit_foldl_change _ p

@[simp] theorem advance_now
    (p : Pool)
    (t : Nat) :
    (p.advance t).now = max p.now t := rfl

@[simp] theorem length_advance
    (p : Pool)
    (t : Nat) :
    (p.advance t).workers.length = p.workers.length :=
  length_foldl_change _ p

------------------------------------------------------------
-- Sorted Timelines
------------------------------------------------------------

section Sorted

variable {l : List (Nat × Nat × Happening)}

/- A sorted timeline is what is due by `t`, then what comes after. -/
theorem filter_le_append_filter_gt
    (hSorted : l.Pairwise (fun a b => a.1 ≤ b.1))
    (t : Nat) :
    l.filter (·.1 ≤ t) ++ l.filter (·.1 > t) = l := by
  induction l with
  | nil => rfl
  | cons e l ih =>
      obtain ⟨hHead, hSorted⟩ := List.pairwise_cons.mp hSorted
      by_cases he : e.1 ≤ t
      · simp [he, ih hSorted]
      · -- everything after a late head is late too
        have hLate : ∀ x ∈ l, ¬x.1 ≤ t := fun x hx => by
          have := hHead x hx
          omega
        have hNone : l.filter (·.1 ≤ t) = [] := by simpa using hLate
        have hAll : l.filter (·.1 > t) = l := by
          rw [List.filter_eq_self]
          intro x hx
          simpa using hLate x hx
        rw [List.filter_cons_of_neg (by simpa using he),
          List.filter_cons_of_pos (by simpa using he), hNone, hAll]
        rfl

/- Advancing to a time takes off the timeline what it applies. -/
theorem length_filter_le_add
    (hSorted : l.Pairwise (fun a b => a.1 ≤ b.1))
    (t : Nat) :
    (l.filter (·.1 ≤ t)).length + (l.filter (·.1 > t)).length = l.length := by
  rw [← List.length_append, filter_le_append_filter_gt hSorted t]

/- The head of a timeline is due at its own time. -/
theorem length_filter_le_pos
    {t : Nat}
    (hHead : l.head?.map (·.1) = some t) :
    0 < (l.filter (·.1 ≤ t)).length := by
  cases l with
  | nil => cases hHead
  | cons e l =>
      have he : e.1 = t := by simpa using hHead
      rw [List.filter_cons_of_pos (by simp [he])]
      exact Nat.succ_pos _

/- Nothing is due before the head of a sorted timeline. -/
theorem filter_le_eq_nil
    {t deadline : Nat}
    (hSorted : l.Pairwise (fun a b => a.1 ≤ b.1))
    (hHead : l.head?.map (·.1) = some t)
    (hLate : deadline < t) :
    l.filter (·.1 ≤ deadline) = [] := by
  cases l with
  | nil => rfl
  | cons e l =>
      have he : e.1 = t := by simpa using hHead
      obtain ⟨hAfter, -⟩ := List.pairwise_cons.mp hSorted
      rw [List.filter_eq_nil_iff]
      intro x hx
      rcases List.mem_cons.mp hx with rfl | hx
      · simp
        omega
      · have := hAfter x hx
        simp
        omega

end Sorted

------------------------------------------------------------
-- Sound Pools
------------------------------------------------------------

/-
  A pool after the happenings `d`: its timeline is sorted, and each
  worker knows its place and follows its stream.
-/
structure Sound
    (d : List (Nat × Nat × Happening))
    (p : Pool) : Prop where
  timeline_sorted : p.timeline.Pairwise (fun a b => a.1 ≤ b.1)
  worker_follows : ∀ j w, p.worker j = some w → w.index = j ∧ w.Follows j d

namespace Sound

variable {d : List (Nat × Nat × Happening)} {p : Pool}

/-
  Advancing time applies the prefix of the timeline due by then: the
  happenings so far, followed by the timeline, stay the same.
-/
theorem advance
    (h : Sound d p)
    (t : Nat) :
    Sound (d ++ p.timeline.filter (·.1 ≤ t)) (p.advance t) ∧
      d ++ p.timeline = (d ++ p.timeline.filter (·.1 ≤ t)) ++ (p.advance t).timeline := by
  refine ⟨⟨?_, ?_⟩, ?_⟩
  · exact h.timeline_sorted.filter _
  · intro j w hw
    rw [worker_advance] at hw
    obtain ⟨w₀, hw₀, rfl⟩ := Option.map_eq_some_iff.mp hw
    obtain ⟨hIndex, hFollows⟩ := h.worker_follows j w₀ hw₀
    refine ⟨?_, hFollows.receive _⟩
    have := congrArg (·.1.1) (Worker.receive_seen w₀ j (p.timeline.filter (·.1 ≤ t)))
    simpa [Worker.seen, Worker.standing, hIndex] using this
  · rw [List.append_assoc, advance_timeline, filter_le_append_filter_gt h.timeline_sorted]

/- Changing worker `i` keeps the pool sound when the change keeps it following. -/
theorem change
    {i : Nat}
    {w : Worker}
    {f : Worker → Worker}
    (h : Sound d p)
    (hi : p.worker i = some w)
    (hIndex : (f w).index = w.index)
    (hFollows : (f w).Follows i d) :
    Sound d (p.change i f) := by
  refine ⟨h.timeline_sorted, ?_⟩
  intro j w' hw'
  rw [worker_change] at hw'
  split at hw'
  · subst j
    rw [hi] at hw'
    cases hw'
    exact ⟨hIndex.trans (h.worker_follows i w hi).1, hFollows⟩
  · exact h.worker_follows j w' hw'

/-
  Advancing to a time by which nothing is due changes nothing but the
  clock.
-/
theorem advance_of_nothing_due
    {t : Nat}
    (h : Sound d p)
    (hNothing : p.timeline.filter (·.1 ≤ t) = []) :
    Sound d (p.advance t) ∧ d ++ p.timeline = d ++ (p.advance t).timeline ∧
      ∀ j, (p.advance t).worker j = p.worker j := by
  obtain ⟨hSound, hd⟩ := h.advance t
  rw [hNothing, List.append_nil] at hSound hd
  refine ⟨hSound, hd, fun j => ?_⟩
  rw [worker_advance, hNothing]
  cases p.worker j <;> rfl

theorem note
    (h : Sound d p)
    (u : Metrics.Update) :
    Sound d (p.note u) :=
  ⟨h.timeline_sorted, h.worker_follows⟩

end Sound

end Pool

end Supervision

end NeuronFleet
