import Mathlib
import NeuronFleet.Supervision.Slot

/-
  What a fault slot knows of the reports it has read.

  The reports that reach a slot's channel form one sequence, in the
  order they were sent: those the slot has read, then those still in
  the channel.  The slot reads in that order and stops at the first
  fault, so what it holds is a function of what it has read: the first
  fault among them, and whether a start or a completion was among them.
  Reading without waiting reads up to and including the first fault
  that reached the channel.

  Main declarations:
    * `firstFault`, `Slot.Received`
    * `Slot.Received.record`, `Slot.Received.query`
    * `Slot.query_fault`
-/

namespace NeuronFleet

------------------------------------------------------------
-- Reports Read
------------------------------------------------------------

namespace Report

/- The error and trace of a fault report. -/
def faultOf : Report → Option (String × String)
  | .fault error trace => some (error, trace)
  | _ => none

def isStarted : Report → Bool
  | .started .. => true
  | _ => false

def isCompleted : Report → Bool
  | .completed => true
  | _ => false

end Report

/- The first fault among reports, in order. -/
def firstFault
    (reports : List Report) : Option (String × String) :=
  reports.findSome? Report.faultOf

@[simp] theorem firstFault_nil :
    firstFault [] = none :=
  rfl

@[simp] theorem firstFault_append
    (l₁ l₂ : List Report) :
    firstFault (l₁ ++ l₂) = (firstFault l₁).or (firstFault l₂) :=
  List.findSome?_append

/- The reports before the first fault, in order. -/
def beforeFault
    (reports : List Report) : List Report :=
  reports.takeWhile fun r => (Report.faultOf r).isNone

theorem beforeFault_of_quiet
    {reports : List Report}
    (h : firstFault reports = none) :
    beforeFault reports = reports := by
  rw [beforeFault, List.takeWhile_eq_self_iff]
  intro r hr
  simp [List.findSome?_eq_none_iff.mp h r hr]

/- Reports with no fault, then a fault: what comes before the fault is those reports. -/
theorem beforeFault_append_fault
    {l₁ l₂ : List Report}
    {r : Report}
    (h : firstFault l₁ = none)
    (hr : (Report.faultOf r).isSome) :
    beforeFault (l₁ ++ r :: l₂) = l₁ := by
  have hQuiet : ∀ x ∈ l₁, (Report.faultOf x).isNone = true := by
    intro x hx
    simp [List.findSome?_eq_none_iff.mp h x hx]
  rw [beforeFault, List.takeWhile_append_of_pos hQuiet,
    List.takeWhile_cons_of_neg (by simpa [Option.isSome_iff_ne_none] using hr), List.append_nil]

namespace Slot

------------------------------------------------------------
-- Taking Note of a Report
------------------------------------------------------------

/-
  Taking note of a report keeps the first fault and turns on what the
  report shows; nothing else changes.
-/
theorem record_eq
    (s : Slot)
    (r : Report) :
    s.record r =
      { s with
        fault := s.fault.or r.faultOf,
        started := s.started || r.isStarted,
        completed := s.completed || r.isCompleted } := by
  cases r with
  | started => simp [record, Report.faultOf, Report.isStarted, Report.isCompleted]
  | completed => simp [record, Report.faultOf, Report.isStarted, Report.isCompleted]
  | fault error trace =>
      cases hFault : s.fault with
      | none => simp [record, Report.faultOf, Report.isStarted, Report.isCompleted, hFault]
      | some f =>
          -- the report is ignored: the slot is the same one
          simp only [record, hFault, Option.isNone_some, Bool.false_eq_true, if_false,
            Report.isStarted, Report.isCompleted, Bool.or_false]
          rw [Option.some_or, ← hFault]

------------------------------------------------------------
-- Slots and What They Read
------------------------------------------------------------

/-
  A slot that has read `read`, in order: it holds the first fault among
  them and whether a start or a completion was among them, it read
  nothing past its first fault, and a closed channel is empty with its
  main sender gone.
-/
structure Received
    (s : Slot)
    (read : List Report) : Prop where
  fault_eq : s.fault = firstFault read
  started_eq : s.started = read.any Report.isStarted
  completed_eq : s.completed = read.any Report.isCompleted
  no_fault_before_last : firstFault read.dropLast = none
  closed_drained : s.closed = true → s.queue = [] ∧ s.mainHeld = false

theorem received_new :
    Slot.new.Received [] :=
  ⟨rfl, rfl, rfl, rfl, fun hClosed => by cases hClosed⟩

namespace Received

variable {s : Slot} {read : List Report}

/- A fault held stays the first fault of anything read after it. -/
theorem firstFault_append_of_fault
    {f : String × String}
    (h : s.Received read)
    (hFault : s.fault = some f)
    (more : List Report) :
    firstFault (read ++ more) = some f := by
  rw [firstFault_append, ← h.fault_eq, hFault]
  rfl

/-
  Reading the next report of the channel, before any fault, adds it to
  what was read.
-/
theorem record
    {r : Report}
    {rest : List Report}
    (h : s.Received read)
    (hNone : s.fault = none)
    (hQueue : s.queue = r :: rest) :
    (Slot.record { s with queue := rest } r).Received (read ++ [r]) := by
  have hOpen : s.closed = false := by
    cases hClosed : s.closed
    · rfl
    · rw [(h.closed_drained hClosed).1] at hQueue
      cases hQueue
  have hNoFault : firstFault read = none := h.fault_eq ▸ hNone
  refine ⟨?_, ?_, ?_, ?_, ?_⟩
  · rw [record_eq, firstFault_append, hNoFault, hNone]
    cases r <;> rfl
  · simp [record_eq, h.started_eq]
  · simp [record_eq, h.completed_eq]
  · rw [List.dropLast_concat]
    exact hNoFault
  · intro hClosed
    rw [record_eq] at hClosed
    rw [hOpen] at hClosed
    cases hClosed

end Received

------------------------------------------------------------
-- Reading Without Waiting
------------------------------------------------------------

section Query

variable {s : Slot}

theorem read_of_held
    (hHeld : (s.fault.isSome || s.closed) = true)
    (pending : List Report) :
    query.read pending s = s := by
  cases pending <;> simp [query.read, hHeld]

theorem query_of_held
    (hHeld : (s.fault.isSome || s.closed) = true) :
    s.query = s :=
  read_of_held hHeld s.queue

theorem query_of_nil
    (hOpen : ¬(s.fault.isSome || s.closed) = true)
    (hQueue : s.queue = []) :
    s.query = if s.sendersLeft then s else { s with closed := true } := by
  rw [query, hQueue, query.read, if_neg hOpen, hQueue]

/- Reading without waiting keeps the senders, the couriers and the time. -/
theorem query_frame
    (s : Slot) :
    s.query.mainHeld = s.mainHeld ∧ s.query.couriers = s.couriers ∧
      s.query.now = s.now := by
  unfold query
  fun_induction query.read s.queue s with
  | case1 pending s hHeld => exact ⟨rfl, rfl, rfl⟩
  | case2 s hOpen r rest ih => simpa [record_eq] using ih
  | case3 s hOpen hSenders => exact ⟨rfl, rfl, rfl⟩
  | case4 s hOpen hSenders => exact ⟨rfl, rfl, rfl⟩

end Query

/-
  Reading the channel in order, up to and including the first fault in
  it: the slot then holds the first fault among everything sent so far,
  and if it holds none, it has read the whole channel.
-/
theorem Received.read
    {s : Slot}
    {read pending : List Report}
    (h : s.Received read)
    (hPending : pending = s.queue) :
    ∃ taken, taken ++ (query.read pending s).queue = s.queue ∧
      (query.read pending s).Received (read ++ taken) ∧
      (query.read pending s).fault = firstFault (read ++ s.queue) ∧
      ((query.read pending s).fault = none → (query.read pending s).queue = []) := by
  fun_induction query.read pending s generalizing read with
  | case1 pending s hHeld =>
      refine ⟨[], rfl, by simpa using h, ?_, ?_⟩
      · cases hFault : s.fault with
        | some f => exact (h.firstFault_append_of_fault hFault s.queue).symm
        | none =>
            have hClosed : s.closed = true := by simpa [hFault] using hHeld
            rw [(h.closed_drained hClosed).1, List.append_nil, ← h.fault_eq, hFault]
      · intro hNone
        have hClosed : s.closed = true := by simpa [hNone] using hHeld
        exact (h.closed_drained hClosed).1
  | case2 s hOpen r rest ih =>
      have hNone : s.fault = none := by
        simpa using (Bool.or_eq_false_iff.mp (Bool.eq_false_iff.mpr hOpen)).1
      obtain ⟨taken, hTaken, hReceived, hFault, hDrained⟩ :=
        ih (h.record hNone hPending.symm) (by rw [record_queue])
      refine ⟨r :: taken, ?_, ?_, ?_, hDrained⟩
      · rw [← hPending, List.cons_append, hTaken]
        simp [record_eq]
      · simpa using hReceived
      · rw [hFault, ← hPending]
        simp [record_eq]
  | case3 s hOpen hSenders =>
      refine ⟨[], rfl, by simpa using h, ?_, fun _ => hPending.symm⟩
      rw [← hPending, List.append_nil, h.fault_eq]
  | case4 s hOpen hSenders =>
      have hNoMain : s.mainHeld = false := by
        simp only [sendersLeft, Bool.or_eq_true, not_or] at hSenders
        simpa using hSenders.1
      refine ⟨[], rfl, ?_, ?_, fun _ => hPending.symm⟩
      · exact ⟨h.fault_eq.trans (by simp), h.started_eq.trans (by simp),
          h.completed_eq.trans (by simp), by simpa using h.no_fault_before_last,
          fun _ => ⟨hPending.symm, hNoMain⟩⟩
      · rw [← hPending, List.append_nil]
        exact h.fault_eq

/-
  Reading without waiting reads the channel in order up to and
  including the first fault in it.
-/
theorem Received.query
    {s : Slot}
    {read : List Report}
    (h : s.Received read) :
    ∃ taken, taken ++ s.query.queue = s.queue ∧
      s.query.Received (read ++ taken) ∧
      s.query.fault = firstFault (read ++ s.queue) ∧
      (s.query.fault = none → s.query.queue = []) :=
  h.read rfl

------------------------------------------------------------
-- Slots and What Was Sent to Them
------------------------------------------------------------

/-
  A slot tracks `sent`, the reports that reached its channel in order,
  when it has read a prefix of them and the rest wait in its channel.
-/
def Tracks
    (s : Slot)
    (sent : List Report) :
    Prop :=
  ∃ read, read ++ s.queue = sent ∧ s.Received read

theorem tracks_new :
    Slot.new.Tracks [] :=
  ⟨[], rfl, received_new⟩

namespace Tracks

variable {s : Slot} {sent : List Report}

/- A fault held is the first fault sent. -/
theorem firstFault_of_fault
    {f : String × String}
    (h : s.Tracks sent)
    (hFault : s.fault = some f) :
    firstFault sent = some f := by
  obtain ⟨read, hSent, hReceived⟩ := h
  rw [← hSent]
  exact hReceived.firstFault_append_of_fault hFault s.queue

/- With nothing left in its channel, a slot holds the first fault sent. -/
theorem fault_eq_of_queue_nil
    (h : s.Tracks sent)
    (hQueue : s.queue = []) :
    s.fault = firstFault sent := by
  obtain ⟨read, hSent, hReceived⟩ := h
  rw [← hSent, hQueue, List.append_nil]
  exact hReceived.fault_eq

theorem send
    (h : s.Tracks sent)
    (hHeld : s.mainHeld = true)
    (r : Report) :
    (s.send r).Tracks (sent ++ [r]) := by
  obtain ⟨read, hSent, hReceived⟩ := h
  refine ⟨read, ?_, ?_⟩
  · simp [Slot.send, hHeld, ← hSent]
  · -- a held main sender means the channel is open, whatever it holds
    have hOpen : s.closed = false := by
      cases hClosed : s.closed
      · rfl
      · rw [(hReceived.closed_drained hClosed).2] at hHeld
        cases hHeld
    simp only [Slot.send, hHeld, if_true]
    exact ⟨hReceived.fault_eq, hReceived.started_eq, hReceived.completed_eq,
      hReceived.no_fault_before_last, fun hClosed => by simp [hOpen] at hClosed⟩

theorem close
    (h : s.Tracks sent) :
    s.close.Tracks sent := by
  obtain ⟨read, hSent, hReceived⟩ := h
  exact ⟨read, hSent, hReceived.fault_eq, hReceived.started_eq, hReceived.completed_eq,
    hReceived.no_fault_before_last, fun hClosed => ⟨(hReceived.closed_drained hClosed).1, rfl⟩⟩

/- Reading the next report before any fault keeps track of what was sent. -/
theorem record
    {r : Report}
    {rest : List Report}
    (h : s.Tracks sent)
    (hNone : s.fault = none)
    (hQueue : s.queue = r :: rest) :
    (Slot.record { s with queue := rest } r).Tracks sent := by
  obtain ⟨read, hSent, hReceived⟩ := h
  refine ⟨read ++ [r], ?_, hReceived.record hNone hQueue⟩
  rw [record_queue, ← hSent, hQueue]
  simp

/- An empty channel with no sender left closes. -/
theorem closing
    (h : s.Tracks sent)
    (hQueue : s.queue = [])
    (hMain : s.mainHeld = false) :
    { s with closed := true }.Tracks sent := by
  obtain ⟨read, hSent, hReceived⟩ := h
  exact ⟨read, hSent, hReceived.fault_eq, hReceived.started_eq, hReceived.completed_eq,
    hReceived.no_fault_before_last, fun _ => ⟨hQueue, hMain⟩⟩

/-
  Reading without waiting keeps track of what was sent, and leaves the
  slot holding the first fault sent; without one, the channel is empty.
-/
theorem query
    (h : s.Tracks sent) :
    s.query.Tracks sent ∧ s.query.fault = firstFault sent ∧
      (s.query.fault = none → s.query.queue = []) := by
  obtain ⟨read, hSent, hReceived⟩ := h
  obtain ⟨taken, hTaken, hReceived', hFault, hDrained⟩ := hReceived.query
  refine ⟨⟨read ++ taken, ?_, hReceived'⟩, hSent ▸ hFault, hDrained⟩
  rw [List.append_assoc, hTaken, hSent]

end Tracks


------------------------------------------------------------
-- Waiting on a Slot
------------------------------------------------------------

section Wait

variable {s : Slot} {sent : List Report}

@[simp] theorem send_mainHeld
    (s : Slot)
    (r : Report) :
    (s.send r).mainHeld = s.mainHeld := by
  unfold Slot.send
  split <;> rfl

@[simp] theorem send_couriers
    (s : Slot)
    (r : Report) :
    (s.send r).couriers = s.couriers := by
  unfold Slot.send
  split <;> rfl

@[simp] theorem send_fault
    (s : Slot)
    (r : Report) :
    (s.send r).fault = s.fault := by
  unfold Slot.send
  split <;> rfl

@[simp] theorem send_started
    (s : Slot)
    (r : Report) :
    (s.send r).started = s.started := by
  unfold Slot.send
  split <;> rfl

theorem send_of_not_held
    (hHeld : s.mainHeld = false)
    (r : Report) :
    s.send r = s := by
  simp [Slot.send, hHeld]

/- A slot holding a fault, or closed, holds the first fault sent. -/
theorem Tracks.fault_eq_of_held
    (h : s.Tracks sent)
    (hHeld : (s.fault.isSome || s.closed) = true) :
    s.fault = firstFault sent := by
  cases hFault : s.fault with
  | some f => exact (h.firstFault_of_fault hFault).symm
  | none =>
      have hClosed : s.closed = true := by simpa [hFault] using hHeld
      rw [← hFault]
      obtain ⟨read, hSent, hReceived⟩ := id h
      exact h.fault_eq_of_queue_nil (hReceived.closed_drained hClosed).1

/- A drained slot that holds no fault was sent none. -/
theorem Tracks.firstFault_of_drained
    (h : s.Tracks sent)
    (hNone : s.fault = none)
    (hDrained : s.closed = true ∨ s.queue = []) :
    firstFault sent = none := by
  rcases hDrained with hClosed | hQueue
  · rw [← h.fault_eq_of_held (by simp [hClosed]), hNone]
  · rw [← h.fault_eq_of_queue_nil hQueue, hNone]

theorem settle_of_held
    (hHeld : (s.fault.isSome || s.closed) = true)
    (bound : Nat) :
    s.settle bound = s := by
  rw [settle, if_pos hHeld]

/- With no courier, nothing is due. -/
theorem nextDue_of_couriers_nil
    (hCouriers : s.couriers = []) :
    s.nextDue = none := by
  simp [nextDue, hCouriers]

/- Moving a slot's clock keeps what it tracks. -/
theorem Tracks.at_time
    (h : s.Tracks sent)
    (t : Nat) :
    { s with now := t }.Tracks sent := by
  obtain ⟨read, hSent, hReceived⟩ := h
  exact ⟨read, hSent, hReceived.fault_eq, hReceived.started_eq, hReceived.completed_eq,
    hReceived.no_fault_before_last, hReceived.closed_drained⟩

/-
  Waiting on a slot with no courier reads its channel up to the first
  fault and closes it once empty with no sender left: the slot then
  holds the first fault sent, when fuel covers the channel.
-/
theorem Tracks.wait
    {deadline fuel : Nat}
    (h : s.Tracks sent)
    (hNone : s.fault = none)
    (hCouriers : s.couriers = [])
    (hFuel : s.queue.length < fuel) :
    (Slot.wait deadline fuel s).Tracks sent ∧
      (Slot.wait deadline fuel s).fault = firstFault sent ∧
      (Slot.wait deadline fuel s).couriers = [] ∧
      (Slot.wait deadline fuel s).mainHeld = s.mainHeld := by
  fun_induction Slot.wait deadline fuel s with
  | case1 s => omega
  | case2 fuel s r rest hQueue s' hFault =>
      have hTracks : s'.Tracks sent := h.record hNone hQueue
      obtain ⟨f, hSome⟩ := Option.isSome_iff_exists.mp hFault
      refine ⟨hTracks, hSome.trans (hTracks.firstFault_of_fault hSome).symm, ?_, ?_⟩
      · simp [s', record_eq, hCouriers]
      · simp [s', record_eq]
  | case3 fuel s r rest hQueue s' hFault ih =>
      have hTracks : s'.Tracks sent := h.record hNone hQueue
      have hNone' : s'.fault = none := by simpa using hFault
      have hFuel' : s'.queue.length < fuel := by
        simp only [s', record_queue]
        simp [hQueue] at hFuel
        omega
      obtain ⟨hT, hF, hC, hM⟩ := ih hTracks hNone' (by simp [s', record_eq, hCouriers]) hFuel'
      exact ⟨hT, hF, hC, hM.trans (by simp [s', record_eq])⟩
  | case4 fuel s hQueue hClosing =>
      have hMain : s.mainHeld = false := by
        simpa [sendersLeft, hCouriers] using hClosing
      exact ⟨h.closing hQueue hMain, h.fault_eq_of_queue_nil hQueue, hCouriers, rfl⟩
  | case5 fuel s hQueue hSenders t hDue hLe ih =>
      rw [nextDue_of_couriers_nil hCouriers] at hDue
      cases hDue
  | case6 fuel s hQueue hSenders t hDue hLe =>
      rw [nextDue_of_couriers_nil hCouriers] at hDue
      cases hDue
  | case7 fuel s hQueue hSenders hDue =>
      exact ⟨h.at_time deadline, h.fault_eq_of_queue_nil hQueue, hCouriers, rfl⟩
/-
  Settling a slot with no courier keeps track of what was sent and
  leaves the slot holding the first fault sent.
-/
theorem Tracks.settle
    (h : s.Tracks sent)
    (hCouriers : s.couriers = [])
    (bound : Nat) :
    (s.settle bound).Tracks sent ∧
      (s.settle bound).fault = firstFault sent ∧
      (s.settle bound).couriers = [] ∧
      (s.settle bound).mainHeld = s.mainHeld := by
  by_cases hHeld : (s.fault.isSome || s.closed) = true
  · rw [settle_of_held hHeld]
    exact ⟨h, h.fault_eq_of_held hHeld, hCouriers, rfl⟩
  · have hNone : s.fault = none := by
      simpa using (Bool.or_eq_false_iff.mp (Bool.eq_false_iff.mpr hHeld)).1
    rw [Slot.settle, if_neg hHeld]
    exact h.wait hNone hCouriers (by omega)

/-
  A slot with no fault held whose channel is closed or empty reads
  nothing without waiting.
-/
theorem Tracks.query_of_drained
    (h : s.Tracks sent)
    (hNone : s.fault = none)
    (hDrained : s.closed = true ∨ s.queue = []) :
    s.query.fault = none ∧ s.query.queue = [] ∧ s.query.started = s.started := by
  by_cases hHeld : (s.fault.isSome || s.closed) = true
  · rw [query_of_held hHeld]
    have hClosed : s.closed = true := by simpa [hNone] using hHeld
    obtain ⟨read, -, hReceived⟩ := h
    exact ⟨hNone, (hReceived.closed_drained hClosed).1, rfl⟩
  · have hQueue : s.queue = [] :=
      hDrained.resolve_left fun hClosed => hHeld (by simp [hClosed])
    rw [query_of_nil hHeld hQueue]
    split <;> exact ⟨hNone, hQueue, rfl⟩

/-
  A slot that read everything sent, or stopped at a fault, knows
  whether a start came before the first fault sent.
-/
theorem Tracks.started_eq
    (h : s.Tracks sent)
    (hRead : s.fault = none → s.queue = []) :
    s.started = (beforeFault sent).any Report.isStarted := by
  obtain ⟨read, hSent, hReceived⟩ := h
  rw [hReceived.started_eq, ← hSent]
  cases hFault : s.fault with
  | none =>
      -- everything sent was read, and none of it was a fault
      have hQuiet : firstFault read = none := hReceived.fault_eq ▸ hFault
      rw [hRead hFault, List.append_nil, beforeFault_of_quiet hQuiet]
  | some f =>
      -- what was read ends with the first fault sent
      have hRead : read ≠ [] := by
        intro hNil
        rw [hNil] at hReceived
        rw [hReceived.fault_eq] at hFault
        cases hFault
      have hSplit := List.dropLast_append_getLast hRead
      have hLast : Report.faultOf (read.getLast hRead) = some f := by
        have hFirst := hReceived.fault_eq
        rw [hFault, ← hSplit, firstFault_append, hReceived.no_fault_before_last] at hFirst
        simpa [firstFault] using hFirst.symm
      have hNotStarted : (read.getLast hRead).isStarted = false := by
        revert hLast
        cases read.getLast hRead <;> simp [Report.faultOf, Report.isStarted]
      rw [← hSplit, List.append_assoc, List.singleton_append,
        beforeFault_append_fault hReceived.no_fault_before_last (by simp [hLast])]
      simp [hNotStarted]

end Wait


------------------------------------------------------------
-- Calls on a Slot
------------------------------------------------------------

/-
  A call on a slot: the worker's side sends a report now or lets its
  sender go; the supervisor reads without waiting, or waits at most a
  bound.
-/
inductive Call where
  | send (r : Report)
  | close
  | query
  | settle (bound : Nat)

def perform (s : Slot) : Call → Slot
  | .send r => s.send r
  | .close => s.close
  | .query => s.query
  | .settle bound => s.settle bound

def runCalls
    (s : Slot)
    (calls : List Call) :
    Slot :=
  calls.foldl perform s

/- The reports sent by calls, in order, before the sender is let go. -/
def Call.sent : List Call → List Report
  | [] => []
  | .send r :: calls => r :: Call.sent calls
  | .close :: _ => []
  | _ :: calls => Call.sent calls

section Calls

variable {s : Slot} {sent : List Report}

/- A held fault survives every call. -/
theorem perform_of_fault
    {f : String × String}
    (hFault : s.fault = some f)
    (c : Call) :
    (s.perform c).fault = some f := by
  have hHeld : (s.fault.isSome || s.closed) = true := by simp [hFault]
  cases c with
  | send r => rw [perform, send_fault]; exact hFault
  | close => exact hFault
  | query => rw [perform, query_of_held hHeld]; exact hFault
  | settle bound => rw [perform, settle_of_held hHeld]; exact hFault

theorem runCalls_of_fault
    {f : String × String}
    (hFault : s.fault = some f)
    (calls : List Call) :
    (s.runCalls calls).fault = some f := by
  induction calls generalizing s with
  | nil => exact hFault
  | cons c calls ih => exact ih (perform_of_fault hFault c)

/-
  Calls on a slot with no courier keep track of the reports sent: those
  sent while the main sender is held reach the channel, in order.
-/
theorem Tracks.runCalls
    (h : s.Tracks sent)
    (hCouriers : s.couriers = [])
    (calls : List Call) :
    (s.runCalls calls).Tracks (sent ++ if s.mainHeld then Call.sent calls else []) ∧
      (s.runCalls calls).couriers = [] := by
  induction calls generalizing s sent with
  | nil => simpa [Slot.runCalls, Call.sent] using ⟨h, hCouriers⟩
  | cons c calls ih =>
      -- one case per call: what it sends and how it keeps the main sender
      cases c with
      | send r =>
          cases hHeld : s.mainHeld with
          | true =>
              have := ih (h.send hHeld r) (by simpa using hCouriers)
              simpa [Slot.runCalls, perform, hHeld, Call.sent] using this
          | false =>
              have := ih h hCouriers
              simpa [Slot.runCalls, perform, send_of_not_held hHeld, hHeld] using this
      | close =>
          have := ih h.close hCouriers
          simpa [Slot.runCalls, perform, Slot.close, Call.sent] using this
      | query =>
          obtain ⟨hMain, hCouriers', -⟩ := query_frame s
          have := ih h.query.1 (hCouriers' ▸ hCouriers)
          simpa [Slot.runCalls, perform, hMain, Call.sent] using this
      | settle bound =>
          obtain ⟨hTracks, -, hCouriers', hMain⟩ := h.settle hCouriers bound
          have := ih hTracks hCouriers'
          simpa [Slot.runCalls, perform, hMain, Call.sent] using this

/-
  Whatever calls are made, in any order, the slot has read the reports
  sent up to and including the first fault and no further, and holds
  that fault and whether a start or a completion was among them.
  Reading without waiting, or waiting, then holds the first fault sent;
  once a fault is held, every later call keeps it, and reading or
  waiting reads nothing more.
-/
theorem runCalls_first_fault
    (calls : List Call) :
    let s := Slot.new.runCalls calls
    s.Tracks (Call.sent calls) ∧
      s.query.fault = firstFault (Call.sent calls) ∧
      (∀ bound, (s.settle bound).fault = firstFault (Call.sent calls)) ∧
      ∀ f, s.fault = some f → ∀ more,
        (s.runCalls more).fault = some f ∧
        (s.runCalls more).query = s.runCalls more ∧
        ∀ bound, (s.runCalls more).settle bound = s.runCalls more := by
  intro s
  obtain ⟨hTracks, hCouriers⟩ := tracks_new.runCalls rfl calls
  rw [show Slot.new.mainHeld = true from rfl, if_pos rfl, List.nil_append] at hTracks
  refine ⟨hTracks, hTracks.query.2.1, fun bound => (hTracks.settle hCouriers bound).2.1, ?_⟩
  intro f hFault more
  have hLater : (s.runCalls more).fault = some f := runCalls_of_fault hFault more
  have hHeld : ((s.runCalls more).fault.isSome || (s.runCalls more).closed) = true := by
    simp [hLater]
  exact ⟨hLater, query_of_held hHeld, settle_of_held hHeld⟩

example :
    (Slot.new.runCalls [.send .completed, .send (.fault "a" "x"), .query,
      .send (.fault "b" "y"), .settle 5]).fault = some ("a", "x") :=
  rfl

end Calls

end Slot

end NeuronFleet
