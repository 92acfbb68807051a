import NeuronFleet.Report

/-
  The fault slot of a supervised worker, in virtual time.

  A worker's reports reach its supervisor through a channel.  The slot
  reads them and remembers that the worker started, that it completed,
  and the first fault it reported; once it holds a fault it reads no
  further.  The channel closes when every sender is gone and nothing is
  left in it.

  Reports are sent at once by the main sender, or later by couriers:
  a courier holds a sender of its own, sends its report when its time
  comes and then lets its sender go; a courier may also hold the main
  sender and let it go with its own.

  `query` reads what the channel holds now without waiting.  `settle`
  waits at most a bound for a fault or for the channel to close:
  virtual time jumps to the next courier's time, and all couriers due
  then send, in the order they were made; a courier due exactly at the
  bound still sends.

  Main definitions:
    * `Courier`, `Slot`, `Slot.record`, `Slot.send`, `Slot.close`
    * `Slot.query`, `Slot.settle`
-/

namespace NeuronFleet

/- A report on its way: sent at `due`. -/
structure Courier where
  due : Nat
  report : Report
  -- whether the courier holds the main sender too
  holdsMain : Bool

/- What the supervisor knows of a worker's reports. -/
structure Slot where
  -- reports in the channel, not yet read
  queue : List Report
  -- couriers still to send, in the order they were made
  couriers : List Courier
  -- whether the main sender is still held outside the couriers
  mainHeld : Bool
  -- the first fault read: its error and trace
  fault : Option (String × String)
  started : Bool
  completed : Bool
  closed : Bool
  -- virtual time, in milliseconds
  now : Nat

namespace Slot

/- A slot on a fresh channel at time zero. -/
def new : Slot := ⟨[], [], true, none, false, false, false, 0⟩

/- Whether some sender is left. -/
def sendersLeft (s : Slot) : Bool := s.mainHeld || !s.couriers.isEmpty

/- Takes note of a report: only the first fault is kept. -/
def record (s : Slot) : Report → Slot
  | .started .. => { s with started := true }
  | .completed => { s with completed := true }
  | .fault e t => if s.fault.isNone then { s with fault := some (e, t) } else s

/- Taking note of a report reads nothing more from the channel. -/
@[simp] theorem record_queue
    (s : Slot)
    (r : Report) :
    (s.record r).queue = s.queue := by
  cases r with
  | fault e t =>
      simp only [record]
      split <;> rfl
  | _ => rfl

/- Sends a report now on the main sender, when it is still held. -/
def send
    (s : Slot)
    (r : Report) :
    Slot :=
  if s.mainHeld then { s with queue := s.queue ++ [r] } else s

/- Makes a courier that sends `r` after `delay`; with `closing` it
takes the main sender along. -/
def sendLater
    (s : Slot)
    (r : Report)
    (delay : Nat)
    (closing : Bool) :
    Slot :=
  let holdsMain := closing && s.mainHeld
  { s with couriers := s.couriers ++ [⟨s.now + delay, r, holdsMain⟩]
           mainHeld := s.mainHeld && !closing }

/- Lets the main sender go. -/
def close (s : Slot) : Slot := { s with mainHeld := false }

/- Reads without waiting until a fault is held, the channel is empty or
it is closed. -/
def query (s : Slot) : Slot := read s.queue s
where
  -- reads `pending`, what the channel holds, in order
  read : List Report → Slot → Slot
    | pending, s =>
      if s.fault.isSome || s.closed then s
      else
        match pending with
        | r :: rest => read rest (record { s with queue := rest } r)
        | [] => if s.sendersLeft then s else { s with closed := true }

/- The time of the next courier. -/
def nextDue (s : Slot) : Option Nat :=
  s.couriers.foldl (fun m c => some (match m with
    | some t => min t c.due
    | none => c.due)) none

/- Moves time to `t` and lets every courier due by then send. -/
def advance
    (s : Slot)
    (t : Nat) :
    Slot :=
  let due := s.couriers.filter (·.due ≤ t)
  { s with now := t, queue := s.queue ++ due.map (·.report)
           couriers := s.couriers.filter (·.due > t) }

/- Waits until `deadline` for a fault or the close; `fuel` bounds the
reads and the courier times. -/
def wait (deadline : Nat) : Nat → Slot → Slot
  | 0, s => s
  | fuel + 1, s =>
    match s.queue with
    | r :: rest =>
      let s := record { s with queue := rest } r
      if s.fault.isSome then s else wait deadline fuel s
    | [] =>
      if !s.sendersLeft then { s with closed := true }
      else
        match s.nextDue with
        | some t => if t ≤ deadline then wait deadline fuel (s.advance (max t s.now))
          else { s with now := deadline }
        | none => { s with now := deadline }

/- Waits at most `bound` milliseconds for a fault or the close, unless
a fault is held or the channel closed already. -/
def settle
    (s : Slot)
    (bound : Nat) :
    Slot :=
  if s.fault.isSome || s.closed then s
  else wait (s.now + bound) (s.queue.length + 2 * s.couriers.length + 2) s

end Slot

end NeuronFleet
