import NeuronFleet.Number.Single

/-
  The learning-rate schedule: linear warmup, then cosine decay with
  hard restarts.

  During warmup the multiplier of the base rate climbs linearly from 0
  to 1.  After it, progress through the remaining steps runs from 0 to
  1; the multiplier follows half a cosine wave from 1 down to 0,
  `cycles` times over, and stays 0 once progress reaches 1.  All the
  arithmetic is single precision, steps converted to the nearest
  single.

  Main definitions:
    * `Schedule`, `Schedule.serving`, `Schedule.progress`,
      `Schedule.multiplierWith`, `Schedule.multiplier`, `Schedule.step`
-/

namespace NeuronFleet

/- A learning-rate schedule and the number of steps taken. -/
structure Schedule where
  baseLr : F32
  warmupSteps : Nat
  totalSteps : Nat
  -- how many cosine waves the decay runs through
  cycles : F32
  -- steps taken so far
  current : Nat
  deriving Repr, Inhabited

namespace Schedule

/- A fresh schedule. -/
def new
    (baseLr : F32)
    (warmup total : Nat)
    (cycles : F32) :
    Schedule :=
  ⟨baseLr, warmup, total, cycles, 0⟩

/- The serving loop's schedule: 50 warmup steps of 300, one wave. -/
def serving (baseLr : F32) : Schedule := new baseLr 50 300 1

/- One half, `0.5`. -/
def half : F32 := ⟨0x3F000000⟩

/- Progress through the steps after warmup, as a fraction of them. -/
def progress
    (s : Schedule)
    (step : Nat) :
    F32 :=
  F32.ofNat (step - s.warmupSteps) / F32.ofNat (max (s.totalSteps - s.warmupSteps) 1)

/- The multiplier of the base rate at a step, taking cosines with
`cos`. -/
def multiplierWith
    (cos : F32 → F32)
    (s : Schedule)
    (step : Nat) :
    F32 :=
  if step < s.warmupSteps then F32.ofNat step / F32.ofNat (max s.warmupSteps 1)
  else if F32.le 1 (s.progress step) then 0
  else F32.max (half * (1 + cos (F32.pi * ((s.cycles * s.progress step) % 1)))) 0

/- The multiplier of the base rate at a step. -/
def multiplier
    (s : Schedule)
    (step : Nat) :
    F32 := s.multiplierWith F32.cos step

/- Takes one step; gives the learning rate at the new step. -/
def step (s : Schedule) : Schedule × F32 :=
  let s := { s with current := s.current + 1 }
  (s, s.baseLr * s.multiplier s.current)

/- Takes `n` steps; gives the rates in order. -/
def steps (s : Schedule) : Nat → Schedule × List F32
  | 0 => (s, [])
  | n + 1 =>
    let (s, lr) := s.step
    let (s, lrs) := s.steps n
    (s, lr :: lrs)

end Schedule

end NeuronFleet
