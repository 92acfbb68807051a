import NeuronFleet.Random.ChaCha
import NeuronFleet.Number.Single

/-
  Uniform draws from a ChaCha generator.

  An integer below `n` is the high half of the product of a random
  word and `n`.  When the low half falls in the last `n` values before
  wrapping, where the plain product would be biased, one more word is
  drawn and its product with `n` decides whether to round the result
  up.  The width of the draws is that of the integer type; an index
  is drawn from 32-bit words whenever its range fits in 32 bits.

  A single in `[low, high)` is a random fraction in `[0, 1)` with 23
  random bits, times `high - low`, plus `low`, each step rounded to
  single precision.

  Main definitions:
    * `Random.ChaCha.below`, `Random.ChaCha.rangeNat`, `Random.ChaCha.rangeIndex`,
      `Random.ChaCha.rangeF32`
-/

namespace NeuronFleet

namespace Random

namespace ChaCha

/- A draw of `bits` bits (32 or 64). -/
def draw
    (g : ChaCha)
    (bits : Nat) :
    Nat × ChaCha :=
  if bits ≤ 32 then
    let (x, g) := g.nextU32
    (x.toNat, g)
  else
    let (x, g) := g.nextU64
    (x.toNat, g)

/- An integer in `0 .. n - 1`, drawn with words of `bits` bits; `n`
must be positive and at most `2 ^ bits`. -/
def below
    (g : ChaCha)
    (bits n : Nat) :
    Nat × ChaCha :=
  let top := Nat.pow 2 bits
  if n == top then g.draw bits
  else
    let (x, g) := g.draw bits
    let hi := x * n / top
    let lo := x * n % top
    if lo > top - n then
      let (y, g) := g.draw bits
      let newHi := y * n / top
      (hi + (if lo + newHi ≥ top then 1 else 0), g)
    else (hi, g)

/- An integer in `low .. high - 1` (`low < high`) of a type of `bits`
bits, drawn with draws of that width. -/
def rangeNat
    (g : ChaCha)
    (bits low high : Nat) :
    Nat × ChaCha :=
  let (r, g) := g.below bits (high - low)
  (low + r, g)

/- An index in `low .. high - 1` (`low < high`): drawn with 32-bit
words when the largest value fits in 32 bits, with 64-bit draws
otherwise, so that indices come out alike on every word size. -/
def rangeIndex
    (g : ChaCha)
    (low high : Nat) :
    Nat × ChaCha :=
  g.rangeNat (if high - 1 < Nat.pow 2 32 then 32 else 64) low high

/- A single in `[low, high)`. -/
def rangeF32
    (g : ChaCha)
    (low high : F32) :
    F32 × ChaCha :=
  let (x, g) := g.nextU32
  let oneToTwo : F32 := ⟨(x >>> 9) ||| 0x3F800000⟩
  let fraction := oneToTwo - 1
  (fraction * (high - low) + low, g)

end ChaCha

end Random

end NeuronFleet
