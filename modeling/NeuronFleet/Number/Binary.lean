/-
  IEEE 754 binary interchange formats with round-to-nearest-even.

  A finite datum of a format is an integer multiple of the smallest
  subnormal, so `Format.decode` gives its magnitude as a natural number
  counted in that unit.  Every operation of the library then computes an
  exact ratio of naturals in the same unit and rounds it once with
  `Format.roundRatio`; `Format.encode` packs the rounded magnitude back
  into bits, overflowing to infinity exactly when the magnitude exceeds
  the largest finite one.

  Main statements:
    * `roundHalfEven_le` and `le_roundHalfEven` : the rounded quotient
      lies within one of the exact quotient
-/

namespace NeuronFleet

namespace Binary

------------------------------------------------------------
-- Formats and values
------------------------------------------------------------

/- A binary interchange format: significand bits (the hidden bit
included) and width of the exponent field. -/
structure Format where
  precision : Nat
  exponentBits : Nat
  deriving Repr

/- binary32, the format of single-precision numbers. -/
def Format.single : Format := ⟨24, 8⟩

/- binary64, the format of double-precision numbers. -/
def Format.double : Format := ⟨53, 11⟩

/- The exponent bias of the format. -/
def Format.bias (f : Format) : Nat := Nat.pow 2 (f.exponentBits - 1) - 1

/- The power of two of the smallest subnormal: `-149` for binary32. -/
def Format.unitExponent (f : Format) : Int :=
  2 - Int.pow 2 (f.exponentBits - 1) - (f.precision - 1 : Nat)

/- Width of the whole datum in bits. -/
def Format.width (f : Format) : Nat := f.precision + f.exponentBits

/- Bits of the trailing significand field. -/
def Format.fractionBits (f : Format) : Nat := f.precision - 1

/- The all-ones exponent field, which marks infinities and NaNs. -/
def Format.topExponent (f : Format) : Nat := Nat.pow 2 f.exponentBits - 1

/- The bits of positive infinity. -/
def Format.infinityBits (f : Format) : Nat := f.topExponent * Nat.pow 2 f.fractionBits

/- The bit of the sign. -/
def Format.signBit (f : Format) : Nat := Nat.pow 2 (f.width - 1)

/- The bits of the quiet NaN that invalid operations produce. -/
def Format.nanBits (f : Format) : Nat :=
  f.infinityBits + Nat.pow 2 (f.fractionBits - 1)

/- The largest finite magnitude, in units of the smallest subnormal. -/
def Format.maxMagnitude (f : Format) : Nat :=
  (Nat.pow 2 f.precision - 1) * Nat.pow 2 (Nat.pow 2 f.exponentBits - 3)

/- What a datum stands for. -/
inductive Value where
  | finite (negative : Bool) (magnitude : Nat)
  | infinite (negative : Bool)
  | nan
  deriving Repr, DecidableEq

/- Reads the bits of a datum: exponent all ones is an infinity or a
NaN, exponent zero a subnormal, anything else a normal number. -/
def Format.decode
    (f : Format)
    (bits : Nat) :
    Value :=
  let negative := bits / f.signBit % 2 == 1
  let body := bits % f.signBit
  let expField := body / Nat.pow 2 f.fractionBits
  let frac := body % Nat.pow 2 f.fractionBits
  if expField = f.topExponent then
    if frac = 0 then .infinite negative else .nan
  else if expField = 0 then
    .finite negative frac
  else
    .finite negative ((Nat.pow 2 f.fractionBits + frac) * Nat.pow 2 (expField - 1))

/- Packs a sign and a magnitude that has a `precision`-bit significand.
Magnitudes above the largest finite one become infinity. -/
def Format.encode
    (f : Format)
    (negative : Bool)
    (magnitude : Nat) :
    Nat :=
  let sign := if negative then f.signBit else 0
  if magnitude > f.maxMagnitude then
    sign + f.infinityBits
  else if magnitude < Nat.pow 2 f.precision then
    sign + magnitude
  else
    let shift := magnitude.log2 + 1 - f.precision
    sign + shift * Nat.pow 2 f.fractionBits + magnitude / Nat.pow 2 shift

/- Bits of a signed zero. -/
def Format.zeroBits
    (f : Format)
    (negative : Bool) :
    Nat :=
  if negative then f.signBit else 0

/- Bits of a signed infinity. -/
def Format.infiniteBits
    (f : Format)
    (negative : Bool) :
    Nat :=
  if negative then f.signBit + f.infinityBits else f.infinityBits

------------------------------------------------------------
-- Rounding
------------------------------------------------------------

/- The quotient `num / den` rounded to the nearest natural number, a
tie going to the even one. -/
def roundHalfEven (num den : Nat) : Nat :=
  let q := num / den
  let r := num % den
  if 2 * r > den then q + 1
  else if 2 * r = den ∧ q % 2 = 1 then q + 1
  else q

theorem le_roundHalfEven (num den : Nat) : num / den ≤ roundHalfEven num den := by
  simp only [roundHalfEven]
  split
  · omega
  · split <;> omega

theorem roundHalfEven_le (num den : Nat) : roundHalfEven num den ≤ num / den + 1 := by
  simp only [roundHalfEven]
  split
  · omega
  · split <;> omega

/- `⌊log₂ (num / den)⌋` for positive `num` and `den`. -/
def floorLog2Ratio (num den : Nat) : Int :=
  let k : Int := (num.log2 : Int) - den.log2
  let atLeast : Bool :=
    if k ≥ 0 then decide (num ≥ den * Nat.pow 2 k.toNat) else decide (num * Nat.pow 2 (-k).toNat ≥ den)
  if atLeast then k else k - 1

/- Rounds the ratio `num / den` (a magnitude in units of the smallest
subnormal) to the nearest magnitude with a `precision`-bit significand,
ties to even.  Below `2 ^ precision` every natural is such a magnitude,
so there the ratio is rounded to a natural; above, the last
`floorLog2Ratio - precision + 1` bits are rounded away.  The exponent is
unbounded: `encode` turns what exceeds the format into infinity. -/
def Format.roundRatio
    (f : Format)
    (num den : Nat) :
    Nat :=
  if num = 0 ∨ den = 0 then 0
  else
    let k := floorLog2Ratio num den
    if k < f.precision then roundHalfEven num den
    else
      let shift := (k - (f.precision - 1 : Nat)).toNat
      roundHalfEven num (den * Nat.pow 2 shift) * Nat.pow 2 shift

/- The bits of the datum nearest to `±num / den` units. -/
def Format.ofRatio
    (f : Format)
    (negative : Bool)
    (num den : Nat) :
    Nat :=
  f.encode negative (f.roundRatio num den)

/- The bits of the datum nearest to `±m · 2 ^ e`. -/
def Format.ofScaled
    (f : Format)
    (negative : Bool)
    (m : Nat)
    (e : Int) :
    Nat :=
  let shift := e - f.unitExponent
  if shift ≥ 0 then f.ofRatio negative (m * Nat.pow 2 shift.toNat) 1
  else f.ofRatio negative m (Nat.pow 2 (-shift).toNat)

end Binary

end NeuronFleet
