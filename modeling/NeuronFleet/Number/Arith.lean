import NeuronFleet.Number.Binary

/-
  Correctly rounded arithmetic on the bits of a binary format.

  Each operation decodes its operands, settles the special values
  (NaN, infinities, zeros) as IEEE 754 prescribes for
  round-to-nearest, computes the exact result as a ratio of
  magnitudes, and rounds it once with `Format.ofRatio`.  NaN results
  are the format's quiet NaN; which NaN comes out is not observable
  anywhere in the library.
-/

namespace NeuronFleet

namespace Binary

------------------------------------------------------------
-- Signed magnitudes
------------------------------------------------------------

/- A finite value as a signed number of units. -/
def signedUnits
    (negative : Bool)
    (m : Nat) :
    Int :=
  if negative then -(m : Int) else m

/- Bits of an exact signed number of units that needs no rounding
beyond the format's significand. -/
def Format.ofUnits
    (f : Format)
    (z : Int)
    (zeroNegative : Bool) :
    Nat :=
  if z = 0 then f.zeroBits zeroNegative
  else f.ofRatio (z < 0) z.natAbs 1

------------------------------------------------------------
-- Operations
------------------------------------------------------------

/- Sum of two data.  An exact zero sum is `+0` unless both operands
are `-0`-signed zeros or negative values summing to zero in sign. -/
def Format.add
    (f : Format)
    (a b : Nat) :
    Nat :=
  match f.decode a, f.decode b with
  | .nan, _ => f.nanBits
  | _, .nan => f.nanBits
  | .infinite sa, .infinite sb => if sa == sb then f.infiniteBits sa else f.nanBits
  | .infinite sa, _ => f.infiniteBits sa
  | _, .infinite sb => f.infiniteBits sb
  | .finite sa ma, .finite sb mb =>
    let z := signedUnits sa ma + signedUnits sb mb
    if z = 0 then f.zeroBits (sa && sb)
    else f.ofRatio (z < 0) z.natAbs 1

/- Flips the sign bit. -/
def Format.neg
    (f : Format)
    (a : Nat) :
    Nat :=
  if a / f.signBit % 2 == 1 then a - f.signBit else a + f.signBit

/- Difference of two data, `a + (-b)`. -/
def Format.sub
    (f : Format)
    (a b : Nat) :
    Nat := f.add a (f.neg b)

/- Product of two data. -/
def Format.mul
    (f : Format)
    (a b : Nat) :
    Nat :=
  match f.decode a, f.decode b with
  | .nan, _ => f.nanBits
  | _, .nan => f.nanBits
  | .infinite sa, .infinite sb => f.infiniteBits (sa != sb)
  | .infinite sa, .finite sb mb => if mb = 0 then f.nanBits else f.infiniteBits (sa != sb)
  | .finite sa ma, .infinite sb => if ma = 0 then f.nanBits else f.infiniteBits (sa != sb)
  | .finite sa ma, .finite sb mb =>
    let negative := sa != sb
    if ma = 0 ∨ mb = 0 then f.zeroBits negative
    else f.ofRatio negative (ma * mb) (Nat.pow 2 (-f.unitExponent).toNat)

/- Quotient of two data. -/
def Format.div
    (f : Format)
    (a b : Nat) :
    Nat :=
  match f.decode a, f.decode b with
  | .nan, _ => f.nanBits
  | _, .nan => f.nanBits
  | .infinite _, .infinite _ => f.nanBits
  | .infinite sa, .finite sb _ => f.infiniteBits (sa != sb)
  | .finite sa _, .infinite sb => f.zeroBits (sa != sb)
  | .finite sa ma, .finite sb mb =>
    let negative := sa != sb
    if mb = 0 then (if ma = 0 then f.nanBits else f.infiniteBits negative)
    else if ma = 0 then f.zeroBits negative
    else f.ofRatio negative (ma * Nat.pow 2 (-f.unitExponent).toNat) mb

/- Remainder of a truncating division, `a - trunc (a / b) * b`, which
is always exact; it has the sign of `a`. -/
def Format.rem
    (f : Format)
    (a b : Nat) :
    Nat :=
  match f.decode a, f.decode b with
  | .nan, _ => f.nanBits
  | _, .nan => f.nanBits
  | .infinite _, _ => f.nanBits
  | .finite _ _, .infinite _ => a
  | .finite sa ma, .finite _ mb =>
    if mb = 0 then f.nanBits
    else
      let r := ma % mb
      if r = 0 then f.zeroBits sa else f.ofRatio sa r 1

/- Square root.  The integer square root is taken with
`precision + 2` guard bits; an inexact root lies strictly between two
guard-bit steps, so it is replaced by the midpoint of its step, which
rounds the same way. -/
def Format.sqrt
    (f : Format)
    (a : Nat) :
    Nat :=
  match f.decode a with
  | .nan => f.nanBits
  | .infinite negative => if negative then f.nanBits else a
  | .finite negative m =>
    if m = 0 then a
    else if negative then f.nanBits
    else
      let e := (-f.unitExponent).toNat
      -- the root of m · 2^-e units is √(m · 2^e) units
      let guard := f.precision + 2
      let radicand := m * Nat.pow 2 e * Nat.pow 4 guard
      let r := radicand.sqrt
      if r * r = radicand then f.ofRatio false r (Nat.pow 2 guard)
      else f.ofRatio false (2 * r + 1) (Nat.pow 2 (guard + 1))

------------------------------------------------------------
-- Comparison
------------------------------------------------------------

/- Ordering of two data that are not NaN, or `none` when one is NaN.
The two zeros are equal. -/
def Format.compare
    (f : Format)
    (a b : Nat) :
    Option Ordering :=
  let key : Value → Option Int
    | .nan => none
    | .finite negative m => some (signedUnits negative m)
    | .infinite negative => some (if negative then -(f.maxMagnitude + 1 : Nat) else (f.maxMagnitude + 1 : Nat))
  match key (f.decode a), key (f.decode b) with
  | some x, some y => some (Ord.compare x y)
  | _, _ => none

/- `a < b`; false when either is NaN. -/
def Format.lt
    (f : Format)
    (a b : Nat) :
    Bool := f.compare a b == some .lt

/- `a ≤ b`; false when either is NaN. -/
def Format.le
    (f : Format)
    (a b : Nat) :
    Bool :=
  match f.compare a b with
  | some .lt => true
  | some .eq => true
  | _ => false

/- `a = b` as numbers; false when either is NaN, true for the two zeros. -/
def Format.eq
    (f : Format)
    (a b : Nat) :
    Bool := f.compare a b == some .eq

end Binary

end NeuronFleet
