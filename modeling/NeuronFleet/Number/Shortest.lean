import NeuronFleet.Number.Double

/-
  The shortest decimal that reads back as a given binary number.

  A finite positive datum `v` of a format stands for the interval of
  reals that round to it: half the gap to each neighbour on either
  side, both ends included when the significand is even.  For
  `n = 1, 2, …` digits, the two neighbours of `v` on the decimal grid
  of `n` significant digits are tested against that interval; the first
  grid with a hit wins, of two hits the nearer, and of two equally near
  the one with an even last digit.  A grid point inside the interval
  forces one of the two neighbours inside, so no shorter decimal is
  missed.

  Main definitions:
    * `Binary.Format.shortest` : digits and decimal exponent
    * `Decimal.Digits` : the result, `digits · 10 ^ exponent`
-/

namespace NeuronFleet

namespace Decimal

------------------------------------------------------------
-- Decimal digits
------------------------------------------------------------

/- A non-negative decimal `digits · 10 ^ exponent`. -/
structure Digits where
  digits : Nat
  exponent : Int
  deriving Repr, DecidableEq

/- Drops trailing zeros of the digits, raising the exponent. -/
def Digits.normalize (d : Digits) : Digits :=
  go d.digits d.exponent d.digits
where
  go (m : Nat) (e : Int) : Nat → Digits
    | 0 => ⟨m, e⟩
    | fuel + 1 => if m ≠ 0 ∧ m % 10 = 0 then go (m / 10) (e + 1) fuel else ⟨m, e⟩

/- The decimal digits of a natural number, most significant first. -/
def digitChars (n : Nat) : List Char :=
  (Nat.toDigits 10 n)

/- Number of decimal digits of a natural number (one for zero). -/
def digitCount (n : Nat) : Nat := (digitChars n).length

end Decimal

namespace Binary

------------------------------------------------------------
-- Exact comparison with decimals
------------------------------------------------------------

/- Compares `c · 10 ^ k` with `n · 2 ^ e`, exactly. -/
def compareDecimal
    (c : Nat)
    (k : Int)
    (n : Nat)
    (e : Int) :
    Ordering :=
  let lhs := c * Nat.pow 10 k.toNat * Nat.pow 2 (-e).toNat
  let rhs := n * Nat.pow 10 (-k).toNat * Nat.pow 2 e.toNat
  Ord.compare lhs rhs

/- `⌊log₁₀ (n · 2 ^ e)⌋` for positive `n`: an estimate from the bit
length, corrected by exact comparisons. -/
def floorLog10
    (n : Nat)
    (e : Int) :
    Int :=
  let bits : Int := (n.log2 : Int) + e
  let estimate : Int := (bits * 30103).fdiv 100000
  let up (k : Int) : Int :=
    if compareDecimal 1 (k + 1) n e != .gt then k + 1 else k
  let down (k : Int) : Int :=
    if compareDecimal 1 k n e == .gt then k - 1 else k
  down (down (up (up estimate)))

/- The two ends of the rounding interval of a positive magnitude `m`
(in units), doubled so that they are naturals: the gap below is halved
at the lowest significand of a binade above the subnormals. -/
def Format.roundingInterval
    (f : Format)
    (m : Nat) :
    Nat × Nat :=
  let shift := if m < Nat.pow 2 f.precision then 0 else m.log2 + 1 - f.precision
  let gap := Nat.pow 2 shift
  let lowGap := if shift > 0 ∧ m = Nat.pow 2 (f.precision - 1) * Nat.pow 2 shift then gap / 2 else gap
  (2 * m - lowGap, 2 * m + gap)

/- Whether the significand of a positive magnitude is even, which makes
the rounding interval closed. -/
def Format.evenSignificand
    (f : Format)
    (m : Nat) :
    Bool :=
  let shift := if m < Nat.pow 2 f.precision then 0 else m.log2 + 1 - f.precision
  (m / Nat.pow 2 shift) % 2 == 0

/- The shortest decimal that rounds to the positive magnitude `m`
(in units of the smallest subnormal) of the format, nearest among
those of its length, ties to an even last digit. -/
def Format.shortest
    (f : Format)
    (m : Nat) :
    Decimal.Digits :=
  -- the value and the interval ends, in units of 2 ^ (unitExponent - 1)
  let e := f.unitExponent - 1
  let v := 2 * m
  let (lo, hi) := f.roundingInterval m
  let closed := f.evenSignificand m
  let inside (c : Nat) (k : Int) : Bool :=
    let above := compareDecimal c k lo e
    let below := compareDecimal c k hi e
    (above == .gt || (closed && above == .eq)) && (below == .lt || (closed && below == .eq))
  let top := floorLog10 v e
  let rec search : Nat → Nat → Decimal.Digits
    | 0, _ => ⟨0, 0⟩
    | fuel + 1, n =>
      let k := top - (n - 1 : Nat)
      -- c · 10^k ≤ v < (c + 1) · 10^k
      let num := v * Nat.pow 10 (-k).toNat * Nat.pow 2 e.toNat
      let den := Nat.pow 10 k.toNat * Nat.pow 2 (-e).toNat
      let c := num / den
      let lowIn := inside c k
      let highIn := inside (c + 1) k
      if lowIn && highIn then
        -- distance of v above c · 10^k against below (c + 1) · 10^k
        let r := num % den
        if 2 * r < den then (Decimal.Digits.normalize ⟨c, k⟩)
        else if 2 * r > den then (Decimal.Digits.normalize ⟨c + 1, k⟩)
        else if c % 2 = 0 then (Decimal.Digits.normalize ⟨c, k⟩)
        else (Decimal.Digits.normalize ⟨c + 1, k⟩)
      else if lowIn then Decimal.Digits.normalize ⟨c, k⟩
      else if highIn then Decimal.Digits.normalize ⟨c + 1, k⟩
      else search fuel (n + 1)
  search 20 1

end Binary

end NeuronFleet
