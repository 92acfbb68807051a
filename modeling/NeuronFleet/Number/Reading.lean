import NeuronFleet.Number.Double

/-
  Reading decimal text into binary numbers.

  A decimal `±digits · 10 ^ exponent` is rounded once, to nearest with
  ties to even, by `Binary.Format.ofDecimal`.  `Decimal.readLiteral`
  accepts the common float syntax: an optional sign, then digits with
  an optional point and an optional exponent (at least one digit before
  or after the point), or one of `inf`, `infinity`, `nan` in any case.

  Main definitions:
    * `Binary.Format.ofDecimal`
    * `Decimal.readLiteral`, `F64.ofLiteral`, `F32.ofLiteral`
-/

namespace NeuronFleet

namespace Binary

/- Bits of the datum nearest to `±digits · 10 ^ exponent`.  Exponents
far outside every format are settled without the exact arithmetic: the
value is then surely zero or surely beyond the largest finite. -/
def Format.ofDecimal
    (f : Format)
    (negative : Bool)
    (digits : Nat)
    (exponent : Int) :
    Nat :=
  let size : Int := (Nat.toDigits 10 digits).length
  if digits = 0 ∨ size + exponent < -400 then f.zeroBits negative
  else if size + exponent > 400 then f.infiniteBits negative
  else
    let unitShift := (-f.unitExponent).toNat
    if exponent ≥ 0 then
      f.ofRatio negative (digits * Nat.pow 10 exponent.toNat * Nat.pow 2 unitShift) 1
    else
      f.ofRatio negative (digits * Nat.pow 2 unitShift) (Nat.pow 10 (-exponent).toNat)

end Binary

namespace Decimal

------------------------------------------------------------
-- Literals
------------------------------------------------------------

/- A number as written. -/
inductive Literal where
  | number (negative : Bool) (digits : Nat) (exponent : Int)
  | infinity (negative : Bool)
  | nan
  deriving Repr, DecidableEq

/- Splits leading decimal digits off a list of characters: their value,
their count, and the rest. -/
def takeDigits : List Char → Nat × Nat × List Char
  | c :: cs =>
    if c.isDigit then
      let (v, n, rest) := takeDigits cs
      -- digits are accumulated from the right: shift by the count after c
      ((c.toNat - '0'.toNat) * Nat.pow 10 n + v, n + 1, rest)
    else (0, 0, c :: cs)
  | [] => (0, 0, [])

/- Reads the common float syntax (see the module comment). -/
def readLiteral (s : String) : Option Literal :=
  let cs := s.toList
  let (negative, body) : Bool × List Char :=
    match cs with
    | '-' :: r => (true, r)
    | '+' :: r => (false, r)
    | r => (false, r)
  let word := String.ofList body |>.toLower
  if word == "inf" || word == "infinity" then some (.infinity negative)
  else if word == "nan" then some .nan
  else
    let (intVal, intLen, afterInt) := takeDigits body
    let (fracVal, fracLen, afterFrac) : Nat × Nat × List Char :=
      match afterInt with
      | '.' :: r => takeDigits r
      | r => (0, 0, r)
    if intLen + fracLen = 0 then none
    else
      let digits := intVal * Nat.pow 10 fracLen + fracVal
      match afterFrac with
      | [] => some (.number negative digits (-(fracLen : Int)))
      | c :: r =>
        if c = 'e' ∨ c = 'E' then
          let (expNeg, expBody) : Bool × List Char :=
            match r with
            | '-' :: t => (true, t)
            | '+' :: t => (false, t)
            | t => (false, t)
          let (expVal, expLen, rest) := takeDigits expBody
          if expLen = 0 ∨ rest ≠ [] then none
          else
            let e : Int := if expNeg then -(expVal : Int) else expVal
            some (.number negative digits (e - fracLen))
        else none

end Decimal

namespace F64

/- The nearest double to a decimal. -/
def ofDecimal
    (negative : Bool)
    (digits : Nat)
    (exponent : Int) :
    F64 :=
  ofNatBits (format.ofDecimal negative digits exponent)

/- The double a literal stands for, rounded once. -/
def ofLiteral : Decimal.Literal → F64
  | .number negative digits exponent => ofDecimal negative digits exponent
  | .infinity negative => if negative then negInfinity else infinity
  | .nan => nan

end F64

namespace F32

/- The nearest single to a decimal, rounded once. -/
def ofDecimal
    (negative : Bool)
    (digits : Nat)
    (exponent : Int) :
    F32 :=
  ofNatBits (format.ofDecimal negative digits exponent)

/- The single a literal stands for, rounded once. -/
def ofLiteral : Decimal.Literal → F32
  | .number negative digits exponent => ofDecimal negative digits exponent
  | .infinity negative => if negative then negInfinity else infinity
  | .nan => nan

end F32

end NeuronFleet
