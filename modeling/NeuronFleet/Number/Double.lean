import NeuronFleet.Number.Single

/-
  Double-precision numbers and the conversions between the two widths.

  `F64` holds the 64 bits of a binary64 datum, with the correctly
  rounded arithmetic of `Binary.Format.double`.  Widening a single to a
  double is exact; narrowing rounds to nearest, ties to even.
-/

namespace NeuronFleet

/- A binary64 number, kept as its bits. -/
structure F64 where
  bits : UInt64
  deriving DecidableEq, Repr, Inhabited

namespace F64

/- The format of the bits. -/
abbrev format : Binary.Format := Binary.Format.double

/- The datum with the given bits, reduced to 64 bits. -/
def ofNatBits (n : Nat) : F64 := ⟨n.toUInt64⟩

/- What the bits stand for. -/
def value (x : F64) : Binary.Value := format.decode x.bits.toNat

def zero : F64 := ⟨0⟩
def nan : F64 := ⟨0x7FF8000000000000⟩
def infinity : F64 := ⟨0x7FF0000000000000⟩
def negInfinity : F64 := ⟨0xFFF0000000000000⟩

instance : OfNat F64 0 := ⟨zero⟩

def isNaN (x : F64) : Bool := x.value == .nan

def isFinite (x : F64) : Bool :=
  match x.value with
  | .finite _ _ => true
  | _ => false

def add (x y : F64) : F64 := ofNatBits (format.add x.bits.toNat y.bits.toNat)
def sub (x y : F64) : F64 := ofNatBits (format.sub x.bits.toNat y.bits.toNat)
def mul (x y : F64) : F64 := ofNatBits (format.mul x.bits.toNat y.bits.toNat)
def div (x y : F64) : F64 := ofNatBits (format.div x.bits.toNat y.bits.toNat)
def neg (x : F64) : F64 := ⟨x.bits ^^^ 0x8000000000000000⟩

instance : Add F64 := ⟨add⟩
instance : Sub F64 := ⟨sub⟩
instance : Mul F64 := ⟨mul⟩
instance : Div F64 := ⟨div⟩
instance : Neg F64 := ⟨neg⟩

/- `x < y`; false when either is NaN. -/
def lt (x y : F64) : Bool := format.lt x.bits.toNat y.bits.toNat

/- `x ≤ y`; false when either is NaN. -/
def le (x y : F64) : Bool := format.le x.bits.toNat y.bits.toNat

/- Numeric equality: false when either is NaN. -/
def beq (x y : F64) : Bool := format.eq x.bits.toNat y.bits.toNat

instance : BEq F64 := ⟨beq⟩

/- The nearest double to a natural number. -/
def ofNat (n : Nat) : F64 := ofNatBits (format.ofScaled false n 0)

/- The nearest double to an integer. -/
def ofInt (n : Int) : F64 :=
  if n = 0 then zero else ofNatBits (format.ofScaled (n < 0) n.natAbs 0)

end F64

namespace F32

/- The same number in double precision; exact. -/
def toF64 (x : F32) : F64 :=
  match x.value with
  | .nan => F64.nan
  | .infinite negative => if negative then F64.negInfinity else F64.infinity
  | .finite negative m =>
    if m = 0 then ⟨if negative then 0x8000000000000000 else 0⟩
    else F64.ofNatBits (F64.format.ofScaled negative m format.unitExponent)

end F32

namespace F64

/- The nearest single to a double, ties to even. -/
def toF32 (x : F64) : F32 :=
  match x.value with
  | .nan => F32.nan
  | .infinite negative => if negative then F32.negInfinity else F32.infinity
  | .finite negative m =>
    if m = 0 then (if negative then F32.negZero else F32.zero)
    else F32.ofScaled negative m format.unitExponent

/- The nearest integer, halves away from zero, as an unsigned 64-bit
number: negative values and NaN give zero, values past the top give
the top. -/
def roundU64 (x : F64) : Nat :=
  let top := Nat.pow 2 64 - 1
  match x.value with
  | .nan => 0
  | .infinite negative => if negative then 0 else top
  | .finite negative m =>
    if negative then 0
    else
      -- `m` counts units of `2 ^ unitExponent`
      let unit := Nat.pow 2 (-format.unitExponent).toNat
      min ((2 * m + unit) / (2 * unit)) top

end F64

end NeuronFleet
