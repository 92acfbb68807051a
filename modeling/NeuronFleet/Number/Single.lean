import NeuronFleet.Number.Arith

/-
  Single-precision numbers.

  `F32` holds the 32 bits of a binary32 datum.  Its arithmetic is the
  correctly rounded arithmetic of `Binary.Format.single`; equality `==`
  is numeric equality (NaN differs from itself, the two zeros agree),
  while `=` compares bits.  The exponential, logarithm and cosine are
  the host's single-precision functions.
-/

namespace NeuronFleet

------------------------------------------------------------
-- The type
------------------------------------------------------------

/- A binary32 number, kept as its bits. -/
structure F32 where
  bits : UInt32
  deriving DecidableEq, Repr, Inhabited

namespace F32

/- The format of the bits. -/
abbrev format : Binary.Format := Binary.Format.single

/- The datum with the given bits, reduced to 32 bits. -/
def ofNatBits (n : Nat) : F32 := ⟨n.toUInt32⟩

/- What the bits stand for. -/
def value (x : F32) : Binary.Value := format.decode x.bits.toNat

def zero : F32 := ⟨0⟩
def negZero : F32 := ⟨0x80000000⟩
def one : F32 := ⟨0x3F800000⟩
def infinity : F32 := ⟨0x7F800000⟩
def negInfinity : F32 := ⟨0xFF800000⟩
def nan : F32 := ⟨0x7FC00000⟩

/- The smallest positive normal number, `2 ^ -126`. -/
def minPositive : F32 := ⟨0x00800000⟩

instance : OfNat F32 0 := ⟨zero⟩
instance : OfNat F32 1 := ⟨one⟩

/- True for NaN. -/
def isNaN (x : F32) : Bool := x.value == .nan

/- True for the infinities. -/
def isInfinite (x : F32) : Bool :=
  match x.value with
  | .infinite _ => true
  | _ => false

/- True for numbers that are neither NaN nor infinite. -/
def isFinite (x : F32) : Bool :=
  match x.value with
  | .finite _ _ => true
  | _ => false

/- True when the sign bit is set (also for `-0` and negative NaNs). -/
def signBit (x : F32) : Bool := x.bits ≥ 0x80000000

------------------------------------------------------------
-- Arithmetic
------------------------------------------------------------

def add (x y : F32) : F32 := ofNatBits (format.add x.bits.toNat y.bits.toNat)
def sub (x y : F32) : F32 := ofNatBits (format.sub x.bits.toNat y.bits.toNat)
def mul (x y : F32) : F32 := ofNatBits (format.mul x.bits.toNat y.bits.toNat)
def div (x y : F32) : F32 := ofNatBits (format.div x.bits.toNat y.bits.toNat)
def rem (x y : F32) : F32 := ofNatBits (format.rem x.bits.toNat y.bits.toNat)
def neg (x : F32) : F32 := ⟨x.bits ^^^ 0x80000000⟩
def abs (x : F32) : F32 := ⟨x.bits &&& 0x7FFFFFFF⟩
def sqrt (x : F32) : F32 := ofNatBits (format.sqrt x.bits.toNat)

instance : Add F32 := ⟨add⟩
instance : Sub F32 := ⟨sub⟩
instance : Mul F32 := ⟨mul⟩
instance : Div F32 := ⟨div⟩
instance : Mod F32 := ⟨rem⟩
instance : Neg F32 := ⟨neg⟩

/- `x < y`; false when either is NaN. -/
def lt (x y : F32) : Bool := format.lt x.bits.toNat y.bits.toNat

/- `x ≤ y`; false when either is NaN. -/
def le (x y : F32) : Bool := format.le x.bits.toNat y.bits.toNat

/- Numeric equality: false when either is NaN, true for `0` and `-0`. -/
def beq (x y : F32) : Bool := format.eq x.bits.toNat y.bits.toNat

instance : BEq F32 := ⟨beq⟩

/- How `x` compares with `y`; none when either is NaN. -/
def partialCmp (x y : F32) : Option Ordering := format.compare x.bits.toNat y.bits.toNat

/- The larger of two numbers, ignoring a NaN operand; of two equal
numbers the first. -/
def max (x y : F32) : F32 :=
  if x.isNaN then y
  else if y.isNaN then x
  else if lt x y then y else x

/- The nearest single-precision number to a natural number. -/
def ofNat (n : Nat) : F32 := ofNatBits (format.ofScaled false n 0)

/- The nearest single-precision number to `±m · 2 ^ e`. -/
def ofScaled
    (negative : Bool)
    (m : Nat)
    (e : Int) :
    F32 :=
  ofNatBits (format.ofScaled negative m e)

/- Sum of a list from left to right, starting at `0`. -/
def sum (xs : List F32) : F32 := xs.foldl (· + ·) 0

------------------------------------------------------------
-- Functions of the host
------------------------------------------------------------

/- `e ^ x`. -/
def exp (x : F32) : F32 := ⟨(Float32.ofBits x.bits).exp.toBits⟩

/- The natural logarithm. -/
def log (x : F32) : F32 := ⟨(Float32.ofBits x.bits).log.toBits⟩

/- The cosine. -/
def cos (x : F32) : F32 := ⟨(Float32.ofBits x.bits).cos.toBits⟩

/- π rounded to single precision. -/
def pi : F32 := ⟨0x40490FDB⟩

end F32

end NeuronFleet
