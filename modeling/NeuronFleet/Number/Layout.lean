import NeuronFleet.Number.Shortest

/-
  Writing a shortest decimal as text.

  The digits of a number are fixed by `Binary.Format.shortest`; how
  they are laid out is a decision of each output format, gathered in
  one `Layout` record: which decimal exponents are written
  positionally, whether an integral value keeps `.0`, how the exponent
  is marked, and the texts of NaN and the infinities.

  Main definitions:
    * `Layout.writeDigits` : sign, digits and exponent as text
    * `Layout.writeF64`, `Layout.writeF32` : a number as text
-/

namespace NeuronFleet

namespace Decimal

------------------------------------------------------------
-- Layouts
------------------------------------------------------------

/- The decisions of one textual format for numbers. -/
structure Layout where
  -- smallest exponent of the leading digit that is written positionally
  positionalFrom : Int
  -- largest exponent of the leading digit that is written positionally
  positionalTo : Int
  -- whether an integral value written positionally ends in `.0`
  pointZero : Bool
  -- the mark before a positive exponent: `e` or `e+`
  positiveExponentMark : String
  -- the mark before a negative exponent, sign included
  negativeExponentMark : String
  -- whether a one-digit significand in exponent notation keeps `.0`
  pointZeroInExponent : Bool
  nanText : String
  infinityText : String
  negInfinityText : String
  -- the text of a zero, sign excluded
  zeroText : String
  -- whether a negative zero shows its sign
  signedZero : Bool

/- `n` copies of the digit zero. -/
def zeros (n : Nat) : String := String.ofList (List.replicate n '0')

/- Lays out `±digits · 10 ^ exponent`, with `digits` free of trailing
zeros and positive. -/
def Layout.writeDigits
    (l : Layout)
    (negative : Bool)
    (d : Digits) :
    String :=
  let sign := if negative then "-" else ""
  let ds := String.ofList (digitChars d.digits)
  let len : Int := ds.length
  -- the exponent of the leading digit
  let lead : Int := d.exponent + len - 1
  if l.positionalFrom ≤ lead ∧ lead ≤ l.positionalTo then
    if d.exponent ≥ 0 then
      sign ++ ds ++ zeros d.exponent.toNat ++ (if l.pointZero then ".0" else "")
    else if lead ≥ 0 then
      let intLen := (lead + 1).toNat
      sign ++ String.ofList (ds.toList.take intLen) ++ "." ++ String.ofList (ds.toList.drop intLen)
    else
      sign ++ "0." ++ zeros (-lead - 1).toNat ++ ds
  else
    let mantissa :=
      if ds.length = 1 then (if l.pointZeroInExponent then ds ++ ".0" else ds)
      else String.ofList (ds.toList.take 1) ++ "." ++ String.ofList (ds.toList.drop 1)
    let mark := if lead < 0 then l.negativeExponentMark else l.positiveExponentMark
    sign ++ mantissa ++ mark ++ toString lead.natAbs

/- Writes a value of a format with the layout, digits by
`Format.shortest`. -/
def Layout.writeValue
    (l : Layout)
    (f : Binary.Format) :
    Binary.Value → String
  | .nan => l.nanText
  | .infinite negative => if negative then l.negInfinityText else l.infinityText
  | .finite negative m =>
    if m = 0 then (if negative ∧ l.signedZero then "-" else "") ++ l.zeroText
    else l.writeDigits negative (f.shortest m)

/- Writes a double with its own shortest digits. -/
def Layout.writeF64
    (l : Layout)
    (x : F64) :
    String := l.writeValue F64.format x.value

/- Writes a single with its own shortest digits (those of a single, not
of its widening to double). -/
def Layout.writeF32
    (l : Layout)
    (x : F32) :
    String := l.writeValue F32.format x.value

/- How a number displays as plain text: all its shortest digits, never
an exponent, no `.0` on integral values, and `NaN`, `inf`, `-inf`. -/
def displayLayout : Layout :=
  { positionalFrom := -400, positionalTo := 400, pointZero := false,
    positiveExponentMark := "e", negativeExponentMark := "e-", pointZeroInExponent := false,
    nanText := "NaN", infinityText := "inf", negInfinityText := "-inf", zeroText := "0",
    signedZero := true }

end Decimal

end NeuronFleet
