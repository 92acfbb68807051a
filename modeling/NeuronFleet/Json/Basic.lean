import NeuronFleet.Number.Layout

/-
  JSON values and their compact text.

  Objects keep their members in order: the order of a written document
  is part of its text.  Numbers come in three kinds, because a document
  distinguishes integers from floating values and writes a
  single-precision value with its own shortest digits.  The text is the
  compact form (no blanks); a string escapes the quote, the backslash
  and the control characters, and nothing else.

  Main definitions:
    * `Json` : a value
    * `Json.write` : its compact text
-/

namespace NeuronFleet

------------------------------------------------------------
-- Values
------------------------------------------------------------

/- A JSON value. -/
inductive Json where
  -- `null`
  | null
  -- `true` or `false`
  | bool (b : Bool)
  -- an integer
  | int (n : Int)
  -- A double-precision number
  | double (x : F64)
  -- A single-precision number, written with its own shortest digits
  | single (x : F32)
  -- A string
  | str (s : String)
  -- an array
  | arr (items : List Json)
  -- an object, members in order
  | obj (members : List (String × Json))
  deriving Repr, Inhabited

namespace Json

/- A natural number. -/
def nat (n : Nat) : Json := .int n

/- The member of an object under a key, the first one if repeated. -/
def field?
    (j : Json)
    (key : String) :
    Option Json :=
  match j with
  | .obj members => members.lookup key
  | _ => none

------------------------------------------------------------
-- Writing
------------------------------------------------------------

/- Numbers in documents: positional from `1e-5` to below `1e16` (`1e13`
for singles), integral values keep `.0`, exponents are written `e+N`
and `e-N`.  Non-finite numbers have no JSON text and are written
`null`. -/
def doubleLayout : Decimal.Layout :=
  { positionalFrom := -5, positionalTo := 15, pointZero := true
    positiveExponentMark := "e+", negativeExponentMark := "e-"
    pointZeroInExponent := false
    nanText := "null", infinityText := "null", negInfinityText := "null"
    zeroText := "0.0", signedZero := true }

/- The single-precision variant of `doubleLayout`. -/
def singleLayout : Decimal.Layout := { doubleLayout with positionalTo := 12 }

/- The hexadecimal digit of a value below sixteen, lower case. -/
def hexDigit (n : Nat) : Char :=
  if n < 10 then Char.ofNat (n + 48) else Char.ofNat (n + 87)

/- The escaped form of one character inside a string. -/
def escapeChar (c : Char) : String :=
  if c = '"' then "\\\""
  else if c = '\\' then "\\\\"
  else if c = '\n' then "\\n"
  else if c = '\r' then "\\r"
  else if c = '\t' then "\\t"
  else if c.toNat = 8 then "\\b"
  else if c.toNat = 12 then "\\f"
  else if c.toNat < 32 then
    "\\u00" ++ String.singleton (hexDigit (c.toNat / 16)) ++ String.singleton (hexDigit (c.toNat % 16))
  else String.singleton c

/- A string as a JSON string literal. -/
def quote (s : String) : String :=
  "\"" ++ String.join (s.toList.map escapeChar) ++ "\""

mutual

/- The compact text of a value. -/
def write : Json → String
  | .null => "null"
  | .bool b => if b then "true" else "false"
  | .int n => toString n
  | .double x => doubleLayout.writeF64 x
  | .single x => singleLayout.writeF32 x
  | .str s => quote s
  | .arr items => "[" ++ writeItems items ++ "]"
  | .obj members => "\x7b" ++ writeMembers members ++ "\x7d"

/- Array items, comma separated. -/
def writeItems : List Json → String
  | [] => ""
  | [x] => write x
  | x :: rest => write x ++ "," ++ writeItems rest

/- Object members, comma separated. -/
def writeMembers : List (String × Json) → String
  | [] => ""
  | [(k, v)] => quote k ++ ":" ++ write v
  | (k, v) :: rest => quote k ++ ":" ++ write v ++ "," ++ writeMembers rest

end

end Json

end NeuronFleet
