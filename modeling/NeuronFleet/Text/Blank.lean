/-
  Blank characters and trimming.

  A blank is a character of the Unicode `White_Space` property: the
  ASCII tab, line feed, vertical tab, form feed, carriage return and
  space, the next-line control, the no-break spaces, the ogham space
  mark, the typographic spaces, the line and paragraph separators, the
  medium mathematical space and the ideographic space.  Trimming drops
  blanks at both ends.

  Main definitions:
    * `Text.isBlank`, `Text.trim`, `Text.isAllBlank`
    * `Text.pieces` : the pieces of a string between a separator
    * `Text.readUnsigned` : a decimal natural number with an optional `+`
-/

namespace NeuronFleet

namespace Text

/- Characters of the Unicode `White_Space` property. -/
def isBlank (c : Char) : Bool :=
  let n := c.toNat
  (9 ≤ n && n ≤ 13) || n == 32 || n == 0x85 || n == 0xA0 || n == 0x1680
    || (0x2000 ≤ n && n ≤ 0x200A) || n == 0x2028 || n == 0x2029 || n == 0x202F
    || n == 0x205F || n == 0x3000

/- Drops blanks at both ends. -/
def trim (s : String) : String :=
  String.ofList ((s.toList.dropWhile isBlank).reverse.dropWhile isBlank).reverse

/- True when every character is blank (also for the empty string). -/
def isAllBlank (s : String) : Bool := s.toList.all isBlank

/- The pieces of a string between the occurrences of a separator, in
order: `n` separators give `n + 1` pieces, empty ones included. -/
def pieces
    (sep : Char)
    (s : String) :
    List String := (s.toList.splitOn sep).map String.ofList

/- Value of decimal digits, `none` when there are none or a character
is not an ASCII digit. -/
def readDigits (cs : List Char) : Option Nat :=
  if cs.isEmpty then none
  else if cs.all Char.isDigit then some (cs.foldl (fun n c => 10 * n + (c.toNat - 48)) 0)
  else none

/- A natural number up to `max` written in ASCII decimal digits, with
an optional leading `+`; leading zeros are allowed. -/
def readUnsigned
    (s : String)
    (max : Nat) :
    Option Nat :=
  let digits := match s.toList with
    | '+' :: rest => rest
    | cs => cs
  match readDigits digits with
  | some n => if n ≤ max then some n else none
  | none => none

end Text

end NeuronFleet
