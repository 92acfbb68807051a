/-
  Sets of characters given by their ranges.

  A Unicode property is a set of code points made of runs of
  neighbours.  A `CharSet` keeps the sorted code points where
  membership changes (an inversion list): the first starts a run of
  members, the next ends it, and so on.  A code point is a member when
  an odd number of these bounds lies at or below it, which a binary
  search finds.

  Tables are written as text: hexadecimal numbers separated by blanks.

  Main definitions:
    * `Text.hexNumbers`, `Text.signedHexNumbers`
    * `Text.CharSet`, `Text.CharSet.contains`
-/

namespace NeuronFleet

namespace Text

------------------------------------------------------------
-- Tables as text
------------------------------------------------------------

/- Value of a hexadecimal digit; other characters count as zero. -/
def hexDigitValue (c : Char) : Nat :=
  if '0' ≤ c && c ≤ '9' then c.toNat - '0'.toNat
  else if 'a' ≤ c && c ≤ 'f' then c.toNat - 'a'.toNat + 10
  else if 'A' ≤ c && c ≤ 'F' then c.toNat - 'A'.toNat + 10
  else 0

/- Value of a word of hexadecimal digits. -/
def hexWordValue (w : List Char) : Nat :=
  w.foldl (fun n c => 16 * n + hexDigitValue c) 0

/- The words of a text, split at blanks. -/
def blankWords (s : String) : List (List Char) :=
  (s.toList.splitOn ' ').filter (!·.isEmpty)

/- The numbers of a text of hexadecimal words. -/
def hexNumbers (s : String) : Array Nat :=
  ((blankWords s).map hexWordValue).toArray

/- The numbers of a text of hexadecimal words, each with an optional
leading `-`. -/
def signedHexNumbers (s : String) : Array Int :=
  ((blankWords s).map fun
    | '-' :: w => -(hexWordValue w : Int)
    | w => (hexWordValue w : Int)).toArray

------------------------------------------------------------
-- Inversion lists
------------------------------------------------------------

/- A set of characters as the sorted code points where membership
changes, starting outside the set. -/
structure CharSet where
  bounds : Array Nat

namespace CharSet

/- The number of bounds at or below `n` among those from `lo` to
`hi`, when those are sorted and all before `lo` are at or below `n`,
found by halving. -/
def countAtMost
    (bounds : Array Nat)
    (n : Nat) :
    Nat → Nat → Nat → Nat
  | 0, lo, _ => lo
  | fuel + 1, lo, hi =>
    if lo < hi then
      let mid := lo + (hi - lo) / 2
      if bounds.getD mid 0 ≤ n then countAtMost bounds n fuel (mid + 1) hi
      else countAtMost bounds n fuel lo mid
    else lo

/- Whether a character is in the set: an odd number of bounds lies at
or below its code point. -/
def contains
    (s : CharSet)
    (c : Char) :
    Bool :=
  countAtMost s.bounds c.toNat (Nat.log2 s.bounds.size + 1) 0 s.bounds.size % 2 == 1

end CharSet

end Text

end NeuronFleet
