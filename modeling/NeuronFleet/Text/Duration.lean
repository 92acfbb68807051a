/-
  Durations as messages show them.

  A duration is written in the largest unit that leaves a non-zero
  whole part, among seconds, milliseconds, microseconds and
  nanoseconds, with its fraction in that unit written exactly and
  without trailing zeros: `1.5s`, `20ms`, `250µs`, `0ns`.

  Main definitions:
    * `Text.durationText`, `Text.millisText`
-/

namespace NeuronFleet

namespace Text

/- `whole` then, when `frac` (of `width` digits) is not zero, a point
and its digits without trailing zeros, then the unit. -/
def decimalText
    (whole frac width : Nat)
    (unit : String) :
    String :=
  let digits := (Nat.toDigits 10 frac)
  let padded := List.replicate (width - digits.length) '0' ++ digits
  let trimmed := (padded.reverse.dropWhile (· == '0')).reverse
  toString whole ++ (if trimmed.isEmpty then "" else "." ++ String.ofList trimmed) ++ unit

/- A duration given in nanoseconds. -/
def durationText (nanos : Nat) : String :=
  let secs := nanos / 1000000000
  let sub := nanos % 1000000000
  if secs > 0 then decimalText secs sub 9 "s"
  else if sub ≥ 1000000 then decimalText (sub / 1000000) (sub % 1000000) 6 "ms"
  else if sub ≥ 1000 then decimalText (sub / 1000) (sub % 1000) 3 "µs"
  else decimalText sub 0 1 "ns"

/- A duration given in milliseconds. -/
def millisText (ms : Nat) : String := durationText (ms * 1000000)

end Text

end NeuronFleet
