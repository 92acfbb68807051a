import NeuronFleet.Number.Double
import NeuronFleet.Error

/-
  Weight rows: the trust a neuron puts in each peer.

  A row is a list of single-precision weights.  Sums run from left to
  right starting at `-0`, so the sum of no weights is `-0`.
  Normalising clears NaN, infinite and negative weights, then divides by
  the L1 norm; a row whose norm is below `1e-12` becomes uniform.
  Smoothing moves a row a fraction `α` toward a contribution of the
  same length; the mean of a batch clamps negative weights to zero and
  refuses a row of another width (before looking at its values) or a
  row with a NaN or infinite weight.

  Main definitions:
    * `WeightRow.sum`, `WeightRow.l1Norm`
    * `WeightRow.uniform`, `WeightRow.normalize`, `WeightRow.smoothToward`,
      `WeightRow.batchMean`, `WeightRow.absorb`
-/

namespace NeuronFleet

namespace WeightRow

------------------------------------------------------------
-- Sums
------------------------------------------------------------

/- Sum from left to right, starting at `-0`. -/
def sum (r : List F32) : F32 := r.foldl (· + ·) F32.negZero

/- Sum of absolute values, from left to right, starting at `-0`. -/
def l1Norm (r : List F32) : F32 := sum (r.map F32.abs)

/- Norms below this are treated as zero. -/
def epsilon : F32 := ⟨0x2B8CBCCC⟩

------------------------------------------------------------
-- Rows
------------------------------------------------------------

/- `len` zeros. -/
def zeros (len : Nat) : List F32 := List.replicate len 0

/- `len` copies of `1 / len`; no weights for length zero. -/
def uniform (len : Nat) : List F32 :=
  if len = 0 then [] else List.replicate len (1 / F32.ofNat len)

/- Clears NaN, infinite and negative weights, then scales to L1 norm
one; a row with norm below `epsilon` becomes uniform. -/
def normalize (r : List F32) : List F32 :=
  let cleared := r.map fun v => if !v.isFinite || F32.lt v 0 then 0 else v
  let norm := l1Norm cleared
  if F32.lt norm epsilon then uniform r.length
  else cleared.map (· / norm)

/- `(1 - α) · row + α · target`, entry by entry. -/
def smoothToward
    (row target : List F32)
    (alpha : F32) :
    Outcome (List F32) :=
  if target.length ≠ row.length then
    .error (.invalidInput ("weight contribution has " ++ toString target.length ++
      " entries, row has " ++ toString row.length))
  else .ok (List.zipWith (fun w t => (1 - alpha) * w + alpha * t) row target)

/- Adds a batch row into the running column sums, clamping negative
weights to zero; `i` is the row's index, for messages. -/
def addBatchRow
    (width i : Nat)
    (sums row : List F32) :
    Outcome (List F32) :=
  if row.length ≠ width then
    .error (.invalidInput ("batch row " ++ toString i ++ " has " ++ toString row.length ++
      " entries, expected " ++ toString width))
  else if row.any (fun v => !v.isFinite) then
    .error (.invalidInput ("batch row " ++ toString i ++ " contains a non-finite weight"))
  else .ok (List.zipWith (fun m v => m + v.max 0) sums row)

/- Column means of a batch of rows of the given width, negative weights
counted as zero. -/
def batchMean
    (rows : List (List F32))
    (width : Nat) :
    Outcome (List F32) := do
  if rows.isEmpty then throw (.invalidInput "empty batch weights")
  let sums ← (rows.zipIdx).foldlM (fun acc (row, i) => addBatchRow width i acc row) (zeros width)
  let n := F32.ofNat rows.length
  return sums.map (· / n)

/- Pulls a row a fraction `α` toward the mean of a batch of rows of its
width, then normalises it. -/
def absorb
    (row : List F32)
    (batch : List (List F32))
    (alpha : F32) :
    Outcome (List F32) := do
  let mean ← batchMean batch row.length
  return normalize (← smoothToward row mean alpha)

end WeightRow

end NeuronFleet
