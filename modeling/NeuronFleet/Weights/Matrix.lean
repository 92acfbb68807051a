import NeuronFleet.Weights.Row

/-
  The square weight matrix of a fleet.

  Entry `(i, j)` is the weight peer `i` puts on peer `j`; the entries
  are stored row by row.  A matrix read from a document may hold more
  or fewer entries than `n * n`: the extra ones are carried along
  unseen, and `isShort` tells a matrix that lacks some (reading one of
  its rows cannot succeed).  Growing keeps every entry and adds zero
  rows and columns; setting a row needs an index in range and a row of
  width `n`.

  Main definitions:
    * `WeightMatrix`, `WeightMatrix.zeros`, `WeightMatrix.ofRows`
    * `WeightMatrix.get?`, `WeightMatrix.row?`, `WeightMatrix.column?`
    * `WeightMatrix.setRow`, `WeightMatrix.grow`, `WeightMatrix.rows`, `WeightMatrix.rows?`
-/

namespace NeuronFleet

------------------------------------------------------------
-- Matrices
------------------------------------------------------------

/- An `n × n` matrix of weights, stored row by row. -/
structure WeightMatrix where
  n : Nat
  data : List F32
  deriving Repr, Inhabited

namespace WeightMatrix

/- The `n × n` zero matrix. -/
def zeros (n : Nat) : WeightMatrix := ⟨n, List.replicate (n * n) 0⟩

/- The matrix of a list of rows; every row needs as many entries as
there are rows. -/
def ofRows (rows : List (List F32)) : Outcome WeightMatrix := do
  let n := rows.length
  for (row, i) in rows.zipIdx do
    if row.length ≠ n then
      throw (.metagraph ("row " ++ toString i ++ " has " ++ toString row.length ++
        " entries, expected " ++ toString n))
  return ⟨n, rows.flatten⟩

/- True when the stored entries do not cover the matrix. -/
def isShort (m : WeightMatrix) : Bool := m.data.length < m.n * m.n

/- Entry `(i, j)`, none outside the matrix. -/
def get?
    (m : WeightMatrix)
    (i j : Nat) :
    Option F32 :=
  if i < m.n ∧ j < m.n then some (m.data.getD (i * m.n + j) 0) else none

/- Row `i`, none outside the matrix. -/
def row?
    (m : WeightMatrix)
    (i : Nat) :
    Option (List F32) :=
  if i < m.n then some ((m.data.drop (i * m.n)).take m.n) else none

/- Column `j`, none outside the matrix. -/
def column?
    (m : WeightMatrix)
    (j : Nat) :
    Option (List F32) :=
  if j < m.n then some ((List.range m.n).map fun i => m.data.getD (i * m.n + j) 0) else none

/- All rows, top to bottom. -/
def rows (m : WeightMatrix) : List (List F32) :=
  (List.range m.n).map fun i => (m.data.drop (i * m.n)).take m.n

/- All rows, when the stored entries cover the matrix; reading the
rows of a short matrix cannot succeed. -/
def rows? (m : WeightMatrix) : Option (List (List F32)) :=
  if m.isShort then none else some m.rows

/- Replaces row `i` by `r`, which needs `n` entries. -/
def setRow
    (m : WeightMatrix)
    (i : Nat)
    (r : List F32) :
    Outcome WeightMatrix :=
  if i < m.n ∧ r.length = m.n then
    .ok { m with data := m.data.take (i * m.n) ++ r ++ m.data.drop ((i + 1) * m.n) }
  else
    .error (.metagraph ("cannot set row " ++ toString i ++ " of width " ++ toString r.length ++
      " in a " ++ toString m.n ++ "x" ++ toString m.n ++ " matrix"))

/- Grows to `n' × n'` when that is larger, keeping every entry and
filling the new rows and columns with zeros; otherwise unchanged. -/
def grow
    (m : WeightMatrix)
    (n' : Nat) :
    WeightMatrix :=
  if n' ≤ m.n then m
  else
    let old := (m.rows).map fun r => r ++ List.replicate (n' - m.n) 0
    ⟨n', old.flatten ++ List.replicate ((n' - m.n) * n') 0⟩

end WeightMatrix

end NeuronFleet
