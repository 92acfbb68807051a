import NeuronFleet.Proofs.Metagraph.Changes

/-
  The weight matrix as a square matrix of weights.

  A `SquareMatrix` is a size and a function of two indices; only its
  entries below the size in both indices are its own.  A stored matrix
  represents one when its `n` is the size, it stores `n * n` entries,
  and entry `(i, j)` is stored at `i * n + j`.  The zero matrix and a
  matrix made from rows represent the square matrices they are built
  as; reading an entry, a row or a column of a represented matrix reads
  the square matrix; and setting a row, growing, and so any sequence of
  those, keeps the stored matrix representing the square matrix changed
  the same way: a row set replaces exactly that row, a growth keeps
  every entry and adds zeros, and a refused row changes nothing.

  Main declarations:
    * `SquareMatrix`, `MatrixOp`, `WeightMatrix.Represents`
    * `WeightMatrix.ofRows_eq`, `WeightMatrix.represents_ofRows`
    * `WeightMatrix.Represents.setRow`, `WeightMatrix.Represents.grow`
    * `WeightMatrix.Represents.performAll`
    * `WeightMatrix.built_matrix_refines_square`
-/

namespace NeuronFleet

------------------------------------------------------------
-- Square Matrices
------------------------------------------------------------

/- An `n × n` matrix of weights as a function of its indices. -/
structure SquareMatrix where
  n : Nat
  entry : Nat → Nat → F32

/- A call that may change a weight matrix. -/
inductive MatrixOp where
  | setRow (i : Nat) (r : List F32)
  | grow (n : Nat)

namespace SquareMatrix

/- The `n × n` zero matrix. -/
def zeros (n : Nat) : SquareMatrix := ⟨n, fun _ _ => 0⟩

/- The matrix whose row `i` is `rows[i]`. -/
def ofRows (rows : List (List F32)) : SquareMatrix :=
  ⟨rows.length, fun i j => (rows.getD i []).getD j 0⟩

/- Entry `(i, j)`, none outside the matrix. -/
def get?
    (M : SquareMatrix)
    (i j : Nat) :
    Option F32 :=
  if i < M.n ∧ j < M.n then some (M.entry i j) else none

/- Row `i`, from its first column to its last. -/
def row
    (M : SquareMatrix)
    (i : Nat) :
    List F32 := (List.range M.n).map (M.entry i)

/- Column `j`, from its first row to its last. -/
def column
    (M : SquareMatrix)
    (j : Nat) :
    List F32 := (List.range M.n).map fun i => M.entry i j

/- Row `i` replaced by `r`. -/
def setRow
    (M : SquareMatrix)
    (i : Nat)
    (r : List F32) :
    SquareMatrix :=
  ⟨M.n, fun a b => if a = i then r.getD b 0 else M.entry a b⟩

/- Grown to `n' × n'` when that is larger: the old entries, and zeros
in every new row and column. -/
def grow
    (M : SquareMatrix)
    (n' : Nat) :
    SquareMatrix :=
  if n' ≤ M.n then M else ⟨n', fun a b => if a < M.n ∧ b < M.n then M.entry a b else 0⟩

/- A call on the matrix; a row is set only at an index in range and of
the matrix's width. -/
def perform (M : SquareMatrix) : MatrixOp → SquareMatrix
  | .setRow i r => if i < M.n ∧ r.length = M.n then M.setRow i r else M
  | .grow n' => M.grow n'

end SquareMatrix

namespace WeightMatrix

/- A call on the stored matrix; a refused row leaves it as it was. -/
def perform (m : WeightMatrix) : MatrixOp → WeightMatrix
  | .setRow i r => match m.setRow i r with
    | .ok m' => m'
    | .error _ => m
  | .grow n' => m.grow n'

/- The stored matrix holds exactly the entries of `M`, row by row. -/
structure Represents (m : WeightMatrix) (M : SquareMatrix) : Prop where
  n_eq : m.n = M.n
  length_eq : m.data.length = M.n * M.n
  entry_eq : ∀ i j, i < M.n → j < M.n → m.data.getD (i * M.n + j) 0 = M.entry i j

------------------------------------------------------------
-- Building
------------------------------------------------------------

theorem represents_zeros (n : Nat) : (zeros n).Represents (.zeros n) :=
  ⟨rfl, by simp [zeros, SquareMatrix.zeros], fun i j _ _ => by simp [zeros, SquareMatrix.zeros]⟩

/- Making a matrix from rows checks them in order and stops at the first
row whose width is not the number of rows. -/
theorem ofRows_eq (rows : List (List F32)) :
    ofRows rows = match rows.zipIdx.find? (fun x => x.1.length ≠ rows.length) with
      | some (row, i) => .error (.metagraph ("row " ++ toString i ++ " has " ++ toString row.length ++
          " entries, expected " ++ toString rows.length))
      | none => .ok ⟨rows.length, rows.flatten⟩ := by
  unfold ofRows
  simp only [bind, Except.bind, pure, Except.pure]
  -- the check runs over the numbered rows with the width fixed
  generalize rows.zipIdx = L
  induction L with
  | nil => rfl
  | cons x L ih =>
      obtain ⟨row, i⟩ := x
      by_cases hRow : row.length = rows.length
      · simpa [hRow, bind, Except.bind] using ih
      · simp [hRow, throw, throwThe, MonadExceptOf.throw, bind, Except.bind]

theorem ofRows_eq_ok_iff
    {rows : List (List F32)}
    {m : WeightMatrix} :
    ofRows rows = .ok m ↔ (∀ r ∈ rows, r.length = rows.length) ∧ m = ⟨rows.length, rows.flatten⟩ := by
  rw [ofRows_eq]
  cases hFind : rows.zipIdx.find? (fun x => x.1.length ≠ rows.length) with
  | some x =>
      -- a row of another width is found, so the rows fail the check
      obtain ⟨hBad, hMem⟩ := List.find?_some hFind, List.mem_of_find?_eq_some hFind
      obtain ⟨row, i⟩ := x
      have hRow : row ∈ rows := (List.mem_zipIdx hMem).2.2 ▸ List.getElem_mem _
      simp only [ne_eq, decide_not, Bool.not_eq_eq_eq_not, Bool.not_true,
        decide_eq_false_iff_not] at hBad
      simp only [reduceCtorEq, false_iff, not_and]
      exact fun hWidth => absurd (hWidth row hRow) hBad
  | none =>
      have hWidth : ∀ r ∈ rows, r.length = rows.length := by
        intro r hr
        obtain ⟨i, hi, rfl⟩ := List.getElem_of_mem hr
        have := List.find?_eq_none.mp hFind (rows[i], i) (List.mem_zipIdx_iff_getElem?.mpr (by simp))
        simpa using this
      simp only [Except.ok.injEq]
      exact ⟨fun h => ⟨hWidth, h.symm⟩, fun h => h.2.symm⟩

theorem represents_ofRows
    {rows : List (List F32)}
    {m : WeightMatrix}
    (h : ofRows rows = .ok m) :
    m.Represents (.ofRows rows) := by
  obtain ⟨hWidth, rfl⟩ := ofRows_eq_ok_iff.mp h
  refine ⟨rfl, ?_, fun i j _ hj => List.getD_flatten_of_length_eq hWidth hj i⟩
  rw [List.length_flatten, List.map_congr_left hWidth, List.map_const', List.sum_replicate_nat]
  rfl

theorem grow_of_le
    {m : WeightMatrix}
    {n' : Nat}
    (hLe : n' ≤ m.n) :
    m.grow n' = m := by
  unfold WeightMatrix.grow
  rw [if_pos hLe]

------------------------------------------------------------
-- Reading
------------------------------------------------------------

namespace Represents

variable {m : WeightMatrix} {M : SquareMatrix}

theorem not_isShort (h : m.Represents M) : m.isShort = false := by
  rw [isShort_eq_false_iff, h.length_eq, h.n_eq]

theorem get?
    (h : m.Represents M)
    (i j : Nat) :
    m.get? i j = M.get? i j := by
  unfold WeightMatrix.get? SquareMatrix.get?
  rw [h.n_eq]
  split_ifs with hIn
  · rw [h.entry_eq i j hIn.1 hIn.2]
  · rfl

/- The stored row `i` is the square matrix's row `i`. -/
theorem row_eq
    (h : m.Represents M)
    {i : Nat}
    (hi : i < M.n) :
    (m.data.drop (i * m.n)).take m.n = M.row i := by
  have hLength := length_row_of_covered h.not_isShort (h.n_eq ▸ hi)
  apply List.ext_getElem (by rw [hLength, h.n_eq]; simp [SquareMatrix.row])
  intro j hj _
  have hj' : j < m.n := hLength ▸ hj
  rw [← List.getD_eq_getElem _ 0 hj, getD_row hj', h.n_eq, h.entry_eq i j hi (h.n_eq ▸ hj')]
  simp [SquareMatrix.row]

theorem row?
    (h : m.Represents M)
    (i : Nat) :
    m.row? i = if i < M.n then some (M.row i) else none := by
  unfold WeightMatrix.row?
  rw [h.n_eq]
  split_ifs with hi
  · rw [← h.n_eq, h.row_eq hi]
  · rfl

theorem column?
    (h : m.Represents M)
    (j : Nat) :
    m.column? j = if j < M.n then some (M.column j) else none := by
  unfold WeightMatrix.column?
  rw [h.n_eq]
  split_ifs with hj
  · congr 1
    apply List.map_congr_left
    intro i hi
    exact h.entry_eq i j (List.mem_range.mp hi) hj
  · rfl

------------------------------------------------------------
-- Setting Rows and Growing
------------------------------------------------------------

theorem setRow_isOk_iff
    (h : m.Represents M)
    (i : Nat)
    (r : List F32) :
    (∃ m', m.setRow i r = .ok m') ↔ i < M.n ∧ r.length = M.n := by
  rw [← h.n_eq]
  constructor
  · rintro ⟨m', hSet⟩
    exact setRow_eq_ok hSet
  · rintro ⟨hi, hr⟩
    obtain ⟨m', hSet, -⟩ := setRow_ok h.not_isShort hi hr
    exact ⟨m', hSet⟩

/- Setting row `i` replaces that row of the square matrix and no other entry. -/
theorem setRow
    (h : m.Represents M)
    {i : Nat}
    {r : List F32}
    {m' : WeightMatrix}
    (hSet : m.setRow i r = .ok m') :
    m'.Represents (M.setRow i r) := by
  obtain ⟨hi, hr⟩ := setRow_eq_ok hSet
  obtain ⟨m'', hSet', hWidth, -, hRow⟩ := setRow_ok h.not_isShort hi hr
  have hSame : m'' = m' := Except.ok.inj (hSet'.symm.trans hSet)
  rw [hSame] at hWidth hRow
  have hn : m'.n = M.n := hWidth.trans h.n_eq
  refine ⟨hn, by rw [length_setRow_data h.not_isShort hSet, h.length_eq]; rfl, fun a b ha hb => ?_⟩
  simp only [SquareMatrix.setRow]
  split_ifs with hIs
  · -- the row set: its entries are those of `r`
    have hTaken : (m'.data.drop (i * m'.n)).take m'.n = r :=
      Option.some.inj ((row?_of_lt (by rw [hWidth]; exact hi)).symm.trans hRow)
    rw [hIs, ← hn, ← getD_row (hn ▸ hb), hTaken]
  · -- another row: its entries are kept
    have hKept := get?_setRow_of_ne h.not_isShort hSet hIs b
    rw [WeightMatrix.get?_of_lt (hn ▸ ha) (hn ▸ hb), WeightMatrix.get?_of_lt (h.n_eq ▸ ha) (h.n_eq ▸ hb),
      Option.some.injEq, hn, h.n_eq] at hKept
    rw [hKept, h.entry_eq a b ha hb]

/- Growing keeps every entry and fills the new rows and columns with zeros. -/
theorem grow
    (h : m.Represents M)
    (n' : Nat) :
    (m.grow n').Represents (M.grow n') := by
  by_cases hLe : n' ≤ M.n
  · rw [grow_of_le (h.n_eq ▸ hLe), SquareMatrix.grow, if_pos hLe]
    exact h
  · have hGrow : m.n < n' := by rw [h.n_eq]; omega
    have hWidth : (m.grow n').n = n' := by rw [grow_n]; omega
    simp only [SquareMatrix.grow, if_neg hLe]
    refine ⟨hWidth, length_grow_data h.not_isShort hGrow, fun a b ha hb => ?_⟩
    have hEntry := get?_grow h.not_isShort hGrow ha hb
    rw [get?_of_lt (by rw [hWidth]; exact ha) (by rw [hWidth]; exact hb), hWidth,
      Option.some.injEq, h.n_eq] at hEntry
    rw [hEntry]
    dsimp only
    split_ifs with hOld
    · exact h.entry_eq a b hOld.1 hOld.2
    · rfl

/- One call keeps the stored matrix representing the square matrix: a row
set where the square matrix sets it, and a refused row nowhere. -/
theorem perform (h : m.Represents M) : ∀ op, (m.perform op).Represents (M.perform op)
  | .setRow i r => by
      cases hSet : m.setRow i r with
      | ok m' =>
          obtain ⟨hi, hr⟩ := setRow_eq_ok hSet
          have hFits : i < M.n ∧ r.length = M.n := by rw [← h.n_eq]; exact ⟨hi, hr⟩
          simp only [WeightMatrix.perform, SquareMatrix.perform, hSet, if_pos hFits]
          exact h.setRow hSet
      | error e =>
          have hRefused : ¬(i < M.n ∧ r.length = M.n) := fun hFits => by
            obtain ⟨m', hOk⟩ := (h.setRow_isOk_iff i r).mpr hFits
            rw [hSet] at hOk
            cases hOk
          simp only [WeightMatrix.perform, SquareMatrix.perform, hSet, if_neg hRefused]
          exact h
  | .grow n' => h.grow n'

/- Any sequence of calls keeps the stored matrix representing the square
matrix the same calls make. -/
theorem performAll
    (h : m.Represents M)
    (ops : List MatrixOp) :
    (ops.foldl WeightMatrix.perform m).Represents (ops.foldl SquareMatrix.perform M) := by
  induction ops generalizing m M with
  | nil => exact h
  | cons op rest ih => exact ih (h.perform op)

end Represents

------------------------------------------------------------
-- Built Matrices
------------------------------------------------------------

/-
  A weight matrix built from zeros or from rows, then changed by any
  sequence of row writes and growths, is the square matrix built and
  changed the same way: it stores `n * n` entries, reads back the square
  matrix's entries, rows and columns, sets a row exactly when the index
  is in range and the row is as wide as the matrix, and then replaces
  that row only, and grows by keeping every entry and adding zeros.
-/
theorem built_matrix_refines_square
    (ops : List MatrixOp)
    (rows : List (List F32)) :
    (∀ n, (ops.foldl perform (zeros n)).Represents (ops.foldl SquareMatrix.perform (.zeros n))) ∧
    ((∃ m, ofRows rows = .ok m) ↔ ∀ r ∈ rows, r.length = rows.length) ∧
    (∀ m, ofRows rows = .ok m →
      (ops.foldl perform m).Represents (ops.foldl SquareMatrix.perform (.ofRows rows))) ∧
    ∀ (m : WeightMatrix) (M : SquareMatrix), m.Represents M →
      m.data.length = m.n * m.n ∧
      (∀ i j, m.get? i j = M.get? i j) ∧
      (∀ i, m.row? i = if i < M.n then some (M.row i) else none) ∧
      (∀ j, m.column? j = if j < M.n then some (M.column j) else none) ∧
      (∀ i r, (∃ m', m.setRow i r = .ok m') ↔ i < M.n ∧ r.length = M.n) ∧
      (∀ i r m', m.setRow i r = .ok m' → m'.Represents (M.setRow i r)) ∧
      ∀ n', (m.grow n').Represents (M.grow n') ∧ (n' ≤ m.n → m.grow n' = m) := by
  refine ⟨fun n => (represents_zeros n).performAll ops, ?_,
    fun m hRows => (represents_ofRows hRows).performAll ops, fun m M h => ?_⟩
  · constructor
    · rintro ⟨m, hRows⟩
      exact (ofRows_eq_ok_iff.mp hRows).1
    · intro hWidth
      exact ⟨_, ofRows_eq_ok_iff.mpr ⟨hWidth, rfl⟩⟩
  · refine ⟨by rw [h.length_eq, h.n_eq], h.get?, h.row?, h.column?, h.setRow_isOk_iff,
      fun i r m' hSet => h.setRow hSet, fun n' => ⟨h.grow n', grow_of_le⟩⟩

theorem grown_matrix_reads_set_row :
    ∃ m, ofRows [[1]] = .ok m ∧
      ([.grow 3, .setRow 1 [0, 0, 1]].foldl perform m).column? 2 = some [0, 1, 0] := by
  have hRows : ofRows [[(1 : F32)]] = .ok ⟨1, [1]⟩ := rfl
  obtain ⟨-, -, hBuilt, hRead⟩ := built_matrix_refines_square [.grow 3, .setRow 1 [0, 0, 1]] [[1]]
  obtain ⟨-, -, -, hColumn, -⟩ := hRead _ _ (hBuilt _ hRows)
  refine ⟨_, hRows, ?_⟩
  rw [hColumn 2]
  decide

end WeightMatrix

end NeuronFleet
