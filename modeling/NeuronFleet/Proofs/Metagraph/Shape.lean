import Mathlib
import NeuronFleet.Metagraph.State

/-
  Well-shaped shared states.

  A shared state is well shaped when its matrix is as wide as the list
  of neurons and its stored entries cover it.  The empty state is well
  shaped, and registering and applying a row keep it so.  In a
  well-shaped state every registered neuron's row can be replaced by
  any row no wider than the fleet, and reads back padded with zeros.

  Main declarations:
    * `SharedState.WellShaped`
    * `SharedState.register_wellShaped`, `SharedState.applyRow_wellShaped`
    * `SharedState.applyRow_ok`
-/

namespace NeuronFleet

------------------------------------------------------------
-- Rows and Columns of a Covered Matrix
------------------------------------------------------------

namespace WeightMatrix

theorem isShort_eq_false_iff
    (m : WeightMatrix) :
    m.isShort = false ↔ m.n * m.n ≤ m.data.length := by
  simp [isShort]

/- A row of a covered matrix has `n` entries. -/
theorem length_row_of_covered
    {m : WeightMatrix}
    {i : Nat}
    (hCover : m.isShort = false)
    (hi : i < m.n) :
    ((m.data.drop (i * m.n)).take m.n).length = m.n := by
  rw [isShort_eq_false_iff] at hCover
  have hRoom : (i + 1) * m.n ≤ m.n * m.n := Nat.mul_le_mul_right _ hi
  rw [Nat.succ_mul] at hRoom
  simp only [List.length_take, List.length_drop]
  omega

theorem row?_of_lt
    {m : WeightMatrix}
    {i : Nat}
    (hi : i < m.n) :
    m.row? i = some ((m.data.drop (i * m.n)).take m.n) := by
  simp [row?, hi]

theorem length_of_row?
    {m : WeightMatrix}
    {i : Nat}
    {r : List F32}
    (hCover : m.isShort = false)
    (hRow : m.row? i = some r) :
    r.length = m.n := by
  unfold row? at hRow
  split at hRow
  case isTrue hi =>
    cases hRow
    exact length_row_of_covered hCover hi
  case isFalse => cases hRow

theorem column?_of_lt
    {m : WeightMatrix}
    {j : Nat}
    (hj : j < m.n) :
    ∃ c, m.column? j = some c ∧ c.length = m.n :=
  ⟨(List.range m.n).map fun i => m.data.getD (i * m.n + j) 0,
    by simp [column?, hj], by simp⟩

/-
  Setting a row of the right width at an index in range succeeds: the
  matrix stays covered and the row reads back.
-/
theorem setRow_ok
    {m : WeightMatrix}
    {i : Nat}
    {r : List F32}
    (hCover : m.isShort = false)
    (hi : i < m.n)
    (hr : r.length = m.n) :
    ∃ m', m.setRow i r = .ok m' ∧ m'.n = m.n ∧ m'.isShort = false ∧
      m'.row? i = some r := by
  rw [isShort_eq_false_iff] at hCover
  have hRoom : (i + 1) * m.n ≤ m.n * m.n := Nat.mul_le_mul_right _ hi
  rw [Nat.succ_mul] at hRoom
  have hPrefix : (m.data.take (i * m.n)).length = i * m.n := by
    rw [List.length_take]
    omega
  refine ⟨{ m with data := m.data.take (i * m.n) ++ r ++ m.data.drop ((i + 1) * m.n) },
    by simp [setRow, hi, hr], rfl, ?_, ?_⟩
  · rw [isShort_eq_false_iff]
    simp only [List.length_append, List.length_drop, hPrefix, hr]
    rw [Nat.succ_mul]
    omega
  · unfold row?
    dsimp only
    rw [if_pos hi, List.append_assoc, List.drop_left' hPrefix,
      List.take_left' hr]

/- A row is set only at an index in range and to a row of the right width. -/
theorem setRow_eq_ok
    {m m' : WeightMatrix}
    {i : Nat}
    {r : List F32}
    (hSet : m.setRow i r = .ok m') :
    i < m.n ∧ r.length = m.n := by
  unfold setRow at hSet
  split at hSet
  case isTrue hFits => exact hFits
  case isFalse => cases hSet

theorem grow_n
    (m : WeightMatrix)
    (n' : Nat) :
    (m.grow n').n = max m.n n' := by
  unfold grow
  split
  case isTrue hLe => exact (Nat.max_eq_left hLe).symm
  case isFalse hGt =>
    show n' = max m.n n'
    omega

/- Growing a covered matrix gives a covered matrix. -/
theorem grow_covered
    {m : WeightMatrix}
    (hCover : m.isShort = false)
    (n' : Nat) :
    (m.grow n').isShort = false := by
  unfold grow
  split
  case isTrue => exact hCover
  case isFalse hGt =>
    -- every old row, padded, has `n'` entries
    have hPadded : ∀ r ∈ m.rows.map (fun r => r ++ List.replicate (n' - m.n) 0),
        r.length = n' := by
      intro r hr
      obtain ⟨row, hRow, rfl⟩ := List.mem_map.mp hr
      obtain ⟨i, hi, rfl⟩ := List.mem_map.mp hRow
      rw [List.length_append, List.length_replicate,
        length_row_of_covered hCover (List.mem_range.mp hi)]
      omega
    rw [isShort_eq_false_iff]
    apply Nat.le_of_eq
    simp only [List.length_append, List.length_flatten, List.length_replicate]
    rw [List.map_congr_left hPadded, List.map_const', List.sum_replicate_nat,
      List.length_map, rows, List.length_map, List.length_range,
      ← Nat.add_mul, Nat.add_sub_cancel' (by omega)]

end WeightMatrix

------------------------------------------------------------
-- Well-Shaped States
------------------------------------------------------------

namespace SharedState

/- The matrix is as wide as the list of neurons and its entries cover it. -/
def WellShaped
    (s : SharedState) : Prop :=
  s.weights.n = s.neurons.length ∧ s.weights.isShort = false

theorem empty_wellShaped :
    empty.WellShaped :=
  ⟨rfl, rfl⟩

theorem uidOf_lt
    {s : SharedState}
    {hotkey : String}
    {uid : Nat}
    (hUid : s.uidOf hotkey = some uid) :
    uid < s.neurons.length :=
  (List.idxOf?_eq_some_iff.mp hUid).1

/- A uid stays when neurons are only appended. -/
theorem uidOf_of_prefix
    {s t : SharedState}
    {hotkey : String}
    {uid : Nat}
    (hPrefix : s.neurons <+: t.neurons)
    (hUid : s.uidOf hotkey = some uid) :
    t.uidOf hotkey = some uid := by
  obtain ⟨extra, hExtra⟩ := hPrefix
  unfold uidOf at hUid ⊢
  rw [← hExtra]
  unfold List.idxOf? at hUid ⊢
  simp [List.findIdx?_append, hUid]

theorem register_neurons_prefix
    (s : SharedState)
    (hotkey : String) :
    s.neurons <+: (s.register hotkey).2.neurons := by
  unfold register
  split
  case h_1 => exact List.prefix_refl _
  case h_2 => exact List.prefix_append _ _

theorem register_wellShaped
    {s : SharedState}
    (hs : s.WellShaped)
    (hotkey : String) :
    (s.register hotkey).2.WellShaped := by
  unfold register
  split
  case h_1 => exact hs
  case h_2 =>
    refine ⟨?_, WeightMatrix.grow_covered hs.2 _⟩
    simp only [WeightMatrix.grow_n, hs.1, List.length_append, List.length_singleton]
    omega

/-
  What applying a row does: the neurons stay, and the row of the
  hotkey's uid is set to the row padded with zeros to the fleet.
-/
theorem applyRow_eq_ok
    {s s' : SharedState}
    {hotkey : String}
    {row : List F32}
    {version : UInt64}
    (hApply : s.applyRow hotkey row = .ok (version, s')) :
    s'.neurons = s.neurons ∧ ∃ uid, s.uidOf hotkey = some uid ∧
      s.weights.setRow uid
        (row ++ List.replicate (s.neurons.length - row.length) 0) =
          .ok s'.weights := by
  unfold applyRow at hApply
  cases hUid : s.uidOf hotkey with
  | none =>
      simp [hUid] at hApply
  | some uid =>
      cases hSet : s.weights.setRow uid
          (row ++ List.replicate (s.neurons.length - row.length) 0) with
      | error e =>
          simp [hUid, hSet] at hApply
          split at hApply <;> cases hApply
      | ok weights =>
          simp [hUid, hSet] at hApply
          split at hApply
          case isTrue => cases hApply
          case isFalse =>
            cases hApply
            exact ⟨rfl, uid, rfl, hSet⟩

theorem applyRow_wellShaped
    {s s' : SharedState}
    {hotkey : String}
    {row : List F32}
    {version : UInt64}
    (hs : s.WellShaped)
    (hApply : s.applyRow hotkey row = .ok (version, s')) :
    s'.WellShaped := by
  obtain ⟨hNeurons, uid, _, hSet⟩ := applyRow_eq_ok hApply
  obtain ⟨hi, hr⟩ := WeightMatrix.setRow_eq_ok hSet
  obtain ⟨m', hSet', hWidth, hCover, _⟩ := WeightMatrix.setRow_ok hs.2 hi hr
  rw [hSet] at hSet'
  cases hSet'
  exact ⟨by rw [hWidth, hs.1, hNeurons], hCover⟩

/-
  In a well-shaped state, the row of a registered hotkey can be replaced
  by any row no wider than the fleet; it reads back padded with zeros.
-/
theorem applyRow_ok
    {s : SharedState}
    {hotkey : String}
    {uid : Nat}
    {row : List F32}
    (hs : s.WellShaped)
    (hUid : s.uidOf hotkey = some uid)
    (hFits : row.length ≤ s.neurons.length) :
    ∃ s', s.applyRow hotkey row = .ok (s.version + 1, s') ∧
      s'.neurons = s.neurons ∧ s'.WellShaped ∧
      s'.weights.row? uid =
        some (row ++ List.replicate (s.neurons.length - row.length) 0) := by
  have hPadded :
      (row ++ List.replicate (s.neurons.length - row.length) 0).length =
        s.weights.n := by
    rw [List.length_append, List.length_replicate, hs.1]
    omega
  obtain ⟨m', hSet, hWidth, hCover, hRow⟩ :=
    WeightMatrix.setRow_ok hs.2 (hs.1 ▸ uidOf_lt hUid) hPadded
  refine ⟨⟨s.version + 1, s.neurons, m'⟩, ?_, rfl,
    ⟨by rw [hWidth, hs.1], hCover⟩, hRow⟩
  have hNotWider : ¬row.length > s.neurons.length := by omega
  simp [applyRow, hUid, hNotWider, hSet, bind, Except.bind, pure, Except.pure]

end SharedState

end NeuronFleet
