import NeuronFleet.Proofs.Metagraph.Shape

/-
  Changes to the shared state, one at a time.

  Starting from the empty state, any sequence of registrations and
  published rows keeps the state consistent: no hotkey is listed twice,
  and the matrix has one row and one column per neuron, its entries
  exactly covering it.  The version counts the changes that took effect:
  registrations of new hotkeys and rows that were applied.  In every
  such state, registering answers the hotkey's uid and appends it only
  when it is new, growing the matrix by a zero row and column and keeping
  every entry; a row is applied exactly when its hotkey is registered and
  it is no wider than the fleet, and then replaces that neuron's row by
  the row padded with zeros, and nothing else.

  Main declarations:
    * `WeightMatrix.get?_grow`, `WeightMatrix.get?_setRow_of_ne`
    * `SharedState.Consistent`, `SharedState.Change`, `SharedState.replay`,
      `SharedState.effects`
    * `SharedState.register_spec`, `SharedState.applyRow_spec`
    * `SharedState.replay_spec`
-/

------------------------------------------------------------
-- Entries of Flattened Rows
------------------------------------------------------------

namespace List

/- In a list of rows of one width `k`, entry `i * k + j` is entry `j` of row `i`. -/
theorem getD_flatten_of_length_eq
    {α : Type}
    {rows : List (List α)}
    {k j : Nat}
    {d : α}
    (hWidth : ∀ r ∈ rows, r.length = k)
    (hj : j < k)
    (i : Nat) :
    rows.flatten.getD (i * k + j) d = (rows.getD i []).getD j d := by
  induction rows generalizing i with
  | nil => simp
  | cons r rest ih =>
      have hr : r.length = k := hWidth r (List.mem_cons_self ..)
      rw [List.flatten_cons]
      cases i with
      | zero =>
          rw [Nat.zero_mul, Nat.zero_add, List.getD_append _ _ _ _ (by omega)]
          rfl
      | succ i =>
          rw [List.getD_append_right _ _ _ _ (by rw [Nat.succ_mul]; omega),
            hr, Nat.succ_mul, show i * k + k + j - k = i * k + j by omega,
            ih (fun r' hr' => hWidth r' (List.mem_cons_of_mem _ hr'))]
          rfl

theorem idxOf?_eq_some_idxOf
    {α : Type}
    [BEq α]
    [LawfulBEq α]
    {l : List α}
    {a : α}
    (hMem : a ∈ l) :
    l.idxOf? a = some (l.idxOf a) := by
  induction l with
  | nil => cases hMem
  | cons x rest ih =>
      rw [List.idxOf?_cons, List.idxOf_cons]
      by_cases hx : x = a
      case pos => simp [hx]
      case neg =>
        have hRest : a ∈ rest := (List.mem_cons.mp hMem).resolve_left (Ne.symm hx)
        have hBeq : (x == a) = false := beq_eq_false_iff_ne.mpr hx
        simp [hBeq, ih hRest]

end List

namespace NeuronFleet


------------------------------------------------------------
-- Growing and Setting Rows, Entry by Entry
------------------------------------------------------------

namespace WeightMatrix

theorem get?_of_lt
    {m : WeightMatrix}
    {i j : Nat}
    (hi : i < m.n)
    (hj : j < m.n) :
    m.get? i j = some (m.data.getD (i * m.n + j) 0) := by
  simp [get?, hi, hj]

theorem get?_eq_none
    {m : WeightMatrix}
    {i j : Nat}
    (hOut : m.n ≤ i ∨ m.n ≤ j) :
    m.get? i j = none := by
  unfold get?
  rw [if_neg (by omega)]

/- Entry `j` of row `i` of a covered matrix is its entry `(i, j)`. -/
theorem getD_row
    {m : WeightMatrix}
    {i j : Nat}
    (hj : j < m.n) :
    ((m.data.drop (i * m.n)).take m.n).getD j 0 = m.data.getD (i * m.n + j) 0 := by
  simp [hj, List.getElem?_drop]

/- The old rows of a grown matrix, each padded with zeros to the new width. -/
theorem length_padded_rows
    {m : WeightMatrix}
    {n' : Nat}
    (hCover : m.isShort = false)
    (hGrow : m.n ≤ n') :
    ∀ r ∈ m.rows.map (fun r => r ++ List.replicate (n' - m.n) 0), r.length = n' := by
  intro r hr
  obtain ⟨row, hRow, rfl⟩ := List.mem_map.mp hr
  obtain ⟨i, hi, rfl⟩ := List.mem_map.mp hRow
  rw [List.length_append, List.length_replicate,
    length_row_of_covered hCover (List.mem_range.mp hi)]
  omega

theorem length_flatten_padded_rows
    {m : WeightMatrix}
    {n' : Nat}
    (hCover : m.isShort = false)
    (hGrow : m.n ≤ n') :
    (m.rows.map fun r => r ++ List.replicate (n' - m.n) 0).flatten.length = m.n * n' := by
  rw [List.length_flatten, List.map_congr_left (length_padded_rows hCover hGrow),
    List.map_const', List.sum_replicate_nat, List.length_map, rows, List.length_map,
    List.length_range]

theorem grow_data
    {m : WeightMatrix}
    {n' : Nat}
    (hGrow : m.n < n') :
    (m.grow n').data =
      (m.rows.map fun r => r ++ List.replicate (n' - m.n) 0).flatten ++
        List.replicate ((n' - m.n) * n') 0 := by
  unfold grow
  rw [if_neg (by omega)]

/- Growing a covered matrix gives exactly the entries of the larger one. -/
theorem length_grow_data
    {m : WeightMatrix}
    {n' : Nat}
    (hCover : m.isShort = false)
    (hGrow : m.n < n') :
    (m.grow n').data.length = n' * n' := by
  rw [grow_data hGrow, List.length_append, length_flatten_padded_rows hCover hGrow.le,
    List.length_replicate, ← Nat.add_mul, Nat.add_sub_cancel' hGrow.le]

/-
  Growing a covered matrix keeps entry `(i, j)` of the old matrix and
  makes every entry of a new row or column zero.
-/
theorem get?_grow
    {m : WeightMatrix}
    {n' i j : Nat}
    (hCover : m.isShort = false)
    (hGrow : m.n < n')
    (hi : i < n')
    (hj : j < n') :
    (m.grow n').get? i j =
      some (if i < m.n ∧ j < m.n then m.data.getD (i * m.n + j) 0 else 0) := by
  have hWidth : (m.grow n').n = n' := by
    rw [grow_n]
    omega
  have hFlat := length_flatten_padded_rows hCover hGrow.le
  rw [get?_of_lt (by rw [hWidth]; exact hi) (by rw [hWidth]; exact hj), hWidth, grow_data hGrow]
  by_cases hOld : i < m.n
  case pos =>
    -- an old row: the index falls in the padded rows
    have hIndex : i * n' + j < m.n * n' := by
      have : (i + 1) * n' ≤ m.n * n' := Nat.mul_le_mul_right _ hOld
      rw [Nat.succ_mul] at this
      omega
    rw [List.getD_append _ _ _ _ (hFlat ▸ hIndex),
      List.getD_flatten_of_length_eq (length_padded_rows hCover hGrow.le) hj]
    have hRow : (m.rows.map fun r => r ++ List.replicate (n' - m.n) 0).getD i [] =
        (m.data.drop (i * m.n)).take m.n ++ List.replicate (n' - m.n) 0 := by
      simp [rows, hOld]
    rw [hRow]
    by_cases hOldColumn : j < m.n
    case pos =>
      rw [if_pos ⟨hOld, hOldColumn⟩, List.getD_append _ _ _ _ (by
        rw [length_row_of_covered hCover hOld]; exact hOldColumn), getD_row hOldColumn]
    case neg =>
      rw [if_neg (fun h => hOldColumn h.2), List.getD_append_right _ _ _ _ (by
        rw [length_row_of_covered hCover hOld]; omega)]
      simp
  case neg =>
    -- a new row: the index falls in the zeros after the padded rows
    have hIndex : m.n * n' ≤ i * n' + j := by
      have : m.n * n' ≤ i * n' := Nat.mul_le_mul_right _ (by omega)
      omega
    rw [if_neg (fun h => hOld h.1), List.getD_append_right _ _ _ _ (hFlat ▸ hIndex)]
    simp

theorem setRow_data
    {m m' : WeightMatrix}
    {i : Nat}
    {r : List F32}
    (hSet : m.setRow i r = .ok m') :
    m' = { m with data := m.data.take (i * m.n) ++ r ++ m.data.drop ((i + 1) * m.n) } := by
  unfold setRow at hSet
  split at hSet
  case isTrue => cases hSet; rfl
  case isFalse => cases hSet

/- Setting a row of a covered matrix keeps the number of entries. -/
theorem length_setRow_data
    {m m' : WeightMatrix}
    {i : Nat}
    {r : List F32}
    (hCover : m.isShort = false)
    (hSet : m.setRow i r = .ok m') :
    m'.data.length = m.data.length := by
  obtain ⟨hi, hr⟩ := setRow_eq_ok hSet
  rw [isShort_eq_false_iff] at hCover
  have hRoom : (i + 1) * m.n ≤ m.n * m.n := Nat.mul_le_mul_right _ hi
  rw [Nat.succ_mul] at hRoom
  rw [setRow_data hSet]
  simp only [List.length_append, List.length_take, List.length_drop, hr, Nat.succ_mul]
  omega

/- Setting row `i` of a covered matrix keeps every entry of the other rows. -/
theorem get?_setRow_of_ne
    {m m' : WeightMatrix}
    {i i' : Nat}
    {r : List F32}
    (hCover : m.isShort = false)
    (hSet : m.setRow i r = .ok m')
    (hNe : i' ≠ i)
    (j : Nat) :
    m'.get? i' j = m.get? i' j := by
  obtain ⟨hi, hr⟩ := setRow_eq_ok hSet
  rw [isShort_eq_false_iff] at hCover
  have hRoom : (i + 1) * m.n ≤ m.n * m.n := Nat.mul_le_mul_right _ hi
  rw [Nat.succ_mul] at hRoom
  have hPrefix : (m.data.take (i * m.n)).length = i * m.n := by
    rw [List.length_take]
    omega
  rw [setRow_data hSet]
  unfold get?
  dsimp only
  by_cases hIn : i' < m.n ∧ j < m.n
  case neg => rw [if_neg hIn, if_neg hIn]
  case pos =>
    rw [if_pos hIn, if_pos hIn, Option.some.injEq]
    rcases Nat.lt_or_gt_of_ne hNe with hBefore | hAfter
    case inl =>
      -- an earlier row: the entry lies in the kept prefix
      have hIndex : i' * m.n + j < i * m.n := by
        have : (i' + 1) * m.n ≤ i * m.n := Nat.mul_le_mul_right _ hBefore
        rw [Nat.succ_mul] at this
        omega
      rw [List.getD_append _ _ _ _ (by simp only [List.length_append]; omega),
        List.getD_append _ _ _ _ (by omega)]
      simp [hIndex]
    case inr =>
      -- a later row: the entry lies in the kept suffix
      have hIndex : (i + 1) * m.n ≤ i' * m.n := Nat.mul_le_mul_right _ hAfter
      rw [Nat.succ_mul] at hIndex
      have hSkip : (m.data.take (i * m.n) ++ r).length ≤ i' * m.n + j := by
        simp only [List.length_append, hPrefix, hr]
        omega
      rw [List.getD_append_right _ _ _ _ hSkip]
      simp only [List.length_append, hPrefix, hr, List.getD_eq_getElem?_getD,
        List.getElem?_drop, Nat.succ_mul]
      congr 2
      omega

end WeightMatrix

------------------------------------------------------------
-- Consistent States
------------------------------------------------------------

namespace SharedState

/-
  No hotkey is listed twice, and the matrix has one row and one column
  per neuron, its entries exactly covering it.
-/
structure Consistent
    (s : SharedState) : Prop where
  nodup : s.neurons.Nodup
  width : s.weights.n = s.neurons.length
  size : s.weights.data.length = s.weights.n * s.weights.n

theorem Consistent.wellShaped
    {s : SharedState}
    (hs : s.Consistent) :
    s.WellShaped :=
  ⟨hs.width, by rw [WeightMatrix.isShort_eq_false_iff, hs.size]⟩

theorem empty_consistent :
    empty.Consistent :=
  ⟨List.nodup_nil, rfl, rfl⟩

------------------------------------------------------------
-- Changes
------------------------------------------------------------

namespace Change

/- The state after a change; a refused row leaves it as it was. -/
def apply (s : SharedState) : Change → SharedState
  | register hotkey => (s.register hotkey).2
  | applyRow hotkey row =>
    match s.applyRow hotkey row with
    | .ok (_, s') => s'
    | .error _ => s

/- Whether a change takes effect: a new hotkey registering, or a row
being applied. -/
def takesEffect (s : SharedState) : Change → Bool
  | register hotkey => decide (hotkey ∉ s.neurons)
  | applyRow hotkey row => (s.applyRow hotkey row).isOk

end Change

/- The state after changes made one at a time. -/
def replay
    (s : SharedState)
    (changes : List Change) :
    SharedState :=
  changes.foldl Change.apply s

/- How many of the changes take effect, made one at a time. -/
def effects (s : SharedState) : List Change → Nat
  | [] => 0
  | c :: rest => (if c.takesEffect s then 1 else 0) + effects (c.apply s) rest

/-
  How registering `hotkey` in `s` goes: it answers the hotkey's index in
  the neurons after it.  A known hotkey changes nothing; a new one is
  appended and bumps the version, and the grown matrix keeps every
  entry and is zero on the new row and column.
-/
def RegisterLaw
    (s : SharedState)
    (hotkey : String) :
    Prop :=
  (s.register hotkey).1 = (s.register hotkey).2.neurons.idxOf hotkey ∧
    (hotkey ∈ s.neurons → (s.register hotkey).2 = s) ∧
    (hotkey ∉ s.neurons →
      (s.register hotkey).2.neurons = s.neurons ++ [hotkey] ∧
      (s.register hotkey).2.version = s.version + 1 ∧
      (∀ i j, i < s.neurons.length → j < s.neurons.length →
        (s.register hotkey).2.weights.get? i j = s.weights.get? i j) ∧
      (∀ i j, i ≤ s.neurons.length → j ≤ s.neurons.length →
        (i = s.neurons.length ∨ j = s.neurons.length) →
        (s.register hotkey).2.weights.get? i j = some 0))

/-
  How applying `row` for `hotkey` to `s` goes: it succeeds exactly when
  the hotkey is registered and the row is no wider than the fleet.  It
  then answers the next version, keeps the neurons, sets the hotkey's
  row to the row padded with zeros and keeps every other entry; a
  refused row leaves the state as it was.
-/
def ApplyRowLaw
    (s : SharedState)
    (hotkey : String)
    (row : List F32) :
    Prop :=
  ((∃ r, s.applyRow hotkey row = .ok r) ↔
      hotkey ∈ s.neurons ∧ row.length ≤ s.neurons.length) ∧
    (∀ version s', s.applyRow hotkey row = .ok (version, s') →
      version = s.version + 1 ∧ s'.version = version ∧ s'.neurons = s.neurons ∧
      s'.weights.row? (s.neurons.idxOf hotkey) =
        some (row ++ List.replicate (s.neurons.length - row.length) 0) ∧
      ∀ i j, i ≠ s.neurons.idxOf hotkey → s'.weights.get? i j = s.weights.get? i j) ∧
    (∀ e, s.applyRow hotkey row = .error e → Change.apply s (.applyRow hotkey row) = s)

section Lookup

variable {s : SharedState} {hotkey : String}

theorem uidOf_of_mem
    (hMem : hotkey ∈ s.neurons) :
    s.uidOf hotkey = some (s.neurons.idxOf hotkey) :=
  List.idxOf?_eq_some_idxOf hMem

theorem uidOf_eq_none
    (hNew : hotkey ∉ s.neurons) :
    s.uidOf hotkey = none :=
  List.idxOf?_eq_none_iff.mpr hNew

theorem mem_of_uidOf
    {uid : Nat}
    (hUid : s.uidOf hotkey = some uid) :
    hotkey ∈ s.neurons := by
  obtain ⟨hLt, hAt, -⟩ := List.idxOf?_eq_some_iff.mp hUid
  exact hAt ▸ List.getElem_mem hLt

theorem uidOf_eq_some_iff
    {uid : Nat} :
    s.uidOf hotkey = some uid ↔ hotkey ∈ s.neurons ∧ uid = s.neurons.idxOf hotkey := by
  constructor
  · intro hUid
    have hMem := mem_of_uidOf hUid
    rw [uidOf_of_mem hMem, Option.some.injEq] at hUid
    exact ⟨hMem, hUid.symm⟩
  · rintro ⟨hMem, rfl⟩
    exact uidOf_of_mem hMem

end Lookup

------------------------------------------------------------
-- Registering
------------------------------------------------------------

section Register

variable {s : SharedState} {hotkey : String}

theorem register_of_mem
    (hMem : hotkey ∈ s.neurons) :
    s.register hotkey = (s.neurons.idxOf hotkey, s) := by
  simp [register, uidOf_of_mem hMem]

theorem register_of_not_mem
    (hNew : hotkey ∉ s.neurons) :
    s.register hotkey =
      (s.neurons.length,
        ⟨s.version + 1, s.neurons ++ [hotkey], s.weights.grow (s.neurons.length + 1)⟩) := by
  simp [register, uidOf_eq_none hNew]

theorem register_consistent
    (hs : s.Consistent)
    (hotkey : String) :
    (s.register hotkey).2.Consistent := by
  by_cases hMem : hotkey ∈ s.neurons
  case pos =>
    rw [register_of_mem hMem]
    exact hs
  case neg =>
    rw [register_of_not_mem hMem]
    have hGrow : s.weights.n < s.neurons.length + 1 := by
      rw [hs.width]
      omega
    have hWidth : (s.weights.grow (s.neurons.length + 1)).n = s.neurons.length + 1 := by
      rw [WeightMatrix.grow_n]
      omega
    refine ⟨?_, ?_, ?_⟩
    · exact hs.nodup.append (List.nodup_singleton _)
        (List.disjoint_singleton.mpr hMem)
    · rw [hWidth, List.length_append, List.length_singleton]
    · rw [hWidth, WeightMatrix.length_grow_data hs.wellShaped.2 hGrow]

/-
  Registering in a consistent state answers the hotkey's index in the
  neurons after it.  A known hotkey changes nothing; a new one is
  appended and bumps the version, and the grown matrix keeps every
  entry and is zero on the new row and column.
-/
theorem register_spec
    (hs : s.Consistent)
    (hotkey : String) :
    RegisterLaw s hotkey := by
  unfold RegisterLaw
  by_cases hMem : hotkey ∈ s.neurons
  case pos =>
    rw [register_of_mem hMem]
    exact ⟨rfl, fun _ => rfl, fun hNew => absurd hMem hNew⟩
  case neg =>
    rw [register_of_not_mem hMem]
    have hGrow : s.weights.n < s.neurons.length + 1 := by
      rw [hs.width]
      omega
    have hCover := hs.wellShaped.2
    refine ⟨?_, fun hMem' => absurd hMem' hMem, fun _ => ⟨rfl, rfl, ?_, ?_⟩⟩
    · dsimp only
      rw [List.idxOf_append, if_neg hMem, List.idxOf_cons_self, Nat.zero_add]
    · -- an old entry is kept
      intro i j hi hj
      dsimp only
      rw [WeightMatrix.get?_grow hCover hGrow (by omega) (by omega),
        WeightMatrix.get?_of_lt (by rw [hs.width]; exact hi) (by rw [hs.width]; exact hj),
        if_pos ⟨by rw [hs.width]; exact hi, by rw [hs.width]; exact hj⟩]
    · -- an entry of the new row or column is zero
      intro i j hi hj hNew
      dsimp only
      rw [WeightMatrix.get?_grow hCover hGrow (by omega) (by omega), if_neg (by omega)]

end Register

------------------------------------------------------------
-- Applying Rows
------------------------------------------------------------

section ApplyRow

variable {s : SharedState} {hotkey : String} {row : List F32}

/-
  What applying a row does: it needs the hotkey's uid, a row no wider
  than the fleet and a successful setting of that row, padded with
  zeros; it answers the next version and keeps the neurons.
-/
theorem applyRow_eq_ok_iff
    {version : UInt64}
    {s' : SharedState} :
    s.applyRow hotkey row = .ok (version, s') ↔
      ∃ uid weights, s.uidOf hotkey = some uid ∧ row.length ≤ s.neurons.length ∧
        s.weights.setRow uid (row ++ List.replicate (s.neurons.length - row.length) 0) =
          .ok weights ∧
        version = s.version + 1 ∧ s' = ⟨s.version + 1, s.neurons, weights⟩ := by
  constructor
  · intro hApply
    unfold applyRow at hApply
    cases hUid : s.uidOf hotkey with
    | none => simp [hUid] at hApply
    | some uid =>
        by_cases hWide : row.length > s.neurons.length
        case pos =>
          simp only [hUid, hWide, if_true] at hApply
          cases hApply
        case neg =>
          cases hSet : s.weights.setRow uid
              (row ++ List.replicate (s.neurons.length - row.length) 0) with
          | error e => simp [hUid, hWide, hSet, bind, Except.bind] at hApply
          | ok weights =>
              simp [hUid, hWide, hSet, bind, Except.bind, pure, Except.pure] at hApply
              obtain ⟨rfl, rfl⟩ := hApply
              exact ⟨uid, weights, rfl, by omega, hSet, rfl, rfl⟩
  · rintro ⟨uid, weights, hUid, hFits, hSet, rfl, rfl⟩
    have hNotWider : ¬row.length > s.neurons.length := by omega
    simp [applyRow, hUid, hNotWider, hSet, bind, Except.bind, pure, Except.pure]

theorem applyRow_consistent
    {version : UInt64}
    {s' : SharedState}
    (hs : s.Consistent)
    (hApply : s.applyRow hotkey row = .ok (version, s')) :
    s'.Consistent := by
  obtain ⟨uid, weights, -, -, hSet, -, rfl⟩ := applyRow_eq_ok_iff.mp hApply
  obtain ⟨-, hr⟩ := WeightMatrix.setRow_eq_ok hSet
  have hKeep : weights.n = s.weights.n := by
    rw [WeightMatrix.setRow_data hSet]
  refine ⟨hs.nodup, by rw [hKeep, hs.width], ?_⟩
  dsimp only
  rw [WeightMatrix.length_setRow_data hs.wellShaped.2 hSet, hKeep, hs.size]

/-
  Applying a row to a consistent state succeeds exactly when the hotkey
  is registered and the row is no wider than the fleet, sets that row
  and nothing else, and a refused row leaves the state as it was.
-/
theorem applyRow_spec
    (hs : s.Consistent)
    (hotkey : String)
    (row : List F32) :
    ApplyRowLaw s hotkey row := by
  unfold ApplyRowLaw
  refine ⟨⟨?_, ?_⟩, ?_, ?_⟩
  · rintro ⟨⟨version, s'⟩, hApply⟩
    obtain ⟨uid, weights, hUid, hFits, -⟩ := applyRow_eq_ok_iff.mp hApply
    exact ⟨mem_of_uidOf hUid, hFits⟩
  · rintro ⟨hMem, hFits⟩
    obtain ⟨s', hApply, -⟩ := applyRow_ok hs.wellShaped (uidOf_of_mem hMem) hFits
    exact ⟨_, hApply⟩
  · intro version s' hApply
    obtain ⟨uid, weights, hUid, -, hSet, rfl, rfl⟩ := applyRow_eq_ok_iff.mp hApply
    obtain ⟨-, rfl⟩ := uidOf_eq_some_iff.mp hUid
    obtain ⟨hi, hr⟩ := WeightMatrix.setRow_eq_ok hSet
    obtain ⟨m', hSet', -, -, hRow⟩ := WeightMatrix.setRow_ok hs.wellShaped.2 hi hr
    rw [hSet] at hSet'
    cases hSet'
    exact ⟨rfl, rfl, rfl, hRow,
      fun i j hNe => WeightMatrix.get?_setRow_of_ne hs.wellShaped.2 hSet hNe j⟩
  · intro e hError
    simp [Change.apply, hError]

end ApplyRow

------------------------------------------------------------
-- Runs of Changes
------------------------------------------------------------

/- One change keeps a state consistent, and bumps the version exactly when it takes effect. -/
theorem Change.apply_consistent
    {s : SharedState}
    (hs : s.Consistent)
    (c : Change) :
    (c.apply s).Consistent ∧
      (c.apply s).version = s.version + if c.takesEffect s then 1 else 0 := by
  cases c with
  | register hotkey =>
      refine ⟨register_consistent hs hotkey, ?_⟩
      obtain ⟨-, hKnown, hNew⟩ := register_spec hs hotkey
      by_cases hMem : hotkey ∈ s.neurons
      case pos => simp [Change.apply, Change.takesEffect, hMem, hKnown hMem]
      case neg => simp [Change.apply, Change.takesEffect, hMem, (hNew hMem).2.1]
  | applyRow hotkey row =>
      rcases hApply : s.applyRow hotkey row with e | ⟨version, s'⟩
      case error => simp [Change.apply, Change.takesEffect, hApply, Except.isOk, Except.toBool, hs]
      case ok =>
        obtain ⟨hNext, hBump, -⟩ := (applyRow_spec hs hotkey row).2.1 version s' hApply
        refine ⟨by simpa [Change.apply, hApply] using applyRow_consistent hs hApply, ?_⟩
        simp [Change.apply, Change.takesEffect, hApply, Except.isOk, Except.toBool, hNext, hBump]

@[simp]
theorem replay_nil
    (s : SharedState) :
    s.replay [] = s :=
  rfl

@[simp]
theorem replay_cons
    (s : SharedState)
    (c : Change)
    (rest : List Change) :
    s.replay (c :: rest) = (c.apply s).replay rest :=
  rfl

/- Changes made one at a time keep a state consistent; the version grows by those that take effect. -/
theorem replay_consistent
    {s : SharedState}
    (hs : s.Consistent)
    (changes : List Change) :
    (s.replay changes).Consistent ∧
      (s.replay changes).version = s.version + UInt64.ofNat (s.effects changes) := by
  induction changes generalizing s with
  | nil => exact ⟨hs, (UInt64.add_zero _).symm⟩
  | cons c rest ih =>
      obtain ⟨hc, hVersion⟩ := c.apply_consistent hs
      obtain ⟨hRest, hRestVersion⟩ := ih hc
      refine ⟨hRest, ?_⟩
      rw [replay_cons, hRestVersion, hVersion, effects, UInt64.ofNat_add, UInt64.add_assoc]
      split <;> rfl

section Members

variable {s : SharedState} {hotkey : String}

/- A change never drops a hotkey. -/
theorem Change.mem_apply
    (hMem : hotkey ∈ s.neurons)
    (c : Change) :
    hotkey ∈ (c.apply s).neurons := by
  cases c with
  | register other =>
      by_cases hOld : other ∈ s.neurons
      case pos => rwa [Change.apply, register_of_mem hOld]
      case neg =>
        rw [Change.apply, register_of_not_mem hOld]
        exact List.mem_append_left _ hMem
  | applyRow other row =>
      rcases hApply : s.applyRow other row with e | ⟨version, s'⟩
      case error => rwa [Change.apply, hApply]
      case ok =>
        obtain ⟨_, _, -, -, -, -, rfl⟩ := applyRow_eq_ok_iff.mp hApply
        rwa [Change.apply, hApply]

theorem Change.mem_apply_register :
    hotkey ∈ ((Change.register hotkey).apply s).neurons := by
  by_cases hOld : hotkey ∈ s.neurons
  case pos => rwa [Change.apply, register_of_mem hOld]
  case neg =>
    rw [Change.apply, register_of_not_mem hOld]
    exact List.mem_append_right _ List.mem_cons_self

theorem mem_replay
    (hMem : hotkey ∈ s.neurons)
    (changes : List Change) :
    hotkey ∈ (s.replay changes).neurons := by
  induction changes generalizing s with
  | nil => exact hMem
  | cons c rest ih => exact ih (Change.mem_apply hMem c)

/- A hotkey that registers at some point of a replay is listed at its end. -/
theorem mem_replay_of_register
    {changes : List Change}
    (hRegister : Change.register hotkey ∈ changes) :
    hotkey ∈ (s.replay changes).neurons := by
  induction changes generalizing s with
  | nil => cases hRegister
  | cons c rest ih =>
      rw [replay_cons]
      rcases List.mem_cons.mp hRegister with rfl | hRest
      · exact mem_replay Change.mem_apply_register rest
      · exact ih hRest

theorem replay_append
    (s : SharedState)
    (changes more : List Change) :
    s.replay (changes ++ more) = (s.replay changes).replay more :=
  List.foldl_append

end Members

/-
  Any sequence of registrations and published rows made one at a time
  from the empty state leaves a consistent state: no hotkey listed
  twice, a matrix with one row and one column per neuron whose entries
  exactly cover it, and a 64-bit version counting the changes that took
  effect.
  In that state registering and applying a row behave as their laws say.
-/
theorem replay_empty_laws
    (changes : List Change) :
    (empty.replay changes).Consistent ∧
      (empty.replay changes).version = UInt64.ofNat (empty.effects changes) ∧
      (∀ hotkey, RegisterLaw (empty.replay changes) hotkey) ∧
      (∀ hotkey row, ApplyRowLaw (empty.replay changes) hotkey row) := by
  obtain ⟨hs, hVersion⟩ := replay_consistent empty_consistent changes
  exact ⟨hs, by rw [hVersion]; exact UInt64.zero_add _, register_spec hs, applyRow_spec hs⟩

/- Registering a hotkey twice takes effect once. -/
example :
    (empty.replay [.register "a", .register "b", .register "a"]).version = 2 ∧
      empty.effects [.register "a", .register "b", .register "a"] = 2 := by
  decide

end SharedState

end NeuronFleet
