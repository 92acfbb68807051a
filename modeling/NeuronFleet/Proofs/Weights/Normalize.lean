import NeuronFleet.Proofs.Number.Single
import NeuronFleet.Weights.Row

/-
  Normalised weight rows.

  Normalising clears NaN, infinite and negative weights and divides
  them by their L1 norm, summed in single precision from left to right.
  Every entry of the result is a finite number in `[0, 1]`.  Unless the
  norm overflows, the entries of a row of width `w ≥ 1` sum to one
  within `w · 2 ^ -23`: the sum of `w` terms errs by at most
  `(w - 1) · 2 ^ -24` of the norm, and each quotient by `2 ^ -24` of
  itself; a row with too small a norm becomes uniform, which errs by
  two roundings.  A norm that overflows divides every weight down to
  zero.

  Main declarations:
    * `WeightRow.InUnitRange`, `WeightRow.SumsToOne`,
      `WeightRow.NormOverflows`
    * `WeightRow.normalize_inUnitRange`
    * `WeightRow.normalize_sumsToOne`
    * `WeightRow.normalize_of_normOverflows`
-/

------------------------------------------------------------
-- Cleared Weights
------------------------------------------------------------

namespace NeuronFleet

namespace WeightRow

open Binary

/- One weight as normalising clears it. -/
def clearWeight
    (v : F32) : F32 :=
  if !v.isFinite || F32.lt v 0 then 0 else v

/- The weights of a row, cleared. -/
def cleared
    (r : List F32) : List F32 :=
  r.map clearWeight

theorem normalize_eq
    (r : List F32) :
    normalize r =
      if F32.lt (l1Norm (cleared r)) epsilon then uniform r.length
      else (cleared r).map (· / l1Norm (cleared r)) :=
  rfl

/- A cleared weight is a non-negative finite number. -/
theorem clearWeight_nonneg
    (v : F32) :
    (clearWeight v).Nonneg := by
  unfold clearWeight
  split
  · exact F32.nonneg_of_value F32.value_zero
  · rename_i hKept
    simp only [Bool.or_eq_true, Bool.not_eq_eq_eq_not, Bool.not_true,
      not_or, Bool.not_eq_false] at hKept
    obtain ⟨hFinite, hNotBelow⟩ := hKept
    unfold F32.isFinite at hFinite
    split at hFinite
    · rename_i negative m hValue
      rw [F32.lt_of_finite hValue F32.value_zero] at hNotBelow
      have hNotNegative :
          ¬(signedUnits negative m < signedUnits false 0) := by
        simpa using hNotBelow
      refine ⟨negative, by rw [F32.units_of_value hValue, hValue], ?_⟩
      intro hNegative
      subst hNegative
      simp only [signedUnits, if_true] at hNotNegative
      rw [F32.units_of_value hValue]
      omega
    · cases hFinite

theorem mem_cleared_nonneg
    {r : List F32}
    {x : F32}
    (hMem : x ∈ cleared r) :
    x.Nonneg := by
  obtain ⟨v, _, rfl⟩ := List.mem_map.mp hMem
  exact clearWeight_nonneg v

/- The absolute value of a non-negative number has the same units. -/
theorem abs_of_nonneg
    {x : F32}
    (hx : x.Nonneg) :
    x.abs.value = .finite false x.units := by
  obtain ⟨negative, hValue, _⟩ := hx
  exact F32.value_abs hValue

------------------------------------------------------------
-- Sums from Left to Right
------------------------------------------------------------

/- Adding finite numbers to infinity leaves infinity. -/
theorem foldl_add_infinite
    (l : List F32)
    {acc : F32}
    (hAcc : acc.value = .infinite false)
    (hTerms : ∀ x ∈ l, x.isFinite = true) :
    (l.foldl (· + ·) acc).value = .infinite false := by
  induction l generalizing acc with
  | nil => exact hAcc
  | cons x xs ih =>
      exact ih (F32.add_infinite hAcc (hTerms x (by simp)))
        (fun y hy => hTerms y (by simp [hy]))

/-
  A left-to-right sum of non-negative terms from a non-negative start
  either overflows to infinity, or is a non-negative number of `S`
  units that is at least the start and every term, and lies
  within `n · S · 2 ^ -24` of the exact sum for `n` terms.  Each
  addition errs by at most `2 ^ -24` of its rounded result, and the
  partial sums only grow, so each error is within `S · 2 ^ -24`.
-/
theorem foldl_add_of_nonneg
    (l : List F32)
    {acc : F32}
    (hAcc : acc.Nonneg)
    (hTerms : ∀ x ∈ l, x.Nonneg) :
    (l.foldl (· + ·) acc).value = .infinite false ∨
      ((l.foldl (· + ·) acc).Nonneg ∧
        acc.units ≤ (l.foldl (· + ·) acc).units ∧
        (∀ x ∈ l, x.units ≤ (l.foldl (· + ·) acc).units) ∧
        |((l.foldl (· + ·) acc).units : ℚ) -
            (acc.units + (l.map F32.units).sum)| ≤
          l.length * (l.foldl (· + ·) acc).units / 2 ^ 24) := by
  induction l generalizing acc with
  | nil =>
      right
      simp [hAcc]
  | cons x xs ih =>
      have hx : x.Nonneg := hTerms x (by simp)
      have hRest : ∀ y ∈ xs, y.Nonneg :=
        fun y hy => hTerms y (by simp [hy])
      simp only [List.foldl_cons]
      rcases F32.add_of_nonneg hAcc hx with
        ⟨hSum, hUnits, _⟩ | ⟨hInfinite, _⟩
      · rcases ih hSum hRest with hOver | ⟨hNonneg, hStart, hBound, hError⟩
        · exact Or.inl hOver
        right
        generalize hTotal : xs.foldl (· + ·) (acc + x) = total at *
        -- the first rounding neither passes the start nor the term
        have hGrowAcc : acc.units ≤ (acc + x).units := by
          rw [hUnits]
          exact Format.le_roundRatio (by decide) Nat.one_pos
            (F32.units_of_finite hAcc.choose_spec.1).1 (by omega)
        have hGrowTerm : x.units ≤ (acc + x).units := by
          rw [hUnits]
          exact Format.le_roundRatio (by decide) Nat.one_pos
            (F32.units_of_finite hx.choose_spec.1).1 (by omega)
        have hStep :
            |((acc + x).units : ℚ) - (acc.units + x.units)| ≤
              (acc + x).units / 2 ^ 24 := by
          rw [hUnits]
          exact_mod_cast
            Format.roundRatio_natural_error (acc.units + x.units)
              (f := Format.single) (by decide)
        have hStepTotal : ((acc + x).units : ℚ) ≤ total.units := by
          exact_mod_cast hStart
        refine ⟨hNonneg, by omega, ?_, ?_⟩
        · intro y hy
          rcases List.mem_cons.mp hy with rfl | hy
          · omega
          · exact hBound y hy
        · simp only [List.map_cons, List.sum_cons, List.length_cons]
          generalize (xs.map F32.units).sum = rest at hError ⊢
          push_cast
          calc |(total.units : ℚ) - (acc.units + (x.units + rest))|
              = |((total.units : ℚ) - ((acc + x).units + rest)) +
                  (((acc + x).units : ℚ) - (acc.units + x.units))| := by
                ring_nf
            _ ≤ |(total.units : ℚ) - ((acc + x).units + rest)| +
                  |((acc + x).units : ℚ) - (acc.units + x.units)| :=
                abs_add_le _ _
            _ ≤ xs.length * total.units / 2 ^ 24 +
                  total.units / 2 ^ 24 := by
                gcongr
                exact hStep.trans (by gcongr)
            _ = (xs.length + 1) * total.units / 2 ^ 24 := by ring
      · left
        exact foldl_add_infinite xs hInfinite
          (fun y hy => (hRest y hy).isFinite)

/-
  The L1 norm of a non-empty cleared row, unless it overflows: a
  non-negative number at least every weight, within
  `(w - 1) · 2 ^ -24` of itself from the exact sum of `w` weights.  The
  first addition, to `-0`, is exact.
-/
theorem l1Norm_cleared_cases
    {r : List F32}
    (hr : r ≠ []) :
    (l1Norm (cleared r)).value = .infinite false ∨
      ((l1Norm (cleared r)).Nonneg ∧
        (∀ x ∈ cleared r, x.units ≤ (l1Norm (cleared r)).units) ∧
        |((l1Norm (cleared r)).units : ℚ) -
            ((cleared r).map F32.units).sum| ≤
          (r.length - 1) * (l1Norm (cleared r)).units / 2 ^ 24) := by
  obtain ⟨v, rest, rfl⟩ := List.exists_cons_of_ne_nil hr
  have hCleared : cleared (v :: rest) = clearWeight v :: cleared rest :=
    rfl
  have hLength :
      ((v :: rest).length : ℚ) - 1 = (cleared rest).length := by
    simp [cleared]
  have hA : (clearWeight v).Nonneg := clearWeight_nonneg v
  have hRestNonneg : ∀ x ∈ cleared rest, x.Nonneg :=
    fun x hx => mem_cleared_nonneg hx
  rw [hCleared, hLength]
  generalize clearWeight v = a at hA ⊢
  generalize cleared rest = c at hRestNonneg ⊢
  have hAbs : ∀ x : F32, x.Nonneg → x.abs.Nonneg ∧ x.abs.units = x.units :=
    fun x hx => ⟨F32.nonneg_of_value (abs_of_nonneg hx),
      F32.units_of_value (abs_of_nonneg hx)⟩
  have hNorm :
      l1Norm (a :: c) =
        (c.map F32.abs).foldl (· + ·) (F32.negZero + a.abs) :=
    rfl
  -- the sum starts with `-0 + |a|`, which is `|a|` exactly
  have hNegZero : F32.negZero.Nonneg :=
    ⟨true, by rw [F32.units_of_value F32.value_negZero,
      F32.value_negZero], fun _ => F32.units_of_value F32.value_negZero⟩
  obtain ⟨hRep, hMax⟩ := F32.units_of_finite hA.choose_spec.1
  have hFirst := F32.add_of_nonneg hNegZero (hAbs a hA).1
  rw [F32.units_of_value F32.value_negZero, Nat.zero_add, (hAbs a hA).2,
    Format.roundRatio_of_representable (by decide) hRep] at hFirst
  rcases hFirst with ⟨hStart, hStartUnits, _⟩ | ⟨_, hOver⟩
  swap
  · exact absurd hOver (by omega)
  have hTerms : ∀ x ∈ c.map F32.abs, x.Nonneg := by
    intro x hx
    obtain ⟨y, hy, rfl⟩ := List.mem_map.mp hx
    exact (hAbs y (hRestNonneg y hy)).1
  rw [hNorm]
  rcases foldl_add_of_nonneg (c.map F32.abs) hStart hTerms with
    hOverflow | ⟨hNonneg, hAtLeastStart, hBound, hError⟩
  · exact Or.inl hOverflow
  right
  have hMapUnits : (c.map F32.abs).map F32.units = c.map F32.units := by
    rw [List.map_map]
    apply List.map_congr_left
    intro x hx
    exact (hAbs x (hRestNonneg x hx)).2
  refine ⟨hNonneg, ?_, ?_⟩
  · intro x hx
    rcases List.mem_cons.mp hx with rfl | hRest
    · rw [← hStartUnits]
      exact hAtLeastStart
    · have hAtMost := hBound x.abs (List.mem_map_of_mem hRest)
      rwa [(hAbs x (hRestNonneg x hRest)).2] at hAtMost
  · rw [hMapUnits, hStartUnits, List.length_map] at hError
    simp only [List.map_cons, List.sum_cons, Nat.cast_add]
    exact hError

------------------------------------------------------------
-- Bounds on the Entries
------------------------------------------------------------

/- Every entry is a finite number in `[0, 1]`. -/
def InUnitRange
    (r : List F32) : Prop :=
  ∀ x ∈ r, x.isFinite = true ∧ 0 ≤ x.toRat ∧ x.toRat ≤ 1

/- The entries sum to one within `w · 2 ^ -23` for a row of width `w`. -/
def SumsToOne
    (r : List F32) : Prop :=
  |(r.map F32.toRat).sum - 1| ≤ r.length / 2 ^ 23

/- The L1 norm of the cleared weights overflows to infinity. -/
def NormOverflows
    (r : List F32) : Prop :=
  (l1Norm (cleared r)).value = .infinite false

theorem epsilon_value :
    epsilon.value = .finite false (9223372 * 2 ^ 86) := by
  decide

/- A non-negative number of at most `2 ^ 149` units lies in `[0, 1]`. -/
theorem unitRange_of_units
    {x : F32}
    (hx : x.Nonneg)
    (hAtMost : x.units ≤ 2 ^ 149) :
    x.isFinite = true ∧ 0 ≤ x.toRat ∧ x.toRat ≤ 1 := by
  refine ⟨hx.isFinite, ?_, ?_⟩ <;> rw [hx.toRat_eq]
  · positivity
  · rw [div_le_one (by positivity)]
    exact_mod_cast hAtMost

theorem sum_toRat_of_nonneg
    (l : List F32)
    (hl : ∀ x ∈ l, x.Nonneg) :
    (l.map F32.toRat).sum = ((l.map F32.units).sum : ℚ) / 2 ^ 149 := by
  induction l with
  | nil => simp
  | cons x xs ih =>
      simp only [List.map_cons, List.sum_cons, Nat.cast_add]
      rw [(hl x (by simp)).toRat_eq,
        ih (fun y hy => hl y (by simp [hy]))]
      ring

/-
  Dividing non-negative weights by a positive number `S` of `s` units,
  at least each of them: the quotients lie in `[0, 1]`, and their units
  sum to the exact `Q · 2 ^ 149 / s`, for `Q` the units of the weights,
  within half a unit per quotient and a `2 ^ -24` part of that value.
-/
theorem quotients_error
    (c : List F32)
    {S : F32}
    {s : Nat}
    (hS : S.value = .finite false s)
    (hPos : 0 < s)
    (hTerms : ∀ x ∈ c, x.Nonneg ∧ x.units ≤ s) :
    (∀ y ∈ c.map (· / S), y.Nonneg ∧ y.units ≤ 2 ^ 149) ∧
      |(((c.map (· / S)).map F32.units).sum : ℚ) -
          ((c.map F32.units).sum : ℚ) * 2 ^ 149 / s| ≤
        c.length / 2 + ((c.map F32.units).sum : ℚ) * 2 ^ 149 / s / 2 ^ 24 := by
  induction c with
  | nil => simp
  | cons x xs ih =>
      obtain ⟨hx, hAtMost⟩ := hTerms x (by simp)
      obtain ⟨hRest, hRestError⟩ :=
        ih (fun y hy => hTerms y (by simp [hy]))
      obtain ⟨hQuot, hQuotUnits⟩ := F32.div_of_nonneg hx hS hPos hAtMost
      have hOne :
          (x / S).units ≤ 2 ^ 149 := by
        rw [hQuotUnits]
        exact Format.roundRatio_le (by decide) hPos
          (Format.representable_two_pow (by decide) 149)
          (by rw [Nat.mul_comm]; exact Nat.mul_le_mul_left _ hAtMost)
      have hError :
          |((x / S).units : ℚ) - (x.units : ℚ) * 2 ^ 149 / s| ≤
            1 / 2 + (x.units : ℚ) * 2 ^ 149 / s / 2 ^ 24 := by
        rw [hQuotUnits]
        exact_mod_cast Format.roundRatio_error (x.units * 2 ^ 149)
          (f := Format.single) (by decide) hPos
      refine ⟨?_, ?_⟩
      · intro y hy
        rw [List.map_cons] at hy
        rcases List.mem_cons.mp hy with rfl | hy
        · exact ⟨hQuot, hOne⟩
        · exact hRest y hy
      · simp only [List.map_cons, List.sum_cons, List.length_cons,
          Nat.cast_add, Nat.cast_one]
        generalize ((xs.map (· / S)).map F32.units).sum = restQuot
          at hRestError ⊢
        generalize (xs.map F32.units).sum = rest at hRestError ⊢
        calc |((x / S).units : ℚ) + restQuot -
              (x.units + rest) * 2 ^ 149 / s|
            = |(((x / S).units : ℚ) - x.units * 2 ^ 149 / s) +
                (restQuot - rest * 2 ^ 149 / s)| := by
              ring_nf
          _ ≤ |((x / S).units : ℚ) - x.units * 2 ^ 149 / s| +
                |(restQuot : ℚ) - rest * 2 ^ 149 / s| :=
              abs_add_le _ _
          _ ≤ (1 / 2 + (x.units : ℚ) * 2 ^ 149 / s / 2 ^ 24) +
                (xs.length / 2 + (rest : ℚ) * 2 ^ 149 / s / 2 ^ 24) :=
              add_le_add hError hRestError
          _ = (xs.length + 1) / 2 +
                (x.units + rest) * 2 ^ 149 / s / 2 ^ 24 := by
              ring

/-
  The arithmetic of the sum bound: a norm of `s` units within
  `(w - 1) · 2 ^ -24` of itself from the exact sum `Q`, and quotients
  within half a unit each and a `2 ^ -24` part of `Q · 2 ^ 149 / s`,
  sum to `2 ^ 149` units, that is one, within `w · 2 ^ -23`.
-/
theorem sum_bound_of_errors
    {Y Q s w : ℚ}
    (hPos : 0 < s)
    (hW : 1 ≤ w)
    (hNorm : |s - Q| ≤ (w - 1) * s / 2 ^ 24)
    (hQuot : |Y - Q * 2 ^ 149 / s| ≤ w / 2 + Q * 2 ^ 149 / s / 2 ^ 24) :
    |Y / 2 ^ 149 - 1| ≤ w / 2 ^ 23 := by
  have hT : (0 : ℚ) < 2 ^ 149 := by positivity
  -- the exact quotients sum to one within `(w - 1) · 2 ^ -24`
  have hRatio :
      |Q * 2 ^ 149 / s - 2 ^ 149| ≤ 2 ^ 149 * (w - 1) / 2 ^ 24 := by
    have hEq : Q * 2 ^ 149 / s - 2 ^ 149 = 2 ^ 149 * (Q - s) / s := by
      field_simp
    rw [hEq, abs_div, abs_mul, abs_of_pos hT, abs_of_pos hPos,
      div_le_iff₀ hPos, abs_sub_comm]
    calc (2 : ℚ) ^ 149 * |s - Q|
        ≤ 2 ^ 149 * ((w - 1) * s / 2 ^ 24) := by gcongr
      _ = 2 ^ 149 * (w - 1) / 2 ^ 24 * s := by ring
  have hUpper :
      Q * 2 ^ 149 / s ≤ 2 ^ 149 + 2 ^ 149 * (w - 1) / 2 ^ 24 := by
    linarith [(abs_le.mp hRatio).2]
  have hTotal :
      |Y - 2 ^ 149| ≤
        w / 2 + (2 ^ 149 + 2 ^ 149 * (w - 1) / 2 ^ 24) / 2 ^ 24 +
          2 ^ 149 * (w - 1) / 2 ^ 24 := by
    calc |Y - 2 ^ 149|
        ≤ |Y - Q * 2 ^ 149 / s| + |Q * 2 ^ 149 / s - 2 ^ 149| :=
          abs_sub_le _ _ _
      _ ≤ (w / 2 + Q * 2 ^ 149 / s / 2 ^ 24) +
            2 ^ 149 * (w - 1) / 2 ^ 24 :=
          add_le_add hQuot hRatio
      _ ≤ _ := by gcongr
  have hScaled : Y / 2 ^ 149 - 1 = (Y - 2 ^ 149) / 2 ^ 149 := by
    field_simp
  rw [hScaled, abs_div, abs_of_pos hT, div_le_iff₀ hT]
  linarith

------------------------------------------------------------
-- The Uniform Row
------------------------------------------------------------

/-
  The arithmetic of the uniform row of width `n ≥ 2`: the width within
  `2 ^ -24` of itself from its rounding `R`, and the entry `Y` within
  half a unit and a `2 ^ -24` part of `2 ^ 298 / R`, give `n` entries
  summing to one within `n · 2 ^ -23`.
-/
theorem uniform_bound_of_errors
    {Y R n : ℚ}
    (hn : 2 ≤ n)
    (hR : 0 < R)
    (hWidth : |R - n * 2 ^ 149| ≤ R / 2 ^ 24)
    (hEntry : |Y - 2 ^ 149 * 2 ^ 149 / R| ≤
      1 / 2 + 2 ^ 149 * 2 ^ 149 / R / 2 ^ 24) :
    |n * Y / 2 ^ 149 - 1| ≤ n / 2 ^ 23 := by
  have hT : (0 : ℚ) < 2 ^ 149 := by positivity
  -- the exact entries sum to one within `2 ^ -24`
  have hRatio :
      |n * (2 ^ 149 * 2 ^ 149 / R) - 2 ^ 149| ≤ 2 ^ 149 / 2 ^ 24 := by
    have hEq : n * (2 ^ 149 * 2 ^ 149 / R) - 2 ^ 149 =
        2 ^ 149 * (n * 2 ^ 149 - R) / R := by
      field_simp
    rw [hEq, abs_div, abs_mul, abs_of_pos hT, abs_of_pos hR,
      div_le_iff₀ hR, abs_sub_comm]
    calc (2 : ℚ) ^ 149 * |R - n * 2 ^ 149|
        ≤ 2 ^ 149 * (R / 2 ^ 24) := by gcongr
      _ = 2 ^ 149 / 2 ^ 24 * R := by ring
  have hUpper :
      n * (2 ^ 149 * 2 ^ 149 / R) ≤ 2 ^ 149 + 2 ^ 149 / 2 ^ 24 := by
    linarith [(abs_le.mp hRatio).2]
  have hScaledEntry :
      |n * Y - n * (2 ^ 149 * 2 ^ 149 / R)| ≤
        n / 2 + n * (2 ^ 149 * 2 ^ 149 / R) / 2 ^ 24 := by
    rw [← mul_sub, abs_mul, abs_of_pos (by linarith : (0 : ℚ) < n)]
    calc n * |Y - 2 ^ 149 * 2 ^ 149 / R|
        ≤ n * (1 / 2 + 2 ^ 149 * 2 ^ 149 / R / 2 ^ 24) := by gcongr
      _ = n / 2 + n * (2 ^ 149 * 2 ^ 149 / R) / 2 ^ 24 := by ring
  have hTotal :
      |n * Y - 2 ^ 149| ≤
        n / 2 + (2 ^ 149 + 2 ^ 149 / 2 ^ 24) / 2 ^ 24 +
          2 ^ 149 / 2 ^ 24 := by
    calc |n * Y - 2 ^ 149|
        ≤ |n * Y - n * (2 ^ 149 * 2 ^ 149 / R)| +
            |n * (2 ^ 149 * 2 ^ 149 / R) - 2 ^ 149| :=
          abs_sub_le _ _ _
      _ ≤ (n / 2 + n * (2 ^ 149 * 2 ^ 149 / R) / 2 ^ 24) +
            2 ^ 149 / 2 ^ 24 :=
          add_le_add hScaledEntry hRatio
      _ ≤ _ := by gcongr
  have hScaled : n * Y / 2 ^ 149 - 1 = (n * Y - 2 ^ 149) / 2 ^ 149 := by
    field_simp
  rw [hScaled, abs_div, abs_of_pos hT, div_le_iff₀ hT]
  linarith

/-
  The entry of the uniform row of width `n ≥ 1` is a non-negative
  number of at most `2 ^ 149` units, and `n` of them sum to one within
  `n · 2 ^ -23`: exactly for one entry and within two roundings for
  more.  A width that rounds to infinity makes the entry zero, which the
  bound allows, since such a width is beyond `2 ^ 23`.
-/
theorem uniform_entry
    {n : Nat}
    (hn : 1 ≤ n) :
    (1 / F32.ofNat n : F32).Nonneg ∧ (1 / F32.ofNat n : F32).units ≤ 2 ^ 149 ∧
      |(n : ℚ) * ((1 / F32.ofNat n : F32).units : ℚ) / 2 ^ 149 - 1| ≤
        (n : ℚ) / 2 ^ 23 := by
  have hOne : (1 : F32).Nonneg := F32.nonneg_of_value F32.value_one
  have hOneUnits : (1 : F32).units = 2 ^ 149 :=
    F32.units_of_value F32.value_one
  have hUnit : Format.single.Representable (2 ^ 149) :=
    Format.representable_two_pow (by decide) 149
  rw [F32.ofNat_eq]
  rcases F32.ofRatio_cases (n * 2 ^ 149) Nat.one_pos with
    ⟨hW, hWUnits, _⟩ | ⟨hWInf, hWOver⟩
  case inl =>
    -- the width rounds to a finite number of `R ≥ 2 ^ 149` units
    set R := Format.single.roundRatio (n * 2 ^ 149) 1 with hRDef
    have hRLow : 2 ^ 149 ≤ R :=
      Format.le_roundRatio (by decide) Nat.one_pos hUnit (by omega)
    obtain ⟨hY, hYUnits⟩ :=
      F32.div_of_nonneg hOne (hWUnits ▸ hW.value_of_pos (by omega))
        (by omega) (by omega)
    rw [hOneUnits] at hYUnits
    refine ⟨hY, ?_, ?_⟩
    · rw [hYUnits]
      exact Format.roundRatio_le (by decide) (by omega) hUnit
        (Nat.mul_le_mul_left _ hRLow)
    rcases Nat.lt_or_ge n 2 with hSingle | hMany
    case inl =>
      -- one entry: the width and the entry are exact
      obtain rfl : n = 1 := by omega
      have hR : R = 2 ^ 149 := by
        rw [hRDef, Nat.one_mul]
        exact Format.roundRatio_of_representable (by decide) hUnit
      have hEntry : (1 / F32.ofNatBits
          (Format.single.ofRatio false (1 * 2 ^ 149) 1)).units = 2 ^ 149 := by
        rw [hYUnits, hR]
        exact Nat.le_antisymm
          (Format.roundRatio_le (by decide) (by positivity) hUnit le_rfl)
          (Format.le_roundRatio (by decide) (by positivity) hUnit le_rfl)
      rw [hEntry]
      norm_num
    case inr =>
      have hNormal : 2 ^ (Format.single.precision - 1) * 1 ≤ n * 2 ^ 149 := by
        rw [single_precision, Nat.mul_one]
        exact Nat.le_trans (Nat.pow_le_pow_right (by decide) (by decide))
          (Nat.le_mul_of_pos_left _ (by omega))
      have hWidth : |(R : ℚ) - n * 2 ^ 149| ≤ (R : ℚ) / 2 ^ 24 := by
        have hError :=
          (Format.roundRatio_error_normal (by decide) Nat.one_pos hNormal).2
        rw [single_precision, Nat.cast_one, div_one] at hError
        exact_mod_cast hError
      have hEntry :
          |(Format.single.roundRatio (2 ^ 149 * 2 ^ 149) R : ℚ) -
              2 ^ 149 * 2 ^ 149 / (R : ℚ)| ≤
            1 / 2 + 2 ^ 149 * 2 ^ 149 / (R : ℚ) / 2 ^ 24 := by
        have hError := Format.roundRatio_error (2 ^ 149 * 2 ^ 149)
          (f := Format.single) (by decide) (show 0 < R by omega)
        rw [single_precision] at hError
        exact_mod_cast hError
      rw [hYUnits]
      exact uniform_bound_of_errors (by exact_mod_cast hMany)
        (by positivity) hWidth hEntry
  case inr =>
    -- the width overflows: it is at least `2 ^ 23`, and the entry is zero
    have hWide : 2 ^ 23 ≤ n := by
      by_contra hNarrow
      have hBelow : n * 2 ^ 149 ≤ Format.single.maxMagnitude * 1 := by
        rw [single_maxMagnitude, Nat.mul_one]
        calc n * 2 ^ 149
            ≤ 2 ^ 23 * 2 ^ 149 := Nat.mul_le_mul_right _ (by omega)
          _ ≤ (2 ^ 24 - 1) * 2 ^ 253 := by norm_num
      exact absurd (Format.roundRatio_le (by decide) Nat.one_pos
        single_maxMagnitude_representable hBelow) (not_le.mpr hWOver)
    obtain ⟨hY, hYUnits⟩ := F32.div_infinite hOne.isFinite hWInf
    refine ⟨hY, by omega, ?_⟩
    rw [hYUnits]
    have hWideQ : (2 : ℚ) ^ 23 ≤ n := by exact_mod_cast hWide
    rw [Nat.cast_zero, mul_zero, zero_div, zero_sub, abs_neg, abs_one,
      le_div_iff₀ (by positivity)]
    linarith

/- The uniform row of a positive width lies in `[0, 1]` and sums to one. -/
theorem uniform_inUnitRange_sumsToOne
    {n : Nat}
    (hn : 1 ≤ n) :
    InUnitRange (uniform n) ∧ SumsToOne (uniform n) := by
  obtain ⟨hY, hAtMost, hSum⟩ := uniform_entry hn
  have hUniform : uniform n = List.replicate n (1 / F32.ofNat n) := by
    simp [uniform, show n ≠ 0 by omega]
  rw [hUniform]
  refine ⟨?_, ?_⟩
  · intro x hx
    rw [List.eq_of_mem_replicate hx]
    exact unitRange_of_units hY hAtMost
  · unfold SumsToOne
    rw [List.map_replicate, List.sum_replicate, List.length_replicate,
      hY.toRat_eq, nsmul_eq_mul, ← mul_div_assoc]
    exact hSum

------------------------------------------------------------
-- Normalised Rows
------------------------------------------------------------

theorem lt_epsilon_of_nonneg
    {S : F32}
    (hS : S.Nonneg) :
    F32.lt S epsilon = decide (S.units < 9223372 * 2 ^ 86) := by
  obtain ⟨negative, hValue, hSign⟩ := hS
  rw [F32.lt_of_finite hValue epsilon_value,
    F32.signedUnits_of_nonneg hSign]
  simp [signedUnits]

theorem lt_epsilon_of_infinite
    {S : F32}
    (hS : S.value = .infinite false) :
    F32.lt S epsilon = false :=
  F32.lt_of_infinite hS epsilon_value
    (by rw [single_maxMagnitude]; norm_num)

theorem normalize_nil :
    normalize [] = [] := by
  decide

theorem normalize_length
    (r : List F32) :
    (normalize r).length = r.length := by
  rw [normalize_eq]
  split
  · unfold uniform
    split <;> simp_all
  · simp [cleared]

/- Every entry of a normalised row is a finite number in `[0, 1]`. -/
theorem normalize_inUnitRange
    (r : List F32) :
    InUnitRange (normalize r) := by
  rcases eq_or_ne r [] with rfl | hr
  case inl =>
    rw [normalize_nil]
    intro x hx
    cases hx
  have hTerms : ∀ x ∈ cleared r, x.Nonneg := fun x hx => mem_cleared_nonneg hx
  rw [normalize_eq]
  rcases l1Norm_cleared_cases hr with hInf | ⟨hS, hBound, _⟩
  case inl =>
    -- an infinite norm divides every weight down to zero
    rw [if_neg (by simp [lt_epsilon_of_infinite hInf])]
    intro y hy
    obtain ⟨x, hx, rfl⟩ := List.mem_map.mp hy
    obtain ⟨hQuot, hZero⟩ := F32.div_infinite (hTerms x hx).isFinite hInf
    exact unitRange_of_units hQuot (by omega)
  case inr =>
    by_cases hBelow : F32.lt (l1Norm (cleared r)) epsilon = true
    case pos =>
      rw [if_pos hBelow]
      exact (uniform_inUnitRange_sumsToOne (List.length_pos_iff.mpr hr)).1
    case neg =>
      rw [if_neg hBelow]
      rw [lt_epsilon_of_nonneg hS, decide_eq_true_iff] at hBelow
      have hPos : 0 < (l1Norm (cleared r)).units := by omega
      intro y hy
      obtain ⟨hQuot, hAtMost⟩ :=
        (quotients_error (cleared r) (hS.value_of_pos hPos) hPos
          (fun x hx => ⟨hTerms x hx, hBound x hx⟩)).1 y hy
      exact unitRange_of_units hQuot hAtMost

/-
  Unless the norm overflows, the entries of a normalised row of width
  `w ≥ 1` sum to one within `w · 2 ^ -23`.
-/
theorem normalize_sumsToOne
    {r : List F32}
    (hr : r ≠ [])
    (hFinite : ¬NormOverflows r) :
    SumsToOne (normalize r) := by
  have hTerms : ∀ x ∈ cleared r, x.Nonneg := fun x hx => mem_cleared_nonneg hx
  have hWidth : 1 ≤ (cleared r).length := by
    simpa [cleared, Nat.one_le_iff_ne_zero] using hr
  have hLength : ((cleared r).length : ℚ) = r.length := by
    simp [cleared]
  rw [normalize_eq]
  rcases l1Norm_cleared_cases hr with hInf | ⟨hS, hBound, hNormError⟩
  case inl => exact absurd hInf hFinite
  case inr =>
    by_cases hBelow : F32.lt (l1Norm (cleared r)) epsilon = true
    case pos =>
      rw [if_pos hBelow]
      exact (uniform_inUnitRange_sumsToOne (List.length_pos_iff.mpr hr)).2
    case neg =>
      rw [if_neg hBelow]
      rw [lt_epsilon_of_nonneg hS, decide_eq_true_iff] at hBelow
      have hPos : 0 < (l1Norm (cleared r)).units := by omega
      obtain ⟨hRange, hQuotError⟩ :=
        quotients_error (cleared r) (hS.value_of_pos hPos) hPos
          (fun x hx => ⟨hTerms x hx, hBound x hx⟩)
      rw [← hLength] at hNormError
      unfold SumsToOne
      rw [sum_toRat_of_nonneg _ (fun y hy => (hRange y hy).1),
        List.length_map]
      exact sum_bound_of_errors (by exact_mod_cast hPos)
        (by exact_mod_cast hWidth) hNormError hQuotError

/- A norm that overflows divides every weight down to zero. -/
theorem normalize_of_normOverflows
    {r : List F32}
    (hOver : NormOverflows r) :
    ∀ y ∈ normalize r, y.toRat = 0 := by
  rw [normalize_eq, if_neg (by simp [lt_epsilon_of_infinite hOver])]
  intro y hy
  obtain ⟨x, hx, rfl⟩ := List.mem_map.mp hy
  obtain ⟨hQuot, hZero⟩ :=
    F32.div_infinite (mem_cleared_nonneg hx).isFinite hOver
  rw [hQuot.toRat_eq, hZero]
  simp

------------------------------------------------------------
-- Rows as Normalising Leaves Them
------------------------------------------------------------

/-
  A row as normalising leaves it: every entry a finite number in
  `[0, 1]`, and the entries summing to one within the row's width, or
  all of them zero, which is what an overflowing norm gives.
-/
def Normalized
    (r : List F32) : Prop :=
  InUnitRange r ∧ (SumsToOne r ∨ ∀ x ∈ r, x.toRat = 0)

theorem normalize_normalized
    {r : List F32}
    (hr : r ≠ []) :
    Normalized (normalize r) := by
  refine ⟨normalize_inUnitRange r, ?_⟩
  by_cases hOver : NormOverflows r
  case pos => exact .inr (normalize_of_normOverflows hOver)
  case neg => exact .inl (normalize_sumsToOne hr hOver)

/-
  Zeros appended to a normalised row keep it normalised: they add
  nothing to the sum and widen the allowed error.
-/
theorem Normalized.pad
    {r : List F32}
    (hr : Normalized r)
    (k : Nat) :
    Normalized (r ++ List.replicate k 0) := by
  have hZero : (0 : F32).Nonneg := F32.nonneg_of_value F32.value_zero
  have hZeroUnits : (0 : F32).units = 0 := F32.units_of_value F32.value_zero
  have hZeroRat : (0 : F32).toRat = 0 := by
    rw [hZero.toRat_eq, hZeroUnits]
    simp
  obtain ⟨hRange, hSum | hAllZero⟩ := hr
  · refine ⟨?_, .inl ?_⟩
    · intro x hx
      rcases List.mem_append.mp hx with hx | hx
      · exact hRange x hx
      · rw [List.eq_of_mem_replicate hx]
        exact unitRange_of_units hZero (by omega)
    · unfold SumsToOne at hSum ⊢
      rw [List.map_append, List.sum_append, List.map_replicate,
        List.sum_replicate, hZeroRat, smul_zero, add_zero,
        List.length_append, List.length_replicate]
      calc |(r.map F32.toRat).sum - 1|
          ≤ r.length / 2 ^ 23 := hSum
        _ ≤ ((r.length + k : Nat) : ℚ) / 2 ^ 23 := by
          gcongr
          omega
  · refine ⟨?_, .inr ?_⟩ <;> intro x hx <;>
      rcases List.mem_append.mp hx with hx | hx
    · exact hRange x hx
    · rw [List.eq_of_mem_replicate hx]
      exact unitRange_of_units hZero (by omega)
    · exact hAllZero x hx
    · rw [List.eq_of_mem_replicate hx, hZeroRat]

/-
  A contribution that is absorbed gives the normalised form of a row as
  wide as the running one.
-/
theorem absorb_eq_ok
    {row r : List F32}
    {batch : List (List F32)}
    {alpha : F32}
    (hAbsorb : absorb row batch alpha = .ok r) :
    ∃ smoothed : List F32,
      smoothed.length = row.length ∧ r = normalize smoothed := by
  unfold absorb smoothToward at hAbsorb
  cases hMean : batchMean batch row.length with
  | error e =>
      simp only [hMean, bind, Except.bind] at hAbsorb
      cases hAbsorb
  | ok mean =>
      by_cases hWidth : mean.length = row.length
      case neg =>
        simp [hMean, hWidth, bind, Except.bind] at hAbsorb
      case pos =>
        simp only [hMean, hWidth, ne_eq, not_true_eq_false, if_false, bind,
          Except.bind, pure, Except.pure, Except.ok.injEq] at hAbsorb
        refine ⟨List.zipWith (fun w t => (1 - alpha) * w + alpha * t) row mean,
          ?_, hAbsorb.symm⟩
        rw [List.length_zipWith]
        omega

end WeightRow

end NeuronFleet
