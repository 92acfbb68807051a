import Mathlib
import NeuronFleet.Number.Binary

/-
  Error bounds of rounding to nearest in a binary format.

  `Format.roundRatio` rounds an exact ratio of magnitudes, counted in
  units of the smallest subnormal, to a magnitude with a
  `precision`-bit significand.  Its result lies within half a unit of
  the ratio, and in the normal range within a relative `2 ^ -precision`
  of both the ratio and itself.  Rounding never passes a magnitude the
  format can hold, so it is monotone with respect to such magnitudes,
  and it leaves them fixed.

  Main declarations:
    * `Format.Representable`
    * `Format.roundRatio_error`, `Format.roundRatio_error_normal`
    * `Format.roundRatio_le`, `Format.le_roundRatio`, `Format.roundRatio_mono`
    * `Format.roundRatio_representable`
-/

------------------------------------------------------------
-- Rounding a Quotient to a Natural
------------------------------------------------------------

namespace NeuronFleet

namespace Binary

/-
  The rounded quotient is the floor or the floor plus one, and it is
  the floor plus one only when the remainder is at least half the
  divisor.
-/
theorem roundHalfEven_cases
    (num den : Nat) :
    (roundHalfEven num den = num / den ∧
        2 * (num % den) ≤ den) ∨
      (roundHalfEven num den = num / den + 1 ∧
        den ≤ 2 * (num % den)) := by
  simp only [roundHalfEven]
  split
  · right
    constructor
    · rfl
    · omega
  · split
    · right
      constructor
      · rfl
      · omega
    · left
      constructor
      · rfl
      · omega

/-
  Within half the divisor: `|2 · round · den - 2 · num| ≤ den`.
-/
theorem roundHalfEven_mul_bounds
    (num den : Nat)
    (hDen : 0 < den) :
    2 * (roundHalfEven num den * den) ≤ 2 * num + den ∧
      2 * num ≤ 2 * (roundHalfEven num den * den) + den := by
  have hSplit := Nat.div_add_mod num den
  have hMod := Nat.mod_lt num hDen
  rcases roundHalfEven_cases num den with
    ⟨hEq, hHalf⟩ | ⟨hEq, hHalf⟩
  · rw [hEq]
    generalize num / den = q at hSplit
    rw [Nat.mul_comm q den]
    omega
  · rw [hEq]
    generalize num / den = q at hSplit
    rw [Nat.add_mul, Nat.one_mul, Nat.mul_comm q den]
    omega

theorem roundHalfEven_le_of_le_mul
    {num den n : Nat}
    (hDen : 0 < den)
    (hLe : num ≤ n * den) :
    roundHalfEven num den ≤ n := by
  have hFloor : num / den ≤ n :=
    (Nat.div_le_iff_le_mul_add_pred hDen).mpr (by
      have := Nat.mul_comm n den
      omega)
  rcases roundHalfEven_cases num den with
    ⟨hEq, _⟩ | ⟨hEq, hHalf⟩
  · omega
  · rcases Nat.lt_or_ge (num / den) n with hLt | hGe
    · omega
    · -- the quotient is exactly `n`, so nothing remains to round up
      have hQuot : num / den = n := by omega
      have hSplit := Nat.div_add_mod num den
      rw [hQuot, Nat.mul_comm] at hSplit
      omega

theorem le_roundHalfEven_of_mul_le
    {num den n : Nat}
    (hDen : 0 < den)
    (hLe : n * den ≤ num) :
    n ≤ roundHalfEven num den := by
  have hFloor : n ≤ num / den :=
    (Nat.le_div_iff_mul_le hDen).mpr hLe
  exact Nat.le_trans hFloor (le_roundHalfEven num den)

/- Rounding a quotient to a natural is monotone in the dividend. -/
theorem roundHalfEven_mono
    {a b den : Nat}
    (hDen : 0 < den)
    (hLe : a ≤ b) :
    roundHalfEven a den ≤ roundHalfEven b den := by
  have hQuot : a / den ≤ b / den := Nat.div_le_div_right hLe
  rcases Nat.lt_or_eq_of_le hQuot with hLt | hEq
  · -- a lower quotient rounds to at most the higher one
    calc roundHalfEven a den ≤ a / den + 1 := roundHalfEven_le a den
      _ ≤ b / den := hLt
      _ ≤ roundHalfEven b den := le_roundHalfEven b den
  · -- one quotient: the larger remainder rounds up whenever the smaller does
    have hSplitA := Nat.div_add_mod a den
    have hSplitB := Nat.div_add_mod b den
    have hModB := Nat.mod_lt b hDen
    rw [hEq] at hSplitA
    simp only [roundHalfEven, hEq]
    generalize den * (b / den) = t at hSplitA hSplitB
    split_ifs <;> omega

/- The rounded quotient is at most half a unit from the quotient. -/
theorem roundHalfEven_error
    (num den : Nat)
    (hDen : 0 < den) :
    |(roundHalfEven num den : ℚ) - num / den| ≤ 1 / 2 := by
  obtain ⟨hUpper, hLower⟩ := roundHalfEven_mul_bounds num den hDen
  have hDenQ : (0 : ℚ) < den := by exact_mod_cast hDen
  have hUpperQ :
      2 * ((roundHalfEven num den : ℚ) * den) ≤
        2 * num + den := by
    exact_mod_cast hUpper
  have hLowerQ :
      2 * (num : ℚ) ≤
        2 * ((roundHalfEven num den : ℚ) * den) + den := by
    exact_mod_cast hLower
  have hOver :
      (roundHalfEven num den : ℚ) - num / den =
        ((roundHalfEven num den : ℚ) * den - num) / den := by
    field_simp
  rw [hOver, abs_div, abs_of_pos hDenQ, div_le_iff₀ hDenQ,
    abs_le]
  constructor <;> linarith

------------------------------------------------------------
-- The Binade of a Ratio
------------------------------------------------------------

/-
  `floorLog2Ratio num den` is `⌊log₂ (num / den)⌋`: the ratio is below
  `2 ^ (k + 1)`, and at least `2 ^ k` when `k` is not negative.  Only
  the lower bound needs the comparison the definition makes; the
  difference of the logarithms is right to within one either way.
-/
theorem floorLog2Ratio_bounds
    {num den : Nat}
    (hNum : 0 < num)
    (hDen : 0 < den) :
    (0 ≤ floorLog2Ratio num den →
        den * 2 ^ (floorLog2Ratio num den).toNat ≤ num) ∧
      num < den * 2 ^ (floorLog2Ratio num den + 1).toNat := by
  have hA := Nat.log2_self_le hNum.ne'
  have hA' := @Nat.lt_log2_self num
  have hB := Nat.log2_self_le hDen.ne'
  have hB' := @Nat.lt_log2_self den
  simp only [floorLog2Ratio, Nat.pow_eq]
  generalize num.log2 = a at *
  generalize den.log2 = b at *
  split
  · -- the ratio is above one half
    have hExp : ((a : Int) - b).toNat = a - b := by omega
    split
    · rename_i hAbove
      simp only [hExp, ge_iff_le, decide_eq_true_eq] at hAbove
      refine ⟨fun _ => by rwa [hExp], ?_⟩
      rw [show ((a : Int) - b + 1).toNat = a - b + 1 by omega]
      calc num < 2 ^ (a + 1) := hA'
        _ = 2 ^ b * 2 ^ (a - b + 1) := by
          rw [← Nat.pow_add]
          congr 1
          omega
        _ ≤ den * 2 ^ (a - b + 1) := Nat.mul_le_mul_right _ hB
    · rename_i hBelow
      simp only [hExp, ge_iff_le, decide_eq_true_eq,
        not_le] at hBelow
      refine ⟨fun hPos => ?_, ?_⟩
      · rw [show ((a : Int) - b - 1).toNat = a - b - 1 by omega]
        calc den * 2 ^ (a - b - 1)
            ≤ 2 ^ (b + 1) * 2 ^ (a - b - 1) :=
              Nat.mul_le_mul_right _ hB'.le
          _ = 2 ^ a := by
            rw [← Nat.pow_add]
            congr 1
            omega
          _ ≤ num := hA
      · rwa [show ((a : Int) - b - 1 + 1).toNat = a - b by omega]
  · -- the ratio is below one
    have hLt : num < den := by
      calc num < 2 ^ (a + 1) := hA'
        _ ≤ 2 ^ b :=
          Nat.pow_le_pow_right (by norm_num) (by omega)
        _ ≤ den := hB
    split
    · refine ⟨fun hPos => by omega, ?_⟩
      rw [show ((a : Int) - b + 1).toNat = 0 by omega]
      simpa using hLt
    · refine ⟨fun hPos => by omega, ?_⟩
      rw [show ((a : Int) - b - 1 + 1).toNat = 0 by omega]
      simpa using hLt

------------------------------------------------------------
-- Representable Magnitudes
------------------------------------------------------------

/-
  A magnitude the format can hold when its exponent is not bounded: a
  significand of `precision` bits times a power of two.
-/
def Format.Representable
    (f : Format)
    (m : Nat) :
    Prop :=
  ∃ j s, j < 2 ^ f.precision ∧ m = j * 2 ^ s

namespace Format

variable {f : Format}

theorem representable_of_lt
    {m : Nat}
    (hSmall : m < 2 ^ f.precision) :
    f.Representable m :=
  ⟨m, 0, hSmall, by simp⟩

theorem representable_two_pow
    (hPrec : 1 ≤ f.precision)
    (s : Nat) :
    f.Representable (2 ^ s) :=
  ⟨1, s, Nat.one_lt_two_pow (by omega), by simp⟩

theorem Representable.mul_two_pow
    {m : Nat}
    (hRep : f.Representable m)
    (t : Nat) :
    f.Representable (m * 2 ^ t) := by
  obtain ⟨j, s, hj, rfl⟩ := hRep
  exact ⟨j, s + t, hj, by rw [Nat.pow_add, Nat.mul_assoc]⟩

/-
  A representable magnitude at or above `2 ^ k` is a multiple of the
  spacing `2 ^ (k + 1 - precision)` of that binade.
-/
theorem Representable.two_pow_dvd
    {m k : Nat}
    (hRep : f.Representable m)
    (hAbove : 2 ^ k ≤ m) :
    2 ^ (k + 1 - f.precision) ∣ m := by
  obtain ⟨j, s, hj, rfl⟩ := hRep
  have hExp : k + 1 - f.precision ≤ s := by
    by_contra hSmall
    have hTop : j * 2 ^ s < 2 ^ k :=
      calc j * 2 ^ s < 2 ^ f.precision * 2 ^ s :=
            Nat.mul_lt_mul_of_pos_right hj (Nat.two_pow_pos s)
        _ = 2 ^ (f.precision + s) := (Nat.pow_add _ _ _).symm
        _ ≤ 2 ^ k := Nat.pow_le_pow_right (by norm_num) (by omega)
    omega
  exact Nat.dvd_trans (Nat.pow_dvd_pow 2 hExp)
    (Nat.dvd_mul_left _ _)

end Format

------------------------------------------------------------
-- Rounding a Ratio
------------------------------------------------------------

/-
  Rounding on the grid of spacing `2 ^ t`, for a ratio of at least
  `2 ^ (p - 1)` grid steps: the result is within half a step of the
  ratio, and half a step is at most a `2 ^ -p` part of both the ratio
  and the result.
-/
theorem roundHalfEven_grid_error
    {num den t p : Nat}
    (hP : 1 ≤ p)
    (hDen : 0 < den)
    (hLow : 2 ^ (p - 1) * (den * 2 ^ t) ≤ num) :
    |((roundHalfEven num (den * 2 ^ t) * 2 ^ t : Nat) : ℚ) -
          num / den| ≤ (num / den) / 2 ^ p ∧
      |((roundHalfEven num (den * 2 ^ t) * 2 ^ t : Nat) : ℚ) -
          num / den| ≤
        ((roundHalfEven num (den * 2 ^ t) * 2 ^ t : Nat) : ℚ) /
          2 ^ p := by
  have hGrid : 0 < den * 2 ^ t := Nat.mul_pos hDen (Nat.two_pow_pos t)
  have hHalf := roundHalfEven_error num (den * 2 ^ t) hGrid
  have hSteps : 2 ^ (p - 1) ≤ roundHalfEven num (den * 2 ^ t) :=
    le_roundHalfEven_of_mul_le hGrid hLow
  generalize roundHalfEven num (den * 2 ^ t) = n at hHalf hSteps
  have hDenQ : (0 : ℚ) < den := by exact_mod_cast hDen
  have hPow : (2 : ℚ) ^ p = 2 * 2 ^ (p - 1) := by
    rw [← pow_succ']
    congr 1
    omega
  -- half a grid step, measured against both sides
  have hStep :
      |(n : ℚ) * 2 ^ t - num / den| ≤ 2 ^ t / 2 := by
    have hScale :
        (n : ℚ) * 2 ^ t - num / den =
          2 ^ t * ((n : ℚ) - num / ((den * 2 ^ t : Nat) : ℚ)) := by
      push_cast
      field_simp
    rw [hScale, abs_mul, abs_of_pos (by positivity)]
    calc (2 : ℚ) ^ t * |(n : ℚ) - num / ((den * 2 ^ t : Nat) : ℚ)|
        ≤ 2 ^ t * (1 / 2) := by gcongr
      _ = 2 ^ t / 2 := by ring
  have hLowQ : (2 : ℚ) ^ (p - 1) * 2 ^ t ≤ num / den := by
    rw [le_div_iff₀ hDenQ]
    have hCast :
        ((2 ^ (p - 1) * (den * 2 ^ t) : Nat) : ℚ) ≤ num := by
      exact_mod_cast hLow
    push_cast at hCast
    linarith
  have hStepsQ : (2 : ℚ) ^ (p - 1) ≤ n := by exact_mod_cast hSteps
  push_cast
  constructor
  · refine hStep.trans ?_
    rw [le_div_iff₀ (by positivity), hPow]
    nlinarith [pow_pos (two_pos : (0 : ℚ) < 2) t]
  · refine hStep.trans ?_
    rw [le_div_iff₀ (by positivity), hPow]
    nlinarith [pow_pos (two_pos : (0 : ℚ) < 2) t]

namespace Format

variable {f : Format}

theorem roundRatio_zero
    (den : Nat) :
    f.roundRatio 0 den = 0 := by
  simp [roundRatio]

/- Below the binade of `2 ^ precision` the ratio is rounded to a natural. -/
theorem roundRatio_of_lt
    {num den : Nat}
    (hNum : 0 < num)
    (hDen : 0 < den)
    (hBinade : floorLog2Ratio num den < f.precision) :
    f.roundRatio num den = roundHalfEven num den := by
  have hNonzero : ¬(num = 0 ∨ den = 0) := by omega
  simp only [roundRatio, hNonzero, hBinade, if_false, if_true]

/- From that binade on, the last `k + 1 - precision` bits are rounded away. -/
theorem roundRatio_of_ge
    {num den k : Nat}
    (hPrec : 1 ≤ f.precision)
    (hNum : 0 < num)
    (hDen : 0 < den)
    (hBinade : floorLog2Ratio num den = k)
    (hAbove : f.precision ≤ k) :
    f.roundRatio num den =
      roundHalfEven num (den * 2 ^ (k + 1 - f.precision)) *
        2 ^ (k + 1 - f.precision) := by
  have hNonzero : ¬(num = 0 ∨ den = 0) := by omega
  have hNotBelow : ¬(floorLog2Ratio num den < f.precision) := by
    omega
  have hShift :
      (floorLog2Ratio num den - ((f.precision - 1 : Nat) : Int)).toNat =
        k + 1 - f.precision := by
    omega
  simp only [roundRatio, hNonzero, hNotBelow, if_false, hShift,
    Nat.pow_eq]

/-
  The two shapes of a rounding, with the bounds of the binade that the
  second one needs.
-/
theorem roundRatio_cases
    {num den : Nat}
    (hPrec : 1 ≤ f.precision)
    (hNum : 0 < num)
    (hDen : 0 < den) :
    (f.roundRatio num den = roundHalfEven num den ∧
        num < den * 2 ^ f.precision) ∨
      ∃ k, f.precision ≤ k ∧
        f.roundRatio num den =
          roundHalfEven num (den * 2 ^ (k + 1 - f.precision)) *
            2 ^ (k + 1 - f.precision) ∧
        2 ^ (f.precision - 1) * (den * 2 ^ (k + 1 - f.precision)) ≤
          num ∧
        num < 2 ^ f.precision * (den * 2 ^ (k + 1 - f.precision)) := by
  obtain ⟨hLower, hUpper⟩ := floorLog2Ratio_bounds hNum hDen
  rcases Int.lt_or_le (floorLog2Ratio num den) f.precision with
    hBelow | hAbove
  · left
    refine ⟨roundRatio_of_lt hNum hDen hBelow, ?_⟩
    calc num < den * 2 ^ (floorLog2Ratio num den + 1).toNat := hUpper
      _ ≤ den * 2 ^ f.precision :=
        Nat.mul_le_mul_left _
          (Nat.pow_le_pow_right (by norm_num) (by omega))
  · right
    obtain ⟨k, hk⟩ :=
      Int.eq_ofNat_of_zero_le (le_trans (by omega) hAbove)
    refine ⟨k, by omega,
      roundRatio_of_ge hPrec hNum hDen hk (by omega), ?_, ?_⟩
    · have hLow := hLower (by omega)
      rw [hk, Int.toNat_natCast] at hLow
      calc 2 ^ (f.precision - 1) * (den * 2 ^ (k + 1 - f.precision))
          = den * 2 ^ k := by
            rw [Nat.mul_left_comm, ← Nat.pow_add]
            congr 2
            omega
        _ ≤ num := hLow
    · rw [hk, show ((k : Int) + 1).toNat = k + 1 by omega] at hUpper
      calc num < den * 2 ^ (k + 1) := hUpper
        _ = 2 ^ f.precision * (den * 2 ^ (k + 1 - f.precision)) := by
            rw [Nat.mul_left_comm, ← Nat.pow_add]
            congr 2
            omega

/-
  In the normal range, from `2 ^ (precision - 1)` units on, rounding
  errs by at most a `2 ^ -precision` part of the ratio and of the
  result.
-/
theorem roundRatio_error_normal
    {num den : Nat}
    (hPrec : 1 ≤ f.precision)
    (hDen : 0 < den)
    (hNormal : 2 ^ (f.precision - 1) * den ≤ num) :
    |(f.roundRatio num den : ℚ) - num / den| ≤
        (num / den) / 2 ^ f.precision ∧
      |(f.roundRatio num den : ℚ) - num / den| ≤
        (f.roundRatio num den : ℚ) / 2 ^ f.precision := by
  have hNum : 0 < num :=
    lt_of_lt_of_le (Nat.mul_pos (Nat.two_pow_pos _) hDen) hNormal
  rcases roundRatio_cases hPrec hNum hDen with
    ⟨hRound, _⟩ | ⟨k, _, hRound, hLow, _⟩
  · -- rounding to a natural is rounding on the grid of spacing one
    have hGrid :=
      roundHalfEven_grid_error (t := 0) hPrec hDen
        (by simpa using hNormal)
    simpa [hRound] using hGrid
  · rw [hRound]
    exact roundHalfEven_grid_error hPrec hDen hLow

/-
  Anywhere, rounding errs by at most half a unit plus a
  `2 ^ -precision` part of the ratio.
-/
theorem roundRatio_error
    (num : Nat)
    {den : Nat}
    (hPrec : 1 ≤ f.precision)
    (hDen : 0 < den) :
    |(f.roundRatio num den : ℚ) - num / den| ≤
      1 / 2 + (num / den) / 2 ^ f.precision := by
  have hRatio : (0 : ℚ) ≤ (num / den) / 2 ^ f.precision := by
    positivity
  rcases Nat.eq_zero_or_pos num with hZero | hNum
  · subst hZero
    simp [roundRatio_zero]
  rcases roundRatio_cases hPrec hNum hDen with
    ⟨hRound, _⟩ | ⟨k, _, hRound, hLow, _⟩
  · rw [hRound]
    linarith [roundHalfEven_error num den hDen]
  · rw [hRound]
    linarith [(roundHalfEven_grid_error hPrec hDen hLow).1]

/- Rounding never passes a representable magnitude from below. -/
theorem roundRatio_le
    {num den R : Nat}
    (hPrec : 1 ≤ f.precision)
    (hDen : 0 < den)
    (hRep : f.Representable R)
    (hLe : num ≤ R * den) :
    f.roundRatio num den ≤ R := by
  rcases Nat.eq_zero_or_pos num with hZero | hNum
  · simp [hZero, roundRatio_zero]
  rcases roundRatio_cases hPrec hNum hDen with
    ⟨hRound, _⟩ | ⟨k, hk, hRound, hLow, _⟩
  · rw [hRound]
    exact roundHalfEven_le_of_le_mul hDen hLe
  · -- `R` lies in the binade of the ratio or above, on its grid
    have hAbove : 2 ^ k ≤ R := by
      have hPow : 2 ^ (f.precision - 1) * 2 ^ (k + 1 - f.precision) =
          2 ^ k := by
        rw [← Nat.pow_add]
        congr 1
        omega
      have hChain : 2 ^ k * den ≤ R * den := by
        calc 2 ^ k * den
            = 2 ^ (f.precision - 1) *
                (den * 2 ^ (k + 1 - f.precision)) := by
              rw [← hPow]
              ring
          _ ≤ num := hLow
          _ ≤ R * den := hLe
      exact Nat.le_of_mul_le_mul_right hChain hDen
    obtain ⟨M, rfl⟩ := hRep.two_pow_dvd hAbove
    have hSteps :
        roundHalfEven num (den * 2 ^ (k + 1 - f.precision)) ≤ M :=
      roundHalfEven_le_of_le_mul
        (Nat.mul_pos hDen (Nat.two_pow_pos _))
        (by rw [show M * (den * 2 ^ (k + 1 - f.precision)) =
              2 ^ (k + 1 - f.precision) * M * den by ring]
            exact hLe)
    rw [hRound, Nat.mul_comm (2 ^ _) M]
    exact Nat.mul_le_mul_right _ hSteps

/- Rounding never passes a representable magnitude from above. -/
theorem le_roundRatio
    {num den R : Nat}
    (hPrec : 1 ≤ f.precision)
    (hDen : 0 < den)
    (hRep : f.Representable R)
    (hLe : R * den ≤ num) :
    R ≤ f.roundRatio num den := by
  rcases Nat.eq_zero_or_pos num with hZero | hNum
  · subst hZero
    have hZeroR : R = 0 := by
      rcases Nat.mul_eq_zero.mp (Nat.le_zero.mp hLe) with h | h
      · exact h
      · omega
    simp [hZeroR]
  rcases roundRatio_cases hPrec hNum hDen with
    ⟨hRound, _⟩ | ⟨k, hk, hRound, hLow, _⟩
  · rw [hRound]
    exact le_roundHalfEven_of_mul_le hDen hLe
  · have hGrid : 0 < den * 2 ^ (k + 1 - f.precision) :=
      Nat.mul_pos hDen (Nat.two_pow_pos _)
    have hSteps :
        2 ^ (f.precision - 1) ≤
          roundHalfEven num (den * 2 ^ (k + 1 - f.precision)) :=
      le_roundHalfEven_of_mul_le hGrid hLow
    have hPow : 2 ^ (f.precision - 1) * 2 ^ (k + 1 - f.precision) =
        2 ^ k := by
      rw [← Nat.pow_add]
      congr 1
      omega
    rw [hRound]
    rcases Nat.lt_or_ge R (2 ^ k) with hBelow | hAbove
    · -- the result is at least the bottom of the binade
      calc R ≤ 2 ^ k := hBelow.le
        _ = 2 ^ (f.precision - 1) * 2 ^ (k + 1 - f.precision) :=
          hPow.symm
        _ ≤ _ := Nat.mul_le_mul_right _ hSteps
    · obtain ⟨M, rfl⟩ := hRep.two_pow_dvd hAbove
      have hM :
          M ≤ roundHalfEven num (den * 2 ^ (k + 1 - f.precision)) :=
        le_roundHalfEven_of_mul_le hGrid
          (by rw [show M * (den * 2 ^ (k + 1 - f.precision)) =
                2 ^ (k + 1 - f.precision) * M * den by ring]
              exact hLe)
      rw [Nat.mul_comm (2 ^ _) M]
      exact Nat.mul_le_mul_right _ hM

/- The grid of the binade `k`, in the shape `roundRatio_cases` gives it. -/
private theorem binade_bottom_eq
    {den k : Nat}
    (hPrec : 1 ≤ f.precision)
    (hk : f.precision ≤ k) :
    2 ^ (f.precision - 1) * (den * 2 ^ (k + 1 - f.precision)) = 2 ^ k * den := by
  rw [Nat.mul_left_comm, ← Nat.pow_add, Nat.mul_comm]
  congr 2
  omega

private theorem binade_top_eq
    {den k : Nat}
    (hk : f.precision ≤ k) :
    2 ^ f.precision * (den * 2 ^ (k + 1 - f.precision)) = 2 ^ (k + 1) * den := by
  rw [Nat.mul_left_comm, ← Nat.pow_add, Nat.mul_comm]
  congr 2
  omega

/-
  Rounding is monotone in the ratio.  Two ratios in one binade are
  rounded on one grid; of two in different binades, the lower rounds to
  at most the top of its binade and the higher to at least the bottom of
  its own.
-/
theorem roundRatio_mono
    {a b den : Nat}
    (hPrec : 1 ≤ f.precision)
    (hDen : 0 < den)
    (hLe : a ≤ b) :
    f.roundRatio a den ≤ f.roundRatio b den := by
  rcases Nat.eq_zero_or_pos a with hZero | hA
  · simp [hZero, roundRatio_zero]
  have hB : 0 < b := lt_of_lt_of_le hA hLe
  rcases roundRatio_cases hPrec hA hDen with ⟨hRoundA, hTopA⟩ | ⟨ka, hka, hRoundA, hLowA, hTopA⟩
  · rcases roundRatio_cases hPrec hB hDen with ⟨hRoundB, -⟩ | ⟨kb, hkb, -, hLowB, -⟩
    case inl =>
      rw [hRoundA, hRoundB]
      exact roundHalfEven_mono hDen hLe
    case inr =>
      rw [binade_bottom_eq hPrec hkb] at hLowB
      calc f.roundRatio a den ≤ 2 ^ f.precision :=
            roundRatio_le hPrec hDen (representable_two_pow hPrec _)
              (by rw [Nat.mul_comm]; exact hTopA.le)
        _ ≤ 2 ^ kb := Nat.pow_le_pow_right (by norm_num) hkb
        _ ≤ f.roundRatio b den := le_roundRatio hPrec hDen (representable_two_pow hPrec _) hLowB
  · rw [binade_bottom_eq hPrec hka] at hLowA
    rw [binade_top_eq hka] at hTopA
    rcases roundRatio_cases hPrec hB hDen with ⟨-, hTopB⟩ | ⟨kb, hkb, hRoundB, hLowB, hTopB⟩
    case inl =>
      -- `b` below `2 ^ precision` cannot be above `a`, which is not
      have hPow : 2 ^ f.precision ≤ 2 ^ ka := Nat.pow_le_pow_right (by norm_num) hka
      have hAbove : den * 2 ^ f.precision ≤ 2 ^ ka * den := by
        rw [Nat.mul_comm]
        exact Nat.mul_le_mul_right _ hPow
      omega
    case inr =>
      rw [binade_bottom_eq hPrec hkb] at hLowB
      rw [binade_top_eq hkb] at hTopB
      rcases lt_trichotomy ka kb with hLt | rfl | hGt
      · calc f.roundRatio a den ≤ 2 ^ (ka + 1) :=
              roundRatio_le hPrec hDen (representable_two_pow hPrec _) hTopA.le
          _ ≤ 2 ^ kb := Nat.pow_le_pow_right (by norm_num) hLt
          _ ≤ f.roundRatio b den :=
              le_roundRatio hPrec hDen (representable_two_pow hPrec _) hLowB
      · rw [hRoundA, hRoundB]
        exact Nat.mul_le_mul_right _
          (roundHalfEven_mono (Nat.mul_pos hDen (Nat.two_pow_pos _)) hLe)
      · -- `b` in a lower binade cannot be above `a`
        have hPow : 2 ^ (kb + 1) ≤ 2 ^ ka := Nat.pow_le_pow_right (by norm_num) hGt
        have hBelow : 2 ^ (kb + 1) * den ≤ 2 ^ ka * den := Nat.mul_le_mul_right _ hPow
        omega

/- Every rounded magnitude is representable. -/
theorem roundRatio_representable
    (num : Nat)
    {den : Nat}
    (hPrec : 1 ≤ f.precision)
    (hDen : 0 < den) :
    f.Representable (f.roundRatio num den) := by
  rcases Nat.eq_zero_or_pos num with hZero | hNum
  · simp only [hZero, roundRatio_zero]
    exact representable_of_lt (Nat.two_pow_pos _)
  rcases roundRatio_cases hPrec hNum hDen with
    ⟨hRound, hTop⟩ | ⟨k, _, hRound, _, hTop⟩
  · have hAtMost : roundHalfEven num den ≤ 2 ^ f.precision :=
      roundHalfEven_le_of_le_mul hDen (by
        rw [Nat.mul_comm]
        exact hTop.le)
    rw [hRound]
    rcases Nat.lt_or_ge (roundHalfEven num den) (2 ^ f.precision) with
      hLt | hGe
    · exact representable_of_lt hLt
    · rw [show roundHalfEven num den = 2 ^ f.precision by omega]
      exact representable_two_pow hPrec _
  · have hAtMost :
        roundHalfEven num (den * 2 ^ (k + 1 - f.precision)) ≤
          2 ^ f.precision :=
      roundHalfEven_le_of_le_mul
        (Nat.mul_pos hDen (Nat.two_pow_pos _)) hTop.le
    rw [hRound]
    rcases Nat.lt_or_ge
        (roundHalfEven num (den * 2 ^ (k + 1 - f.precision)))
        (2 ^ f.precision) with hLt | hGe
    · exact (representable_of_lt hLt).mul_two_pow _
    · rw [show roundHalfEven num (den * 2 ^ (k + 1 - f.precision)) =
          2 ^ f.precision by omega, ← Nat.pow_add]
      exact representable_two_pow hPrec _

/- A representable magnitude rounds to itself. -/
theorem roundRatio_of_representable
    {m : Nat}
    (hPrec : 1 ≤ f.precision)
    (hRep : f.Representable m) :
    f.roundRatio m 1 = m :=
  Nat.le_antisymm
    (roundRatio_le hPrec Nat.one_pos hRep (by simp))
    (le_roundRatio hPrec Nat.one_pos hRep (by simp))

/-
  A natural rounds exactly below `2 ^ precision`, so the error of a
  rounded natural is always within a `2 ^ -precision` part of the
  result.
-/
theorem roundRatio_natural_error
    (n : Nat)
    (hPrec : 1 ≤ f.precision) :
    |(f.roundRatio n 1 : ℚ) - n| ≤
      (f.roundRatio n 1 : ℚ) / 2 ^ f.precision := by
  rcases Nat.lt_or_ge n (2 ^ f.precision) with hSmall | hLarge
  · rw [roundRatio_of_representable hPrec (representable_of_lt hSmall)]
    simp only [sub_self, abs_zero]
    positivity
  · have hNormal : 2 ^ (f.precision - 1) * 1 ≤ n := by
      have := Nat.pow_le_pow_right (n := 2) (by norm_num)
        (Nat.sub_le f.precision 1)
      omega
    simpa using (roundRatio_error_normal hPrec Nat.one_pos hNormal).2

end Format

end Binary

end NeuronFleet
