import NeuronFleet.Proofs.Number.Signed
import NeuronFleet.Schedule

/-
  The multiplier of the learning-rate schedule.

  For steps, warmup and total within 64 bits, finite cycles, and a
  cosine that stays in `[-1, 1]` on finite numbers, every multiplier
  lies in `[0, 1]`.  While warmup lasts it is the step over the warmup,
  and from a step past both the warmup and the total on it is zero.  A
  step past the total that is still within warmup is on the warmup ramp:
  a schedule whose warmup outlasts its total does not reach zero at the
  total.

  Main declarations:
    * `F32.value_ofNat`, `F32.value_ofNat_div_ofNat`, `F32.le_zero_one_of_nonneg`
    * `Schedule.decay_bounds`, `Schedule.multiplierWith_bounds`,
      `Schedule.multiplierWith_eq_zero`
-/

namespace NeuronFleet

------------------------------------------------------------
-- Numbers between Zero and One
------------------------------------------------------------

namespace F32

open Binary

theorem key_of_value
    {x : F32}
    {negative : Bool}
    {m : Nat}
    (hx : x.value = .finite negative m) :
    x.key = some (signedUnits negative m) := by
  simp [key, hx]

theorem exists_value_of_isFinite
    {x : F32}
    (hx : x.isFinite = true) :
    ∃ negative m, x.value = .finite negative m := by
  unfold isFinite at hx
  split at hx
  · exact ⟨_, _, ‹_›⟩
  · cases hx

theorem key_zero :
    (0 : F32).key = some 0 := by
  decide

theorem key_one :
    (1 : F32).key = some (2 ^ 149) := by
  decide

theorem key_neg_one :
    (-1 : F32).key = some (-2 ^ 149) := by
  decide

theorem key_of_nonneg
    {x : F32}
    (hx : x.Nonneg) :
    x.key = some (x.units : Int) := by
  obtain ⟨negative, hValue, hSign⟩ := hx
  rw [key_of_value hValue, signedUnits_of_nonneg hSign]

/- A non-negative number of at most `2 ^ 149` units is between zero and one. -/
theorem le_zero_one_of_nonneg
    {x : F32}
    (hx : x.Nonneg)
    (hAtMost : x.units ≤ 2 ^ 149) :
    F32.le 0 x = true ∧ F32.le x 1 = true :=
  ⟨le_iff_key.mpr ⟨0, x.units, key_zero, key_of_nonneg hx, by omega⟩,
    le_iff_key.mpr ⟨x.units, 2 ^ 149, key_of_nonneg hx, key_one, by exact_mod_cast hAtMost⟩⟩

/- One is at most a positive number exactly when it has at least `2 ^ 149` units. -/
theorem one_le_iff
    {x : F32}
    {m : Nat}
    (hx : x.value = .finite false m) :
    F32.le 1 x = true ↔ 2 ^ 149 ≤ m := by
  rw [le_iff_key]
  constructor
  · rintro ⟨a, b, ha, hb, hab⟩
    rw [key_one] at ha
    rw [key_of_value hx] at hb
    cases ha
    cases hb
    simp only [signedUnits, Bool.false_eq_true, if_false] at hab
    exact_mod_cast hab
  · intro hm
    refine ⟨_, _, key_one, key_of_value hx, ?_⟩
    simp only [signedUnits, Bool.false_eq_true, if_false]
    exact_mod_cast hm

theorem one_le_of_infinite
    {x : F32}
    (hx : x.value = .infinite false) :
    F32.le 1 x = true := by
  have hKey : x.key = some (Format.single.maxMagnitude + 1 : Nat) := by
    simp [key, hx]
  rw [single_maxMagnitude] at hKey
  exact le_iff_key.mpr ⟨_, _, key_one, hKey, by norm_num⟩

/- Of a non-negative number and zero, the larger is the number. -/
theorem max_zero_of_nonneg
    {x : F32}
    (hx : x.Nonneg) :
    F32.max x 0 = x := by
  have hNaN : x.isNaN = false := isNaN_eq_false_of_isFinite hx.isFinite
  have hNotBelow : F32.lt x 0 = false := by
    cases hLt : F32.lt x 0
    · rfl
    · obtain ⟨a, b, ha, hb, hab⟩ := lt_iff_key.mp hLt
      rw [key_of_nonneg hx] at ha
      rw [key_zero] at hb
      cases ha
      cases hb
      omega
  simp [F32.max, hNaN, hNotBelow]

/-
  A number between minus one and one is finite, its signed magnitude at
  most `2 ^ 149` either way.
-/
theorem value_of_le_one
    {x : F32}
    (hLow : F32.le (-1) x = true)
    (hHigh : F32.le x 1 = true) :
    ∃ negative m, x.value = .finite negative m ∧
      -2 ^ 149 ≤ signedUnits negative m ∧ signedUnits negative m ≤ 2 ^ 149 := by
  obtain ⟨a, k, ha, hk, hak⟩ := le_iff_key.mp hLow
  obtain ⟨k', b, hk', hb, hkb⟩ := le_iff_key.mp hHigh
  rw [key_neg_one] at ha
  rw [key_one] at hb
  rw [hk] at hk'
  cases ha
  cases hb
  cases hk'
  -- an infinity's key is beyond one, and NaN has none
  unfold key at hk
  split at hk
  · cases hk
  · rename_i negative m hValue
    cases hk
    exact ⟨negative, m, hValue, hak, hkb⟩
  · rename_i negative hValue
    rw [single_maxMagnitude] at hk
    cases negative <;> simp at hk <;> omega

------------------------------------------------------------
-- Naturals and their Quotients
------------------------------------------------------------

/- The largest natural number of 64 bits, plus one. -/
theorem u64_bound_units :
    Format.single.roundRatio (18446744073709551616 * 2 ^ 149) 1 ≤ Format.single.maxMagnitude := by
  have hPow : (18446744073709551616 : Nat) = 2 ^ 64 := by norm_num
  rw [hPow, Format.roundRatio_of_representable (by decide)
    ((Format.representable_two_pow (by decide) 64).mul_two_pow 149), single_maxMagnitude]
  norm_num

/- A natural of 64 bits is a finite non-negative number, its magnitude
rounded. -/
theorem value_ofNat
    {n : Nat}
    (hn : n < 18446744073709551616) :
    (ofNat n).value = .finite false (Format.single.roundRatio (n * 2 ^ 149) 1) := by
  rw [ofNat_eq]
  refine value_ofRatio_of_le Nat.one_pos (le_trans ?_ u64_bound_units)
  exact Format.roundRatio_mono (by decide) Nat.one_pos
    (Nat.mul_le_mul_right _ hn.le)

/-
  The quotient of two naturals of 64 bits, the divisor not zero: a
  non-negative number or infinity, of at most one when the dividend is
  the smaller and at least one otherwise.
-/
theorem value_ofNat_div_ofNat
    {m n : Nat}
    (hm : m < 18446744073709551616)
    (hn : n < 18446744073709551616)
    (hPos : 0 < n) :
    ∃ q, (ofNat m / ofNat n).value =
        (if q ≤ Format.single.maxMagnitude then .finite false q else .infinite false) ∧
      (m < n → q ≤ 2 ^ 149) ∧ (n ≤ m → 2 ^ 149 ≤ q) := by
  have hUnitsN : 2 ^ 149 ≤ Format.single.roundRatio (n * 2 ^ 149) 1 :=
    Format.le_roundRatio (by decide) Nat.one_pos (Format.representable_two_pow (by decide) 149)
      (by rw [Nat.mul_one]; exact Nat.le_mul_of_pos_left _ hPos)
  have hDivisor : 0 < Format.single.roundRatio (n * 2 ^ 149) 1 :=
    Nat.lt_of_lt_of_le (Nat.two_pow_pos 149) hUnitsN
  refine ⟨_, value_div_of_finite (value_ofNat hm) (value_ofNat hn) hDivisor, ?_, ?_⟩
  · -- the smaller natural rounds to at most the larger
    intro hLt
    have hMono := Format.roundRatio_mono (f := Format.single) (by decide) Nat.one_pos
      (Nat.mul_le_mul_right (2 ^ 149) hLt.le)
    exact Format.roundRatio_le (by decide) hDivisor (Format.representable_two_pow (by decide) 149)
      (by rw [Nat.mul_comm (2 ^ 149)]; exact Nat.mul_le_mul_right _ hMono)
  · intro hLe
    have hMono := Format.roundRatio_mono (f := Format.single) (by decide) Nat.one_pos
      (Nat.mul_le_mul_right (2 ^ 149) hLe)
    exact Format.le_roundRatio (by decide) hDivisor (Format.representable_two_pow (by decide) 149)
      (by rw [Nat.mul_comm (2 ^ 149)]; exact Nat.mul_le_mul_right _ hMono)

------------------------------------------------------------
-- Products by at most One
------------------------------------------------------------

/- A finite number times one of at most `2 ^ 149` units is finite and no
larger in magnitude. -/
theorem mul_finite_of_le_one
    {x y : F32}
    {sx sy : Bool}
    {mx my : Nat}
    (hx : x.value = .finite sx mx)
    (hy : y.value = .finite sy my)
    (hOne : my ≤ 2 ^ 149) :
    ∃ negative m, (x * y).value = .finite negative m ∧ m ≤ mx := by
  obtain ⟨hRep, hMax⟩ := units_of_finite hx
  rw [value_mul_of_finite hx hy]
  split
  · exact ⟨_, 0, rfl, Nat.zero_le _⟩
  · have hAtMost : Format.single.roundRatio (mx * my) (2 ^ 149) ≤ mx :=
      Format.roundRatio_le (by decide) (Nat.two_pow_pos _) hRep (Nat.mul_le_mul_left _ hOne)
    rw [if_pos (le_trans hAtMost hMax)]
    exact ⟨_, _, rfl, hAtMost⟩

end F32

------------------------------------------------------------
-- The Multiplier
------------------------------------------------------------

namespace Schedule

open Binary

section Bounds

variable {cos : F32 → F32}

/- A cosine that stays in `[-1, 1]` on finite numbers. -/
def CosineBounded (cos : F32 → F32) : Prop :=
  ∀ x, x.isFinite = true → F32.le (-1) (cos x) = true ∧ F32.le (cos x) 1 = true

theorem half_value :
    half.value = .finite false (2 ^ 148) := by
  decide

/- One plus a number in `[-1, 1]` is a non-negative number of at most two. -/
theorem one_add_of_bounded
    {c : F32}
    (hLow : F32.le (-1) c = true)
    (hHigh : F32.le c 1 = true) :
    (1 + c).Nonneg ∧ (1 + c).units ≤ 2 ^ 150 := by
  obtain ⟨sc, mc, hValue, hAbove, hBelow⟩ := F32.value_of_le_one hLow hHigh
  have hSum := F32.value_add_of_finite F32.value_one hValue
  have hOne : signedUnits false (2 ^ 149) = 2 ^ 149 := rfl
  rw [hOne] at hSum
  split at hSum
  · -- an exact zero sum is `+0`
    rw [Bool.false_and] at hSum
    exact ⟨F32.nonneg_of_value hSum, by rw [F32.units_of_value hSum]; omega⟩
  · have hNonneg : decide ((2 ^ 149 : Int) + signedUnits sc mc < 0) = false := by
      simp only [decide_eq_false_iff_not, not_lt]
      omega
    have hAtMost : Format.single.roundRatio ((2 ^ 149 : Int) + signedUnits sc mc).natAbs 1 ≤
        2 ^ 150 :=
      Format.roundRatio_le (by decide) Nat.one_pos (Format.representable_two_pow (by decide) 150)
        (by omega)
    rw [if_pos (le_trans hAtMost (by rw [single_maxMagnitude]; norm_num)), hNonneg] at hSum
    exact ⟨F32.nonneg_of_value hSum, by rw [F32.units_of_value hSum]; exact hAtMost⟩

/- Half of a non-negative number of at most two is between zero and one. -/
theorem half_mul_of_le_two
    {x : F32}
    (hx : x.Nonneg)
    (hTwo : x.units ≤ 2 ^ 150) :
    (half * x).Nonneg ∧ (half * x).units ≤ 2 ^ 149 := by
  obtain ⟨sx, hValue, hSign⟩ := hx
  have hProduct := F32.value_mul_of_finite half_value hValue
  split at hProduct
  · have hUnits := F32.units_of_value hProduct
    exact ⟨⟨_, by rw [hUnits]; exact hProduct, fun _ => hUnits⟩, by omega⟩
  · rename_i hNonzero
    have hPositive : sx = false := by
      cases sx with
      | false => rfl
      | true => exact absurd (hSign rfl) (by omega)
    have hAtMost : Format.single.roundRatio (2 ^ 148 * x.units) (2 ^ 149) ≤ 2 ^ 149 :=
      Format.roundRatio_le (by decide) (Nat.two_pow_pos _)
        (Format.representable_two_pow (by decide) 149) (by omega)
    rw [if_pos (le_trans hAtMost (by rw [single_maxMagnitude]; norm_num)), hPositive] at hProduct
    exact ⟨F32.nonneg_of_value hProduct, by rw [F32.units_of_value hProduct]; exact hAtMost⟩

/-
  The cosine decay at a progress of at most one in magnitude, with
  finite cycles: the argument of the cosine is finite, one plus the
  cosine is between zero and two, and its half between zero and one.
-/
theorem decay_bounds
    (hCos : CosineBounded cos)
    {cycles p : F32}
    {sp : Bool}
    {mp : Nat}
    (hCycles : cycles.isFinite = true)
    (hp : p.value = .finite sp mp)
    (hOne : mp ≤ 2 ^ 149) :
    F32.le 0 (F32.max (half * (1 + cos (F32.pi * ((cycles * p) % 1)))) 0) = true ∧
      F32.le (F32.max (half * (1 + cos (F32.pi * ((cycles * p) % 1)))) 0) 1 = true := by
  -- the argument: a finite product, its remainder by one, times π
  obtain ⟨sc, mc, hValueCycles⟩ := F32.exists_value_of_isFinite hCycles
  obtain ⟨s₁, m₁, hScaled, -⟩ := F32.mul_finite_of_le_one hValueCycles hp hOne
  obtain ⟨hWrapped, hWrappedOne⟩ := F32.value_rem_of_finite hScaled F32.value_one (Nat.two_pow_pos _)
  have hPi : F32.pi.value = .finite false (13176795 * 2 ^ 127) := by decide
  obtain ⟨s₂, m₂, hArgument, -⟩ := F32.mul_finite_of_le_one hPi hWrapped hWrappedOne
  have hFinite : (F32.pi * ((cycles * p) % 1)).isFinite = true := by
    simp [F32.isFinite, hArgument]
  -- the cosine, then the value it decays by
  obtain ⟨hLow, hHigh⟩ := hCos _ hFinite
  obtain ⟨hSum, hSumTwo⟩ := one_add_of_bounded hLow hHigh
  obtain ⟨hHalf, hHalfOne⟩ := half_mul_of_le_two hSum hSumTwo
  rw [F32.max_zero_of_nonneg hHalf]
  exact F32.le_zero_one_of_nonneg hHalf hHalfOne

/- While warmup lasts, the multiplier is the step over the warmup. -/
theorem multiplierWith_of_lt_warmup
    (cos : F32 → F32)
    (s : Schedule)
    {step : Nat}
    (hStep : step < s.warmupSteps) :
    s.multiplierWith cos step = F32.ofNat step / F32.ofNat s.warmupSteps := by
  have hMax : max s.warmupSteps 1 = s.warmupSteps := by omega
  rw [multiplierWith, if_pos hStep, hMax]

/-
  Every multiplier is between zero and one: the ramp is a step below
  the warmup over it, and after warmup a progress short of one is at
  most one, so the decay is bounded.
-/
theorem multiplierWith_bounds
    (hCos : CosineBounded cos)
    {s : Schedule}
    (hCycles : s.cycles.isFinite = true)
    (hWarmup : s.warmupSteps < 18446744073709551616)
    (hTotal : s.totalSteps < 18446744073709551616)
    {step : Nat}
    (hStep : step < 18446744073709551616) :
    F32.le 0 (s.multiplierWith cos step) = true ∧ F32.le (s.multiplierWith cos step) 1 = true := by
  unfold multiplierWith
  split
  case isTrue hRamp =>
    obtain ⟨q, hValue, hBelow, -⟩ :=
      F32.value_ofNat_div_ofNat (m := step) (n := max s.warmupSteps 1) hStep (by omega) (by omega)
    have hq : q ≤ 2 ^ 149 := hBelow (by omega)
    rw [if_pos (le_trans hq (by rw [single_maxMagnitude]; norm_num))] at hValue
    exact F32.le_zero_one_of_nonneg (F32.nonneg_of_value hValue)
      (by rw [F32.units_of_value hValue]; exact hq)
  case isFalse =>
    split
    case isTrue => exact ⟨by decide, by decide⟩
    case isFalse hShort =>
      -- progress short of one is finite, of at most one
      obtain ⟨q, hValue, -, -⟩ :=
        F32.value_ofNat_div_ofNat (m := step - s.warmupSteps)
          (n := max (s.totalSteps - s.warmupSteps) 1) (by omega) (by omega) (by omega)
      have hProgress : (s.progress step).value =
          if q ≤ Format.single.maxMagnitude then .finite false q else .infinite false := hValue
      split at hProgress
      case isTrue =>
        have hq : q < 2 ^ 149 := by
          by_contra hAtLeast
          exact hShort ((F32.one_le_iff hProgress).mpr (by omega))
        exact decay_bounds hCos hCycles hProgress hq.le
      case isFalse => exact absurd (F32.one_le_of_infinite hProgress) hShort

/-
  Past both the warmup and the total, progress is at least one, so the
  multiplier is zero.
-/
theorem multiplierWith_eq_zero
    (cos : F32 → F32)
    {s : Schedule}
    (hTotal : s.totalSteps < 18446744073709551616)
    {step : Nat}
    (hStep : step < 18446744073709551616)
    (hPastTotal : s.totalSteps ≤ step)
    (hPastWarmup : s.warmupSteps < step) :
    s.multiplierWith cos step = 0 := by
  obtain ⟨q, hValue, -, hAbove⟩ :=
    F32.value_ofNat_div_ofNat (m := step - s.warmupSteps)
      (n := max (s.totalSteps - s.warmupSteps) 1) (by omega) (by omega) (by omega)
  have hProgress : (s.progress step).value =
      if q ≤ Format.single.maxMagnitude then .finite false q else .infinite false := hValue
  have hOne : F32.le 1 (s.progress step) = true := by
    split at hProgress
    · exact (F32.one_le_iff hProgress).mpr (hAbove (by omega))
    · exact F32.one_le_of_infinite hProgress
  rw [multiplierWith, if_neg (by omega), if_pos hOne]

end Bounds

/-
  For warmup and total of 64 bits, finite cycles and a cosine that
  stays in `[-1, 1]` on finite numbers: every multiplier of a step of
  64 bits is between zero and one; while warmup lasts it is the step
  over the warmup; past both the total and the warmup it is zero.  A
  step advances the count by one and gives the base rate times the
  multiplier at the new count.
-/
theorem multiplierWith_ramps_then_decays
    (cos : F32 → F32)
    (hCos : CosineBounded cos)
    (s : Schedule)
    (hCycles : s.cycles.isFinite = true)
    (hWarmup : s.warmupSteps < 18446744073709551616)
    (hTotal : s.totalSteps < 18446744073709551616) :
    (∀ step < 18446744073709551616,
      F32.le 0 (s.multiplierWith cos step) = true ∧ F32.le (s.multiplierWith cos step) 1 = true) ∧
    (∀ step < s.warmupSteps, s.multiplierWith cos step = F32.ofNat step / F32.ofNat s.warmupSteps) ∧
    (∀ step < 18446744073709551616, s.totalSteps ≤ step → s.warmupSteps < step →
      s.multiplierWith cos step = 0) ∧
    s.step.1.current = s.current + 1 ∧ s.step.2 = s.baseLr * s.multiplier (s.current + 1) :=
  ⟨fun _ hStep => multiplierWith_bounds hCos hCycles hWarmup hTotal hStep,
    fun _ hStep => multiplierWith_of_lt_warmup cos s hStep,
    fun _ hStep hPastTotal hPastWarmup => multiplierWith_eq_zero cos hTotal hStep hPastTotal hPastWarmup,
    rfl, rfl⟩

/- The serving schedule with a cosine that is always one. -/
theorem serving_multiplier_ramps_then_decays :
    CosineBounded (fun _ => 1) ∧ (serving 1).cycles.isFinite = true ∧
      (serving 1).warmupSteps < 18446744073709551616 ∧
      (serving 1).totalSteps < 18446744073709551616 ∧
      (∀ step < 18446744073709551616,
        F32.le 0 ((serving 1).multiplierWith (fun _ => 1) step) = true ∧
          F32.le ((serving 1).multiplierWith (fun _ => 1) step) 1 = true) ∧
      (∀ step < (serving 1).warmupSteps,
        (serving 1).multiplierWith (fun _ => 1) step =
          F32.ofNat step / F32.ofNat (serving 1).warmupSteps) ∧
      (∀ step < 18446744073709551616, (serving 1).totalSteps ≤ step →
        (serving 1).warmupSteps < step → (serving 1).multiplierWith (fun _ => 1) step = 0) ∧
      (serving 1).step.1.current = (serving 1).current + 1 ∧
      (serving 1).step.2 = (serving 1).baseLr * (serving 1).multiplier ((serving 1).current + 1) := by
  have hOne : F32.le (-1) 1 = true ∧ F32.le 1 1 = true := ⟨by decide, by decide⟩
  have hCos : CosineBounded (fun _ => 1) := fun _ _ => hOne
  exact ⟨hCos, by decide, by decide, by decide,
    multiplierWith_ramps_then_decays (fun _ => 1) hCos (serving 1) (by decide) (by decide) (by decide)⟩

/-
  A warmup of 50 steps outlasting a total of 30: at step 40, past the
  total, the multiplier is still on the ramp, at 40 / 50, and not zero.
-/
theorem warmup_past_total_keeps_ramp :
    (new 1 50 30 1).totalSteps ≤ 40 ∧
      (new 1 50 30 1).multiplier 40 = F32.ofNat 40 / F32.ofNat 50 ∧
      (new 1 50 30 1).multiplier 40 ≠ 0 := by
  have hRamp : (new 1 50 30 1).multiplier 40 = F32.ofNat 40 / F32.ofNat 50 :=
    multiplierWith_of_lt_warmup F32.cos (new 1 50 30 1) (by decide)
  refine ⟨by decide, hRamp, ?_⟩
  rw [hRamp]
  decide

end Schedule

end NeuronFleet
