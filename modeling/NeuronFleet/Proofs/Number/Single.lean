import NeuronFleet.Proofs.Number.Rounding
import NeuronFleet.Number.Single

/-
  Single-precision values and the operations on non-negative ones.

  A finite single-precision datum stands for a whole number of units of
  `2 ^ -149`.  Packing a representable magnitude up to the largest
  finite one and reading it back gives the magnitude again; a larger one
  reads back as infinity.  On non-negative operands the sum and the
  quotient are therefore the rounded exact sum and quotient, or
  infinity when the rounded magnitude is too large.

  Main declarations:
    * `Binary.single_decode_encode`, `Binary.single_decode_encode_overflow`
    * `F32.units`, `F32.toRat`, `F32.Nonneg`
    * `F32.add_nonneg`, `F32.div_nonneg`, `F32.value_abs`
-/

------------------------------------------------------------
-- Packing and Reading binary32
------------------------------------------------------------

namespace NeuronFleet

namespace Binary

theorem single_precision :
    Format.single.precision = 24 := rfl

theorem single_decode
    (bits : Nat) :
    Format.single.decode bits =
      if bits % 2 ^ 31 / 2 ^ 23 = 255 then
        (if bits % 2 ^ 31 % 2 ^ 23 = 0 then
          .infinite (bits / 2 ^ 31 % 2 == 1)
        else .nan)
      else if bits % 2 ^ 31 / 2 ^ 23 = 0 then
        .finite (bits / 2 ^ 31 % 2 == 1) (bits % 2 ^ 31 % 2 ^ 23)
      else
        .finite (bits / 2 ^ 31 % 2 == 1)
          ((2 ^ 23 + bits % 2 ^ 31 % 2 ^ 23) *
            2 ^ (bits % 2 ^ 31 / 2 ^ 23 - 1)) := rfl

theorem single_encode
    (m : Nat) :
    Format.single.encode false m =
      if m > (2 ^ 24 - 1) * 2 ^ 253 then 255 * 2 ^ 23
      else if m < 2 ^ 24 then m
      else (m.log2 + 1 - 24) * 2 ^ 23 +
        m / 2 ^ (m.log2 + 1 - 24) := by
  simp only [Format.encode, Format.single, Format.maxMagnitude,
    Format.infinityBits, Format.topExponent, Format.fractionBits,
    Nat.pow_eq]
  norm_num

theorem single_maxMagnitude :
    Format.single.maxMagnitude = (2 ^ 24 - 1) * 2 ^ 253 := by
  decide

/-
  A datum below `2 ^ 31` has a clear sign bit, and its fields are the
  two parts of the datum around bit 23.
-/
theorem single_decode_of_lt
    {bits : Nat}
    (hBits : bits < 2 ^ 31) :
    Format.single.decode bits =
      if bits / 2 ^ 23 = 255 then
        (if bits % 2 ^ 23 = 0 then .infinite false else .nan)
      else if bits / 2 ^ 23 = 0 then .finite false (bits % 2 ^ 23)
      else
        .finite false
          ((2 ^ 23 + bits % 2 ^ 23) * 2 ^ (bits / 2 ^ 23 - 1)) := by
  have hSign : bits / 2 ^ 31 % 2 = 0 := by
    rw [Nat.div_eq_of_lt hBits]
  rw [single_decode, Nat.mod_eq_of_lt hBits, hSign]
  rfl

/- Finite magnitudes have at most 277 bits. -/
theorem log2_le_of_le_max
    {m : Nat}
    (hNonzero : m ≠ 0)
    (hMax : m ≤ (2 ^ 24 - 1) * 2 ^ 253) :
    m.log2 ≤ 276 := by
  have hBelow : m < 2 ^ (24 + 253) :=
    calc m ≤ (2 ^ 24 - 1) * 2 ^ 253 := hMax
      _ < 2 ^ 24 * 2 ^ 253 := by norm_num
      _ = 2 ^ (24 + 253) := by rw [← pow_add]
  have hLog := (Nat.log2_lt hNonzero).mpr hBelow
  omega

/-
  Packing then reading a representable magnitude up to the largest
  finite one gives it back.  Above `2 ^ 24` units the packed exponent
  is the shift that leaves a 24-bit significand, which divides the
  magnitude exactly because it is representable.
-/
theorem single_decode_encode
    {m : Nat}
    (hRep : Format.single.Representable m)
    (hMax : m ≤ Format.single.maxMagnitude) :
    Format.single.decode (Format.single.encode false m) =
      .finite false m := by
  rw [single_maxMagnitude] at hMax
  rw [single_encode, if_neg (by omega)]
  split
  · -- a subnormal, or a normal with the smallest exponent
    rename_i hSmall
    rw [single_decode_of_lt (by omega)]
    rcases Nat.lt_or_ge m (2 ^ 23) with hSub | hNormal
    · rw [if_neg (by omega), if_pos (Nat.div_eq_of_lt hSub),
        Nat.mod_eq_of_lt hSub]
    · have hField : m / 2 ^ 23 = 1 := by omega
      rw [hField, if_neg (by omega), if_neg (by omega)]
      simp only [Nat.sub_self, pow_zero, Nat.mul_one]
      congr 1
      omega
  · rename_i hLarge
    have hNonzero : m ≠ 0 := by omega
    have hLog : 24 ≤ m.log2 := (Nat.le_log2 hNonzero).mpr (by omega)
    have hLogMax : m.log2 ≤ 276 := log2_le_of_le_max hNonzero hMax
    obtain ⟨J, hJ⟩ := hRep.two_pow_dvd (Nat.log2_self_le hNonzero)
    rw [single_precision] at hJ
    generalize hShift : m.log2 + 1 - 24 = shift at hJ ⊢
    -- the significand `J` has exactly 24 bits
    have hPowSplit : ∀ e, 2 ^ (shift + e) = 2 ^ shift * 2 ^ e :=
      fun e => Nat.pow_add 2 shift e
    have hJLow : 2 ^ 23 ≤ J := by
      have hLow := Nat.log2_self_le hNonzero
      rw [show m.log2 = shift + 23 by omega, hPowSplit, hJ] at hLow
      exact Nat.le_of_mul_le_mul_left hLow (Nat.two_pow_pos shift)
    have hJHigh : J < 2 ^ 24 := by
      have hHigh := @Nat.lt_log2_self m
      rw [show m.log2 + 1 = shift + 24 by omega, hPowSplit, hJ] at hHigh
      exact Nat.lt_of_mul_lt_mul_left hHigh
    have hQuot : m / 2 ^ shift = J := by
      rw [hJ, Nat.mul_div_cancel_left _ (Nat.two_pow_pos shift)]
    rw [hQuot]
    have hField : (shift * 2 ^ 23 + J) / 2 ^ 23 = shift + 1 := by
      rw [Nat.add_comm, Nat.add_mul_div_right _ _ (by norm_num)]
      omega
    have hFrac : (shift * 2 ^ 23 + J) % 2 ^ 23 = J - 2 ^ 23 := by
      rw [Nat.add_comm, Nat.add_mul_mod_self_right]
      omega
    rw [single_decode_of_lt (by omega), hField, hFrac,
      if_neg (by omega), if_neg (by omega)]
    congr 1
    rw [hJ, Nat.add_sub_cancel, Nat.add_sub_cancel' hJLow,
      Nat.mul_comm]

theorem single_maxMagnitude_representable :
    Format.single.Representable Format.single.maxMagnitude :=
  ⟨2 ^ 24 - 1, 253, by rw [single_precision]; norm_num,
    single_maxMagnitude⟩

/- A magnitude beyond the largest finite one reads back as infinity. -/
theorem single_decode_encode_overflow
    {m : Nat}
    (hOver : Format.single.maxMagnitude < m) :
    Format.single.decode (Format.single.encode false m) =
      .infinite false := by
  rw [single_maxMagnitude] at hOver
  rw [single_encode, if_pos hOver]
  decide

/- Packed non-negative data fit in 31 bits. -/
theorem single_encode_lt
    (m : Nat) :
    Format.single.encode false m < 2 ^ 31 := by
  rw [single_encode]
  split
  · norm_num
  split
  · omega
  · rename_i hSmall hLarge
    have hNonzero : m ≠ 0 := by omega
    have hLog : 24 ≤ m.log2 := (Nat.le_log2 hNonzero).mpr (by omega)
    have hLogMax : m.log2 ≤ 276 := log2_le_of_le_max hNonzero (by omega)
    have hTop : m / 2 ^ (m.log2 + 1 - 24) < 2 ^ 24 := by
      rw [Nat.div_lt_iff_lt_mul (Nat.two_pow_pos _), ← Nat.pow_add]
      calc m < 2 ^ (m.log2 + 1) := Nat.lt_log2_self
        _ = 2 ^ (24 + (m.log2 + 1 - 24)) := by
          congr 1
          omega
    omega

/-
  A rounded non-negative ratio, packed and read back: its rounded
  magnitude, or infinity when that is too large.
-/
theorem single_decode_ofRatio
    (num : Nat)
    {den : Nat}
    (hDen : 0 < den) :
    Format.single.decode (Format.single.ofRatio false num den) =
      if Format.single.roundRatio num den ≤ Format.single.maxMagnitude
      then .finite false (Format.single.roundRatio num den)
      else .infinite false := by
  simp only [Format.ofRatio]
  split
  · exact single_decode_encode
      (Format.roundRatio_representable num (by decide) hDen) ‹_›
  · exact single_decode_encode_overflow (by omega)

end Binary

------------------------------------------------------------
-- Values of Single-Precision Numbers
------------------------------------------------------------

namespace F32

open Binary

/- The magnitude of a finite number in units of `2 ^ -149`; zero otherwise. -/
def units
    (x : F32) : Nat :=
  match x.value with
  | .finite _ m => m
  | _ => 0

/- The value of a finite number; zero otherwise. -/
def toRat
    (x : F32) : ℚ :=
  match x.value with
  | .finite negative m => (if negative then -(m : ℚ) else m) / 2 ^ 149
  | _ => 0

/-
  A finite number that is not below zero; its sign bit may be set only
  on `-0`.
-/
def Nonneg
    (x : F32) : Prop :=
  ∃ negative, x.value = .finite negative x.units ∧
    (negative = true → x.units = 0)

theorem value_ofNatBits
    {n : Nat}
    (hSmall : n < 2 ^ 32) :
    (ofNatBits n).value = Format.single.decode n := by
  have hMod : n % 4294967296 = n := Nat.mod_eq_of_lt hSmall
  simp [value, ofNatBits, hMod]

theorem units_of_value
    {x : F32}
    {negative : Bool}
    {m : Nat}
    (hValue : x.value = .finite negative m) :
    x.units = m := by
  simp [units, hValue]

theorem Nonneg.value_of_pos
    {x : F32}
    (hx : x.Nonneg)
    (hPos : 0 < x.units) :
    x.value = .finite false x.units := by
  obtain ⟨negative, hValue, hSign⟩ := hx
  cases negative with
  | false => exact hValue
  | true => exact absurd (hSign rfl) hPos.ne'

theorem nonneg_of_value
    {x : F32}
    {m : Nat}
    (hValue : x.value = .finite false m) :
    x.Nonneg :=
  ⟨false, by rw [units_of_value hValue, hValue], by simp⟩

theorem Nonneg.isFinite
    {x : F32}
    (hx : x.Nonneg) :
    x.isFinite = true := by
  obtain ⟨negative, hValue, _⟩ := hx
  unfold F32.isFinite
  rw [hValue]

theorem Nonneg.toRat_eq
    {x : F32}
    (hx : x.Nonneg) :
    x.toRat = x.units / 2 ^ 149 := by
  obtain ⟨negative, hValue, hSign⟩ := hx
  cases negative with
  | false => simp [toRat, hValue]
  | true =>
      have hZero := hSign rfl
      simp [toRat, hValue, hZero]

/- Both zeros are non-negative numbers of no units. -/
theorem nonneg_zeroBits
    (negative : Bool) :
    (ofNatBits (Format.single.zeroBits negative)).Nonneg ∧
      (ofNatBits (Format.single.zeroBits negative)).units = 0 := by
  cases negative with
  | false =>
      have hValue :
          (ofNatBits (Format.single.zeroBits false)).value =
            .finite false 0 := by decide
      exact ⟨nonneg_of_value hValue, units_of_value hValue⟩
  | true =>
      have hValue :
          (ofNatBits (Format.single.zeroBits true)).value =
            .finite true 0 := by decide
      exact ⟨⟨true, by rw [units_of_value hValue, hValue],
        fun _ => units_of_value hValue⟩, units_of_value hValue⟩

/-
  A packed rounding of a non-negative ratio: a non-negative number of
  the rounded magnitude, or infinity.
-/
theorem ofRatio_cases
    (num : Nat)
    {den : Nat}
    (hDen : 0 < den) :
    ((ofNatBits (Format.single.ofRatio false num den)).Nonneg ∧
        (ofNatBits (Format.single.ofRatio false num den)).units =
          Format.single.roundRatio num den ∧
        Format.single.roundRatio num den ≤
          Format.single.maxMagnitude) ∨
      ((ofNatBits (Format.single.ofRatio false num den)).value =
          .infinite false ∧
        Format.single.maxMagnitude <
          Format.single.roundRatio num den) := by
  have hValue :
      (ofNatBits (Format.single.ofRatio false num den)).value =
        Format.single.decode (Format.single.ofRatio false num den) :=
    value_ofNatBits
      (lt_trans (single_encode_lt _) (by norm_num))
  rw [single_decode_ofRatio num hDen] at hValue
  split at hValue
  · exact Or.inl ⟨nonneg_of_value hValue,
      units_of_value hValue, ‹_›⟩
  · exact Or.inr ⟨hValue, by omega⟩

/-
  The magnitude of a finite number has a 24-bit significand and is at
  most the largest finite magnitude.
-/
theorem units_of_finite
    {x : F32}
    {negative : Bool}
    {m : Nat}
    (hx : x.value = .finite negative m) :
    Format.single.Representable m ∧ m ≤ Format.single.maxMagnitude := by
  have hDec : Format.single.decode x.bits.toNat = .finite negative m := hx
  rw [single_decode] at hDec
  rw [single_maxMagnitude]
  have hBody : x.bits.toNat % 2 ^ 31 < 2 ^ 31 := Nat.mod_lt _ (by norm_num)
  have hFrac : x.bits.toNat % 2 ^ 31 % 2 ^ 23 < 2 ^ 23 :=
    Nat.mod_lt _ (by norm_num)
  generalize x.bits.toNat % 2 ^ 31 = body at hDec hBody hFrac
  -- the two kinds of finite data; infinities and NaNs are no finite value
  split_ifs at hDec with hTop hSub
  · -- a subnormal
    cases hDec
    exact ⟨Format.representable_of_lt (by rw [single_precision]; omega),
      by omega⟩
  · -- a normal number: a 24-bit significand and an exponent up to 254
    cases hDec
    have hExp : body / 2 ^ 23 - 1 ≤ 253 := by omega
    have hSig : 2 ^ 23 + body % 2 ^ 23 ≤ 2 ^ 24 - 1 := by omega
    refine ⟨⟨2 ^ 23 + body % 2 ^ 23, body / 2 ^ 23 - 1,
      by rw [single_precision]; omega, rfl⟩, ?_⟩
    exact Nat.mul_le_mul hSig (Nat.pow_le_pow_right (by norm_num) hExp)

theorem value_zero :
    (0 : F32).value = .finite false 0 := by
  decide

theorem value_one :
    (1 : F32).value = .finite false (2 ^ 149) := by
  decide

theorem value_negZero :
    negZero.value = .finite true 0 := by
  decide

theorem single_unitExponent :
    Format.single.unitExponent = -149 := by
  decide

theorem ofNat_eq
    (n : Nat) :
    ofNat n = ofNatBits (Format.single.ofRatio false (n * 2 ^ 149) 1) := by
  simp [ofNat, Format.ofScaled, single_unitExponent]

------------------------------------------------------------
-- Operations on Non-Negative Numbers
------------------------------------------------------------

theorem signedUnits_of_nonneg
    {negative : Bool}
    {m : Nat}
    (hSign : negative = true → m = 0) :
    signedUnits negative m = m := by
  cases negative with
  | false => rfl
  | true => simp [signedUnits, hSign rfl]

/-
  The sum of two non-negative numbers is their exact sum rounded, or
  infinity when the rounded sum is beyond the largest finite number.
-/
theorem add_of_nonneg
    {x y : F32}
    (hx : x.Nonneg)
    (hy : y.Nonneg) :
    ((x + y).Nonneg ∧
        (x + y).units = Format.single.roundRatio (x.units + y.units) 1 ∧
        Format.single.roundRatio (x.units + y.units) 1 ≤
          Format.single.maxMagnitude) ∨
      ((x + y).value = .infinite false ∧
        Format.single.maxMagnitude <
          Format.single.roundRatio (x.units + y.units) 1) := by
  obtain ⟨sx, hValueX, hSignX⟩ := hx
  obtain ⟨sy, hValueY, hSignY⟩ := hy
  have hDecX : Format.single.decode x.bits.toNat = .finite sx x.units :=
    hValueX
  have hDecY : Format.single.decode y.bits.toNat = .finite sy y.units :=
    hValueY
  have hSum :
      signedUnits sx x.units + signedUnits sy y.units =
        ((x.units + y.units : Nat) : Int) := by
    rw [signedUnits_of_nonneg hSignX, signedUnits_of_nonneg hSignY]
    push_cast
    rfl
  have hAdd : x + y = ofNatBits (Format.single.add x.bits.toNat y.bits.toNat) :=
    rfl
  rw [hAdd]
  simp only [Format.add, hDecX, hDecY, hSum]
  by_cases hZero : x.units + y.units = 0
  · -- an exact zero keeps the sign both operands share
    left
    have hCast : ((x.units + y.units : Nat) : Int) = 0 := by omega
    obtain ⟨hNonneg, hUnits⟩ := nonneg_zeroBits (sx && sy)
    simp only [hCast, if_true]
    refine ⟨hNonneg, ?_, ?_⟩
    · rw [hUnits, hZero, Format.roundRatio_zero]
    · rw [hZero, Format.roundRatio_zero]
      exact Nat.zero_le _
  · have hCast : ((x.units + y.units : Nat) : Int) ≠ 0 := by omega
    have hSignSum :
        decide (((x.units + y.units : Nat) : Int) < 0) = false :=
      decide_eq_false (by omega)
    simp only [hCast, if_false, hSignSum, Int.natAbs_natCast]
    exact ofRatio_cases _ Nat.one_pos

/- Adding a finite number to infinity leaves infinity. -/
theorem add_infinite
    {x y : F32}
    (hx : x.value = .infinite false)
    (hy : y.isFinite = true) :
    (x + y).value = .infinite false := by
  have hDecX : Format.single.decode x.bits.toNat = .infinite false := hx
  have hAdd : x + y = ofNatBits (Format.single.add x.bits.toNat y.bits.toNat) :=
    rfl
  unfold F32.isFinite at hy
  split at hy
  · rename_i negative m hValueY
    have hDecY : Format.single.decode y.bits.toNat = .finite negative m :=
      hValueY
    rw [hAdd]
    simp only [Format.add, hDecX, hDecY]
    decide
  · cases hy

/-
  The quotient of a non-negative number by a positive one at least as
  large is the exact quotient rounded; it is at most one, so it never
  overflows.
-/
theorem div_of_nonneg
    {x y : F32}
    {m : Nat}
    (hx : x.Nonneg)
    (hy : y.value = .finite false m)
    (hPos : 0 < m)
    (hLe : x.units ≤ m) :
    (x / y).Nonneg ∧
      (x / y).units = Format.single.roundRatio (x.units * 2 ^ 149) m := by
  obtain ⟨sx, hValueX, hSignX⟩ := hx
  have hDecX : Format.single.decode x.bits.toNat = .finite sx x.units :=
    hValueX
  have hDecY : Format.single.decode y.bits.toNat = .finite false m := hy
  have hDiv : x / y = ofNatBits (Format.single.div x.bits.toNat y.bits.toNat) :=
    rfl
  rw [hDiv]
  simp only [Format.div, hDecX, hDecY, single_unitExponent,
    if_neg hPos.ne', Nat.pow_eq]
  by_cases hZero : x.units = 0
  · obtain ⟨hNonneg, hUnits⟩ := nonneg_zeroBits (sx != false)
    simp only [hZero, if_true, Nat.zero_mul, Format.roundRatio_zero]
    exact ⟨hNonneg, hUnits⟩
  · have hSign : sx = false := by
      cases sx with
      | false => rfl
      | true => exact absurd (hSignX rfl) hZero
    subst hSign
    simp only [hZero, if_false, Bool.bne_false]
    -- the quotient is at most one, that is `2 ^ 149` units
    have hAtMostOne :
        Format.single.roundRatio (x.units * 2 ^ 149) m ≤ 2 ^ 149 :=
      Format.roundRatio_le (by decide) hPos
        (Format.representable_two_pow (by decide) 149)
        (by rw [Nat.mul_comm]; exact Nat.mul_le_mul_left _ hLe)
    rcases ofRatio_cases (x.units * 2 ^ 149) hPos with
      ⟨hNonneg, hUnits, _⟩ | ⟨_, hOver⟩
    · exact ⟨hNonneg, hUnits⟩
    · rw [single_maxMagnitude] at hOver
      omega

/- A finite number divided by infinity is a zero. -/
theorem div_infinite
    {x y : F32}
    (hx : x.isFinite = true)
    (hy : y.value = .infinite false) :
    (x / y).Nonneg ∧ (x / y).units = 0 := by
  have hDecY : Format.single.decode y.bits.toNat = .infinite false := hy
  have hDiv : x / y = ofNatBits (Format.single.div x.bits.toNat y.bits.toNat) :=
    rfl
  unfold F32.isFinite at hx
  split at hx
  · rename_i negative m hValueX
    have hDecX : Format.single.decode x.bits.toNat = .finite negative m :=
      hValueX
    rw [hDiv]
    simp only [Format.div, hDecX, hDecY]
    exact nonneg_zeroBits _
  · cases hx

/- Clearing the sign bit keeps the magnitude of a finite number. -/
theorem value_abs
    {x : F32}
    {negative : Bool}
    {m : Nat}
    (hx : x.value = .finite negative m) :
    x.abs.value = .finite false m := by
  have hBits : x.abs.bits.toNat = x.bits.toNat % 2 ^ 31 := by
    simp only [abs, UInt32.toNat_and]
    rw [show (0x7FFFFFFF : UInt32).toNat = 2 ^ 31 - 1 by rfl,
      Nat.and_two_pow_sub_one_eq_mod]
  have hDec : Format.single.decode x.bits.toNat = .finite negative m := hx
  rw [single_decode] at hDec
  show Format.single.decode x.abs.bits.toNat = .finite false m
  rw [hBits, single_decode_of_lt (Nat.mod_lt _ (by norm_num))]
  generalize x.bits.toNat % 2 ^ 31 = body at hDec ⊢
  split_ifs at hDec ⊢ <;> simp_all

/- Comparing two finite numbers compares their signed magnitudes. -/
theorem lt_of_finite
    {x y : F32}
    {sx sy : Bool}
    {mx my : Nat}
    (hx : x.value = .finite sx mx)
    (hy : y.value = .finite sy my) :
    F32.lt x y = decide (signedUnits sx mx < signedUnits sy my) := by
  have hDecX : Format.single.decode x.bits.toNat = .finite sx mx := hx
  have hDecY : Format.single.decode y.bits.toNat = .finite sy my := hy
  simp only [F32.lt, Format.lt, Format.compare, hDecX, hDecY]
  by_cases hLt : signedUnits sx mx < signedUnits sy my
  · simp [hLt, compare_lt_iff_lt]
  · simp [hLt, compare_lt_iff_lt]

/- Infinity is below no finite number. -/
theorem lt_of_infinite
    {x y : F32}
    {m : Nat}
    (hx : x.value = .infinite false)
    (hy : y.value = .finite false m)
    (hMax : m ≤ Format.single.maxMagnitude) :
    F32.lt x y = false := by
  have hDecX : Format.single.decode x.bits.toNat = .infinite false := hx
  have hDecY : Format.single.decode y.bits.toNat = .finite false m := hy
  simp only [F32.lt, Format.lt, Format.compare, hDecX, hDecY]
  have hBelow :
      signedUnits false m ≤ (Format.single.maxMagnitude : Int) + 1 := by
    simp only [signedUnits]
    omega
  simpa [compare_lt_iff_lt] using hBelow

end F32

end NeuronFleet
