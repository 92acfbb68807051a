import NeuronFleet.Proofs.Number.Order

/-
  Single-precision operations on finite operands of either sign.

  Packing a sign and a magnitude sets the sign bit on top of the packed
  magnitude, so reading it back gives the sign and what the magnitude
  alone reads back as.  Each operation on finite operands is therefore
  its exact signed result rounded, or an infinity of the result's sign
  when the rounded magnitude is too large.

  Reading a datum and packing what it reads back as gives the datum
  again, so a finite number is the packing of its sign and magnitude.  Negation flips
  the sign bit, and subtracting is adding the negation.  A sum is `-0`
  only of two `-0`s and every NaN sum is the quiet NaN, so adding a
  number to zero gives it back unless it is `-0` or another NaN.

  Main declarations:
    * `Binary.single_decode_encode_signed`, `Binary.single_encode_normal`,
      `Binary.single_encode_decode`, `F32.eq_ofNatBits_encode`
    * `F32.value_ofRatio`, `F32.value_add_of_finite`, `F32.value_mul_of_finite`,
      `F32.value_div_of_finite`, `F32.value_rem_of_finite`
    * `F32.value_neg`, `F32.sub_eq_add_neg`, `F32.add_cases`, `F32.zero_add_eq_self`
-/

namespace NeuronFleet

------------------------------------------------------------
-- Packing with a Sign
------------------------------------------------------------

namespace Binary

theorem single_signBit :
    Format.single.signBit = 2 ^ 31 := by
  decide

theorem single_encode_sign
    (negative : Bool)
    (m : Nat) :
    Format.single.encode negative m =
      (if negative then 2 ^ 31 else 0) + Format.single.encode false m := by
  cases negative with
  | false => simp
  | true =>
      simp only [Format.encode, single_signBit, if_true, Bool.false_eq_true, if_false,
        Nat.zero_add]
      split_ifs <;> omega

/-
  Below the sign bit, a datum's fields are the two parts of it around
  bit 23, whatever the sign bit on top.
-/
theorem single_decode_signed
    {bits : Nat}
    (hBits : bits < 2 ^ 31)
    (negative : Bool) :
    Format.single.decode ((if negative then 2 ^ 31 else 0) + bits) =
      if bits / 2 ^ 23 = 255 then
        (if bits % 2 ^ 23 = 0 then .infinite negative else .nan)
      else if bits / 2 ^ 23 = 0 then .finite negative (bits % 2 ^ 23)
      else
        .finite negative
          ((2 ^ 23 + bits % 2 ^ 23) * 2 ^ (bits / 2 ^ 23 - 1)) := by
  have hBody : ((if negative then 2 ^ 31 else 0) + bits) % 2 ^ 31 = bits := by
    cases negative <;> simp <;> omega
  have hSign : (((if negative then 2 ^ 31 else 0) + bits) / 2 ^ 31 % 2 == 1) = negative := by
    cases negative <;> simp <;> omega
  rw [single_decode, hBody, hSign]

/-
  Packing then reading a representable magnitude up to the largest
  finite one gives it back with its sign.
-/
theorem single_decode_encode_signed
    (negative : Bool)
    {m : Nat}
    (hRep : Format.single.Representable m)
    (hMax : m ≤ Format.single.maxMagnitude) :
    Format.single.decode (Format.single.encode negative m) = .finite negative m := by
  have hUnsigned := single_decode_encode hRep hMax
  rw [single_decode_of_lt (single_encode_lt m)] at hUnsigned
  rw [single_encode_sign, single_decode_signed (single_encode_lt m)]
  -- the unsigned reading settles which branch is taken
  split_ifs at hUnsigned ⊢ <;> simp_all

theorem single_decode_encode_overflow_signed
    (negative : Bool)
    {m : Nat}
    (hOver : Format.single.maxMagnitude < m) :
    Format.single.decode (Format.single.encode negative m) = .infinite negative := by
  have hTop : Format.single.encode false m = 255 * 2 ^ 23 := by
    rw [single_maxMagnitude] at hOver
    rw [single_encode, if_pos hOver]
  rw [single_encode_sign, hTop, single_decode_signed (by norm_num)]
  norm_num

/- A datum of 32 bits is its sign bit on top of the rest. -/
theorem sign_add_body
    {bits : Nat}
    (hBits : bits < 2 ^ 32) :
    bits = (if bits / 2 ^ 31 % 2 == 1 then 2 ^ 31 else 0) + bits % 2 ^ 31 := by
  have hDivMod := Nat.div_add_mod bits (2 ^ 31)
  have hQuot : bits / 2 ^ 31 < 2 := Nat.div_lt_of_lt_mul (by omega)
  split
  · rename_i hSet
    rw [beq_iff_eq] at hSet
    omega
  · rename_i hClear
    rw [beq_iff_eq] at hClear
    omega

/- A normal magnitude packs into its exponent field, one more than its
shift, above its 23 fraction bits. -/
theorem single_encode_normal
    {f k : Nat}
    (hf : f < 2 ^ 23)
    (hExp : k < 254) :
    Format.single.encode false ((2 ^ 23 + f) * 2 ^ k) = (k + 1) * 2 ^ 23 + f := by
  rcases Nat.eq_zero_or_pos k with rfl | hk
  · -- the first binade: the significand is the magnitude
    rw [single_encode, if_neg (by norm_num; omega), if_pos (by norm_num; omega)]
    omega
  · -- above it, the shift leaves a 24-bit significand
    have hPos : (2 ^ 23 + f) * 2 ^ k ≠ 0 := by positivity
    have hLog : ((2 ^ 23 + f) * 2 ^ k).log2 = 23 + k := by
      rw [Nat.log2_eq_iff hPos]
      constructor
      · rw [Nat.pow_add]
        exact Nat.mul_le_mul_right _ (by omega)
      · rw [show 23 + k + 1 = 24 + k by omega, Nat.pow_add]
        exact Nat.mul_lt_mul_of_pos_right (by omega) (Nat.two_pow_pos k)
    have hLarge : 2 ^ 24 ≤ (2 ^ 23 + f) * 2 ^ k :=
      calc 2 ^ 24 = 2 ^ 23 * 2 ^ 1 := by norm_num
        _ ≤ (2 ^ 23 + f) * 2 ^ k :=
          Nat.mul_le_mul (by omega) (Nat.pow_le_pow_right (by norm_num) hk)
    have hMax : (2 ^ 23 + f) * 2 ^ k ≤ (2 ^ 24 - 1) * 2 ^ 253 :=
      Nat.mul_le_mul (by omega) (Nat.pow_le_pow_right (by norm_num) (by omega))
    rw [single_encode, if_neg (by omega), if_neg (by omega), hLog,
      show 23 + k + 1 - 24 = k by omega, Nat.mul_div_cancel _ (Nat.two_pow_pos k), Nat.succ_mul]
    omega

/-
  A datum below the sign bit that reads as a finite magnitude is that
  magnitude packed: a subnormal holds the magnitude itself, a normal
  datum its exponent field and fraction.
-/
theorem single_encode_decode_of_lt
    {bits m : Nat}
    (hBits : bits < 2 ^ 31)
    (hDec : Format.single.decode bits = .finite false m) :
    Format.single.encode false m = bits := by
  rw [single_decode_of_lt hBits] at hDec
  have hSplit := Nat.div_add_mod bits (2 ^ 23)
  have hFrac : bits % 2 ^ 23 < 2 ^ 23 := Nat.mod_lt _ (by norm_num)
  -- an infinity or a NaN reads as no finite magnitude
  split_ifs at hDec with hTop hSub
  · -- a subnormal holds its magnitude
    injection hDec with _ hm
    subst hm
    rw [single_encode, if_neg (by omega), if_pos (by omega)]
    omega
  · -- a normal datum: the exponent field is one more than the shift
    have hNormal : bits / 2 ^ 23 ≠ 0 := by assumption
    injection hDec with _ hm
    subst hm
    obtain ⟨k, hk⟩ : ∃ k, bits / 2 ^ 23 = k + 1 := ⟨bits / 2 ^ 23 - 1, by omega⟩
    rw [hk, Nat.add_sub_cancel, single_encode_normal hFrac (by omega)]
    rw [hk, Nat.mul_succ] at hSplit
    omega

/- Every datum that reads as a finite magnitude is that magnitude packed
with its sign. -/
theorem single_encode_decode
    {bits : Nat}
    {negative : Bool}
    {m : Nat}
    (hBits : bits < 2 ^ 32)
    (hDec : Format.single.decode bits = .finite negative m) :
    Format.single.encode negative m = bits := by
  have hBody : bits % 2 ^ 31 < 2 ^ 31 := Nat.mod_lt _ (by norm_num)
  have hSplit := sign_add_body hBits
  rw [hSplit, single_decode_signed hBody] at hDec
  -- the body reads as the magnitude, and the sign bit is the sign
  have hUnsigned : Format.single.decode (bits % 2 ^ 31) = .finite false m := by
    rw [single_decode_of_lt hBody]
    split_ifs at hDec ⊢ <;> simp only [Value.finite.injEq, true_and] at hDec ⊢ <;> exact hDec.2
  have hSign : (bits / 2 ^ 31 % 2 == 1) = negative := by
    split_ifs at hDec <;> simp only [Value.finite.injEq] at hDec <;> exact hDec.1
  rw [single_encode_sign, single_encode_decode_of_lt hBody hUnsigned, ← hSign]
  exact hSplit.symm

/- Every datum that reads as an infinity is that infinity's bits. -/
theorem single_infiniteBits_of_decode
    {bits : Nat}
    {negative : Bool}
    (hBits : bits < 2 ^ 32)
    (hDec : Format.single.decode bits = .infinite negative) :
    bits = Format.single.infiniteBits negative := by
  have hBody : bits % 2 ^ 31 < 2 ^ 31 := Nat.mod_lt _ (by norm_num)
  have hSplit := sign_add_body hBits
  rw [hSplit, single_decode_signed hBody] at hDec
  have hInfinity : Format.single.infiniteBits negative =
      (if negative then 2 ^ 31 else 0) + 255 * 2 ^ 23 := by
    cases negative <;> decide
  rw [hInfinity]
  -- only an exponent field of ones and no fraction read as an infinity
  split_ifs at hDec with hTop hZero
  injection hDec with hSign
  rw [← hSign]
  omega

end Binary

------------------------------------------------------------
-- Operations on Finite Operands
------------------------------------------------------------

namespace F32

open Binary

/- A rounded signed ratio, packed: its rounded magnitude with its sign, or
an infinity of that sign when the magnitude is too large. -/
theorem value_ofRatio
    (negative : Bool)
    (num : Nat)
    {den : Nat}
    (hDen : 0 < den) :
    (ofNatBits (Format.single.ofRatio negative num den)).value =
      if Format.single.roundRatio num den ≤ Format.single.maxMagnitude then
        .finite negative (Format.single.roundRatio num den)
      else .infinite negative := by
  have hSmall : Format.single.ofRatio negative num den < 2 ^ 32 := by
    have hBody := single_encode_lt (Format.single.roundRatio num den)
    rw [Format.ofRatio, single_encode_sign]
    split <;> omega
  rw [value_ofNatBits hSmall]
  simp only [Format.ofRatio]
  split
  · exact single_decode_encode_signed negative
      (Format.roundRatio_representable num (by decide) hDen) ‹_›
  · exact single_decode_encode_overflow_signed negative (by omega)

/- A rounding that stays within the largest finite magnitude is finite. -/
theorem value_ofRatio_of_le
    {negative : Bool}
    {num den : Nat}
    (hDen : 0 < den)
    (hMax : Format.single.roundRatio num den ≤ Format.single.maxMagnitude) :
    (ofNatBits (Format.single.ofRatio negative num den)).value =
      .finite negative (Format.single.roundRatio num den) := by
  rw [value_ofRatio negative num hDen, if_pos hMax]

theorem value_zeroBits
    (negative : Bool) :
    (ofNatBits (Format.single.zeroBits negative)).value = .finite negative 0 := by
  cases negative <;> decide

theorem value_infiniteBits
    (negative : Bool) :
    (ofNatBits (Format.single.infiniteBits negative)).value = .infinite negative := by
  cases negative <;> decide

theorem ofNatBits_nanBits :
    ofNatBits Format.single.nanBits = nan := by
  decide

/- A finite number is the packing of what it reads back as. -/
theorem eq_ofNatBits_encode
    {x : F32}
    {negative : Bool}
    {m : Nat}
    (hx : x.value = .finite negative m) :
    x = ofNatBits (Format.single.encode negative m) := by
  rw [single_encode_decode x.bits.toNat_lt hx]
  simp [ofNatBits]

/-
  The sum of two finite numbers: their signed sum rounded; an exact zero
  is `-0` only when both operands are negative.
-/
theorem value_add_of_finite
    {x y : F32}
    {sx sy : Bool}
    {mx my : Nat}
    (hx : x.value = .finite sx mx)
    (hy : y.value = .finite sy my) :
    (x + y).value =
      if signedUnits sx mx + signedUnits sy my = 0 then .finite (sx && sy) 0
      else if Format.single.roundRatio (signedUnits sx mx + signedUnits sy my).natAbs 1 ≤
          Format.single.maxMagnitude then
        .finite (decide (signedUnits sx mx + signedUnits sy my < 0))
          (Format.single.roundRatio (signedUnits sx mx + signedUnits sy my).natAbs 1)
      else .infinite (decide (signedUnits sx mx + signedUnits sy my < 0)) := by
  have hDecX : Format.single.decode x.bits.toNat = .finite sx mx := hx
  have hDecY : Format.single.decode y.bits.toNat = .finite sy my := hy
  have hAdd : x + y = ofNatBits (Format.single.add x.bits.toNat y.bits.toNat) := rfl
  rw [hAdd]
  simp only [Format.add, hDecX, hDecY]
  split
  · exact value_zeroBits _
  · exact value_ofRatio _ _ Nat.one_pos

/-
  The product of two finite numbers: the product of their magnitudes
  rounded, with the sign of the product.
-/
theorem value_mul_of_finite
    {x y : F32}
    {sx sy : Bool}
    {mx my : Nat}
    (hx : x.value = .finite sx mx)
    (hy : y.value = .finite sy my) :
    (x * y).value =
      if mx = 0 ∨ my = 0 then .finite (sx != sy) 0
      else if Format.single.roundRatio (mx * my) (2 ^ 149) ≤ Format.single.maxMagnitude then
        .finite (sx != sy) (Format.single.roundRatio (mx * my) (2 ^ 149))
      else .infinite (sx != sy) := by
  have hDecX : Format.single.decode x.bits.toNat = .finite sx mx := hx
  have hDecY : Format.single.decode y.bits.toNat = .finite sy my := hy
  have hMul : x * y = ofNatBits (Format.single.mul x.bits.toNat y.bits.toNat) := rfl
  rw [hMul]
  simp only [Format.mul, hDecX, hDecY, single_unitExponent, Nat.pow_eq]
  split
  · exact value_zeroBits _
  · exact value_ofRatio _ _ (Nat.two_pow_pos _)

/-
  The quotient of two finite numbers, the divisor not zero: the quotient
  of their magnitudes rounded, with the sign of the quotient.
-/
theorem value_div_of_finite
    {x y : F32}
    {sx sy : Bool}
    {mx my : Nat}
    (hx : x.value = .finite sx mx)
    (hy : y.value = .finite sy my)
    (hPos : 0 < my) :
    (x / y).value =
      if Format.single.roundRatio (mx * 2 ^ 149) my ≤ Format.single.maxMagnitude then
        .finite (sx != sy) (Format.single.roundRatio (mx * 2 ^ 149) my)
      else .infinite (sx != sy) := by
  have hDecX : Format.single.decode x.bits.toNat = .finite sx mx := hx
  have hDecY : Format.single.decode y.bits.toNat = .finite sy my := hy
  have hDiv : x / y = ofNatBits (Format.single.div x.bits.toNat y.bits.toNat) := rfl
  rw [hDiv]
  simp only [Format.div, hDecX, hDecY, single_unitExponent, Nat.pow_eq, if_neg hPos.ne']
  split
  · rename_i hZero
    rw [hZero, Nat.zero_mul, Format.roundRatio_zero, if_pos (Nat.zero_le _)]
    exact value_zeroBits _
  · exact value_ofRatio _ _ hPos

/-
  The remainder of a finite number by a finite non-zero one: the
  remainder of the magnitudes, exact and below the divisor's, with the
  sign of the dividend.
-/
theorem value_rem_of_finite
    {x y : F32}
    {sx sy : Bool}
    {mx my : Nat}
    (hx : x.value = .finite sx mx)
    (hy : y.value = .finite sy my)
    (hPos : 0 < my) :
    (x % y).value = .finite sx (Format.single.roundRatio (mx % my) 1) ∧
      Format.single.roundRatio (mx % my) 1 ≤ my := by
  have hDecX : Format.single.decode x.bits.toNat = .finite sx mx := hx
  have hDecY : Format.single.decode y.bits.toNat = .finite sy my := hy
  have hRem : x % y = ofNatBits (Format.single.rem x.bits.toNat y.bits.toNat) := rfl
  obtain ⟨hRepY, hMaxY⟩ := units_of_finite hy
  -- the remainder is below the divisor, so it rounds to at most it
  have hBelow : Format.single.roundRatio (mx % my) 1 ≤ my :=
    Format.roundRatio_le (by decide) Nat.one_pos hRepY (by simpa using (Nat.mod_lt mx hPos).le)
  refine ⟨?_, hBelow⟩
  rw [hRem]
  simp only [Format.rem, hDecX, hDecY, if_neg hPos.ne']
  split
  · rename_i hZero
    rw [hZero, Format.roundRatio_zero]
    exact value_zeroBits _
  · exact value_ofRatio_of_le Nat.one_pos (le_trans hBelow hMaxY)

------------------------------------------------------------
-- Negation
------------------------------------------------------------

/- Flipping the sign bit of a datum keeps the bits below it and flips
the sign bit. -/
theorem xor_signBit
    {n : Nat}
    (hn : n < 2 ^ 32) :
    (n ^^^ 2 ^ 31) % 2 ^ 31 = n % 2 ^ 31 ∧
      ((n ^^^ 2 ^ 31) / 2 ^ 31 % 2 == 1) = !(n / 2 ^ 31 % 2 == 1) := by
  have hQuot : n / 2 ^ 31 < 2 := Nat.div_lt_of_lt_mul (by omega)
  refine ⟨?_, ?_⟩
  · rw [Nat.xor_mod_two_pow, Nat.mod_self, Nat.xor_zero]
  · rw [Nat.xor_div_two_pow, Nat.div_self (Nat.two_pow_pos 31)]
    generalize n / 2 ^ 31 = q at hQuot ⊢
    interval_cases q <;> decide

theorem neg_bits_toNat
    (x : F32) :
    (-x).bits.toNat = x.bits.toNat ^^^ 2 ^ 31 := by
  show (x.bits ^^^ 0x80000000).toNat = _
  rw [UInt32.toNat_xor]
  rfl

/- Negation flips the sign of what the bits stand for. -/
theorem value_neg
    (x : F32) :
    (-x).value =
      match x.value with
      | .finite negative m => .finite (!negative) m
      | .infinite negative => .infinite (!negative)
      | .nan => .nan := by
  obtain ⟨hBody, hSign⟩ := xor_signBit x.bits.toNat_lt
  show Format.single.decode (-x).bits.toNat = match Format.single.decode x.bits.toNat with
    | .finite negative m => .finite (!negative) m
    | .infinite negative => .infinite (!negative)
    | .nan => .nan
  rw [neg_bits_toNat, single_decode, single_decode, hBody, hSign]
  split_ifs <;> rfl

theorem neg_neg
    (x : F32) :
    -(-x) = x := by
  show (⟨x.bits ^^^ 0x80000000 ^^^ 0x80000000⟩ : F32) = x
  rw [UInt32.xor_assoc, UInt32.xor_self, UInt32.xor_zero]

/- A number whose negation is finite is finite with the other sign. -/
theorem value_of_value_neg
    {x : F32}
    {negative : Bool}
    {m : Nat}
    (h : (-x).value = .finite negative m) :
    x.value = .finite (!negative) m := by
  rw [← neg_neg x, value_neg, h]

/- Negating the bits of a format's datum is flipping its sign bit. -/
theorem single_neg_eq_xor
    {n : Nat}
    (hn : n < 2 ^ 32) :
    Format.single.neg n = n ^^^ 2 ^ 31 := by
  obtain ⟨hBody, hSign⟩ := xor_signBit hn
  have hSplit := sign_add_body hn
  have hFlipped := sign_add_body (Nat.xor_lt_two_pow hn (by norm_num) : n ^^^ 2 ^ 31 < 2 ^ 32)
  rw [hBody, hSign] at hFlipped
  simp only [Format.neg, single_signBit]
  generalize (n / 2 ^ 31 % 2 == 1) = set at hSplit hFlipped ⊢
  cases set <;> simp at hSplit hFlipped ⊢ <;> omega

theorem sub_eq_add_neg
    (x y : F32) :
    x - y = x + -y := by
  show ofNatBits (Format.single.sub x.bits.toNat y.bits.toNat) =
    ofNatBits (Format.single.add x.bits.toNat (-y).bits.toNat)
  rw [Format.sub, single_neg_eq_xor y.bits.toNat_lt, neg_bits_toNat]

------------------------------------------------------------
-- Sums
------------------------------------------------------------

theorem value_nan :
    nan.value = .nan := by
  decide

/- A sum is the quiet NaN, an infinity, or the sum of two finite
numbers. -/
theorem add_cases
    (x y : F32) :
    x + y = nan ∨ (∃ negative, (x + y).value = .infinite negative) ∨
      ∃ sx mx sy my, x.value = .finite sx mx ∧ y.value = .finite sy my := by
  have hAdd : x + y = ofNatBits (Format.single.add x.bits.toNat y.bits.toNat) := rfl
  cases hx : x.value with
  | nan =>
      have hDecX : Format.single.decode x.bits.toNat = .nan := hx
      left
      rw [hAdd, Format.add, hDecX]
      exact ofNatBits_nanBits
  | infinite sx =>
      have hDecX : Format.single.decode x.bits.toNat = .infinite sx := hx
      cases hy : y.value with
      | nan =>
          have hDecY : Format.single.decode y.bits.toNat = .nan := hy
          left
          simp only [hAdd, Format.add, hDecX, hDecY]
          exact ofNatBits_nanBits
      | infinite sy =>
          have hDecY : Format.single.decode y.bits.toNat = .infinite sy := hy
          simp only [hAdd, Format.add, hDecX, hDecY]
          split
          · exact .inr (.inl ⟨_, value_infiniteBits sx⟩)
          · exact .inl ofNatBits_nanBits
      | finite sy my =>
          have hDecY : Format.single.decode y.bits.toNat = .finite sy my := hy
          refine .inr (.inl ⟨sx, ?_⟩)
          simp only [hAdd, Format.add, hDecX, hDecY]
          exact value_infiniteBits sx
  | finite sx mx =>
      have hDecX : Format.single.decode x.bits.toNat = .finite sx mx := hx
      cases hy : y.value with
      | nan =>
          have hDecY : Format.single.decode y.bits.toNat = .nan := hy
          left
          simp only [hAdd, Format.add, hDecX, hDecY]
          exact ofNatBits_nanBits
      | infinite sy =>
          have hDecY : Format.single.decode y.bits.toNat = .infinite sy := hy
          refine .inr (.inl ⟨sy, ?_⟩)
          simp only [hAdd, Format.add, hDecX, hDecY]
          exact value_infiniteBits sy
      | finite sy my => exact .inr (.inr ⟨sx, mx, sy, my, rfl, rfl⟩)

/- A sum that is NaN is the quiet NaN. -/
theorem add_eq_nan_of_isNaN
    {x y : F32}
    (h : (x + y).isNaN = true) :
    x + y = nan := by
  rcases add_cases x y with hNaN | ⟨negative, hValue⟩ | ⟨sx, mx, sy, my, hValueX, hValueY⟩
  · exact hNaN
  · simp [isNaN, hValue] at h
  · rw [isNaN, value_add_of_finite hValueX hValueY] at h
    split_ifs at h <;> simp at h

/- A sum is `-0` only when both operands are `-0`. -/
theorem add_eq_negZero
    {x y : F32}
    (h : x + y = negZero) :
    x.value = .finite true 0 ∧ y.value = .finite true 0 := by
  have hValue : (x + y).value = .finite true 0 := by rw [h]; exact value_negZero
  rcases add_cases x y with hNaN | ⟨negative, hInfinite⟩ | ⟨sx, mx, sy, my, hValueX, hValueY⟩
  · rw [hNaN, value_nan] at hValue
    cases hValue
  · rw [hInfinite] at hValue
    cases hValue
  · rw [value_add_of_finite hValueX hValueY] at hValue
    split_ifs at hValue with hZero hMax
    · -- an exact zero keeps the sign both operands share
      simp only [Value.finite.injEq, Bool.and_eq_true, and_true] at hValue
      obtain ⟨rfl, rfl⟩ := hValue
      simp only [signedUnits, if_true] at hZero
      refine ⟨by rw [hValueX]; congr 1; omega, by rw [hValueY]; congr 1; omega⟩
    · -- a rounded non-zero sum is no zero
      simp only [Value.finite.injEq] at hValue
      have hPos : 1 ≤ Format.single.roundRatio
          (signedUnits sx mx + signedUnits sy my).natAbs 1 :=
        Format.le_roundRatio (by decide) Nat.one_pos (Format.representable_of_lt (by decide))
          (by omega)
      omega

/-
  Adding zero leaves every datum as it is but `-0`, which becomes `+0`,
  and the NaNs, which become the quiet NaN: a finite sum is rounded
  exactly to the datum's magnitude, which packs back to its bits.
-/
theorem zero_add_eq_self
    {x : F32}
    (hNegZero : x ≠ negZero)
    (hNaN : x.isNaN = true → x = nan) :
    0 + x = x := by
  cases hx : x.value with
  | nan => rw [hNaN (by simp [isNaN, hx])]; decide
  | infinite negative =>
      have hDecX : Format.single.decode x.bits.toNat = .infinite negative := hx
      have hBits := single_infiniteBits_of_decode x.bits.toNat_lt hDecX
      have hZero : Format.single.decode (0 : F32).bits.toNat = .finite false 0 := by decide
      show ofNatBits (Format.single.add (0 : F32).bits.toNat x.bits.toNat) = x
      simp only [Format.add, hZero, hDecX]
      rw [← hBits]
      simp [ofNatBits]
  | finite negative m =>
      rcases Nat.eq_zero_or_pos m with rfl | hPos
      · -- a zero is `+0`, since `-0` is left out
        cases negative with
        | true => exact absurd ((eq_ofNatBits_encode hx).trans (by decide)) hNegZero
        | false => rw [eq_ofNatBits_encode hx]; decide
      · -- the sum's magnitude is the datum's, rounded exactly
        obtain ⟨hRep, hMax⟩ := units_of_finite hx
        have hSum := value_add_of_finite value_zero hx
        have hSigned : signedUnits false 0 + signedUnits negative m = signedUnits negative m := by
          simp [signedUnits]
        have hAbs : (signedUnits negative m).natAbs = m := by
          cases negative <;> simp [signedUnits]
        have hSign : decide (signedUnits negative m < 0) = negative := by
          cases negative <;> simp [signedUnits, hPos]
        rw [hSigned, hAbs, Format.roundRatio_of_representable (by decide) hRep, hSign,
          if_neg (by cases negative <;> simp [signedUnits] <;> omega), if_pos hMax] at hSum
        rw [eq_ofNatBits_encode hSum, ← eq_ofNatBits_encode hx]

end F32

end NeuronFleet
