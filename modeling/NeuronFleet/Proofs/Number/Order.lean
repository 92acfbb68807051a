import NeuronFleet.Proofs.Number.Single

/-
  The order of single-precision numbers.

  A comparison reads each datum as a key: a finite number its signed
  magnitude in units of `2 ^ -149`, an infinity one unit past the
  largest finite magnitude on its side, and NaN no key at all.  Two data
  compare as their keys do, and NaN compares with nothing.  So `<` is a
  strict order and `≤` a total preorder on the numbers, the two zeros
  being equal, while NaN is neither below, above nor equal to anything.

  Main declarations:
    * `F32.key`, `F32.lt_iff_key`, `F32.le_iff_key`, `F32.beq_iff_key`,
      `F32.partialCmp_eq_key`
    * `F32.lt_of_lt_of_le`, `F32.le_of_not_lt`, `F32.lt_infinity`
-/

namespace NeuronFleet

namespace F32

open Binary

------------------------------------------------------------
-- Keys
------------------------------------------------------------

/- The key a comparison reads a datum as; NaN has none. -/
def key
    (x : F32) : Option Int :=
  match x.value with
  | .nan => none
  | .finite negative m => some (signedUnits negative m)
  | .infinite negative =>
    some (if negative then -(Format.single.maxMagnitude + 1 : Nat)
      else (Format.single.maxMagnitude + 1 : Nat))

theorem compare_eq_key
    (x y : F32) :
    Format.single.compare x.bits.toNat y.bits.toNat =
      match x.key, y.key with
      | some a, some b => some (Ord.compare a b)
      | _, _ => none :=
  rfl

theorem partialCmp_eq_key
    (x y : F32) :
    F32.partialCmp x y =
      match x.key, y.key with
      | some a, some b => some (Ord.compare a b)
      | _, _ => none :=
  rfl

theorem lt_iff_key
    {x y : F32} :
    F32.lt x y = true ↔ ∃ a b, x.key = some a ∧ y.key = some b ∧ a < b := by
  unfold F32.lt Format.lt
  rw [compare_eq_key]
  cases x.key <;> cases y.key <;> simp [compare_lt_iff_lt]

theorem le_iff_key
    {x y : F32} :
    F32.le x y = true ↔ ∃ a b, x.key = some a ∧ y.key = some b ∧ a ≤ b := by
  unfold F32.le Format.le
  rw [compare_eq_key]
  cases x.key <;> cases y.key <;> simp
  rename_i a b
  rcases lt_trichotomy a b with hLt | hEq | hGt
  · simp [compare_lt_iff_lt.mpr hLt, hLt.le]
  · simp [hEq]
  · simp [compare_gt_iff_gt.mpr hGt, not_le.mpr hGt]

theorem beq_iff_key
    {x y : F32} :
    F32.beq x y = true ↔ ∃ a, x.key = some a ∧ y.key = some a := by
  unfold F32.beq Format.eq
  rw [compare_eq_key]
  cases x.key <;> cases y.key <;> simp
  exact eq_comm

theorem key_eq_none_iff
    {x : F32} :
    x.key = none ↔ x.isNaN = true := by
  unfold key isNaN
  split <;> simp_all

theorem exists_key_of_isNaN_eq_false
    {x : F32}
    (hx : x.isNaN = false) :
    ∃ a, x.key = some a := by
  cases hKey : x.key with
  | none => simp [key_eq_none_iff.mp hKey] at hx
  | some a => exact ⟨a, rfl⟩

/- A finite number's key lies within the largest finite magnitude. -/
theorem key_of_isFinite
    {x : F32}
    (hx : x.isFinite = true) :
    ∃ a, x.key = some a ∧ a ≤ Format.single.maxMagnitude ∧
      -(Format.single.maxMagnitude : Int) ≤ a := by
  unfold isFinite at hx
  split at hx
  · rename_i negative m hValue
    have hMax := (units_of_finite hValue).2
    refine ⟨signedUnits negative m, by simp [key, hValue], ?_, ?_⟩ <;>
      cases negative <;> simp [signedUnits] <;> omega
  · cases hx

theorem key_infinity :
    infinity.key = some (Format.single.maxMagnitude + 1 : Nat) := by
  rw [single_maxMagnitude]
  decide

------------------------------------------------------------
-- Order Laws
------------------------------------------------------------

theorem lt_of_lt_of_le
    {x y z : F32}
    (hxy : F32.lt x y = true)
    (hyz : F32.le y z = true) :
    F32.lt x z = true := by
  obtain ⟨a, b, ha, hb, hab⟩ := lt_iff_key.mp hxy
  obtain ⟨b', c, hb', hc, hbc⟩ := le_iff_key.mp hyz
  rw [hb] at hb'
  cases hb'
  exact lt_iff_key.mpr ⟨a, c, ha, hc, by omega⟩

theorem le_of_lt
    {x y : F32}
    (h : F32.lt x y = true) :
    F32.le x y = true := by
  obtain ⟨a, b, ha, hb, hab⟩ := lt_iff_key.mp h
  exact le_iff_key.mpr ⟨a, b, ha, hb, hab.le⟩

theorem le_refl_of_isNaN_eq_false
    {x : F32}
    (hx : x.isNaN = false) :
    F32.le x x = true := by
  obtain ⟨a, ha⟩ := exists_key_of_isNaN_eq_false hx
  exact le_iff_key.mpr ⟨a, a, ha, ha, le_rfl⟩

/- Of two numbers that are not NaN, one that is not below the other is
at least as large. -/
theorem le_of_not_lt
    {x y : F32}
    (hx : x.isNaN = false)
    (hy : y.isNaN = false)
    (h : F32.lt x y = false) :
    F32.le y x = true := by
  obtain ⟨a, ha⟩ := exists_key_of_isNaN_eq_false hx
  obtain ⟨b, hb⟩ := exists_key_of_isNaN_eq_false hy
  have hNotLt : ¬a < b := fun hab => by
    simp [lt_iff_key.mpr ⟨a, b, ha, hb, hab⟩] at h
  exact le_iff_key.mpr ⟨b, a, hb, ha, by omega⟩

theorem isNaN_eq_false_of_isFinite
    {x : F32}
    (hx : x.isFinite = true) :
    x.isNaN = false := by
  obtain ⟨a, ha, -⟩ := key_of_isFinite hx
  cases hNaN : x.isNaN
  · rfl
  · rw [key_eq_none_iff.mpr hNaN] at ha
    cases ha

/- Every finite number is below infinity. -/
theorem lt_infinity
    {x : F32}
    (hx : x.isFinite = true) :
    F32.lt x infinity = true := by
  obtain ⟨a, ha, hMax, -⟩ := key_of_isFinite hx
  exact lt_iff_key.mpr ⟨a, _, ha, key_infinity, by omega⟩

end F32

end NeuronFleet
