import Mathlib
import NeuronFleet.Proofs.Params.Opening
import NeuronFleet.Proofs.Number.Signed
import NeuronFleet.Proofs.Json.Typed

/-
  A generated table file reads back what was drawn for it.

  The file is the header's length in eight little-endian bytes, the
  header, then the values four little-endian bytes apiece.  Opening it
  finds the length where it was put and the header right after it, and
  the values end exactly where the file ends, so the opened table is
  full and the four bytes at each value's place are the ones written
  there.

  A row is read by adding its values into a buffer of zeros, and adding
  to zero changes `-0` and the NaNs that are not the quiet one.  A draw
  from `[-s, s)` is neither: its fraction is `+0` or positive, so the
  draw is `-0` only if both the low end `-s` and the product of the
  fraction with the width are, and a low end of `-0` makes the width
  `+0 + +0 = +0`; every NaN a sum makes is the quiet one.  So every row
  is, bit for bit, the values drawn for it.

  Main declarations:
    * `ofLeBytes_leBytes`
    * `Random.ChaCha.value_fraction`, `Random.ChaCha.zero_add_rangeF32`
    * `ParameterTable.load_fileBytes`, `ParameterTable.valueAt_fileBytes`
    * `ParameterTable.exported_table_reads_back`
-/

namespace NeuronFleet

------------------------------------------------------------
-- Little-Endian Bytes
------------------------------------------------------------

@[simp] theorem length_leBytes (w n : Nat) : (leBytes w n).length = w := by
  induction w generalizing n with
  | zero => rfl
  | succ w ih => simp [leBytes, ih]

/- Reading back `w` little-endian bytes gives a number below `256 ^ w`. -/
theorem ofLeBytes_leBytes
    {w n : Nat}
    (hn : n < 256 ^ w) :
    ofLeBytes (leBytes w n) = n := by
  induction w generalizing n with
  | zero =>
      have hZero : n = 0 := by simpa using hn
      subst hZero
      rfl
  | succ w ih =>
      have hSmall : n / 256 < 256 ^ w := by
        apply (Nat.div_lt_iff_lt_mul (by decide)).mpr
        simpa only [Nat.pow_succ] using hn
      simp only [leBytes, ofLeBytes, ih hSmall, UInt8.toNat_ofNat']
      omega

/- In a list of chunks all `w` long, chunk `k` starts at `w * k`. -/
theorem take_drop_flatMap
    {α β : Type}
    {f : α → List β}
    {w : Nat}
    (hw : ∀ a, (f a).length = w) :
    ∀ {l : List α} {k : Nat} (hk : k < l.length), ((l.flatMap f).drop (w * k)).take w = f l[k]
  | a :: l, 0, _ => by
      rw [List.flatMap_cons, Nat.mul_zero, List.drop_zero, List.take_left' (hw a)]
      rfl
  | a :: l, k + 1, hk => by
      rw [List.flatMap_cons, List.getElem_cons_succ, Nat.mul_succ, Nat.add_comm, ← List.drop_drop,
        List.drop_left' (hw a)]
      exact take_drop_flatMap hw (Nat.lt_of_succ_lt_succ hk)

/- The bytes between `s` and `e` of a list of bytes. -/
theorem toList_extract_toByteArray
    (l : List UInt8)
    (s e : Nat) :
    (l.toByteArray.extract s e).toList = (l.drop s).take (e - s) := by
  rw [Json.bytes_toList, ByteArray.data_extract, List.data_toByteArray, Array.toList_extract,
    List.extract_eq_take_drop]

theorem eq_of_toList_eq
    {a b : ByteArray}
    (h : a.toList = b.toList) :
    a = b := by
  rw [Json.bytes_toList, Json.bytes_toList] at h
  exact ByteArray.ext (Array.toList_inj.mp h)

------------------------------------------------------------
-- Draws from a Symmetric Range
------------------------------------------------------------

namespace Random.ChaCha

open Binary

/- The bits of a draw's significand: the exponent of one, and 23
random bits below it. -/
theorem oneToTwo_bits (x : UInt32) :
    ((x >>> 9) ||| 0x3F800000).toNat = 2 ^ 23 * 127 + x.toNat / 2 ^ 9 := by
  have hHigh : x.toNat / 2 ^ 9 < 2 ^ 23 :=
    Nat.div_lt_of_lt_mul (by have := x.toNat_lt; omega)
  have hTop : (0x3F800000 : UInt32).toNat = 2 ^ 23 * 127 := rfl
  have hShift : (9 : UInt32).toNat % 32 = 9 := rfl
  rw [UInt32.toNat_or, UInt32.toNat_shiftRight, hTop, hShift, Nat.shiftRight_eq_div_pow,
    Nat.two_pow_add_eq_or_of_lt hHigh, Nat.lor_comm]

/- A draw's fraction is its 23 random bits below the point, exactly. -/
theorem value_fraction (x : UInt32) :
    ((⟨(x >>> 9) ||| 0x3F800000⟩ : F32) - 1).value = .finite false (x.toNat / 2 ^ 9 * 2 ^ 126) := by
  set t := x.toNat / 2 ^ 9 with ht
  have hHigh : t < 2 ^ 23 := Nat.div_lt_of_lt_mul (by have := x.toNat_lt; omega)
  have hOneToTwo : (⟨(x >>> 9) ||| 0x3F800000⟩ : F32).value =
      .finite false ((2 ^ 23 + t) * 2 ^ 126) := by
    show Format.single.decode ((x >>> 9) ||| 0x3F800000).toNat = _
    rw [oneToTwo_bits, ← ht, Binary.single_decode_of_lt (by omega)]
    have hExponent : (2 ^ 23 * 127 + t) / 2 ^ 23 = 127 := by omega
    have hFraction : (2 ^ 23 * 127 + t) % 2 ^ 23 = t := by omega
    simp only [hExponent, hFraction]
    rfl
  have hMinusOne : (-1 : F32).value = .finite true (2 ^ 149) := by
    rw [F32.value_neg, F32.value_one]
    rfl
  have hSum : signedUnits false ((2 ^ 23 + t) * 2 ^ 126) + signedUnits true (2 ^ 149) =
      ((t * 2 ^ 126 : Nat) : Int) := by
    simp only [signedUnits, Bool.false_eq_true, if_false, if_true]
    push_cast
    ring
  rw [F32.sub_eq_add_neg, F32.value_add_of_finite hOneToTwo hMinusOne, hSum, Int.natAbs_natCast]
  rcases Nat.eq_zero_or_pos t with hZero | hPos
  · -- no random bit set: the fraction is `+0`
    rw [if_pos (by rw [hZero]; rfl), hZero, Nat.zero_mul]
    rfl
  · -- the fraction is exact, so nothing rounds and nothing overflows
    have hRep : Format.single.Representable (t * 2 ^ 126) :=
      ⟨t, 126, by rw [Binary.single_precision]; omega, rfl⟩
    have hMax : t * 2 ^ 126 ≤ Format.single.maxMagnitude := by
      rw [Binary.single_maxMagnitude]
      calc t * 2 ^ 126 ≤ 2 ^ 23 * 2 ^ 126 := Nat.mul_le_mul_right _ hHigh.le
        _ ≤ (2 ^ 24 - 1) * 2 ^ 253 := by norm_num
    have hNonzero : ((t * 2 ^ 126 : Nat) : Int) ≠ 0 := by positivity
    rw [if_neg hNonzero, Format.roundRatio_of_representable (by decide) hRep, if_pos hMax]
    simp

/- Adding a draw from `[-s, s)` to zero gives the draw back. -/
theorem zero_add_rangeF32
    (g : ChaCha)
    (scale : F32) :
    0 + (g.rangeF32 (-scale) scale).1 = (g.rangeF32 (-scale) scale).1 := by
  rcases hNext : g.nextU32 with ⟨x, next⟩
  simp only [rangeF32, hNext]
  apply F32.zero_add_eq_self
  · intro hNegZero
    obtain ⟨hProduct, hLow⟩ := F32.add_eq_negZero hNegZero
    -- a low end of `-0` comes from a scale of `+0`, which makes the width `+0`
    have hScale : scale.value = .finite false 0 := F32.value_of_value_neg hLow
    have hWidth : (scale - -scale).value = .finite false 0 := by
      rw [F32.sub_eq_add_neg, F32.neg_neg, F32.value_add_of_finite hScale hScale]
      rfl
    -- the fraction is not negative, so its product with `+0` is `+0`
    rw [F32.value_mul_of_finite (value_fraction x) hWidth, if_pos (.inr rfl)] at hProduct
    cases hProduct
  · exact F32.add_eq_nan_of_isNaN

end Random.ChaCha

------------------------------------------------------------
-- The Drawn Values
------------------------------------------------------------

------------------------------------------------------------
-- The Header's Text
------------------------------------------------------------

/- A header whose numbers fit 64 bits reads back from its text: the text
is the header's object, its members the record's fields in order. -/
theorem ParameterHeader.text_reads_back
    {h : ParameterHeader}
    (hRows : h.rows ≤ 18446744073709551615)
    (hCols : h.cols ≤ 18446744073709551615)
    (hSeed : h.seed ≤ 18446744073709551615) :
    (Json.readBytesAs ParameterHeader.schema h.toText.toUTF8).toOption.map ParameterHeader.ofJson =
      some h := by
  have hFields : List.Forall₂ (Json.Reader.FieldReads (Json.Reader.typed (Json.maxDepth - 1)))
      [("rows", Schema.usize, none), ("cols", Schema.usize, none), ("seed", Schema.u64, none)]
      [("rows", .int h.rows), ("cols", .int h.cols), ("seed", .int h.seed)] :=
    .cons ⟨rfl, Json.Reader.recovers_unsigned hRows le_rfl⟩
      (.cons ⟨rfl, Json.Reader.recovers_unsigned hCols le_rfl⟩
        (.cons ⟨rfl, Json.Reader.recovers_unsigned hSeed le_rfl⟩ .nil))
  unfold ParameterHeader.schema ParameterHeader.toText
  rw [Json.readBytesAs_record _ hFields (by decide)]
  simp [Except.toOption, ParameterHeader.ofJson, Json.field?, List.lookup_cons]

namespace ParameterTable

theorem length_values_go
    (n : Nat)
    (g : Random.ChaCha)
    (lo hi : F32) :
    (values.go n g lo hi).length = n := by
  induction n generalizing g with
  | zero => rfl
  | succ n ih => simp [values.go, ih]

/- Every value drawn from `[-s, s)` comes back from adding it to zero. -/
theorem zero_add_of_mem_values_go
    {n : Nat}
    {g : Random.ChaCha}
    {scale v : F32}
    (hv : v ∈ values.go n g (-scale) scale) :
    0 + v = v := by
  induction n generalizing g with
  | zero => cases hv
  | succ n ih =>
      simp only [values.go, List.mem_cons] at hv
      rcases hv with rfl | hRest
      · exact Random.ChaCha.zero_add_rangeF32 g scale
      · exact ih hRest

theorem length_values (rows cols seed : Nat) : (values rows cols seed).length = rows * cols :=
  length_values_go _ _ _ _

theorem zero_add_of_mem_values
    {rows cols seed : Nat}
    {v : F32}
    (hv : v ∈ values rows cols seed) :
    0 + v = v :=
  zero_add_of_mem_values_go hv

------------------------------------------------------------
-- Opening a Generated File
------------------------------------------------------------

theorem generate_eq_ok
    {path : String}
    {rows cols seed : Nat}
    {tag : String}
    (hRows : 0 < rows)
    (hCols : 0 < cols) :
    generate path rows cols seed tag none =
      .ok (⟨rows, cols, seed⟩, fileBytes ⟨rows, cols, seed⟩ (values rows cols seed)) := by
  have hNonempty : (rows == 0 || cols == 0) = false := by simp; omega
  simp [generate, hNonempty, pure, Except.pure]

section File

variable {h : ParameterHeader} {vs : List F32}

theorem toList_fileBytes :
    (fileBytes h vs).toList = leBytes 8 h.toText.toUTF8.size ++ h.toText.toUTF8.toList ++
      vs.flatMap fun v => leBytes 4 v.bits.toNat := by
  rw [fileBytes, Json.size_eq_length_toList, Json.bytes_toList, List.data_toByteArray]

theorem size_fileBytes :
    (fileBytes h vs).size = 8 + h.toText.toUTF8.size + 4 * vs.length := by
  rw [Json.size_eq_length_toList, toList_fileBytes, List.length_append, List.length_append,
    length_leBytes, ← Json.size_eq_length_toList h.toText.toUTF8, List.length_flatMap]
  simp [Nat.mul_comm]

/- The bytes between `s` and `e` of a file. -/
theorem toList_extract_fileBytes (s e : Nat) :
    ((fileBytes h vs).extract s e).toList =
      ((leBytes 8 h.toText.toUTF8.size ++ h.toText.toUTF8.toList ++
        vs.flatMap fun v => leBytes 4 v.bits.toNat).drop s).take (e - s) := by
  rw [fileBytes, toList_extract_toByteArray, Json.size_eq_length_toList]

/- The four bytes at a value's place are the ones written for it. -/
theorem valueAt_fileBytes
    {k : Nat}
    (hk : k < vs.length)
    (offset : Nat) :
    ParameterTable.valueAt ⟨h, fileBytes h vs, offset⟩ (8 + h.toText.toUTF8.size + 4 * k) = vs[k] := by
  have hPrefix : (leBytes 8 h.toText.toUTF8.size ++ h.toText.toUTF8.toList).length =
      8 + h.toText.toUTF8.size := by
    simp [Json.size_eq_length_toList]
  have hChunk : ((fileBytes h vs).extract (8 + h.toText.toUTF8.size + 4 * k)
      (8 + h.toText.toUTF8.size + 4 * k + 4)).toList = leBytes 4 vs[k].bits.toNat := by
    rw [toList_extract_fileBytes, Nat.add_sub_cancel_left, ← List.drop_drop,
      List.drop_left' hPrefix]
    exact take_drop_flatMap (fun v => length_leBytes 4 v.bits.toNat) hk
  have hBits : vs[k].bits.toNat < 256 ^ 4 := vs[k].bits.toNat_lt
  simp only [valueAt, hChunk, ofLeBytes_leBytes hBits, UInt32.ofNat_toNat]

/-
  Opening a generated file finds the header it holds and starts the
  values right after it.  The header's text is read back as the header,
  and the file, of the values the header announces, fits in memory.
-/
theorem load_fileBytes
    {path : String}
    (hRead : (Json.readBytesAs ParameterHeader.schema h.toText.toUTF8).toOption.map
      ParameterHeader.ofJson = some h)
    (hLength : vs.length = h.rows * h.cols)
    (hSmall : 8 + h.toText.toUTF8.size + h.rows * h.cols * 4 ≤ maxObjectBytes) :
    load path (.bytes (fileBytes h vs)) = .ok ⟨h, fileBytes h vs, 8 + h.toText.toUTF8.size⟩ := by
  have hSize : (fileBytes h vs).size = 8 + h.toText.toUTF8.size + h.rows * h.cols * 4 := by
    rw [size_fileBytes, hLength, Nat.mul_comm 4]
  have hWord (n : Nat) (hn : n ≤ maxObjectBytes) : toWord n = n :=
    toWord_of_lt (by unfold maxObjectBytes at hn; unfold wordModulus; omega)
  -- the length prefix, the header's bytes, and the header read from them
  have hLengthPrefix : ofLeBytes ((fileBytes h vs).extract 0 8).toList = h.toText.toUTF8.size := by
    rw [toList_extract_fileBytes, List.drop_zero, Nat.sub_zero, List.append_assoc,
      List.take_left' (length_leBytes 8 _), ofLeBytes_leBytes]
    unfold maxObjectBytes at hSmall
    omega
  have hHeaderBytes : (fileBytes h vs).extract 8 (8 + h.toText.toUTF8.size) = h.toText.toUTF8 := by
    apply eq_of_toList_eq
    rw [toList_extract_fileBytes, Nat.add_sub_cancel_left, List.append_assoc,
      List.drop_left' (length_leBytes 8 _), List.take_left' (Json.size_eq_length_toList _).symm]
  obtain ⟨j, hJson, hHeader⟩ : ∃ j, Json.readBytesAs ParameterHeader.schema h.toText.toUTF8 = .ok j ∧
      ParameterHeader.ofJson j = h := by
    cases hReadBytes : Json.readBytesAs ParameterHeader.schema h.toText.toUTF8 with
    | error e => simp only [hReadBytes, Except.toOption, Option.map_none, reduceCtorEq] at hRead
    | ok j =>
        simp only [hReadBytes, Except.toOption, Option.map_some, Option.some.injEq] at hRead
        exact ⟨j, rfl, hRead⟩
  have hHeaderEnd := hWord (8 + h.toText.toUTF8.size) (by omega)
  have hValuesSize : h.sizeBytes = h.rows * h.cols * 4 := hWord _ (by omega)
  have hValuesEnd := hWord _ hSmall
  simp only [load, bind, Except.bind, pure, Except.pure, throw, throwThe, MonadExceptOf.throw,
    hLengthPrefix, hHeaderEnd, hHeaderBytes, hJson, hHeader, hValuesSize, hValuesEnd, hSize]
  simp
  omega

end File

/- A row past the table is refused, naming the row and the table's height. -/
theorem row_of_le
    {p : ParameterTable}
    (hCols : p.header.cols ≤ maxSingles)
    {r : Nat}
    (hr : p.header.rows ≤ r) :
    p.row r = .error (.error (.model ("token " ++ toString r ++ " outside vocabulary of " ++
      toString p.header.rows))) := by
  simp [row, accumulateRow, Nat.not_lt.mpr hCols, hr, bind, Except.bind, throw, throwThe,
    MonadExceptOf.throw]

------------------------------------------------------------
-- Generating, then Opening
------------------------------------------------------------

/- Row `r` of a generated file, once opened, is the run of drawn values
at its place. -/
theorem row_fileBytes
    {rows cols seed r : Nat}
    (hr : r < rows)
    (hFull : (⟨⟨rows, cols, seed⟩, fileBytes ⟨rows, cols, seed⟩ (values rows cols seed),
      8 + (ParameterHeader.toText ⟨rows, cols, seed⟩).toUTF8.size⟩ : ParameterTable).Full) :
    ParameterTable.row ⟨⟨rows, cols, seed⟩, fileBytes ⟨rows, cols, seed⟩ (values rows cols seed),
        8 + (ParameterHeader.toText ⟨rows, cols, seed⟩).toUTF8.size⟩ r =
      .ok (((values rows cols seed).drop (r * cols)).take cols) := by
  have hLength := length_values rows cols seed
  -- the row ends inside the values: `(r + 1) * cols ≤ rows * cols`
  have hEnd : r * cols + cols ≤ rows * cols := by
    rw [← Nat.succ_mul]
    exact Nat.mul_le_mul_right _ hr
  rw [row_of_full hFull hr]
  congr 1
  apply List.ext_getElem
  · simp only [List.length_map, List.length_range, List.length_take, List.length_drop, hLength]
    omega
  · intro j hj _
    simp only [List.length_map, List.length_range] at hj
    have hIndex : r * cols + j < (values rows cols seed).length := by omega
    have hPos : 8 + (ParameterHeader.toText ⟨rows, cols, seed⟩).toUTF8.size + r * cols * 4 + 4 * j =
        8 + (ParameterHeader.toText ⟨rows, cols, seed⟩).toUTF8.size + 4 * (r * cols + j) := by
      ring
    simp only [List.getElem_map, List.getElem_range, List.getElem_take, List.getElem_drop]
    rw [hPos, valueAt_fileBytes hIndex, zero_add_of_mem_values (List.getElem_mem hIndex)]

/-
  A table generated from a seed, once opened, reads back as it was
  generated: its header is the one generating gave, every row in range
  is, bit for bit, the run of drawn values at its place in the order
  they were drawn, and a row past the table is refused with a model
  error, for every seed of 64 bits and every shape whose file fits in
  memory.
-/
theorem exported_table_reads_back
    (path : String)
    (rows cols seed : Nat)
    (tag : String)
    (hRows : 0 < rows)
    (hCols : 0 < cols)
    (hSeed : seed ≤ 18446744073709551615)
    (hSmall : 8 + (ParameterHeader.toText ⟨rows, cols, seed⟩).toUTF8.size + rows * cols * 4 ≤
      maxObjectBytes) :
    ∃ bytes, generate path rows cols seed tag none = .ok (⟨rows, cols, seed⟩, bytes) ∧
      ∃ p, load path (.bytes bytes) = .ok p ∧ p.header = ⟨rows, cols, seed⟩ ∧
        (∀ r < rows, p.row r = .ok (((values rows cols seed).drop (r * cols)).take cols)) ∧
        ∀ r, rows ≤ r → p.row r = .error (.error (.model
          ("token " ++ toString r ++ " outside vocabulary of " ++ toString rows))) := by
  have hLength := length_values rows cols seed
  -- the shape fits in memory, so each of its sides fits 64 bits
  have hBounds : rows ≤ rows * cols ∧ cols ≤ rows * cols :=
    ⟨Nat.le_mul_of_pos_right rows hCols, Nat.le_mul_of_pos_left cols hRows⟩
  have hHeader := ParameterHeader.text_reads_back (h := ⟨rows, cols, seed⟩)
    (by unfold maxObjectBytes at hSmall; dsimp only; omega)
    (by unfold maxObjectBytes at hSmall; dsimp only; omega) hSeed
  have hLoad : load path (.bytes (fileBytes ⟨rows, cols, seed⟩ (values rows cols seed))) =
      .ok ⟨⟨rows, cols, seed⟩, fileBytes ⟨rows, cols, seed⟩ (values rows cols seed),
        8 + (ParameterHeader.toText ⟨rows, cols, seed⟩).toUTF8.size⟩ :=
    load_fileBytes hHeader hLength hSmall
  -- the values end exactly at the file's end, inside memory
  have hSize := @size_fileBytes ⟨rows, cols, seed⟩ (values rows cols seed)
  rw [hLength] at hSize
  have hFull : (⟨⟨rows, cols, seed⟩, fileBytes ⟨rows, cols, seed⟩ (values rows cols seed),
      8 + (ParameterHeader.toText ⟨rows, cols, seed⟩).toUTF8.size⟩ : ParameterTable).Full := by
    refine ⟨?_, ?_⟩ <;> simp only [hSize] <;> omega
  refine ⟨_, generate_eq_ok hRows hCols, _, hLoad, rfl, fun r hr => row_fileBytes hr hFull,
    fun r hr => row_of_le (cols_le_maxSingles hFull hRows) hr⟩

theorem small_table_reads_back :
    ∃ bytes, generate "params.bin" 2 3 7 "worker" none = .ok (⟨2, 3, 7⟩, bytes) ∧
      ∃ p, load "params.bin" (.bytes bytes) = .ok p ∧ p.header = ⟨2, 3, 7⟩ ∧
        (∀ r < 2, p.row r = .ok (((values 2 3 7).drop (r * 3)).take 3)) ∧
        ∀ r, 2 ≤ r → p.row r = .error (.error (.model
          ("token " ++ toString r ++ " outside vocabulary of " ++ toString 2))) :=
  exported_table_reads_back "params.bin" 2 3 7 "worker" (by decide) (by decide) (by decide)
    (by decide +kernel)

end ParameterTable

end NeuronFleet
