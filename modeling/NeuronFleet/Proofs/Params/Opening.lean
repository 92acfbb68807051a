import Mathlib
import NeuronFleet.Params
import NeuronFleet.Proofs.Json.ReadBack

/-
  Opening a parameter table file, and where its rows lie.

  The reader counts the header's end and the values' end in 64-bit
  words.  Opening a file gives a model error, panics exactly when the
  length prefix is within 8 of `2 ^ 64` (the header's end wraps below
  its start), or gives a table whose values start right after the
  header.  The size check is made on the wrapped end of the values, so
  it bounds the file only when the exact end fits a word: then the
  table is full, every row in range reads back its values from inside
  the file, and no read panics.

  Main declarations:
    * `ParameterTable.load_eq_ok`, `ParameterTable.load_eq_abort_iff`
    * `ParameterTable.row_of_full`
    * `ParameterTable.load_rows_inside_file`
-/

namespace NeuronFleet

------------------------------------------------------------
-- Words and Little-Endian Numbers
------------------------------------------------------------

theorem toWord_of_lt
    {n : Nat}
    (h : n < wordModulus) :
    toWord n = n :=
  Nat.mod_eq_of_lt h

/- A number of `k` little-endian bytes is below `256 ^ k`. -/
theorem ofLeBytes_lt (bs : List UInt8) : ofLeBytes bs < 256 ^ bs.length := by
  induction bs with
  | nil => simp [ofLeBytes]
  | cons b rest ih =>
      have hb : b.toNat < 256 := b.toNat_lt
      have hStep : 256 * (ofLeBytes rest + 1) ≤ 256 * 256 ^ rest.length := Nat.mul_le_mul_left _ ih
      simp only [ofLeBytes, List.length_cons, Nat.pow_succ]
      omega

/- The length prefix of a file of at least 8 bytes fits a word. -/
theorem lengthPrefix_lt
    {B : ByteArray}
    (h : 8 ≤ B.size) :
    ofLeBytes (B.extract 0 8).toList < wordModulus := by
  have hLength : (B.extract 0 8).toList.length = 8 := by
    rw [← Json.size_eq_length_toList, ByteArray.size_extract]
    omega
  have hBound := ofLeBytes_lt (B.extract 0 8).toList
  rw [hLength] at hBound
  simpa [wordModulus] using hBound

/- Eight bytes past a word: the plain sum while it fits, else what
exceeds the word, which is below 8. -/
theorem toWord_eight_add_cases
    {n : Nat}
    (hn : n < wordModulus) :
    (8 + n < wordModulus ∧ toWord (8 + n) = 8 + n) ∨
      (wordModulus ≤ 8 + n ∧ toWord (8 + n) = 8 + n - wordModulus ∧ 8 + n - wordModulus < 8) := by
  unfold toWord
  by_cases hFits : 8 + n < wordModulus
  · exact .inl ⟨hFits, Nat.mod_eq_of_lt hFits⟩
  · refine .inr ⟨by omega, ?_, by omega⟩
    rw [Nat.mod_eq_sub_mod (by omega), Nat.mod_eq_of_lt (by unfold wordModulus at *; omega)]

/- A header's end that does not wrap below its start is the plain sum. -/
theorem toWord_eight_add
    {n : Nat}
    (hn : n < wordModulus)
    (hWrap : ¬toWord (8 + n) < 8) :
    toWord (8 + n) = 8 + n := by
  rcases toWord_eight_add_cases hn with ⟨-, hEnd⟩ | ⟨-, hEnd, hBelow⟩
  · exact hEnd
  · omega

theorem toWord_eight_add_lt_iff
    {n : Nat}
    (hn : n < wordModulus) :
    toWord (8 + n) < 8 ↔ wordModulus ≤ 8 + n := by
  rcases toWord_eight_add_cases hn with ⟨hFits, hEnd⟩ | ⟨hPast, hEnd, hBelow⟩ <;> omega

namespace ParameterTable

------------------------------------------------------------
-- Opening
------------------------------------------------------------

theorem load_eq_ok
    {path : String}
    {B : ByteArray}
    {p : ParameterTable}
    (h : load path (.bytes B) = .ok p) :
    p.bytes = B ∧ p.dataOffset = 8 + ofLeBytes (B.extract 0 8).toList ∧ p.dataOffset ≤ B.size ∧
      toWord (p.dataOffset + p.header.sizeBytes) ≤ B.size := by
  simp only [load, bind, Except.bind, pure, Except.pure, throw, throwThe, MonadExceptOf.throw] at h
  split_ifs at h with hSmall hTrunc hWrap
  split at h
  case h_2 => cases h
  case h_1 j _ =>
    split_ifs at h with hShort
    cases h
    have hEnd := toWord_eight_add (lengthPrefix_lt (by omega)) hWrap
    refine ⟨rfl, hEnd, ?_, ?_⟩ <;> simp only [hEnd] at hTrunc hShort ⊢ <;> omega

/- Opening panics exactly on a length prefix within 8 of `2 ^ 64`. -/
theorem load_eq_abort_iff
    {path : String}
    {B : ByteArray} :
    load path (.bytes B) = .error .abort ↔
      8 ≤ B.size ∧ wordModulus ≤ 8 + ofLeBytes (B.extract 0 8).toList := by
  constructor
  · intro h
    simp only [load, bind, Except.bind, pure, Except.pure, throw, throwThe, MonadExceptOf.throw] at h
    split_ifs at h with hSmall hTrunc hWrap
    · cases h
    · cases h
    · exact ⟨by omega, (toWord_eight_add_lt_iff (lengthPrefix_lt (by omega))).mp hWrap⟩
    · -- reading the header and its values only fails with an error
      split at h
      · split_ifs at h
        cases h
      · cases h
  · rintro ⟨hLong, hPast⟩
    have hWrap := (toWord_eight_add_lt_iff (lengthPrefix_lt hLong)).mpr hPast
    have hShort : ¬B.size < 8 := by omega
    have hInside : ¬B.size < toWord (8 + ofLeBytes (B.extract 0 8).toList) := by omega
    simp [load, bind, Except.bind, pure, Except.pure, throw, throwThe, MonadExceptOf.throw, hShort, hInside, hWrap]

/- Every error of opening is a model error. -/
theorem load_error_model
    {path : String}
    {entry : FileEntry}
    {e : Error}
    (h : load path entry = .error (.error e)) :
    ∃ t, e = .model t := by
  simp only [load, bind, Except.bind, pure, Except.pure, throw, throwThe, MonadExceptOf.throw] at h
  -- Every refusal of the opening code is raised as a model error; the one
  -- abort is a different constructor of the halt and cannot match.
  split at h
  case h_1 | h_2 => cases h; exact ⟨_, rfl⟩
  case h_3 =>
    split_ifs at h
    case pos | pos => cases h; exact ⟨_, rfl⟩
    case pos => cases h
    case neg =>
      split at h
      case h_1 => split_ifs at h; cases h; exact ⟨_, rfl⟩
      case h_2 => cases h; exact ⟨_, rfl⟩

/- An opened table is fixed by its file and its header. -/
theorem load_eq_ok_of_header
    {path : String}
    {B : ByteArray}
    {h : ParameterHeader}
    (hHeader : (load path (.bytes B)).map header = .ok h) :
    load path (.bytes B) = .ok ⟨h, B, 8 + ofLeBytes (B.extract 0 8).toList⟩ := by
  cases hLoad : load path (.bytes B) with
  | error e => simp [hLoad, Except.map] at hHeader
  | ok p =>
      obtain ⟨hBytes, hOffset, -⟩ := load_eq_ok hLoad
      simp only [hLoad, Except.map, Except.ok.injEq] at hHeader
      cases p
      simp_all

/- When the values' exact end fits a word and the file fits in memory,
the wrapped size check is the exact one, so the opened table is full. -/
theorem full_of_load
    {path : String}
    {B : ByteArray}
    {p : ParameterTable}
    (h : load path (.bytes B) = .ok p)
    (hFits : p.dataOffset + p.header.rows * p.header.cols * 4 < wordModulus)
    (hSmall : B.size ≤ maxObjectBytes) :
    p.Full := by
  obtain ⟨rfl, -, -, hEnd⟩ := load_eq_ok h
  have hSize : p.header.sizeBytes = p.header.rows * p.header.cols * 4 :=
    toWord_of_lt (by omega)
  rw [hSize, toWord_of_lt hFits] at hEnd
  exact ⟨hEnd, hSmall⟩

------------------------------------------------------------
-- Rows of a Full Table
------------------------------------------------------------

/- A full table's rows are at most as wide as the largest buffer of singles. -/
theorem cols_le_maxSingles
    {p : ParameterTable}
    (hFull : p.Full)
    {r : Nat}
    (hr : r < p.header.rows) :
    p.header.cols ≤ maxSingles := by
  have hEnd := (rowSpan_of_full hFull hr).2
  have hSmall := hFull.2
  unfold maxObjectBytes at hSmall
  unfold maxSingles
  omega

/- Row `r` of a full table: its `cols` values, taken four bytes apiece from
where the row starts and each added to a zero. -/
theorem row_of_full
    {p : ParameterTable}
    (hFull : p.Full)
    {r : Nat}
    (hr : r < p.header.rows) :
    p.row r = .ok ((List.range p.header.cols).map fun j =>
      0 + p.valueAt (p.dataOffset + r * p.header.cols * 4 + 4 * j)) := by
  obtain ⟨hSpan, hEnd⟩ := rowSpan_of_full hFull hr
  have hWide : ¬p.header.cols > maxSingles := Nat.not_lt.mpr (cols_le_maxSingles hFull hr)
  simp only [row, hWide, if_false, bind, Except.bind]
  rw [accumulateRow_of_span hr List.length_replicate hSpan (by omega) hEnd]
  -- the buffer is as wide as the row, so every value of the row is added
  congr 1
  apply List.ext_getElem (by simp)
  intro j hj _
  have hLast : 4 * j + 4 ≤ p.header.cols * 4 := by
    simp only [List.length_map, List.length_zipIdx, List.length_replicate] at hj
    omega
  simp [List.getElem_zipIdx, hLast]

/- The values of row `r` of a full table lie inside its file. -/
theorem row_values_inside
    {p : ParameterTable}
    (hFull : p.Full)
    {r : Nat}
    (hr : r < p.header.rows)
    {j : Nat}
    (hj : j < p.header.cols) :
    p.dataOffset + r * p.header.cols * 4 + 4 * j + 4 ≤ p.bytes.size := by
  have hEnd := (rowSpan_of_full hFull hr).2
  omega

------------------------------------------------------------
-- Opening, then Reading
------------------------------------------------------------

/- What opening a file of bytes `B` gives, and what reading its rows
gives.  A refusal is a model error; a panic comes from a length prefix
within 8 of `2 ^ 64` and from nothing else; an opened table keeps the
file and starts its values right after the header.  When the values'
exact end fits a word and the file fits in memory, the file holds every
announced value: each row in range reads back its `cols` values from
inside the file, and no read panics. -/
theorem load_rows_inside_file
    (path : String)
    (B : ByteArray) :
    (∀ e, load path (.bytes B) = .error (.error e) → ∃ t, e = .model t) ∧
    (load path (.bytes B) = .error .abort ↔
      8 ≤ B.size ∧ wordModulus ≤ 8 + ofLeBytes (B.extract 0 8).toList) ∧
    ∀ p, load path (.bytes B) = .ok p →
      p.bytes = B ∧ p.dataOffset = 8 + ofLeBytes (B.extract 0 8).toList ∧
      (p.dataOffset + p.header.rows * p.header.cols * 4 < wordModulus → B.size ≤ maxObjectBytes →
        p.dataOffset + p.header.rows * p.header.cols * 4 ≤ B.size ∧
        (∀ r out, p.accumulateRow r out ≠ .error .abort) ∧
        ∀ r < p.header.rows,
          p.row r = .ok ((List.range p.header.cols).map fun j =>
            0 + p.valueAt (p.dataOffset + r * p.header.cols * 4 + 4 * j)) ∧
          ∀ j < p.header.cols, p.dataOffset + r * p.header.cols * 4 + 4 * j + 4 ≤ B.size) := by
  refine ⟨fun e h => load_error_model h, load_eq_abort_iff, ?_⟩
  intro p hLoad
  obtain ⟨hBytes, hOffset, -⟩ := load_eq_ok hLoad
  refine ⟨hBytes, hOffset, fun hFits hSmall => ?_⟩
  have hFull := full_of_load hLoad hFits hSmall
  subst hBytes
  exact ⟨hFull.1, accumulateRow_ne_abort hFull,
    fun r hr => ⟨row_of_full hFull hr, fun j hj => row_values_inside hFull hr hj⟩⟩

/- A file of one row of two values, `1.0` and `2.0`, after a 28-byte header. -/
def oneRowFile : ByteArray :=
  (leBytes 8 28 ++ "\x7b\"rows\":1,\"cols\":2,\"seed\":0\x7d".toUTF8.toList ++
    [0, 0, 128, 63, 0, 0, 0, 64]).toByteArray

theorem one_row_file_reads_inside :
    ∃ p, load "params.bin" (.bytes oneRowFile) = .ok p ∧
      p.row 0 = .ok [0 + p.valueAt 36, 0 + p.valueAt 40] ∧ 40 + 4 ≤ oneRowFile.size := by
  have hLoad := @load_eq_ok_of_header "params.bin" oneRowFile ⟨1, 2, 0⟩ (by decide +kernel)
  obtain ⟨-, -, hRead⟩ := (load_rows_inside_file "params.bin" oneRowFile).2.2 _ hLoad
  obtain ⟨-, -, hRows⟩ := hRead (by decide +kernel) (by decide +kernel)
  obtain ⟨hRow, hInside⟩ := hRows 0 (by decide)
  exact ⟨_, hLoad, hRow.trans (by decide +kernel),
    Nat.le_trans (Nat.le_of_eq (by decide +kernel)) (hInside 1 (by decide))⟩

/- A header of `2 ^ 62` rows of one value, and no values after it. -/
def wrappingHeaderFile : ByteArray :=
  (leBytes 8 46 ++ "\x7b\"rows\":4611686018427387904,\"cols\":1,\"seed\":0\x7d".toUTF8.toList).toByteArray

/- The values' size, `2 ^ 64` bytes, wraps to none at all: opening accepts
a file that holds no value, and reading its first row panics. -/
theorem wrapped_values_size_row_panics :
    ∃ p, load "params.bin" (.bytes wrappingHeaderFile) = .ok p ∧ p.header.sizeBytes = 0 ∧
      p.bytes.size < p.dataOffset + p.header.rows * p.header.cols * 4 ∧ p.row 0 = .error .abort := by
  have hLoad := @load_eq_ok_of_header "params.bin" wrappingHeaderFile ⟨4611686018427387904, 1, 0⟩
    (by decide +kernel)
  exact ⟨_, hLoad, by decide +kernel, by decide +kernel, by decide +kernel⟩

end ParameterTable

end NeuronFleet
