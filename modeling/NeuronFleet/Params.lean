import NeuronFleet.Random.Uniform
import NeuronFleet.Json.Read
import NeuronFleet.Error

/-
  The shared parameter table and its file.

  The base embedding table is generated once from a seed and written
  to a file that every worker reads.  The file holds an 8-byte
  little-endian length, that many bytes of a JSON header
  `{"rows":R,"cols":C,"seed":S}`, then the `R × C` values row by row as
  little-endian singles.

  The values are drawn uniformly from `[-s, s)` with `s = 1 / √C`, in
  order, from the generator seeded with the table's seed.  The file is
  written under a temporary name beside its place and then moved
  there.

  Opening checks that the file holds the length, the header it
  announces and the values the header announces; extra bytes after the
  values are ignored.  A row is read by adding its values into a
  buffer of the table's width.

  Sizes and offsets are 64-bit machine words, and the reader's sums and
  products of them wrap.  A length within 8 of `2 ^ 64` wraps the
  header's end below its start, and taking the header's bytes then
  panics; a header whose payload size wraps passes the size check with
  fewer values than it announces, and reading a row past the end of the
  file panics.  A row buffer wider than the largest allocation panics
  too.  A `FullTable` is an opened table whose file holds every value
  its header announces: reading it never panics.

  Main definitions:
    * `ParameterHeader`, `ParameterTable.values`, `ParameterTable.fileBytes`
    * `ParameterTable.generate`, `ParameterTable.load`
    * `ParameterTable.accumulateRow`, `ParameterTable.row`
    * `ParameterTable.Full`, `FullTable`, `FullTable.accumulateRow`
-/

namespace NeuronFleet

------------------------------------------------------------
-- Machine words
------------------------------------------------------------

/- Sizes and offsets are 64-bit words: their sums and products wrap
modulo this. -/
def wordModulus : Nat := 18446744073709551616

/- A number as a 64-bit word holds it. -/
def toWord (n : Nat) : Nat := n % wordModulus

/- The largest object in memory, in bytes. -/
def maxObjectBytes : Nat := 9223372036854775807

/- The most singles one buffer can be allocated for; a wider one
panics. -/
def maxSingles : Nat := 2305843009213693951

------------------------------------------------------------
-- Bytes
------------------------------------------------------------

/- The `w` little-endian bytes of `n`. -/
def leBytes : Nat → Nat → List UInt8
  | 0, _ => []
  | w + 1, n => UInt8.ofNat (n % 256) :: leBytes w (n / 256)

/- The number whose little-endian bytes these are. -/
def ofLeBytes : List UInt8 → Nat
  | [] => 0
  | b :: rest => b.toNat + 256 * ofLeBytes rest

/- Lower-case hexadecimal text of bytes, two digits each. -/
def hexOfBytes (bs : List UInt8) : String :=
  let digit (n : Nat) : Char := if n < 10 then Char.ofNat (n + 48) else Char.ofNat (n + 87)
  String.ofList (bs.flatMap fun b => [digit (b.toNat / 16), digit (b.toNat % 16)])

/- The bytes of hexadecimal text, two digits each, in either case;
none when a character is not a digit or a digit is left over. -/
def bytesOfHex (t : String) : Option ByteArray :=
  let digit (c : Char) : Option Nat :=
    if c.isDigit then some (c.toNat - 48)
    else if 'a' ≤ c ∧ c ≤ 'f' then some (c.toNat - 87)
    else if 'A' ≤ c ∧ c ≤ 'F' then some (c.toNat - 55)
    else none
  let rec go : List Char → Option (List UInt8)
    | a :: b :: rest => do return UInt8.ofNat (16 * (← digit a) + (← digit b)) :: (← go rest)
    | [] => some []
    | [_] => none
  (go t.toList).map List.toByteArray

------------------------------------------------------------
-- The header
------------------------------------------------------------

/- Shape and seed of a parameter table. -/
structure ParameterHeader where
  rows : Nat
  cols : Nat
  seed : Nat
  deriving Repr, DecidableEq, Inhabited

namespace ParameterHeader

/- Bytes of the values, as a word holds them. -/
def sizeBytes (h : ParameterHeader) : Nat := toWord (h.rows * h.cols * 4)

/- The shape of a header. -/
def schema : Schema :=
  .record "ParameterHeader"
    [("rows", Schema.usize, none), ("cols", Schema.usize, none), ("seed", Schema.u64, none)]

/- A header from data of the shape `schema`. -/
def ofJson (j : Json) : ParameterHeader :=
  let nat (k : String) : Nat := match j.field? k with
    | some (.int n) => n.toNat
    | _ => 0
  ⟨nat "rows", nat "cols", nat "seed"⟩

/- The compact JSON text of a header. -/
def toText (h : ParameterHeader) : String :=
  Json.write (.obj [("rows", .int h.rows), ("cols", .int h.cols), ("seed", .int h.seed)])

/- The header as its debugging text shows it. -/
def debugText (h : ParameterHeader) : String :=
  "ParameterHeader \x7b rows: " ++ toString h.rows ++ ", cols: " ++ toString h.cols ++
    ", seed: " ++ toString h.seed ++ " \x7d"

end ParameterHeader

------------------------------------------------------------
-- Tables
------------------------------------------------------------

/- What the path of a file holds, as far as reading it goes. -/
inductive FileEntry where
  | missing
  | directory
  | bytes (content : ByteArray)

/- Why writing a table file can fail. -/
inductive Obstacle where
  -- A file stands where the parent directory should be
  | parentIsFile
  -- A directory stands at the temporary name
  | tempIsDirectory
  -- A directory with contents stands at the file's place
  | targetIsDirectory
  deriving DecidableEq

/- An opened table: its header, the bytes of its file, and where the
values start. -/
structure ParameterTable where
  header : ParameterHeader
  bytes : ByteArray
  dataOffset : Nat

namespace ParameterTable

/- The values of a table: `rows × cols` draws from `[-s, s)`, with
`s = 1 / √cols`. -/
def values (rows cols seed : Nat) : List F32 :=
  let scale := 1 / F32.sqrt (F32.ofNat cols)
  go (rows * cols) (Random.ChaCha.ofSeed (UInt64.ofNat seed)) (-scale) scale
where
  go : Nat → Random.ChaCha → F32 → F32 → List F32
    | 0, _, _, _ => []
    | n + 1, g, lo, hi =>
      let (x, g) := g.rangeF32 lo hi
      x :: go n g lo hi

/- The bytes of a table file. -/
def fileBytes
    (h : ParameterHeader)
    (vs : List F32) :
    ByteArray :=
  let header := h.toText.toUTF8.toList
  (leBytes 8 header.length ++ header ++ vs.flatMap fun v => leBytes 4 v.bits.toNat).toByteArray

/- A path with its last extension replaced. -/
def withExtension (path ext : String) : String :=
  let dir := match path.splitOn "/" with
    | [] | [_] => ""
    | parts => "/".intercalate parts.dropLast ++ "/"
  let name := (path.splitOn "/").getLast!
  let stem := match name.splitOn "." with
    | [] | [_] => name
    | parts => if parts.head! == "" && parts.length == 2 then name else ".".intercalate parts.dropLast
  dir ++ stem ++ "." ++ ext

/- Generates a table and gives its header and file, or the error
writing met; `tag` names the writer in the temporary name. -/
def generate
    (path : String)
    (rows cols seed : Nat)
    (tag : String)
    (obstacle : Option Obstacle) :
    Outcome (ParameterHeader × ByteArray) := do
  if rows == 0 || cols == 0 then throw (.model "shared parameter table must be non-empty")
  if obstacle == some .parentIsFile then throw (.io "File exists (os error 17)")
  let h : ParameterHeader := ⟨rows, cols, seed⟩
  if obstacle == some .tempIsDirectory then
    throw (.model ("Failed to create " ++ withExtension path ("tmp." ++ tag) ++
      ": Is a directory (os error 21)"))
  let bytes := fileBytes h (values rows cols seed)
  if obstacle == some .targetIsDirectory then throw (.io "Is a directory (os error 21)")
  return (h, bytes)

/- Opens a table file at `path`. -/
def load
    (path : String)
    (entry : FileEntry) :
    Except Halt ParameterTable := do
  let bytes ← match entry with
    | .missing => throw (.error (.model ("Failed to open file " ++ path ++
        ": No such file or directory (os error 2)")))
    | .directory => throw (.error (.model ("Failed to mmap file " ++ path ++
        ": No such device (os error 19)")))
    | .bytes b => pure b
  if bytes.size < 8 then throw (.error (.model "File too small to contain header"))
  let headerLen := ofLeBytes (bytes.extract 0 8).toList
  let headerEnd := toWord (8 + headerLen)
  if bytes.size < headerEnd then
    throw (.error (.model "File truncated: header length exceeds file size"))
  -- a length within 8 of `2 ^ 64` wraps the header's end below its start
  if headerEnd < 8 then throw .abort
  let h ← match Json.readBytesAs ParameterHeader.schema (bytes.extract 8 headerEnd) with
    | .ok j => pure (ParameterHeader.ofJson j)
    | .error e => throw (.error (.model ("Failed to parse parameter header: " ++ e.message)))
  if bytes.size < toWord (headerEnd + h.sizeBytes) then
    throw (.error (.model ("File truncated: expected " ++ toString h.sizeBytes ++
      " bytes of parameters, found " ++ toString (bytes.size - headerEnd))))
  return ⟨h, bytes, headerEnd⟩

/- The single whose little-endian bytes start at byte `pos` of the file. -/
def valueAt
    (p : ParameterTable)
    (pos : Nat) :
    F32 :=
  ⟨UInt32.ofNat (ofLeBytes (p.bytes.extract pos (pos + 4)).toList)⟩

/- Where row `r` starts in the file, and where it stops, as words. -/
def rowSpan
    (p : ParameterTable)
    (r : Nat) :
    Nat × Nat :=
  let start := toWord (p.dataOffset + toWord (r * p.header.cols * 4))
  (start, toWord (start + toWord (p.header.cols * 4)))

/- Adds row `r` into `out`, which must be as wide as the table: the
row's bytes, four to a value, are added in for as long as both last.
Taking bytes that run backwards or past the end of the file panics. -/
def accumulateRow
    (p : ParameterTable)
    (r : Nat)
    (out : List F32) :
    Except Halt (List F32) := do
  if r ≥ p.header.rows then
    throw (.error (.model ("token " ++ toString r ++ " outside vocabulary of " ++
      toString p.header.rows)))
  if out.length ≠ p.header.cols then
    throw (.error (.model ("output has " ++ toString out.length ++ " columns, table has " ++
      toString p.header.cols)))
  let (start, stop) := p.rowSpan r
  if stop < start ∨ p.bytes.size < stop then throw .abort
  return out.zipIdx.map fun (o, j) => if 4 * j + 4 ≤ stop - start then o + p.valueAt (start + 4 * j) else o

/- A copy of row `r`, added into a fresh buffer of zeros; a buffer
wider than the largest allocation panics before the row is looked at. -/
def row
    (p : ParameterTable)
    (r : Nat) :
    Except Halt (List F32) := do
  if p.header.cols > maxSingles then throw .abort
  p.accumulateRow r (List.replicate p.header.cols 0)

/- The file holds every value the header announces, counted exactly,
and is no larger than an object in memory can be. -/
def Full (p : ParameterTable) : Prop :=
  p.dataOffset + p.header.rows * p.header.cols * 4 ≤ p.bytes.size ∧ p.bytes.size ≤ maxObjectBytes

instance (p : ParameterTable) : Decidable p.Full := inferInstanceAs (Decidable (_ ∧ _))

/- In a full table every row lies inside the file, so no word wraps
on the way to it. -/
theorem rowSpan_of_full
    {p : ParameterTable}
    (hFull : p.Full)
    {r : Nat}
    (hr : r < p.header.rows) :
    p.rowSpan r = (p.dataOffset + r * p.header.cols * 4,
        p.dataOffset + r * p.header.cols * 4 + p.header.cols * 4) ∧
      p.dataOffset + r * p.header.cols * 4 + p.header.cols * 4 ≤ p.bytes.size := by
  obtain ⟨hFits, hSmall⟩ := hFull
  have hRow : (r + 1) * p.header.cols * 4 ≤ p.header.rows * p.header.cols * 4 :=
    Nat.mul_le_mul_right _ (Nat.mul_le_mul_right _ hr)
  have hWord : p.bytes.size < wordModulus := by unfold maxObjectBytes at hSmall; unfold wordModulus; omega
  have hStep : (r + 1) * p.header.cols * 4 = r * p.header.cols * 4 + p.header.cols * 4 := by
    rw [Nat.succ_mul, Nat.add_mul]
  refine ⟨?_, by omega⟩
  simp only [rowSpan, toWord, Prod.mk.injEq]
  rw [Nat.mod_eq_of_lt (a := r * _ * 4) (by omega), Nat.mod_eq_of_lt (by omega),
    Nat.mod_eq_of_lt (a := p.header.cols * 4) (by omega), Nat.mod_eq_of_lt (by omega)]
  omega

/- A row in range, read into a buffer of the table's width through a
span that runs forward inside the file. -/
theorem accumulateRow_of_span
    {p : ParameterTable}
    {r start stop : Nat}
    {out : List F32}
    (hr : r < p.header.rows)
    (hOut : out.length = p.header.cols)
    (hSpan : p.rowSpan r = (start, stop))
    (hForward : start ≤ stop)
    (hInside : stop ≤ p.bytes.size) :
    p.accumulateRow r out = .ok (out.zipIdx.map fun (o, j) =>
      if 4 * j + 4 ≤ stop - start then o + p.valueAt (start + 4 * j) else o) := by
  have hInRange : ¬(stop < start ∨ p.bytes.size < stop) := by omega
  simp [accumulateRow, Nat.not_le.mpr hr, hOut, hSpan, hInRange, pure, Except.pure]

/- Reading a full table never panics. -/
theorem accumulateRow_ne_abort
    {p : ParameterTable}
    (hFull : p.Full)
    (r : Nat)
    (out : List F32) :
    p.accumulateRow r out ≠ .error .abort := by
  by_cases hr : r ≥ p.header.rows
  · simp [accumulateRow, hr, bind, Except.bind, throw, throwThe, MonadExceptOf.throw]
  by_cases hOut : out.length = p.header.cols
  · obtain ⟨hSpan, hEnd⟩ := rowSpan_of_full hFull (Nat.lt_of_not_le hr)
    rw [accumulateRow_of_span (Nat.lt_of_not_le hr) hOut hSpan (by omega) hEnd]
    simp
  · simp [accumulateRow, hr, hOut, bind, Except.bind, throw, throwThe, MonadExceptOf.throw]

/- The table as its debugging text shows it. -/
def debugText (p : ParameterTable) : String :=
  "SharedParameters \x7b header: " ++ p.header.debugText ++ ", data_offset: " ++
    toString p.dataOffset ++ " \x7d"

end ParameterTable

/- An opened table whose file holds every value its header announces. -/
structure FullTable extends ParameterTable where
  full : toParameterTable.Full

namespace ParameterTable

/- The table as a full one, when it is. -/
def full? (p : ParameterTable) : Option FullTable :=
  if h : p.Full then some ⟨p, h⟩ else none

end ParameterTable

namespace FullTable

/- Adds row `r` into `out`, which must be as wide as the table. -/
def accumulateRow
    (t : FullTable)
    (r : Nat)
    (out : List F32) :
    Outcome (List F32) :=
  match h : t.toParameterTable.accumulateRow r out with
  | .ok v => .ok v
  | .error (.error e) => .error e
  | .error .abort => absurd h (ParameterTable.accumulateRow_ne_abort t.full r out)

end FullTable

end NeuronFleet
