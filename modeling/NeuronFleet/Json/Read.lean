import NeuronFleet.Schema
import NeuronFleet.Number.Reading

/-
  Reading JSON text, checked against a schema as it is read.

  The reader walks the bytes of the text once, front to back, and
  stops at the first problem, whether of syntax or of shape.  A
  problem found while reading a value is reported where the reader
  stands at that moment: a byte that cannot start or continue a value
  is counted in the column, a value of the wrong shape is reported
  after the value's last byte (or before a bracket that opens it), a
  missing field after the closing brace of its object.  Columns count
  bytes of the line, starting at one for its first byte; a problem
  found on an empty prefix is at column 0.

  Numbers: an integer without sign is unsigned, with a minus sign
  signed (`-0` and integers below -2^63 become doubles); digits past
  the first 64-bit significand only count toward the exponent; the
  significand is rounded to a double and then multiplied or divided,
  once, by the double nearest to a power of ten (repeatedly by `1e308`
  below `1e-308`).  Objects and arrays may nest 127 deep.

  Main definitions:
    * `Json.ReadError`, `Json.ReadError.message`
    * `Json.Reader` : the reading monad and its primitives
    * `Json.readAs` : a whole text against a schema
    * `Json.parse` : a whole text as a value
-/

namespace NeuronFleet

namespace Json

------------------------------------------------------------
-- Errors
------------------------------------------------------------

/- What went wrong while reading JSON text. -/
inductive ErrorCode where
  | mismatch (m : Schema.Mismatch)
  | eofWhileParsingList
  | eofWhileParsingObject
  | eofWhileParsingString
  | eofWhileParsingValue
  | expectedColon
  | expectedListCommaOrEnd
  | expectedObjectCommaOrEnd
  | expectedSomeIdent
  | expectedSomeValue
  | invalidEscape
  | invalidNumber
  | numberOutOfRange
  | invalidUnicodeCodePoint
  | controlCharacterWhileParsingString
  | keyMustBeAString
  | loneLeadingSurrogateInHexEscape
  | trailingComma
  | trailingCharacters
  | unexpectedEndOfHexEscape
  | recursionLimitExceeded

/- How JSON messages name what they found: `null`, and floating values
in the document layout. -/
def dialect : Schema.Dialect :=
  { unitText := "null", floatText := fun x => doubleLayout.writeF64 x }

/- The text of an error code. -/
def ErrorCode.text : ErrorCode → String
  | .mismatch m => m.message dialect
  | .eofWhileParsingList => "EOF while parsing a list"
  | .eofWhileParsingObject => "EOF while parsing an object"
  | .eofWhileParsingString => "EOF while parsing a string"
  | .eofWhileParsingValue => "EOF while parsing a value"
  | .expectedColon => "expected `:`"
  | .expectedListCommaOrEnd => "expected `,` or `]`"
  | .expectedObjectCommaOrEnd => "expected `,` or `\x7d`"
  | .expectedSomeIdent => "expected ident"
  | .expectedSomeValue => "expected value"
  | .invalidEscape => "invalid escape"
  | .invalidNumber => "invalid number"
  | .numberOutOfRange => "number out of range"
  | .invalidUnicodeCodePoint => "invalid unicode code point"
  | .controlCharacterWhileParsingString =>
    "control character (\\u0000-\\u001F) found while parsing a string"
  | .keyMustBeAString => "key must be a string"
  | .loneLeadingSurrogateInHexEscape => "lone leading surrogate in hex escape"
  | .trailingComma => "trailing comma"
  | .trailingCharacters => "trailing characters"
  | .unexpectedEndOfHexEscape => "unexpected end of hex escape"
  | .recursionLimitExceeded => "recursion limit exceeded"

/- An error with its position; line `0` means no position. -/
structure ReadError where
  code : ErrorCode
  line : Nat
  column : Nat

/- The text of an error: the code's text, then its position if it has
one. -/
def ReadError.message (e : ReadError) : String :=
  if e.line = 0 then e.code.text
  else e.code.text ++ " at line " ++ toString e.line ++ " column " ++ toString e.column

/- An error without a position, as a shape check reports it. -/
def ReadError.ofMismatch (m : Schema.Mismatch) : ReadError := ⟨.mismatch m, 0, 0⟩

------------------------------------------------------------
-- The reader
------------------------------------------------------------

/- Reading bytes from an index, failing with a positioned error; the
index reached stays visible after a failure. -/
abbrev Reader := ReaderT ByteArray (ExceptT ReadError (StateM Nat))

/- Line and column of a byte index. -/
def positionOf
    (bytes : ByteArray)
    (i : Nat) :
    Nat × Nat :=
  let before := (bytes.extract 0 i).toList
  let lineStart := before.length - (before.reverse.takeWhile (· != 10)).length
  (1 + (before.take lineStart).count 10, i - lineStart)

namespace Reader

def peek : Reader (Option UInt8) := do
  let b ← read
  let i ← get
  return b[i]?

def eat : Reader Unit := modify (· + 1)

def next : Reader (Option UInt8) := do
  let c ← peek
  if c.isSome then eat
  return c

/- Fails with the position of the bytes read so far. -/
def fail (code : ErrorCode) : Reader α := do
  let b ← read
  let (line, column) := positionOf b (← get)
  throw ⟨code, line, column⟩

/- Fails with the position of the byte just looked at. -/
def failAtPeek (code : ErrorCode) : Reader α := do
  let b ← read
  let (line, column) := positionOf b (Nat.min b.size ((← get) + 1))
  throw ⟨code, line, column⟩

/- Gives an error without position the position of the bytes read. -/
def fixPosition (e : ReadError) : Reader ReadError := do
  if e.line = 0 then
    let b ← read
    let (line, column) := positionOf b (← get)
    return { e with line, column }
  else return e

/- Runs a step; an error without position gets the current one. -/
def positioned (step : Reader α) : Reader α :=
  tryCatch step fun e => do throw (← fixPosition e)

/- Fails with a shape mismatch. -/
def mismatch (m : Schema.Mismatch) : Reader α := throw (ReadError.ofMismatch m)

def isBlank (c : UInt8) : Bool := c == 32 || c == 10 || c == 9 || c == 13

/- Index of the first non-blank byte at or after `i`. -/
def skipBlanks
    (b : ByteArray)
    (i : Nat) :
    Nat :=
  if h : i < b.size then
    if isBlank b[i] then skipBlanks b (i + 1) else i
  else i
termination_by b.size - i

/- Skips blanks and looks at the next byte. -/
def peekPastBlanks : Reader (Option UInt8) := do
  let b ← read
  set (skipBlanks b (← get))
  peek

def isDigit (c : UInt8) : Bool := 48 ≤ c && c ≤ 57

/- Reads the rest of a literal word such as the `ull` of `null`. -/
def expectWord (rest : List UInt8) : Reader Unit := do
  for c in rest do
    match ← next with
    | none => fail .eofWhileParsingValue
    | some d => if d != c then fail .expectedSomeIdent

end Reader

------------------------------------------------------------
-- Numbers
------------------------------------------------------------

/- A number as read: unsigned, negative, or floating. -/
inductive Number where
  | unsigned (n : Nat)
  | signed (n : Int)
  | float (x : F64)

/- The value of a number, as a JSON value. -/
def Number.toJson : Number → Json
  | .unsigned n => .int n
  | .signed n => .int n
  | .float x => .double x

/- What a shape check reports on a number. -/
def Number.found : Number → Schema.Found
  | .unsigned n => .unsigned n
  | .signed n => .signed n
  | .float x => .float x

def u64Max : Nat := 18446744073709551615
def i32Max : Int := 2147483647

/- `10 ^ k` rounded to a double. -/
def powerOfTen (k : Nat) : F64 := F64.ofDecimal false 1 k

namespace Reader

/- The double of a significand and a decimal exponent: the significand
rounded to a double, then scaled once by a power of ten, or by `1e308`
steps below `1e-308`.  A product beyond the largest double is out of
range. -/
def doubleOfParts
    (positive : Bool)
    (significand : Nat)
    (exponent : Int) :
    Reader F64 := do
  let rec scale : Nat → F64 → Int → Reader F64
    | 0, f, _ => return f
    | fuel + 1, f, e =>
      if e.natAbs ≤ 308 then
        if e ≥ 0 then
          let g := f * powerOfTen e.toNat
          if !g.isFinite then fail .numberOutOfRange else return g
        else return f / powerOfTen e.natAbs
      else if f == 0 then return f
      else if e ≥ 0 then fail .numberOutOfRange
      else scale fuel (f / powerOfTen 308) (e + 308)
  let f ← scale 16 (F64.ofNat significand) exponent
  return if positive then f else -f

/- Skips a run of digits. -/
def skipDigits : Reader Unit := do
  let b ← read
  for _ in [0:b.size] do
    match ← peek with
    | some c => if isDigit c then eat else return
    | none => return

/- After an exponent too large for 32 bits: out of range upwards for a
non-zero significand, otherwise zero. -/
def exponentOverflow (positive zeroSignificand positiveExp : Bool) : Reader F64 := do
  if !zeroSignificand && positiveExp then fail .numberOutOfRange
  skipDigits
  return if positive then F64.zero else -F64.zero

/- Reads an exponent part, starting at its `e`. -/
def exponentPart
    (positive : Bool)
    (significand : Nat)
    (start : Int) :
    Reader F64 := do
  eat
  let positiveExp ← match ← peek with
    | some 43 => do eat; pure true
    | some 45 => do eat; pure false
    | _ => pure true
  match ← next with
  | none => fail .eofWhileParsingValue
  | some c =>
    if !isDigit c then fail .invalidNumber
    let b ← read
    let mut exp : Int := (c - 48).toNat
    for _ in [0:b.size] do
      match ← peek with
      | some d =>
        if isDigit d then
          eat
          let e := exp * 10 + (d - 48).toNat
          if e > i32Max then return ← exponentOverflow positive (significand == 0) positiveExp
          exp := e
        else break
      | none => break
    -- saturating 32-bit exponent arithmetic
    let sum := if positiveExp then start + exp else start - exp
    let final := Max.max (-2147483648) (Min.min i32Max sum)
    doubleOfParts positive significand final

/- Reads a fraction part, starting at its point. -/
def fractionPart
    (positive : Bool)
    (significand : Nat)
    (before : Int) :
    Reader F64 := do
  eat
  let b ← read
  let mut sig := significand
  let mut after : Int := 0
  let mut overflowed := false
  for _ in [0:b.size] do
    match ← peek with
    | some d =>
      if isDigit d then
        let s := sig * 10 + (d - 48).toNat
        if s > u64Max then
          overflowed := true
          break
        eat
        sig := s
        after := after - 1
      else break
    | none => break
  if overflowed then
    skipDigits
    match ← peek with
    | some 101 | some 69 => exponentPart positive sig (before + after)
    | _ => doubleOfParts positive sig (before + after)
  else
    if after == 0 then
      match ← peek with
      | some _ => failAtPeek .invalidNumber
      | none => failAtPeek .eofWhileParsingValue
    match ← peek with
    | some 101 | some 69 => exponentPart positive sig (before + after)
    | _ => doubleOfParts positive sig (before + after)

/- After an integer part: a fraction, an exponent, or the integer itself. -/
def afterInteger
    (positive : Bool)
    (significand : Nat) :
    Reader Number := do
  match ← peek with
  | some 46 => return .float (← fractionPart positive significand 0)
  | some 101 | some 69 => return .float (← exponentPart positive significand 0)
  | _ =>
    if positive then return .unsigned significand
    else if significand = 0 then return .float (-F64.zero)
    else if significand ≤ 9223372036854775808 then return .signed (-(significand : Int))
    else return .float (-(F64.ofNat significand))

/- An integer part longer than 64 bits: the extra digits only raise the
exponent. -/
def longInteger
    (positive : Bool)
    (significand : Nat) :
    Reader F64 := do
  let b ← read
  let mut exp : Int := 0
  for _ in [0:b.size] do
    match ← peek with
    | some d => if isDigit d then eat; exp := exp + 1 else break
    | none => break
  match ← peek with
  | some 46 => fractionPart positive significand exp
  | some 101 | some 69 => exponentPart positive significand exp
  | _ => doubleOfParts positive significand exp

/- Reads the digits of an integer after its first, onto the significand
`sig`, and what follows them; `fuel` bounds the digits read. -/
def digitsFrom
    (positive : Bool)
    (sig : Nat) :
    Nat → Reader Number
  | 0 => afterInteger positive sig
  | fuel + 1 => do
    match ← peek with
    | some d =>
      if isDigit d then
        let s := sig * 10 + (d - 48).toNat
        if s > u64Max then return .float (← longInteger positive sig)
        eat
        digitsFrom positive s fuel
      else afterInteger positive sig
    | none => afterInteger positive sig

/- Reads a number after its optional minus sign. -/
def integer (positive : Bool) : Reader Number := do
  match ← next with
  | none => fail .eofWhileParsingValue
  | some 48 =>
    match ← peek with
    | some d => if isDigit d then failAtPeek .invalidNumber else afterInteger positive 0
    | none => afterInteger positive 0
  | some c =>
    if !isDigit c then fail .invalidNumber
    digitsFrom positive (c - 48).toNat (← read).size

/- Reads a number, sign included. -/
def number : Reader Number := do
  match ← peek with
  | some 45 => eat; integer false
  | _ => integer true

------------------------------------------------------------
-- Strings
------------------------------------------------------------

/- Value of a hexadecimal digit. -/
def hexValue (c : UInt8) : Option Nat :=
  if 48 ≤ c && c ≤ 57 then some (c - 48).toNat
  else if 97 ≤ c && c ≤ 102 then some (c - 87).toNat
  else if 65 ≤ c && c ≤ 70 then some (c - 55).toNat
  else none

/- Reads the four hexadecimal digits of a `\u` escape. -/
def hexEscape : Reader Nat := do
  let b ← read
  let i ← get
  if i + 4 ≤ b.size then
    set (i + 4)
    match hexValue b[i]!, hexValue b[i+1]!, hexValue b[i+2]!, hexValue b[i+3]! with
    | some a, some c, some d, some e => return ((a * 16 + c) * 16 + d) * 16 + e
    | _, _, _, _ => fail .invalidEscape
  else
    set b.size
    fail .eofWhileParsingString

/- The UTF-8 bytes of a code point. -/
def utf8 (n : Nat) : List UInt8 := (String.singleton (Char.ofNat n)).toUTF8.toList

/- Reads a `\u` escape (the `u` already read), pairing surrogates. -/
def unicodeEscape : Reader (List UInt8) := do
  let n ← hexEscape
  if 0xDC00 ≤ n && n ≤ 0xDFFF then fail .loneLeadingSurrogateInHexEscape
  if n < 0xD800 || n > 0xDBFF then return utf8 n
  match ← peek with
  | some 92 => eat
  | some _ => eat; fail .unexpectedEndOfHexEscape
  | none => fail .eofWhileParsingString
  match ← peek with
  | some 117 => eat
  | some _ => eat; fail .unexpectedEndOfHexEscape
  | none => fail .eofWhileParsingString
  let m ← hexEscape
  if m < 0xDC00 || m > 0xDFFF then fail .loneLeadingSurrogateInHexEscape
  return utf8 ((((n - 0xD800) * 1024) ||| (m - 0xDC00)) + 0x10000)

/- Reads an escape after its backslash. -/
def escape : Reader (List UInt8) := do
  match ← next with
  | none => fail .eofWhileParsingString
  | some c =>
    if c == 34 then return [34]
    else if c == 92 then return [92]
    else if c == 47 then return [47]
    else if c == 98 then return [8]
    else if c == 102 then return [12]
    else if c == 110 then return [10]
    else if c == 114 then return [13]
    else if c == 116 then return [9]
    else if c == 117 then unicodeEscape
    else fail .invalidEscape

/- Reads the rest of a string into `out`, up to its closing quote, one
byte or escape a round; `fuel` bounds the rounds. -/
def stringFrom (out : Array UInt8) : Nat → Reader String
  | 0 => fail .eofWhileParsingString
  | fuel + 1 => do
    match ← peek with
    | none => fail .eofWhileParsingString
    | some c =>
      if c == 34 then
        match String.fromUTF8? (ByteArray.mk out) with
        | some s => eat; return s
        | none => fail .invalidUnicodeCodePoint
      else
        eat
        if c == 92 then stringFrom (out ++ (← escape).toArray) fuel
        else if c < 32 then fail .controlCharacterWhileParsingString
        else stringFrom (out.push c) fuel

/- Reads a string after its opening quote.  Bytes that are not UTF-8
are reported at the closing quote. -/
def string : Reader String := do
  stringFrom #[] ((← read).size + 1)

------------------------------------------------------------
-- Skipping values
------------------------------------------------------------

/- Skips the rest of a string after its opening quote: escapes must be
well formed, but `\u` escapes are not paired and the bytes are not
checked to be UTF-8.  A control character is reported before it. -/
def skipString : Reader Unit := do
  let b ← read
  for _ in [0:b.size + 1] do
    match ← peek with
    | none => fail .eofWhileParsingString
    | some c =>
      if c == 34 then eat; return
      else if c == 92 then
        eat
        match ← next with
        | none => fail .eofWhileParsingString
        | some e =>
          if e == 117 then discard hexEscape
          else if !(e == 34 || e == 92 || e == 47 || e == 98 || e == 102 || e == 110 ||
              e == 114 || e == 116) then fail .invalidEscape
      else if c < 32 then fail .controlCharacterWhileParsingString
      else eat
  fail .eofWhileParsingString

/- Skips an exponent part, starting at its `e`. -/
def skipExponent : Reader Unit := do
  eat
  match ← peek with
  | some 43 | some 45 => eat
  | _ => pure ()
  match ← peek with
  | some c => if isDigit c then eat; skipDigits else eat; fail .invalidNumber
  | none => fail .invalidNumber

/- Skips a number after its optional minus sign, checking its form but
not its size. -/
def skipNumber : Reader Unit := do
  match ← peek with
  | some 48 =>
    eat
    if let some d := ← peek then
      if isDigit d then failAtPeek .invalidNumber
  | some c => if isDigit c then eat; skipDigits else eat; fail .invalidNumber
  | none => fail .invalidNumber
  match ← peek with
  | some 46 =>
    eat
    match ← peek with
    | some d => if isDigit d then skipDigits else failAtPeek .invalidNumber
    | none => failAtPeek .invalidNumber
    match ← peek with
    | some 101 | some 69 => skipExponent
    | _ => pure ()
  | some 101 | some 69 => skipExponent
  | _ => pure ()

/- Skips a value nobody asked for.  Brackets are matched on a stack of
their own, so nesting has no limit; numbers are checked for form only
and strings by `skipString`. -/
def skipValue : Reader Unit := do
  let b ← read
  -- the open brackets, innermost first
  let mut frames : List UInt8 := []
  for _ in [0:b.size + 1] do
    let opened ← match ← peekPastBlanks with
      | none => failAtPeek .eofWhileParsingValue
      | some 110 => do eat; expectWord [117, 108, 108]; pure none
      | some 116 => do eat; expectWord [114, 117, 101]; pure none
      | some 102 => do eat; expectWord [97, 108, 115, 101]; pure none
      | some 45 => do eat; skipNumber; pure none
      | some 34 => do eat; skipString; pure none
      | some 91 => do eat; pure (some 91)
      | some 123 => do eat; pure (some 123)
      | some c => if isDigit c then do skipNumber; pure none else failAtPeek .expectedSomeValue
    let mut acceptComma := true
    match opened with
    | some o =>
      frames := o :: frames
      acceptComma := false
    | none => if frames.isEmpty then return
    -- close what ends here, up to the next item
    for _ in [0:b.size + 1] do
      let frame := frames.headD 91
      match ← peekPastBlanks with
      | some 44 =>
        if acceptComma then eat; break
        else break
      | some 93 =>
        if frame == 91 then
          eat
          frames := frames.tail
          if frames.isEmpty then return
          acceptComma := true
        else if acceptComma then failAtPeek .expectedObjectCommaOrEnd
        else break
      | some 125 =>
        if frame == 123 then
          eat
          frames := frames.tail
          if frames.isEmpty then return
          acceptComma := true
        else if acceptComma then failAtPeek .expectedListCommaOrEnd
        else break
      | some _ =>
        if acceptComma then
          failAtPeek (if frame == 91 then .expectedListCommaOrEnd else .expectedObjectCommaOrEnd)
        else break
      | none => failAtPeek (if frame == 91 then .eofWhileParsingList else .eofWhileParsingObject)
    if frames.headD 91 == 123 then
      match ← peekPastBlanks with
      | some 34 => eat
      | some _ => failAtPeek .keyMustBeAString
      | none => failAtPeek .eofWhileParsingObject
      skipString
      match ← peekPastBlanks with
      | some 58 => eat
      | some _ => failAtPeek .expectedColon
      | none => failAtPeek .eofWhileParsingObject

------------------------------------------------------------
-- Values of the wrong shape
------------------------------------------------------------

/- Reads the value at hand only to say what it is, for a message that
it is not what was expected; a bracket is not read. -/
def wrongShape (expected : String) : Reader α := do
  let m : Schema.Found → ErrorCode := fun f => .mismatch (.invalidType f expected)
  match (← peek).getD 0 with
  | 110 => eat; expectWord [117, 108, 108]; fail (m .unit)
  | 116 => eat; expectWord [114, 117, 101]; fail (m (.bool true))
  | 102 => eat; expectWord [97, 108, 115, 101]; fail (m (.bool false))
  | 45 => eat; let n ← integer false; fail (m n.found)
  | 34 => eat; let s ← string; fail (m (.str s))
  | 91 => fail (m .seq)
  | 123 => fail (m .map)
  | c => if isDigit c then do let n ← integer true; fail (m n.found) else failAtPeek .expectedSomeValue

------------------------------------------------------------
-- Containers
------------------------------------------------------------

/- Enters a container, with `remaining` levels left inside it. -/
def enter (remaining : Nat) : Reader Unit := do
  if remaining = 0 then failAtPeek .recursionLimitExceeded
  eat

/- Closes an array: its bracket, or an error for what stands there. -/
def closeList : Reader Unit := do
  match ← peekPastBlanks with
  | some 93 => eat
  | some 44 =>
    eat
    match ← peekPastBlanks with
    | some 93 => failAtPeek .trailingComma
    | _ => failAtPeek .trailingCharacters
  | some _ => failAtPeek .trailingCharacters
  | none => failAtPeek .eofWhileParsingList

/- Closes an object: its brace, or an error for what stands there. -/
def closeObject : Reader Unit := do
  match ← peekPastBlanks with
  | some 125 => eat
  | some 44 => failAtPeek .trailingComma
  | some _ => failAtPeek .trailingCharacters
  | none => failAtPeek .eofWhileParsingObject

/- Before an array item: `true` if one follows, `false` at the closing
bracket (which is left for `closeList`). -/
def nextItem (first : Bool) : Reader Bool := do
  match ← peekPastBlanks with
  | none => failAtPeek .eofWhileParsingList
  | some 93 => return false
  | some c =>
    if first then return true
    if c != 44 then failAtPeek .expectedListCommaOrEnd
    eat
    match ← peekPastBlanks with
    | some 93 => failAtPeek .trailingComma
    | some _ => return true
    | none => failAtPeek .eofWhileParsingValue

/- Before an object member: its key, or `none` at the closing brace
(which is left for `closeObject`). -/
def nextKey (first : Bool) : Reader (Option String) := do
  let c ← match ← peekPastBlanks with
    | none => failAtPeek .eofWhileParsingObject
    | some 125 => return none
    | some c =>
      if first then pure (some c)
      else if c != 44 then failAtPeek .expectedObjectCommaOrEnd
      else do eat; peekPastBlanks
  match c with
  | some 34 => eat; return some (← string)
  | some 125 => failAtPeek .trailingComma
  | some _ => failAtPeek .keyMustBeAString
  | none => failAtPeek .eofWhileParsingValue

/- The colon between a key and its value. -/
def colon : Reader Unit := do
  match ← peekPastBlanks with
  | some 58 => eat
  | some _ => failAtPeek .expectedColon
  | none => failAtPeek .eofWhileParsingObject

------------------------------------------------------------
-- Any value
------------------------------------------------------------

/- Reads any value as written: object members in order, a repeated key
kept as often as it occurs. -/
def value : Nat → Reader Json
  | 0 => failAtPeek .recursionLimitExceeded
  | depth + 1 => positioned do
    match ← peekPastBlanks with
    | none => failAtPeek .eofWhileParsingValue
    | some 110 => eat; expectWord [117, 108, 108]; return .null
    | some 116 => eat; expectWord [114, 117, 101]; return .bool true
    | some 102 => eat; expectWord [97, 108, 115, 101]; return .bool false
    | some 34 => eat; return .str (← string)
    | some 91 =>
      enter depth
      let b ← read
      let mut items : Array Json := #[]
      let mut first := true
      for _ in [0:b.size] do
        if !(← nextItem first) then break
        first := false
        items := items.push (← value depth)
      closeList
      return .arr items.toList
    | some 123 =>
      enter depth
      let b ← read
      let mut members : Array (String × Json) := #[]
      let mut first := true
      for _ in [0:b.size] do
        match ← nextKey first with
        | none => break
        | some k =>
          first := false
          colon
          members := members.push (k, ← value depth)
      closeObject
      return .obj members.toList
    | some c =>
      if c == 45 || isDigit c then return (← number).toJson
      else failAtPeek .expectedSomeValue
termination_by d => d

end Reader

/- Members of an object with the last value of each key, sorted by key. -/
def keyedMembers (members : List (String × Json)) : List (String × Json) :=
  let last := members.foldl (fun acc (k, v) =>
    if acc.any (·.1 == k) then acc.map (fun e => if e.1 == k then (k, v) else e) else acc ++ [(k, v)]) []
  last.mergeSort fun a b => decide (a.1 ≤ b.1)

mutual

/- A value as a keyed document holds it: in every object the last value
of each key, members sorted by key. -/
def canonical : Json → Json
  | .arr items => .arr (canonicalItems items)
  | .obj members => .obj (keyedMembers (canonicalMembers members))
  | j => j

/- `canonical` on each item. -/
def canonicalItems : List Json → List Json
  | [] => []
  | x :: rest => canonical x :: canonicalItems rest

/- `canonical` on each member's value. -/
def canonicalMembers : List (String × Json) → List (String × Json)
  | [] => []
  | (k, v) :: rest => (k, canonical v) :: canonicalMembers rest

end

------------------------------------------------------------
-- Values against a schema
------------------------------------------------------------

/- The depth a document may nest to. -/
def maxDepth : Nat := 128

namespace Reader

/- The items of an array after its opening bracket, each read with
`inner`, one a round up to the closing bracket. -/
def listItems
    (inner : Schema → Reader Json)
    (item : Schema) :
    Nat → Array Json → Bool → Reader (Array Json)
  | 0, items, _ => return items
  | fuel + 1, items, first => do
    if !(← nextItem first) then return items
    let v ← inner item
    listItems inner item fuel (items.push v) false

/- The members of an object after its opening brace, read against a
record's fields one a round up to the closing brace: the value of each
field read with `inner`, unknown members skipped.  A field met twice
ends the reading with its error, the reader standing after the key. -/
def recordMembers
    (inner : Schema → Reader Json)
    (fields : List (String × Schema × Option Json)) :
    Nat → Array (Option Json) → Bool → Reader (Array (Option Json) × Except ReadError Unit)
  | 0, got, _ => return (got, .ok ())
  | fuel + 1, got, first => do
    match ← nextKey first with
    | none => return (got, .ok ())
    | some k =>
      match fields.findIdx? (·.1 == k) with
      | some i =>
        if (got[i]!).isSome then return (got, .error (ReadError.ofMismatch (.duplicateField k)))
        colon
        let v ← inner (fields[i]!).2.1
        recordMembers inner fields fuel (got.set! i (some v)) false
      | none =>
        colon
        skipValue
        recordMembers inner fields fuel got false

/- A record's members from the values read, fields from the `i`-th on:
each field's value, else its default, else null for an optional field;
the first field with none of these is missing. -/
def recordOut
    (got : Array (Option Json)) :
    Nat → List (String × Schema × Option Json) → Reader (List (String × Json))
  | _, [] => return []
  | i, (fname, s, dflt) :: rest => do
    let v ← match got[i]!, dflt, s with
      | some v, _, _ => pure v
      | none, some v, _ => pure v
      | none, none, .option _ => pure .null
      | none, none, _ => mismatch (.missingField fname)
    return (fname, v) :: (← recordOut got (i + 1) rest)

/- One level of `typed`: reads a value of the given shape, reading the
values nested inside it with `inner`; an optional value is read at the
same level. -/
def typedStep
    (depth : Nat)
    (inner : Schema → Reader Json)
    (schema : Schema) :
    Reader Json :=
  positioned do
    let c ← peekPastBlanks
    match schema with
    | .any => return canonical (← value (depth + 1))
    | .option item =>
      if c == some 110 then
        eat; expectWord [117, 108, 108]; return .null
      else typedStep depth inner item
    | .bool =>
      match c with
      | some 116 => eat; expectWord [114, 117, 101]; return .bool true
      | some 102 => eat; expectWord [97, 108, 115, 101]; return .bool false
      | none => failAtPeek .eofWhileParsingValue
      | _ => wrongShape schema.expecting
    | .unsigned name max =>
      match c with
      | none => failAtPeek .eofWhileParsingValue
      | some x =>
        if x == 45 || isDigit x then
          match ← number with
          | .unsigned n =>
            if n ≤ max then return .int n else mismatch (.invalidValue (.unsigned n) name)
          | .signed n => mismatch (.invalidValue (.signed n) name)
          | .float f => mismatch (.invalidType (.float f) name)
        else wrongShape schema.expecting
    | .single =>
      match c with
      | none => failAtPeek .eofWhileParsingValue
      | some x =>
        if x == 45 || isDigit x then
          match ← number with
          | .unsigned n => return .single (F64.ofNat n).toF32
          | .signed n => return .single (F64.ofInt n).toF32
          | .float f => return .single f.toF32
        else wrongShape schema.expecting
    | .string | .path =>
      match c with
      | some 34 => eat; return .str (← string)
      | none => failAtPeek .eofWhileParsingValue
      | _ => wrongShape schema.expecting
    | .choice _ variants =>
      match c with
      | some 34 =>
        eat
        let s ← string
        if variants.contains s then return .str s
        else mismatch (.unknownVariant s variants)
      | none => failAtPeek .eofWhileParsingValue
      | _ => wrongShape schema.expecting
    | .list item =>
      match c with
      | some 91 =>
        enter depth
        let items ← listItems inner item (← read).size #[] true
        closeList
        return .arr items.toList
      | none => failAtPeek .eofWhileParsingValue
      | _ => wrongShape schema.expecting
    | .record name fields =>
      match c with
      | some 123 =>
        enter depth
        let (got, result) ←
          recordMembers inner fields (← read).size (fields.toArray.map fun _ => none) true
        match result with
        | .error e =>
          -- the object is not closed: what follows the key is reported
          tryCatch closeObject fun _ => pure ()
          throw e
        | .ok () => pure ()
        closeObject
        return .obj (← recordOut got 0 fields)
      | some 91 =>
        enter depth
        let mut out : Array (String × Json) := #[]
        let mut first := true
        let mut more := true
        for (fname, s, dflt) in fields do
          if more then more ← nextItem first
          if more then
            first := false
            out := out.push (fname, ← inner s)
          else
            match dflt with
            | some v => out := out.push (fname, v)
            | none =>
              tryCatch closeList fun _ => pure ()
              mismatch (.invalidLength out.size
                ("struct " ++ name ++ " with " ++ toString fields.length ++ " elements"))
        closeList
        return .obj out.toList
      | none => failAtPeek .eofWhileParsingValue
      | _ => wrongShape schema.expecting
termination_by structural schema

/- Reads a value of the given shape.  Records read from objects (fields
in any order, unknown ones skipped, missing ones defaulted or
reported after the closing brace) or from arrays (fields in order, missing ones at the end
defaulted or reported). -/
def typed : Nat → Schema → Reader Json
  | 0, _ => failAtPeek .recursionLimitExceeded
  | depth + 1, schema => typedStep depth (typed depth) schema

/- After a value: only blanks may follow. -/
def finish : Reader Unit := do
  match ← peekPastBlanks with
  | some _ => failAtPeek .trailingCharacters
  | none => pure ()

end Reader

/- Reads a whole text against a schema. -/
def readBytesAs
    (schema : Schema)
    (bytes : ByteArray) :
    Except ReadError Json :=
  (((do let v ← Reader.typed maxDepth schema; Reader.finish; return v).run bytes).run.run 0).run.1

/- Reads a whole text against a schema. -/
def readAs
    (schema : Schema)
    (text : String) :
    Except ReadError Json :=
  readBytesAs schema text.toUTF8

/- Reads a whole text as a keyed value (see `canonical`). -/
def parse (text : String) : Except ReadError Json :=
  readAs .any text

/- Reads a whole text as written, after a first value check by `read`. -/
def readWith
    (step : Reader α)
    (text : String) :
    Except ReadError α :=
  (((do let v ← step; Reader.finish; return v).run text.toUTF8).run.run 0).run.1

end Json

end NeuronFleet
