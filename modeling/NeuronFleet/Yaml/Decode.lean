import NeuronFleet.Yaml.Document
import NeuronFleet.Schema
import NeuronFleet.Number.Reading
import NeuronFleet.Number.Layout

/-
  Reading the first document of a YAML text against a schema.

  Plain scalars are resolved the YAML 1.2 way: empty, `~` and `null`
  (in three spellings) are null; `true`/`false` in three spellings are
  booleans; decimal, `0x`, `0o` and `0b` integers with an optional sign
  are integers, except that a zero followed by more digits is text;
  decimal floats and `.inf`, `-.inf`, `.nan` are floats; everything
  else is text.  Quoted and block scalars are always text.

  Each shape of the schema takes its values this way:
    * a number or boolean only from a plain scalar of that kind, or
      from a literal block scalar tagged with that kind's core tag; an
      integer out of range is an invalid value, anything else an invalid
      type;
    * text from any scalar;
    * an optional value is absent for a null plain scalar;
    * a record from a mapping (or from an empty document or an empty
      plain scalar, as an empty mapping): a repeated field is refused,
      unknown fields are skipped, missing ones take their defaults;
    * a choice from a scalar naming a variant, or from a `!variant`
      tag on a null scalar; a tag naming no variant is reported at the
      value around the choice.

  An alias reads the node its anchor named, in its place.  Nested
  collections are limited to 128 levels.  A mismatch is reported with
  the path of the value (`neuron.sync_interval`) and the position
  where the value starts; a document that ended early in a syntax
  error reports that error unless a mismatch came first.

  Main definitions:
    * `Path`, `DecodeError`, `DecodeError.message`
    * `Yaml.decode`, `Yaml.readAs`
-/

namespace NeuronFleet

namespace Yaml

------------------------------------------------------------
-- Paths and errors
------------------------------------------------------------

/- Where a value sits in a document. -/
inductive Path where
  | root
  | seq (parent : Path) (index : Nat)
  | map (parent : Path) (key : String)
  | alias (parent : Path)
  | unknown (parent : Path)
  deriving Repr, Inhabited

/- `.` for the whole document, else keys joined by dots and indices in
brackets: `neuron.sync_interval`, `peers[2]`. -/
def Path.render : Path → String
  | .root => "."
  | .seq p i => p.render ++ "[" ++ toString i ++ "]"
  | .map p k => (match p with
      | .root => ""
      | _ => p.render ++ ".") ++ k
  | .alias p => p.render
  | .unknown p => (match p with
      | .root => ""
      | _ => p.render ++ ".") ++ "?"

/- Why a document does not read as the expected value. -/
inductive DecodeError where
  -- A mismatch, with the position and path of the value once known
  | mismatch (text : String) (place : Option (Mark × String))
  | load (e : LoadError)
  | endOfStream
  | moreThanOneDocument
  | recursionLimit (mark : Mark)
  | repetitionLimit
  deriving Repr, Inhabited

/- The text of a decoding error: `path: message at line L column C`,
the path left out for the whole document and the position at its
start. -/
def DecodeError.message : DecodeError → String
  | .mismatch t none => t
  | .mismatch t (some (m, p)) => (if p == "." then "" else p ++ ": ") ++ t ++ m.suffix
  | .load e => e.message
  | .endOfStream => "EOF while parsing a value"
  | .moreThanOneDocument =>
    "deserializing from YAML containing more than one document is not supported"
  | .recursionLimit m => "recursion limit exceeded" ++ m.suffix
  | .repetitionLimit => "repetition limit exceeded"

/- Gives a mismatch without a place the given one. -/
def DecodeError.place
    (m : Mark)
    (p : Path) :
    DecodeError → DecodeError
  | .mismatch t none => .mismatch t (some (m, p.render))
  | e => e

------------------------------------------------------------
-- Scalars
------------------------------------------------------------

namespace Scalar

def boolTag : String := "tag:yaml.org,2002:bool"
def intTag : String := "tag:yaml.org,2002:int"
def floatTag : String := "tag:yaml.org,2002:float"
def nullTag : String := "tag:yaml.org,2002:null"

def isNull (s : String) : Bool := s == "null" || s == "Null" || s == "NULL" || s == "~"

def parseBool (s : String) : Option Bool :=
  if s == "true" || s == "True" || s == "TRUE" then some true
  else if s == "false" || s == "False" || s == "FALSE" then some false
  else none

/- A zero followed by more digits (after an optional sign): text in
YAML 1.2, not an octal number. -/
def digitsButNotNumber (s : String) : Bool :=
  let cs := match s.toList with
    | '-' :: r | '+' :: r => r
    | r => r
  match cs with
  | '0' :: d :: ds => (d :: ds).all Char.isDigit
  | _ => false

/- The value of a non-empty run of digits in a radix. -/
def digitsValue
    (radix : Nat)
    (cs : List Char) :
    Option Nat :=
  if cs.isEmpty then none
  else cs.foldlM (fun acc c => do
    let d ← Chars.hexValue? c
    if d < radix then some (radix * acc + d) else none) 0

/- A natural number below `2 ^ bits` in the given radix. -/
def natBelow
    (bits radix : Nat)
    (cs : List Char) :
    Option Nat := do
  let v ← digitsValue radix cs
  if v < Nat.pow 2 bits then some v else none

/- An integer of `bits` bits in the given radix, with an optional sign. -/
def intOfBits
    (bits radix : Nat)
    (cs : List Char) :
    Option Int := do
  let (neg, ds) := match cs with
    | '-' :: r => (true, r)
    | '+' :: r => (false, r)
    | r => (false, r)
  let v ← digitsValue radix ds
  let i : Int := if neg then -(v : Int) else v
  if -Int.pow 2 (bits - 1) ≤ i && i < Int.pow 2 (bits - 1) then some i else none

/- An unsigned integer of `bits` bits: `+` allowed once, then a radix
prefix or decimal digits. -/
def parseUnsigned
    (bits : Nat)
    (s : String) :
    Option Nat :=
  let cs := s.toList
  let body := match cs with
    | '+' :: r => r
    | r => r
  let signed (r : List Char) := match r with
    | '+' :: _ | '-' :: _ => true
    | _ => false
  let prefixed (p : Char) (radix : Nat) : Option (Option Nat) :=
    match body with
    | '0' :: c :: r => if c == p then (if signed r then some none else (natBelow bits radix r).map some)
                       else none
    | _ => none
  match prefixed 'x' 16 with
  | some none => none
  | some (some n) => some n
  | none => match prefixed 'o' 8 with
    | some none => none
    | some (some n) => some n
    | none => match prefixed 'b' 2 with
      | some none => none
      | some (some n) => some n
      | none =>
        if signed body || digitsButNotNumber s then none
        else natBelow bits 10 body

/- A negative (or signed decimal) integer of `bits` bits: `-0x`, `-0o`,
`-0b` prefixes or signed decimal digits. -/
def parseNegative
    (bits : Nat)
    (s : String) :
    Option Int :=
  let radixed (p : Char) (radix : Nat) : Option Int :=
    match s.toList with
    | '-' :: '0' :: c :: r => if c == p then intOfBits bits radix ('-' :: r) else none
    | _ => none
  match radixed 'x' 16 with
  | some i => some i
  | none => match radixed 'o' 8 with
    | some i => some i
    | none => match radixed 'b' 2 with
      | some i => some i
      | none => if digitsButNotNumber s then none else intOfBits bits 10 s.toList

/- A float: `.inf`, `-.inf`, `.nan` in three spellings, or a finite
decimal with an optional single sign. -/
def parseFloat (s : String) : Option F64 :=
  let unsigned? : Option String := match s.toList with
    | '+' :: '+' :: _ | '+' :: '-' :: _ => none
    | '+' :: r => some (String.ofList r)
    | _ => some s
  match unsigned? with
  | none => none
  | some u =>
    if u == ".inf" || u == ".Inf" || u == ".INF" then some F64.infinity
    else if s == "-.inf" || s == "-.Inf" || s == "-.INF" then some F64.negInfinity
    else if s == ".nan" || s == ".NaN" || s == ".NAN" then some F64.nan
    else match Decimal.readLiteral u with
      | some lit =>
        let x := F64.ofLiteral lit
        if x.isFinite then some x else none
      | none => none

/- What an integer scalar is, tried as a 64-bit unsigned, a 64-bit
signed, then 128-bit numbers. -/
def integerFound (s : String) : Option Schema.Found :=
  match parseUnsigned 64 s with
  | some n => some (.unsigned n)
  | none => match parseNegative 64 s with
    | some i => some (.signed i)
    | none => match parseUnsigned 128 s with
      | some n => some (.wide n)
      | none => (parseNegative 128 s).map .wide

/- What a plain, untagged scalar is. -/
def untagged (s : String) : Schema.Found :=
  if s.isEmpty || isNull s then .unit
  else match parseBool s with
    | some b => .bool b
    | none => match integerFound s with
      | some f => f
      | none =>
        if digitsButNotNumber s then .str s
        else match parseFloat s with
          | some x => .float x
          | none => .str s

/- The mismatch of a scalar found where something else was expected:
an invalid type naming what the scalar is, or, for a scalar tagged as
a boolean, integer, float or null that is none, an invalid value. -/
def mismatch
    (text : String)
    (style : ScalarStyle)
    (tag : Option String)
    (expected : String) :
    Schema.Mismatch :=
  match tag with
  | some t =>
    if t == boolTag then
      match parseBool text with
      | some b => .invalidType (.bool b) expected
      | none => .invalidValue (.str text) "a boolean"
    else if t == intTag then
      match integerFound text with
      | some f => .invalidType f expected
      | none => .invalidValue (.str text) "an integer"
    else if t == floatTag then
      match parseFloat text with
      | some x => .invalidType (.float x) expected
      | none => .invalidValue (.str text) "a float"
    else if t == nullTag then
      if isNull text then .invalidType .unit expected else .invalidValue (.str text) "null"
    else if t.startsWith "!" && style == .plain then .invalidType (untagged text) expected
    else .invalidType (.str text) expected
  | none =>
    if style == .plain then .invalidType (untagged text) expected
    else .invalidType (.str text) expected

/- The variant a local tag `!name` names. -/
def localTag : Option String → Option String
  | some t =>
    if t.startsWith "!" then some (if t.length > 1 then (t.drop 1).toString else t) else none
  | none => none

/- Whether a scalar is read as a number or boolean of the type whose
core tag is given: a plain scalar always, a literal block scalar when
it carries that tag. -/
def readsAs
    (coreTag : String)
    (style : ScalarStyle)
    (tag : Option String) :
    Bool :=
  style == .plain || (style == .literal && tag == some coreTag)

/- Whether a scalar reads as null where a unit value is expected. -/
def isUnit
    (text : String)
    (style : ScalarStyle) :
    Bool :=
  style == .plain && (text.isEmpty || isNull text)

end Scalar

/- How numbers are shown in messages: all digits, no exponent, and a
`.0` on integral values. -/
def messageLayout : Decimal.Layout :=
  { positionalFrom := -400, positionalTo := 400, pointZero := true,
    positiveExponentMark := "e", negativeExponentMark := "e-", pointZeroInExponent := false,
    nanText := "NaN", infinityText := "inf", negInfinityText := "-inf", zeroText := "0.0",
    signedZero := true }

/- How YAML messages name what they found. -/
def dialect : Schema.Dialect := ⟨"unit value", messageLayout.writeF64⟩

------------------------------------------------------------
-- Decoding
------------------------------------------------------------

/- Where the reader is: the next item, and how many aliases it has
followed so far. -/
structure Cursor where
  pos : Nat
  jumps : Nat

/- Decoding steps over a document. -/
abbrev Decode := ReaderT Document (StateT Cursor (Except DecodeError))

/- The next item; running out of items is the document's own error,
or the end of the stream. -/
def peekItem : Decode (Item × Mark) := do
  let d ← read
  match d.items[(← get).pos]? with
  | some im => return im
  | none => throw (match d.error with
    | some e => .load e
    | none => .endOfStream)

def skipItem : Decode Unit := modify fun c => { c with pos := c.pos + 1 }

def nextItem : Decode (Item × Mark) := do
  let im ← peekItem
  skipItem
  return im

/- Reads at an alias's target and comes back; following more than a
hundred aliases per item is refused. -/
def jump
    (target : Nat)
    (step : Decode α) :
    Decode α := do
  let back := (← get).pos
  let jumps := (← get).jumps + 1
  if jumps > (← read).items.size * 100 then throw .repetitionLimit
  set ({ pos := target, jumps } : Cursor)
  let r ← step
  modify fun c => { c with pos := back }
  return r

/- Runs a step, giving a mismatch it raises this place. -/
def placed
    (m : Mark)
    (p : Path)
    (step : Decode α) :
    Decode α :=
  tryCatch step fun e => throw (e.place m p)

def mismatch (m : Schema.Mismatch) : Decode α := throw (.mismatch (m.message dialect) none)

/- The mismatch of an item found where something else was expected. -/
def invalidType
    (item : Item)
    (expected : String) :
    Decode α :=
  match item with
  | .scalar text style tag => mismatch (Scalar.mismatch text style tag expected)
  | .sequenceStart _ => mismatch (.invalidType .seq expected)
  | .mappingStart _ => mismatch (.invalidType .map expected)
  | _ => throw .endOfStream

/- Skips one node. -/
def skipNode : Decode Unit := do
  let mut open_ := 0
  for _ in [0:(← read).items.size + 1] do
    let (item, _) ← nextItem
    match item with
    | .sequenceStart _ | .mappingStart _ => open_ := open_ + 1
    | .sequenceEnd | .mappingEnd => open_ := open_ - 1
    | _ => pure ()
    if open_ == 0 then break

/- Counts the entries left in a mapping and steps past its end. -/
def finishMapping : Decode Nat := do
  let mut extra := 0
  for _ in [0:(← read).items.size + 1] do
    let (item, _) ← peekItem
    match item with
    | .mappingEnd =>
      skipItem
      break
    | _ =>
      skipNode
      skipNode
      extra := extra + 1
  return extra

/- The text of a key read as a string. -/
def keyText (expected : String) : Decode String := do
  let (item, _) ← nextItem
  match item with
  | .scalar text _ _ => return text
  | other => invalidType other expected

/- A record's value from the fields read: in the schema's order,
missing fields taking their defaults (absent for an optional field). -/
def completeRecord
    (fields : List (String × Schema × Option Json))
    (got : List (String × Json)) :
    Decode Json := do
  let members ← fields.mapM fun (k, s, d) =>
    match got.lookup k, d, s with
    | some v, _, _ => pure (k, v)
    | none, some v, _ => pure (k, v)
    | none, none, .option _ => pure (k, Json.null)
    | none, none, _ => mismatch (.missingField k)
  return .obj members

/- A scalar as a JSON value, resolved as a plain scalar when it is one. -/
def scalarJson
    (text : String)
    (style : ScalarStyle) :
    Json :=
  if style != .plain then .str text
  else match Scalar.untagged text with
    | .unit => .null
    | .bool b => .bool b
    | .unsigned n => .int n
    | .signed i => .int i
    | .wide i => .int i
    | .float x => .double x
    | _ => .str text

/- Reads a value of the schema at `path`, with `depth` more levels of
nesting allowed and `fuel` bounding the reading (aliases may lead back
to the same schema). -/
def decode : Nat → Schema → Path → Nat → Decode Json
  | 0, _, _, _ => throw .repetitionLimit
  | fuel + 1, schema, path, depth => do
    match schema with
    | .option inner =>
      let (item, _) ← peekItem
      match item with
      | .alias target =>
        skipItem
        jump target (decode fuel schema (.alias path) depth)
      | .scalar text style tag =>
        if style != .plain then decode fuel inner path depth
        else if tag == some Scalar.nullTag then
          if Scalar.isNull text then
            skipItem
            return .null
          else mismatch (.invalidValue (.str text) "null")
        else if tag.isNone && (text.isEmpty || Scalar.isNull text) then
          skipItem
          return .null
        else decode fuel inner path depth
      | .void =>
        skipItem
        return .null
      | _ => decode fuel inner path depth
    | .bool | .unsigned .. | .single | .string | .path =>
      let (item, mark) ← nextItem
      placed mark path do
        match item, schema with
        | .alias target, _ => jump target (decode fuel schema (.alias path) depth)
        | .scalar text style tag, .bool =>
          match Scalar.readsAs Scalar.boolTag style tag, Scalar.parseBool text with
          | true, some b => return .bool b
          | _, _ => invalidType item schema.expecting
        | .scalar text style tag, .unsigned name max =>
          match Scalar.readsAs Scalar.intTag style tag, Scalar.parseUnsigned 64 text with
          | true, some n => if n ≤ max then return .int n else mismatch (.invalidValue (.unsigned n) name)
          | _, _ => invalidType item schema.expecting
        | .scalar text style tag, .single =>
          match Scalar.readsAs Scalar.floatTag style tag, Scalar.parseFloat text with
          | true, some x => return .single x.toF32
          | _, _ => invalidType item schema.expecting
        | .scalar text _ _, .string | .scalar text _ _, .path => return .str text
        | _, _ => invalidType item schema.expecting
    | .choice _ variants =>
      let (item, mark) ← peekItem
      match item with
      | .alias target =>
        skipItem
        placed mark path (jump target (decode fuel schema (.alias path) depth))
      | .scalar text style tag =>
        skipItem
        match Scalar.localTag tag with
        | some v =>
          -- an unknown tag is placed by the value around this one
          if !variants.contains v then mismatch (.unknownVariant v variants)
          placed mark path do
            if Scalar.isUnit text style then return .str v
            else mismatch (.invalidValue (.str text) "null")
        | none =>
          placed mark path do
            if variants.contains text then return .str text
            else mismatch (.unknownVariant text variants)
      | .mappingStart tag | .sequenceStart tag =>
        let found : Schema.Found := match item with
          | .mappingStart _ => .map
          | _ => .seq
        match Scalar.localTag tag with
        | some v =>
          if !variants.contains v then mismatch (.unknownVariant v variants)
          placed mark path (mismatch (.invalidType found "unit"))
        | none => placed mark path (mismatch (.invalidType found "a YAML tag starting with '!'"))
      | _ => throw .endOfStream
    | .record name fields =>
      let (item, mark) ← nextItem
      placed mark path do
        match item with
        | .alias target => jump target (decode fuel schema (.alias path) depth)
        | .mappingStart _ =>
          if depth == 0 then throw (.recursionLimit mark)
          let mut got : List (String × Json) := []
          for _ in [0:(← read).items.size] do
            let (k, keyMark) ← peekItem
            match k with
            | .mappingEnd | .void => break
            | _ => pure ()
            let (key, valuePath) ← match k with
              | .scalar text _ _ =>
                skipItem
                pure (text, Path.map path text)
              | .alias target =>
                skipItem
                let text ← jump target (placed keyMark path (keyText "field identifier"))
                pure (text, Path.unknown path)
              | other =>
                skipItem
                placed keyMark path (invalidType other "field identifier")
            match fields.find? (·.1 == key) with
            | some (_, s, _) =>
              if got.any (·.1 == key) then mismatch (.duplicateField key)
              let v ← decode fuel s valuePath (depth - 1)
              got := got ++ [(key, v)]
            | none => skipNode
          let _ ← finishMapping
          completeRecord fields got
        | .void => completeRecord fields []
        | .scalar "" .plain _ => completeRecord fields []
        | other => invalidType other ("struct " ++ name)
    | .list itemSchema =>
      let (item, mark) ← nextItem
      placed mark path do
        match item with
        | .alias target => jump target (decode fuel schema (.alias path) depth)
        | .sequenceStart _ =>
          if depth == 0 then throw (.recursionLimit mark)
          let mut out : Array Json := #[]
          for _ in [0:(← read).items.size] do
            let (n, _) ← peekItem
            match n with
            | .sequenceEnd => break
            | _ => out := out.push (← decode fuel itemSchema (.seq path out.size) (depth - 1))
          skipItem
          return .arr out.toList
        | .void => return .arr []
        | .scalar "" .plain _ => return .arr []
        | other => invalidType other schema.expecting
    | .any =>
      let (item, mark) ← nextItem
      placed mark path do
        match item with
        | .alias target => jump target (decode fuel schema (.alias path) depth)
        | .scalar text style _ => return scalarJson text style
        | .sequenceStart _ =>
          if depth == 0 then throw (.recursionLimit mark)
          let mut out : Array Json := #[]
          for _ in [0:(← read).items.size] do
            let (n, _) ← peekItem
            match n with
            | .sequenceEnd => break
            | _ => out := out.push (← decode fuel .any (.seq path out.size) (depth - 1))
          skipItem
          return .arr out.toList
        | .mappingStart _ =>
          if depth == 0 then throw (.recursionLimit mark)
          let mut out : List (String × Json) := []
          for _ in [0:(← read).items.size] do
            let (n, _) ← peekItem
            match n with
            | .mappingEnd => break
            | _ =>
              let key ← keyText "a string"
              let v ← decode fuel .any (.map path key) (depth - 1)
              out := (out.filter (·.1 != key)) ++ [(key, v)]
          skipItem
          return .obj out
        | .void => return .null
        | _ => throw .endOfStream

/- Reads a loaded document as a value of the schema.  A document that
ended in an error gives that error when the value was read without a
mismatch; a second document is refused. -/
def Document.decodeAs
    (d : Document)
    (schema : Schema) :
    Except DecodeError Json :=
  match ((decode (d.items.size * 100 + 256) schema .root 128).run d).run ⟨0, 0⟩ with
  | .error e => .error e
  | .ok (v, _) =>
    match d.error with
    | some e => .error (.load e)
    | none => if d.more then .error .moreThanOneDocument else .ok v

/- Reads the first document of a YAML text as a value of the schema. -/
def readAs
    (schema : Schema)
    (text : String) :
    Except DecodeError Json :=
  (Document.load text).decodeAs schema

end Yaml

end NeuronFleet
