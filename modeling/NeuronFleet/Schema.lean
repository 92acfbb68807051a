import NeuronFleet.Json.Basic
import NeuronFleet.Text.Escape

/-
  Schemas: the typed shape a reader expects of a document.

  A record lists its fields with their shapes and, for a field that may
  be left out, the value it then takes.  Readers of JSON and YAML text
  check a document against a schema as they go and give back a `Json`
  value of the expected shape (defaults filled in), or the first
  mismatch.  The mismatch texts are shared by both readers:
  `invalid type: <found>, expected <wanted>`, `missing field`,
  `duplicate field`, `unknown variant`.

  Main definitions:
    * `Schema`, `Schema.expecting`
    * `Schema.Found`, `Schema.Mismatch.message`
-/

namespace NeuronFleet

------------------------------------------------------------
-- Shapes
------------------------------------------------------------

/- The shape of typed data. -/
inductive Schema where
  -- A boolean
  | bool
  -- A natural number up to `max`, named like `u16`
  | unsigned (name : String) (max : Nat)
  -- A single-precision number
  | single
  -- A string
  | string
  -- A file system path, written as a string
  | path
  -- any value, kept as it is
  | any
  -- A list of items of one shape
  | list (item : Schema)
  -- absent (`null`) or a value of the shape
  | option (item : Schema)
  -- A record: fields with their shapes and the value a missing field takes, if it may be
  -- missing
  | record (name : String) (fields : List (String × Schema × Option Json))
  -- one of a few names
  | choice (name : String) (variants : List String)
  deriving Inhabited

namespace Schema

def u16 : Schema := .unsigned "u16" 65535
def u32 : Schema := .unsigned "u32" 4294967295
def u64 : Schema := .unsigned "u64" 18446744073709551615
def usize : Schema := .unsigned "usize" 18446744073709551615

/- What a message says was expected. -/
def expecting : Schema → String
  | .bool => "a boolean"
  | .unsigned name _ => name
  | .single => "f32"
  | .string => "a string"
  | .path => "path string"
  | .any => "any valid JSON value"
  | .list _ => "a sequence"
  | .option _ => "option"
  | .record name _ => "struct " ++ name
  | .choice name _ => "enum " ++ name

------------------------------------------------------------
-- Mismatches
------------------------------------------------------------

/- What a reader found where something else was expected. -/
inductive Found where
  | bool (b : Bool)
  | unsigned (n : Nat)
  | signed (n : Int)
  -- an integer too wide for 64 bits, as read
  | wide (n : Int)
  | float (x : F64)
  | str (s : String)
  | unit
  | seq
  | map

/- How a format names what it found: its word for the unit value and
its text of a floating value. -/
structure Dialect where
  unitText : String
  floatText : F64 → String

/- The description of a found value. -/
def Found.describe (d : Dialect) : Found → String
  | .bool b => "boolean `" ++ (if b then "true" else "false") ++ "`"
  | .unsigned n => "integer `" ++ toString n ++ "`"
  | .signed n => "integer `" ++ toString n ++ "`"
  | .wide n => "integer `" ++ toString n ++ "` as " ++ (if n < 0 then "i128" else "u128")
  | .float x => "floating point `" ++ d.floatText x ++ "`"
  | .str s => "string " ++ Text.quoteForMessage s
  | .unit => d.unitText
  | .seq => "sequence"
  | .map => "map"

/- Names in back quotes: `` `a` ``, `` `a` or `b` ``, `` one of `a`, `b`, `c` ``. -/
def oneOf (names : List String) : String :=
  let q (s : String) := "`" ++ s ++ "`"
  match names with
  | [a] => q a
  | [a, b] => q a ++ " or " ++ q b
  | _ => "one of " ++ ", ".intercalate (names.map q)

/- A mismatch between a document and its schema. -/
inductive Mismatch where
  | invalidType (found : Found) (expected : String)
  | invalidValue (found : Found) (expected : String)
  | invalidLength (len : Nat) (expected : String)
  | missingField (name : String)
  | duplicateField (name : String)
  | unknownVariant (name : String) (variants : List String)

/- The text of a mismatch. -/
def Mismatch.message (d : Dialect) : Mismatch → String
  | .invalidType f e => "invalid type: " ++ f.describe d ++ ", expected " ++ e
  | .invalidValue f e => "invalid value: " ++ f.describe d ++ ", expected " ++ e
  | .invalidLength n e => "invalid length " ++ toString n ++ ", expected " ++ e
  | .missingField n => "missing field `" ++ n ++ "`"
  | .duplicateField n => "duplicate field `" ++ n ++ "`"
  | .unknownVariant n [] => "unknown variant `" ++ n ++ "`, there are no variants"
  | .unknownVariant n vs => "unknown variant `" ++ n ++ "`, expected " ++ oneOf vs

/- Checks a natural number against an unsigned shape. -/
def checkUnsigned
    (name : String)
    (max : Nat)
    (n : Nat) :
    Except Mismatch Json :=
  if n ≤ max then .ok (.int n) else .error (.invalidValue (.unsigned n) name)

end Schema

end NeuronFleet
