import NeuronFleet.Settings.Value

/-
  Reading layered settings as typed data.

  Settings are read against a `Schema`, giving a `Json` value of its
  shape or the first problem.  Scalars convert generously:

  * a boolean is read from a number (non-zero is true) or from the
    words `1`, `true`, `on`, `yes` and `0`, `false`, `off`, `no` in any
    case;
  * an unsigned integer from a boolean, a float (rounded, halves away
    from zero, clamped to 64 bits), the words above, or a decimal
    string; it must then fit the field's width;
  * a float from an integer, a boolean, the words above, or a decimal
    string;
  * a string from any scalar, written as it reads.

  A record is read from a table, name by name, names it does not know
  ignored and missing fields taking their defaults, or from an array,
  field by field in order.  A choice is read from a name, matched
  without regard to case, or from a table of one entry whose name is
  the choice.  Absent values (`nil`) read as unset options.

  Main definitions:
    * `Settings.Value.toBool`, `Settings.Value.toUnsigned`,
      `Settings.Value.toFloat`, `Settings.Value.toText`
    * `Settings.read`
-/

namespace NeuronFleet

namespace Settings

------------------------------------------------------------
-- Scalars
------------------------------------------------------------

/- A decimal natural number of at most 64 bits, with an optional `+`. -/
def readU64 (s : String) : Option Nat :=
  let body := match s.toList with
    | '+' :: r => r
    | r => r
  if body.isEmpty || !body.all Char.isDigit then none
  else
    let v := body.foldl (fun acc c => 10 * acc + (c.toNat - '0'.toNat)) 0
    if v < Nat.pow 2 64 then some v else none

/- The number a word stands for, if it is one of the boolean words. -/
def wordValue (s : String) : Option Bool :=
  let low := Text.toLowerCase s
  if low == "true" || low == "on" || low == "yes" then some true
  else if low == "false" || low == "off" || low == "no" then some false
  else none

namespace Value

/- The wrong type, at no key yet. -/
def wrong
    (v : Value)
    (expected : String) :
    Problem :=
  .invalidType v.origin v.found expected none

/- A value as a boolean. -/
def toBool (v : Value) : Except Problem Bool :=
  match v with
  | .bool _ b => .ok b
  | .int _ i => .ok (i != 0)
  | .float _ x => .ok (!(x == F64.zero))
  | .str o s =>
    let low := Text.toLowerCase s
    if low == "1" || low == "true" || low == "on" || low == "yes" then .ok true
    else if low == "0" || low == "false" || low == "off" || low == "no" then .ok false
    else .error (.invalidType o (.str low) "a boolean" none)
  | _ => .error (v.wrong "a boolean")

/- A value as an unsigned 64-bit integer. -/
def toU64 (v : Value) : Except Problem Nat :=
  match v with
  | .int o i =>
    if i ≥ 0 ∧ i < Int.pow 2 64 then .ok i.toNat
    else .error (.invalidType o (.int i) "an unsigned 64 bit or less integer" none)
  | .str o s =>
    match wordValue s with
    | some b => .ok (if b then 1 else 0)
    | none =>
      match readU64 s with
      | some n => .ok n
      | none => .error (.invalidType o (.str s) "an integer" none)
  | .bool _ b => .ok (if b then 1 else 0)
  | .float _ x => .ok x.roundU64
  | _ => .error (v.wrong "an integer")

/- A value as an unsigned integer of `bits` bits. -/
def toUnsigned
    (v : Value)
    (bits : Nat) :
    Except Problem Nat := do
  let n ← v.toU64
  if n < Nat.pow 2 bits then pure n
  else throw (.invalidType none (.unsigned n) ("an unsigned " ++ toString bits ++ " bit integer") none)

/- A value as a double. -/
def toFloat (v : Value) : Except Problem F64 :=
  match v with
  | .float _ x => .ok x
  | .str o s =>
    match wordValue s with
    | some b => .ok (F64.ofNat (if b then 1 else 0))
    | none =>
      match Decimal.readLiteral s with
      | some lit => .ok (F64.ofLiteral lit)
      | none => .error (.invalidType o (.str s) "a floating point" none)
  | .int _ i => .ok (F64.ofInt i)
  | .bool _ b => .ok (F64.ofNat (if b then 1 else 0))
  | _ => .error (v.wrong "a floating point")

/- A value as a string: a scalar written as it reads. -/
def toText (v : Value) : Except Problem String :=
  match v with
  | .str _ s => .ok s
  | .bool _ b => .ok (if b then "true" else "false")
  | .int _ i => .ok (toString i)
  | .float _ x => .ok (floatLayout.writeF64 x)
  | _ => .error (v.wrong "a string")

/- What a reader of another shape finds: the value as its own type. -/
def seen : Value → Schema.Found
  | .nil _ => .unit
  | .bool _ b => .bool b
  | .int _ i => .signed i
  | .float _ x => .float x
  | .str _ s => .str s
  | .array .. => .seq
  | .table .. => .map

/- A value given to a reader of another shape. -/
def unwanted
    (v : Value)
    (expected : String) :
    Problem :=
  .custom ((Schema.Mismatch.invalidType v.seen expected).message Yaml.dialect)

mutual

/- A value as plain data. -/
def toJson : Value → Json
  | .nil _ => .null
  | .bool _ b => .bool b
  | .int _ i => .int i
  | .float _ x => .double x
  | .str _ s => .str s
  | .array _ items => .arr (itemsToJson items)
  | .table _ es => .obj (entriesToJson es)

def itemsToJson : List Value → List Json
  | [] => []
  | v :: rest => v.toJson :: itemsToJson rest

def entriesToJson : List (String × Value) → List (String × Json)
  | [] => []
  | (k, v) :: rest => (k, v.toJson) :: entriesToJson rest

end

end Value

------------------------------------------------------------
-- Typed reading
------------------------------------------------------------

/- The name of a choice, matched without regard to case. -/
def variantOf
    (name : String)
    (variants : List String)
    (s : String) :
    Except Problem Json :=
  match variants.find? (fun v => Text.toLowerCase v == Text.toLowerCase s) with
  | some v => .ok (.str v)
  | none => .error (.custom ("enum " ++ name ++ " does not have variant constructor " ++ s))

/- The problem of a choice given something other than a name or a
table of one entry. -/
def shapeOfChoice (name : String) : Problem :=
  .custom ("value of enum " ++ name ++
    " should be represented by either string or table with exactly one key")

/- A record's value from the fields read: in the schema's order,
missing fields taking their defaults (unset for an optional field). -/
def completeRecord
    (name : String)
    (fields : List (String × Schema × Option Json))
    (got : List (String × Json)) :
    Except Problem Json := do
  let members ← fields.mapIdxM fun i (k, s, d) =>
    match got.lookup k, d, s with
    | some v, _, _ => pure (k, v)
    | none, some v, _ => pure (k, v)
    | none, none, .option _ => pure (k, Json.null)
    | none, none, _ =>
      throw (.custom ("invalid length " ++ toString i ++ ", expected struct " ++ name ++ " with " ++
        toString fields.length ++ " elements"))
  return .obj members

/- Reads a value against a schema.  The fuel bounds the nesting of
schemas, one unit per level. -/
def read : Nat → Schema → Value → Except Problem Json
  | 0, _, _ => .error (.custom "recursion limit exceeded")
  | fuel + 1, schema, v =>
    match schema with
    | .option inner =>
      match v with
      | .nil _ => .ok .null
      | _ => read fuel inner v
    | .bool => return .bool (← v.toBool)
    | .unsigned _ max => return .int (← v.toUnsigned (max + 1).log2)
    | .single => return .single (← v.toFloat).toF32
    | .string | .path => return .str (← v.toText)
    | .any => .ok v.toJson
    | .choice name variants =>
      match v with
      | .str _ s => variantOf name variants s
      | .table _ [(k, _)] => variantOf name variants k
      | _ => .error (shapeOfChoice name)
    | .list item =>
      match v with
      | .array _ items => do
        let got ← items.mapIdxM fun i x =>
          (read fuel item x).mapError (·.atIndex i)
        return .arr got
      | _ => .error (v.unwanted "a sequence")
    | .record name fields =>
      match v with
      | .table _ es => do
        let got ← es.filterMapM fun (k, x) =>
          match fields.find? (·.1 == k) with
          | some (_, s, _) => do
            let j ← (read fuel s x).mapError (·.atKey k)
            pure (some (k, j))
          | none => pure none
        completeRecord name fields got
      | .array _ items => do
        let got ← (fields.zip items).mapIdxM fun i ((k, s, _), x) => do
          let j ← (read fuel s x).mapError (·.atIndex i)
          pure (k, j)
        completeRecord name fields got
      | _ => .error (v.unwanted ("struct " ++ name))

end Settings

end NeuronFleet
