import NeuronFleet.Json.Read
import NeuronFleet.Text.Blank

/-
  Worker reports: one line of JSON each.

  A worker announces itself (`started`, with its process id, hotkey and
  port), then ends with `completed` or with a `fault` carrying its error
  and trace.  A report is written as a compact JSON object whose `type`
  member comes first, followed by a line feed.  Reading a line trims
  blanks, reads one JSON value, finds the `type` member (which may stand
  anywhere in the object, but only once) and then the members of that
  kind; other members are ignored.  An array may stand for the object:
  its first item is the kind and the others are the fields in order,
  none missing and none left over.  Problems with the `type` member are
  reported with their position, problems with the other members
  without.

  A supervisor reads a worker's output bytes line by line and sends on
  each line that is a report; other lines are skipped, but a line that
  is not UTF-8 text ends the reading, as does a receiving side that has
  gone away.

  Main definitions:
    * `Report`, `Report.toJson`, `Report.toLine`
    * `Report.ofLine`
    * `Report.outputLines`, `Report.readOutput`, `Report.ofStream`
-/

namespace NeuronFleet

------------------------------------------------------------
-- Reports
------------------------------------------------------------

/- What a worker tells its supervisor. -/
inductive Report where
  | started (pid : Nat) (hotkey : String) (port : Nat)
  | completed
  | fault (error trace : String)
  deriving Repr, DecidableEq, Inhabited

namespace Report

/- The report as a JSON object, `type` first. -/
def toJson : Report → Json
  | .started pid hotkey port =>
    .obj [("type", .str "started"), ("pid", .int pid), ("hotkey", .str hotkey), ("port", .int port)]
  | .completed => .obj [("type", .str "completed")]
  | .fault error trace => .obj [("type", .str "fault"), ("error", .str error), ("trace", .str trace)]

/- The line a worker writes: compact JSON and a line feed. -/
def toLine (r : Report) : String := r.toJson.write ++ "\n"

------------------------------------------------------------
-- Reading
------------------------------------------------------------

/- The kinds of report, as their `type` names them. -/
def kinds : List String := ["started", "completed", "fault"]

/- What a message says a report line should be. -/
def expected : String := "internally tagged enum WorkerReport"

open Json Reader

/- Reads the value of the `type` member: a kind's name. -/
def readKind : Reader String := positioned do
  match ← peekPastBlanks with
  | some 34 =>
    eat
    let s ← string
    if kinds.contains s then return s else mismatch (.unknownVariant s kinds)
  | none => failAtPeek .eofWhileParsingValue
  | _ => wrongShape "variant identifier"

/- The body of a report after its kind: the other members of an
object, or the other items of an array. -/
inductive Body where
  | members (ms : List (String × Json))
  | items (xs : List Json)

/- Reads the members of a report's object from the `first` on: the kind
its `type` member names, and the other members in order; `fuel` bounds
the members read. -/
def taggedMembers
    (kind : Option String)
    (members : Array (String × Json))
    (first : Bool) :
    Nat → Reader (Option String × Array (String × Json))
  | 0 => return (kind, members)
  | fuel + 1 => do
    match ← nextKey first with
    | none => return (kind, members)
    | some k =>
      if k == "type" then
        if kind.isSome then
          tryCatch closeObject fun _ => pure ()
          mismatch (.duplicateField "type")
        colon
        taggedMembers (some (← readKind)) members false fuel
      else
        colon
        taggedMembers kind (members.push (k, ← value (maxDepth - 1))) false fuel

/- Reads a report's object or array: its kind, then the rest of it. -/
def readTagged : Reader (String × Body) := positioned do
  match ← peekPastBlanks with
  | none => failAtPeek .eofWhileParsingValue
  | some 123 =>
    enter (maxDepth - 1)
    let (kind, members) ← taggedMembers none #[] true (← read).size
    closeObject
    match kind with
    | some k => return (k, .members members.toList)
    | none => mismatch (.missingField "type")
  | some 91 =>
    enter (maxDepth - 1)
    if !(← nextItem true) then
      tryCatch closeList fun _ => pure ()
      mismatch (.missingField "type")
    let k ← readKind
    let b ← read
    let mut items : Array Json := #[]
    for _ in [0:b.size] do
      if !(← nextItem false) then break
      items := items.push (← value (maxDepth - 1))
    closeList
    return (k, .items items.toList)
  | _ => wrongShape expected

/- What a member's value is, for a message. -/
def found : Json → Schema.Found
  | .null => .unit
  | .bool b => .bool b
  | .int n => if n ≥ 0 then .unsigned n.toNat else .signed n
  | .double x => .float x
  | .single x => .float x.toF64
  | .str s => .str s
  | .arr _ => .seq
  | .obj _ => .map

/- Checks a member against a shape: an unsigned number or a string. -/
def checkMember
    (shape : Schema)
    (v : Json) :
    Except Schema.Mismatch Json :=
  match shape, v with
  | .unsigned name max, .int n =>
    if n < 0 then .error (.invalidValue (.signed n) name)
    else if n.toNat ≤ max then .ok v
    else .error (.invalidValue (.unsigned n.toNat) name)
  | .string, .str _ => .ok v
  | s, v => .error (.invalidType (found v) s.expecting)

/- The members a kind needs, in order, from the members read: each
checked as it comes, a repeated one refused, a missing one reported
after all were seen. -/
def takeFields
    (fields : List (String × Schema))
    (members : List (String × Json)) :
    Except Schema.Mismatch (List Json) := do
  let mut got : List (String × Json) := []
  for (k, v) in members do
    match fields.lookup k with
    | some shape =>
      if got.any (·.1 == k) then throw (.duplicateField k)
      got := got ++ [(k, ← checkMember shape v)]
    | none => pure ()
  fields.mapM fun (k, _) => match got.lookup k with
    | some v => pure v
    | none => throw (.missingField k)

/- The fields of each kind. -/
def fieldsOf : String → List (String × Schema)
  | "started" => [("pid", Schema.u32), ("hotkey", .string), ("port", Schema.u16)]
  | "fault" => [("error", .string), ("trace", .string)]
  | _ => []

/- What a message says the fields of a kind should be. -/
def shapeOf : String → String
  | "started" => "struct variant WorkerReport::Started with 3 elements"
  | _ => "struct Fault with 2 elements"

/- `n elements in sequence`, as a message counts what a sequence held. -/
def elementsInSequence (n : Nat) : String :=
  if n = 1 then "1 element in sequence" else toString n ++ " elements in sequence"

/- The fields of a kind from the items of an array, in order: each
checked as it comes, a missing one reported by how many came before
it, and items left over reported with their count. -/
def takeItems
    (kind : String)
    (items : List Json) :
    Except Schema.Mismatch (List Json) := do
  let fields := fieldsOf kind
  let got ← fields.zipIdx.mapM fun ((_, shape), i) =>
    match items[i]? with
    | some v => checkMember shape v
    | none => throw (.invalidLength i (shapeOf kind))
  if items.length > fields.length then
    throw (.invalidLength items.length (elementsInSequence fields.length))
  return got

/- A report from its kind and the fields read. -/
def ofFields (kind : String) : List Json → Report
  | [.int pid, .str hotkey, .int port] => if kind == "started" then .started pid.toNat hotkey port.toNat else .completed
  | [.str error, .str trace] => if kind == "fault" then .fault error trace else .completed
  | _ => .completed

/- A report from its kind and body. -/
def ofBody (kind : String) : Body → Except Schema.Mismatch Report
  | .members ms => return ofFields kind (← takeFields (fieldsOf kind) ms)
  | .items xs => return ofFields kind (← takeItems kind xs)

/- Reads a report line. -/
def ofLine (line : String) : Except ReadError Report := do
  let (kind, body) ← readWith readTagged (Text.trim line)
  match ofBody kind body with
  | .ok r => return r
  | .error m => throw (ReadError.ofMismatch m)

------------------------------------------------------------
-- Reading a worker's output
------------------------------------------------------------

/- A line without the carriage return that ends it, if one does. -/
def dropReturn (line : List UInt8) : List UInt8 :=
  if line.getLast? = some 13 then line.dropLast else line

/- The lines of a worker's output bytes: split at line feeds, each line
that a line feed ends without the carriage return before it, the last
line kept as it is when no line feed ends it; output that ends in a
line feed has no line after it. -/
def outputLines (bytes : List UInt8) : List (List UInt8) :=
  let pieces := bytes.splitOn 10
  pieces.dropLast.map dropReturn ++
    match pieces.getLast? with
    | some [] | none => []
    | some last => [last]

/- How the reader of a worker's output stops. -/
inductive Stop where
  -- the output ended
  | endOfOutput
  -- A line is not UTF-8 text, and reading it fails
  | notText
  -- the receiving side is gone, and sending a report fails
  | receiverGone
  deriving Repr, DecidableEq

/- The reader of a worker's output, line by line: a line that is not
UTF-8 text (with or without its line ending, which is ASCII) ends the
reading, a line that is a report is sent, and any other line is
skipped.  `takes` counts the reports the receiving side still takes
before it goes away; `none` is a receiving side that stays. -/
def readLines (takes : Option Nat) : List (List UInt8) → List Report × Stop
  | [] => ([], .endOfOutput)
  | line :: rest =>
    match String.fromUTF8? ⟨line.toArray⟩ with
    | none => ([], .notText)
    | some text =>
      match ofLine text with
      | .error _ => readLines takes rest
      | .ok r =>
        match takes with
        | some 0 => ([], .receiverGone)
        | some (n + 1) => let (rs, stop) := readLines (some n) rest; (r :: rs, stop)
        | none => let (rs, stop) := readLines none rest; (r :: rs, stop)

/- The reports sent from a worker's output bytes, in order, and how the
reading stops. -/
def readOutput
    (takes : Option Nat)
    (bytes : List UInt8) :
    List Report × Stop :=
  readLines takes (outputLines bytes)

/- The reports in a worker's output text, in order, for a receiving side
that stays. -/
def ofStream (text : String) : List Report := (readOutput none text.toUTF8.toList).1

end Report

end NeuronFleet
