import NeuronFleet.Yaml.Tree
import NeuronFleet.Text.Case
import NeuronFleet.Settings.Problem

/-
  Layered settings.

  Settings are gathered from sources, one after another, into one
  table: a YAML file first, then environment variables.  Each value
  remembers where it came from (the file's name or `the environment`),
  so a value of the wrong type can say so.  A table made by layering
  comes from nowhere in particular.

  A source gives keys with values.  A key is a path: a first name,
  then names after dots and indexes in brackets
  (`neuron.sync_interval`, `neuron[0]`); a key that is not one is a
  single name.  Setting a table under a name merges it into the table
  already there, name by name; setting anything else replaces what was
  there.  On the way to the last step, the value under a name is made
  a table and the value under an index an array, padded with `nil` up
  to the index; an index before the start of its array cannot be set,
  and gathering fails.

  The file is read as one YAML document (none at all is an empty
  table) whose root must be a mapping with string or integer keys;
  its names are lower-cased at every level, and each top-level name is
  read as a key.  An environment variable counts when its name,
  lower-cased, starts with the prefix and a double underscore; the
  rest of its name is the key, double underscores standing for dots.
  Its value is a boolean, an integer or a float when it reads as one,
  and a string otherwise.

  Main definitions:
    * `Settings.Value`, `Settings.Step`, `Settings.KeyPath.read`, `Settings.Value.set`
    * `Settings.fileSource`, `Settings.environmentSource`, `Settings.gather`
-/

namespace NeuronFleet

namespace Settings

------------------------------------------------------------
-- Values
------------------------------------------------------------

/- A setting's value and its origin. -/
inductive Value where
  | nil (origin : Origin)
  | bool (origin : Origin) (b : Bool)
  | int (origin : Origin) (i : Int)
  | float (origin : Origin) (x : F64)
  | str (origin : Origin) (s : String)
  | array (origin : Origin) (items : List Value)
  -- A table: distinct names with their values
  | table (origin : Origin) (entries : List (String × Value))
  deriving Inhabited

namespace Value

/- Where a value came from. -/
def origin : Value → Origin
  | .nil o | .bool o _ | .int o _ | .float o _ | .str o _ | .array o _ | .table o _ => o

/- An empty table made by layering. -/
def empty : Value := .table none []

/- The entries of a table; nothing for any other value. -/
def entries : Value → List (String × Value)
  | .table _ es => es
  | _ => []

/- The origin a value keeps when names are set in it: its own for a
table, none for anything else, which becomes a new table. -/
def tableOrigin : Value → Origin
  | .table o _ => o
  | _ => none

/- A value as something found where another type was wanted. -/
def found : Value → Found
  | .nil _ => .unit
  | .bool _ b => .bool b
  | .int _ i => .int i
  | .float _ x => .float x
  | .str _ s => .str s
  | .array .. => .seq
  | .table .. => .map

/- Gives a name a value: in place when the name is there, at the end
otherwise. -/
def put
    (es : List (String × Value))
    (k : String)
    (v : Value) :
    List (String × Value) :=
  if es.any (·.1 == k) then es.map fun (k', v') => if k' == k then (k, v) else (k', v')
  else es ++ [(k, v)]

mutual

/- Sets one name of a value, which becomes a table if it is not one:
a table merges into the value there (an empty table if missing),
anything else replaces what was there. -/
def setName
    (target : Value)
    (k : String) :
    Value → Value
  | .table _ incoming =>
    let es := target.entries
    let here := (es.lookup k).getD empty
    .table target.tableOrigin (put es k (mergeAll here incoming))
  | v => .table target.tableOrigin (put target.entries k v)

/- Merges the entries of a table into a value, one after another;
merging no entries leaves the value as it is. -/
def mergeAll (target : Value) : List (String × Value) → Value
  | [] => target
  | (k, v) :: rest => mergeAll (setName target k v) rest

end

/- Whether a character may stand in a name of a key path. -/
def isNameChar (c : Char) : Bool :=
  ('a' ≤ c && c ≤ 'z') || ('A' ≤ c && c ≤ 'Z') || c.isDigit || c == ' ' || c == '_' || c == '-'

/- The origin and entries of a value made a table: its own for a
table, none and no entries for anything else. -/
def tableParts : Value → Origin × List (String × Value)
  | .table o es => (o, es)
  | _ => (none, [])

/- The origin and items of a value made an array: its own for an
array, none and no items for anything else. -/
def arrayParts : Value → Origin × List Value
  | .array o items => (o, items)
  | _ => (none, [])

/- The position an index names in an array of `n` items: a negative
index counts back from the end, and one reaching before the start
names none. -/
def position
    (i : Int)
    (n : Nat) :
    Option Nat :=
  if 0 ≤ i then some i.toNat
  else if i.natAbs ≤ n then some (n - i.natAbs) else none

/- The most items an array may be padded to. -/
def paddingLimit : Nat := Nat.pow 2 24

/- Changes the item at position `u` of an array, which is first padded
with `nil` up to it. -/
def editItem
    (items : List Value)
    (u : Nat)
    (f : Value → Option Value) :
    Option (List Value) := do
  if u ≥ paddingLimit then none
  let padded := items ++ List.replicate (u + 1 - items.length) (.nil none)
  let v ← f (padded.getD u (.nil none))
  pure (padded.set u v)

/- Changes the value under a name of a table, `nil` when the name is
missing (and then added at the end). -/
def editEntry
    (es : List (String × Value))
    (k : String)
    (f : Value → Option Value) :
    Option (List (String × Value)) := do
  pure (put es k (← f ((es.lookup k).getD (.nil none))))

/- Changes the item an index names in a value made an array. -/
def editIndex
    (slot : Value)
    (i : Int)
    (f : Value → Option Value) :
    Option Value := do
  let (o, items) := slot.arrayParts
  let u ← position i items.length
  pure (.array o (← editItem items u f))

end Value

------------------------------------------------------------
-- Key paths
------------------------------------------------------------

/- A step of a key path: a name in a table, or a position in an
array (negative positions count back from the end). -/
inductive Step where
  | name (n : String)
  | index (i : Int)

/- A key read as a path: its first name and the steps after it. -/
structure KeyPath where
  head : String
  steps : List Step

namespace KeyPath

/- Reads the rest of an index, `blanks digits blanks ]`, the digits
with an optional `-` and within 64 signed bits. -/
def readIndex (cs : List Char) : Option (Int × List Char) :=
  let blank (c : Char) : Bool := c == ' ' || c == '\t'
  let cs := cs.dropWhile blank
  let (negative, cs) : Bool × List Char := match cs with
    | '-' :: r => (true, r)
    | r => (false, r)
  let digits := cs.takeWhile Char.isDigit
  let magnitude := digits.foldl (fun n c => 10 * n + (c.toNat - '0'.toNat)) 0
  let i : Int := if negative then -(magnitude : Int) else magnitude
  match (cs.dropWhile Char.isDigit).dropWhile blank with
  | ']' :: rest =>
    if digits.isEmpty || i < -Int.pow 2 63 || i ≥ Int.pow 2 63 then none else some (i, rest)
  | _ => none

/- Reads steps `.name` and `[index]` to the end of the key; the fuel
bounds their number. -/
def readSteps : Nat → List Char → Option (List Step)
  | _, [] => some []
  | 0, _ => none
  | fuel + 1, '.' :: r =>
    let n := r.takeWhile Value.isNameChar
    if n.isEmpty then none
    else do
      let rest ← readSteps fuel (r.dropWhile Value.isNameChar)
      pure (.name (String.ofList n) :: rest)
  | fuel + 1, '[' :: r => do
    let (i, r) ← readIndex r
    let rest ← readSteps fuel r
    pure (.index i :: rest)
  | _, _ => none

/- A key as a path `name.name[index]...`; none when it is not one, and
then the whole key is one name. -/
def read (key : String) : Option KeyPath :=
  let cs := key.toList
  let head := cs.takeWhile Value.isNameChar
  if head.isEmpty then none
  else do
    let steps ← readSteps cs.length (cs.dropWhile Value.isNameChar)
    pure ⟨String.ofList head, steps⟩

end KeyPath

namespace Value

/- Sets a value at the end of a path below `slot`, the path being
`step` then `rest`.  On the way, the value under a name is made a
table and the value under an index an array, padded as needed; the
last step sets a name by `setName` or replaces the item at an index.
None when an index reaches before the start of its array. -/
def setSteps
    (slot : Value)
    (step : Step) :
    List Step → Value → Option Value
  | [], v =>
    match step with
    | .name k => some (slot.setName k v)
    | .index i => slot.editIndex i fun _ => some v
  | next :: rest, v =>
    match step with
    | .name k => do
      let (o, es) := slot.tableParts
      pure (.table o (← editEntry es k fun c => setSteps c next rest v))
    | .index i => slot.editIndex i fun c => setSteps c next rest v

/- Sets a value at a key, read as a path when it is one and as one
name otherwise.  None when an index reaches before the start of its
array. -/
def set
    (root : Value)
    (key : String)
    (v : Value) :
    Option Value :=
  match KeyPath.read key with
  | some p => root.setSteps (.name p.head) p.steps v
  | none => root.setSteps (.name key) [] v

end Value

/- Gathers sources into one table, later sources over earlier ones;
none when a key's index reaches before the start of its array. -/
def gather (sources : List (List (String × Value))) : Option Value :=
  sources.foldlM (fun acc src => src.foldlM (fun acc (k, v) => acc.set k v) acc) Value.empty

------------------------------------------------------------
-- The file
------------------------------------------------------------

/- Why a file could not be read as settings. -/
inductive FileProblem where
  -- the cause, as text
  | cause (text : String)
  -- A mapping key that is neither a string nor an integer, which settings cannot name
  | unnamedKey

mutual

/- A document node as a value from a file.  A float is read again by
the common float syntax, which has no `.inf` or `.nan`. -/
def ofTree (o : Origin) : Yaml.Tree → Except FileProblem Value
  | .null | .bad => .ok (.nil o)
  | .bool b => .ok (.bool o b)
  | .int i => .ok (.int o i)
  | .real t =>
    match Decimal.readLiteral t with
    | some lit => .ok (.float o (F64.ofLiteral lit))
    | none => .error (.cause ("Parsing " ++ t ++ " as floating point number failed"))
  | .str s => .ok (.str o s)
  | .seq items => do return .array o (← ofTrees o items)
  | .map es => do return .table o (← ofEntries o es [])

def ofTrees (o : Origin) : List Yaml.Tree → Except FileProblem (List Value)
  | [] => .ok []
  | t :: rest => do return (← ofTree o t) :: (← ofTrees o rest)

/- Mapping entries as named values, in order; a later key of the
same name wins. -/
def ofEntries (o : Origin) :
    List (Yaml.Tree × Yaml.Tree) → List (String × Value) → Except FileProblem (List (String × Value))
  | [], acc => .ok acc
  | (k, v) :: rest, acc =>
    match k with
    | .str s => do ofEntries o rest (Value.put acc (Text.toLowerCase s) (← ofTree o v))
    | .int i => do ofEntries o rest (Value.put acc (toString i) (← ofTree o v))
    | _ => .error .unnamedKey

end

/- The settings of a YAML file named `name`: the entries of its one
document's root mapping. -/
def fileSource
    (name : String)
    (text : String) :
    Except FileProblem (List (String × Value)) := do
  let docs ← match Yaml.loadTrees text with
    | .ok docs => pure docs
    | .error e => throw (.cause e.message)
  let root ← match docs with
    | [] => pure (Yaml.Tree.map [])
    | [d] => pure d
    | ds => throw (.cause ("Got " ++ toString ds.length ++ " YAML documents, expected 1"))
  match ← ofTree (some name) root with
  | .table _ es => pure es
  | v => throw (.cause (Problem.invalidType (some name) v.found "a map" none).message)

------------------------------------------------------------
-- The environment
------------------------------------------------------------

/- The origin of environment values. -/
def environment : Origin := some "the environment"

/- An environment value: a boolean (in any case), an integer, a float,
or else the text itself. -/
def readVariable (s : String) : Value :=
  let low := Text.toLowerCase s
  if low == "true" then .bool environment true
  else if low == "false" then .bool environment false
  else match Yaml.Tree.readInt 10 s with
    | some i => .int environment i
    | none =>
      match Decimal.readLiteral s with
      | some lit => .float environment (F64.ofLiteral lit)
      | none => .str environment s

/- The settings of environment variables whose lower-cased names start
with `head` and a double underscore. -/
def environmentSource
    (head : String)
    (vars : List (String × String)) :
    List (String × Value) :=
  let mark := Text.toLowerCase head ++ "__"
  vars.filterMap fun (name, value) =>
    let name := Text.toLowerCase name
    if name.startsWith mark then
      some (((name.drop mark.length).toString.replace "__" "."), readVariable value)
    else none

end Settings

end NeuronFleet
