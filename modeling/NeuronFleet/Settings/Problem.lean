import NeuronFleet.Yaml.Decode

/-
  Problems of layered settings.

  A value of the wrong type is told with what it is, what was wanted,
  the key it sits at and where it came from:
  `invalid type: string "x", expected an integer for key
  ``neuron.sync_interval`` in the environment`.  The key is built from
  the inside out as the problem passes up through tables (`a.b`) and
  arrays (`a[0]`).  Other problems are plain text.

  Main definitions:
    * `Settings.Found`, `Settings.Problem`, `Settings.Problem.message`,
      `Settings.Problem.within`
-/

namespace NeuronFleet

namespace Settings

/- Where a value came from: a file's name, `the environment`, or
nowhere for a table made by layering. -/
abbrev Origin := Option String

/- How settings messages write a float: shortest digits, always
positional, no `.0` on integral values. -/
def floatLayout : Decimal.Layout := Decimal.displayLayout

/- What a value is, as a message names it. -/
inductive Found where
  | bool (b : Bool)
  | int (i : Int)
  | unsigned (n : Nat)
  | float (x : F64)
  | str (s : String)
  | unit
  | seq
  | map

/- The description of what a value is. -/
def Found.describe : Found → String
  | .bool b => "boolean `" ++ (if b then "true" else "false") ++ "`"
  | .int i => "64-bit integer `" ++ toString i ++ "`"
  | .unsigned n => "64-bit unsigned integer `" ++ toString n ++ "`"
  | .float x => "floating point `" ++ floatLayout.writeF64 x ++ "`"
  | .str s => "string " ++ Text.quoteForMessage s
  | .unit => "unit value"
  | .seq => "sequence"
  | .map => "map"

/- Why settings could not be read as typed data. -/
inductive Problem where
  -- A value of the wrong type: where it came from, what it is, what was wanted, and the key
  -- it sits at
  | invalidType (origin : Origin) (found : Found) (expected : String) (key : Option String)
  -- any other problem, as text
  | custom (text : String)

namespace Problem

/- The text of a problem. -/
def message : Problem → String
  | .invalidType o f e k =>
    "invalid type: " ++ f.describe ++ ", expected " ++ e ++
      (match k with
       | some k => " for key `" ++ k ++ "`"
       | none => "") ++
      (match o with
       | some o => " in " ++ o
       | none => "")
  | .custom t => t

/- The problem as seen from one level up: the key gets `segment` in
front, with a dot between when `dot` is set and the key so far is not
an index.  Only a wrong type has a key. -/
def within
    (p : Problem)
    (segment : String)
    (dot : Bool) :
    Problem :=
  match p with
  | .invalidType o f e k =>
    let k := k.getD ""
    let sep := if dot && !k.isEmpty && !k.startsWith "[" then "." else ""
    .invalidType o f e (some (segment ++ sep ++ k))
  | .custom t => .custom t

/- The problem of a value found under a name of a table. -/
def atKey
    (p : Problem)
    (name : String) :
    Problem := p.within name true

/- The problem of a value found at a position of an array. -/
def atIndex
    (p : Problem)
    (i : Nat) :
    Problem := p.within ("[" ++ toString i ++ "]") false

end Problem

end Settings

end NeuronFleet
