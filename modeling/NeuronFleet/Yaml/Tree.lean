import NeuronFleet.Yaml.Tree.Parser
import NeuronFleet.Number.Reading

/-
  YAML documents as plain trees.

  A settings file is read as whole trees rather than typed as it is
  read: every document of the text becomes a `Tree`, its scalars
  resolved to the core types on their own text.  A plain scalar is
  null (`~`, `null`, or nothing at all), a boolean (`true`, `false`),
  an integer (decimal, `0x` hexadecimal, `0o` octal, with an optional
  `+`), a float (kept as written), or else a string; a quoted or block
  scalar is a string.  A scalar tagged `!!bool`, `!!int`, `!!float` or
  `!!null` must have that type's text, or it is `bad`.

  An alias stands for a copy of the node its anchor named, once that
  node is complete; an alias inside its own anchor's node is `bad`.
  A mapping keeps the first position of each key and the last value
  given to it.

  The text is read by the settings scanner and parser
  (`Tree.events`); a text loads whole or not at all, and an error is
  a `TreeError`.

  Main definitions:
    * `Tree`, `Tree.ofPlain`, `Tree.ofTagged`
    * `loadTrees`
-/

namespace NeuronFleet

namespace Yaml

------------------------------------------------------------
-- Trees
------------------------------------------------------------

/- A node of a YAML document, scalars resolved to the core types. -/
inductive Tree where
  | null
  | bool (b : Bool)
  | int (i : Int)
  -- A float, as written
  | real (text : String)
  | str (s : String)
  | seq (items : List Tree)
  -- A mapping: each key at its first position with its last value
  | map (entries : List (Tree × Tree))
  -- A scalar whose tag does not fit its text, or an alias to a node that is not complete
  | bad
  deriving Repr, Inhabited, BEq

namespace Tree

/- Whether a node is `bad`; a mapping waiting for a key holds `bad`
in its key slot. -/
def isBad : Tree → Bool
  | .bad => true
  | _ => false

/- An integer in a radix: an optional sign, then at least one digit,
the value within 64 signed bits. -/
def readInt
    (radix : Nat)
    (s : String) :
    Option Int :=
  let (negative, body) : Bool × List Char :=
    match s.toList with
    | '-' :: r => (true, r)
    | '+' :: r => (false, r)
    | r => (false, r)
  let digit (c : Char) : Option Nat :=
    if c.isDigit then some (c.toNat - '0'.toNat)
    else if 'a' ≤ c ∧ c ≤ 'z' then some (c.toNat - 'a'.toNat + 10)
    else if 'A' ≤ c ∧ c ≤ 'Z' then some (c.toNat - 'A'.toNat + 10)
    else none
  if body.isEmpty then none
  else
    let value := body.foldlM (fun acc c => do
      let d ← digit c
      if d < radix then some (radix * acc + d) else none) 0
    match value with
    | none => none
    | some v =>
      let i : Int := if negative then -(v : Int) else v
      if -Int.pow 2 63 ≤ i ∧ i < Int.pow 2 63 then some i else none

/- Whether a text is a float: the infinities and NaN in their YAML
spellings, or a number in the common float syntax. -/
def isFloat (s : String) : Bool :=
  [".inf", ".Inf", ".INF", "+.inf", "+.Inf", "+.INF", "-.inf", "-.Inf", "-.INF",
    ".nan", "NaN", ".NaN", ".NAN"].contains s || (Decimal.readLiteral s).isSome

/- The type of a plain scalar found by its text alone. -/
def ofWord (s : String) : Tree :=
  if s == "~" || s == "null" then .null
  else if s == "true" then .bool true
  else if s == "false" then .bool false
  else match readInt 10 s with
    | some i => .int i
    | none => if isFloat s then .real s else .str s

/- The type of an untagged plain scalar: a radix-prefixed or
`+`-signed integer first, then by its text alone. -/
def ofPlain (s : String) : Tree :=
  let prefixed : Option Int :=
    if s.startsWith "0x" then readInt 16 (s.drop 2).toString
    else if s.startsWith "0o" then readInt 8 (s.drop 2).toString
    else if s.startsWith "+" then readInt 10 (s.drop 1).toString
    else none
  match prefixed with
  | some i => .int i
  | none => ofWord s

/- The node of a tagged plain scalar: a standard type's tag takes the
text as that type or gives `bad`; any other tag gives a string. -/
def ofTagged
    (tag : String)
    (s : String) :
    Tree :=
  if tag == coreTag ++ "bool" then
    if s == "true" then .bool true else if s == "false" then .bool false else .bad
  else if tag == coreTag ++ "int" then
    match readInt 10 s with
    | some i => .int i
    | none => .bad
  else if tag == coreTag ++ "float" then
    if isFloat s then .real s else .bad
  else if tag == coreTag ++ "null" then
    if s == "~" || s == "null" then .null else .bad
  else .str s

/- The node of a scalar event.  A left-out node with neither anchor
nor tag is null; one with an anchor or tag is the empty text. -/
def ofScalar
    (anchor tag : Option String)
    (text : String)
    (style : ScalarStyle) :
    Tree :=
  match style with
  | .plain =>
    match tag with
    | some t => ofTagged t text
    | none =>
      if text.isEmpty && anchor.isNone then .null else ofPlain text
  | _ => .str text

end Tree

------------------------------------------------------------
-- Loading
------------------------------------------------------------

/- A collection being read: its anchor number (zero for none) and
what it holds so far; a mapping also holds a key waiting for its
value, `bad` when none waits. -/
inductive Open where
  | seq (anchor : Nat) (items : Array Tree)
  | map (anchor : Nat) (entries : Array (Tree × Tree)) (key : Tree)

/- Sets a key of a mapping: a key already there keeps its place and
takes the new value. -/
def setEntry
    (entries : Array (Tree × Tree))
    (key value : Tree) :
    Array (Tree × Tree) :=
  match entries.findIdx? (fun e => e.1 == key) with
  | some i => entries.set! i (key, value)
  | none => entries.push (key, value)

/- The state of loading: documents done, open collections innermost
first, the root of the current document, complete anchored nodes by
number, anchor names with their latest number, and the next number. -/
structure Loader where
  docs : Array Tree
  stack : List Open
  root : Option Tree
  nodes : List (Nat × Tree)
  names : List (String × Nat)
  next : Nat

namespace Loader

/- Gives an anchor its number. -/
def register (l : Loader) : Option String → Loader × Nat
  | none => (l, 0)
  | some name => ({ l with names := (name, l.next) :: l.names, next := l.next + 1 }, l.next)

/- Places a complete node in the collection around it, or as the
root of the document. -/
def insert
    (l : Loader)
    (t : Tree)
    (anchor : Nat) :
    Loader :=
  let l := if anchor > 0 then { l with nodes := (anchor, t) :: l.nodes } else l
  match l.stack with
  | [] => { l with root := some t }
  | .seq a items :: rest => { l with stack := .seq a (items.push t) :: rest }
  | .map a entries key :: rest =>
    if key.isBad then { l with stack := .map a entries t :: rest }
    else { l with stack := .map a (setEntry entries key t) .bad :: rest }

/- Closes the innermost collection. -/
def close (l : Loader) : Loader :=
  match l.stack with
  | [] => l
  | .seq a items :: rest => { l with stack := rest }.insert (.seq items.toList) a
  | .map a entries _ :: rest => { l with stack := rest }.insert (.map entries.toList) a

/- Takes one event, or fails on an alias of an anchor never named. -/
def step
    (l : Loader)
    (e : Event) :
    Except TreeError Loader :=
  match e.kind with
  | .streamStart | .streamEnd | .documentStart _ => .ok l
  | .documentEnd _ => .ok { l with docs := l.docs.push (l.root.getD .bad), root := none }
  | .alias name =>
    match l.names.lookup name with
    | none => .error ⟨"while parsing node, found unknown anchor", e.start⟩
    | some n => .ok (l.insert ((l.nodes.lookup n).getD .bad) 0)
  | .scalar anchor tag text style =>
    let (l, n) := l.register anchor
    .ok (l.insert (Tree.ofScalar anchor tag text style) n)
  | .sequenceStart anchor _ _ =>
    let (l, n) := l.register anchor
    .ok { l with stack := .seq n #[] :: l.stack }
  | .mappingStart anchor _ _ =>
    let (l, n) := l.register anchor
    .ok { l with stack := .map n #[] .bad :: l.stack }
  | .sequenceEnd | .mappingEnd => .ok l.close

end Loader

/- Every document of a text as a tree, or the first error. -/
def loadTrees (text : String) : Except TreeError (List Tree) := do
  let evs ← Tree.events text
  let l ← evs.foldlM Loader.step ⟨#[], [], none, [], [], 1⟩
  return l.docs.toList

end Yaml

end NeuronFleet
