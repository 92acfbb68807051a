import NeuronFleet.Yaml.Decode

/-
  Writing YAML.

  A document to write is a tree of block mappings whose leaves are
  scalars.  A scalar is either written as it is (numbers, booleans,
  `null`) or is a string, whose style is chosen so that it reads back
  as the same string:
    * a string holding a line feed is a literal block scalar `|`, with
      a chomping indicator telling how its last line ends;
    * a string that would read as something else when plain (null, a
      boolean, a number, a zero followed by digits) is single-quoted;
    * otherwise it is plain when the text allows it (no indicator at the
      start, no `: ` or ` #` inside, no blanks at either end), else
      single-quoted, else (for characters that must be escaped)
      double-quoted.

  Mappings are indented by two spaces per level; a value follows its key
  after `: `.  A sequence writes each item after `- `; as the value of a
  mapping entry its dashes stand at the key's indentation.  Empty
  collections are written `{}` and `[]`.  The document ends with a line
  feed.  Lines are never wrapped.

  Main definitions:
    * `Node`, `Scalar.Analysis`, `Scalar.analyze`
    * `Node.write`
-/

namespace NeuronFleet

namespace Yaml

/- A document to write. -/
inductive Node where
  -- A scalar written as it is
  | plain (text : String)
  -- A string, in whatever style reads back as it
  | string (text : String)
  | mapping (entries : List (String × Node))
  | sequence (items : List Node)
  deriving Repr, Inhabited

/- The styles a scalar may be written in. -/
inductive WriteStyle where
  | plain
  | singleQuoted
  | doubleQuoted
  | literal
  deriving Repr, DecidableEq, Inhabited

namespace Scalar

/- Characters that can be written without escaping. -/
def isPrintable (c : Char) : Bool :=
  let n := c.toNat
  n == 0x0A || (0x20 ≤ n && n ≤ 0x7E) || (0xA0 ≤ n && n ≤ 0xD7FF) ||
    (0xE000 ≤ n && n ≤ 0xFFFD && n != 0xFEFF)

/- What the text of a scalar allows. -/
structure Analysis where
  multiline : Bool
  flowPlainAllowed : Bool
  blockPlainAllowed : Bool
  singleQuotedAllowed : Bool
  blockAllowed : Bool
  deriving Repr

/- Running facts gathered over the characters of a scalar. -/
structure Scan where
  flowIndicators : Bool := false
  blockIndicators : Bool := false
  lineBreaks : Bool := false
  special : Bool := false
  leadingSpace : Bool := false
  leadingBreak : Bool := false
  trailingSpace : Bool := false
  trailingBreak : Bool := false
  breakSpace : Bool := false
  spaceBreak : Bool := false
  previousSpace : Bool := false
  previousBreak : Bool := false

/- Takes one character, at position `i` of `n`, into the facts;
`preceded` and `followed` tell whether blanks surround it. -/
def Scan.step
    (s : Scan)
    (i n : Nat)
    (c : Char)
    (preceded followed : Bool) :
    Scan :=
  let s :=
    if i == 0 then
      let both := c == '#' || Chars.isFlowIndicator c || c == '&' || c == '*' || c == '!' ||
        c == '|' || c == '>' || c == '\'' || c == '"' || c == '%' || c == '@' || c == '`' ||
        (c == '-' && followed)
      let s := if both then { s with flowIndicators := true, blockIndicators := true } else s
      if c == '?' || c == ':' then
        { s with flowIndicators := true, blockIndicators := s.blockIndicators || followed }
      else s
    else
      let s := if Chars.isFlowIndicator c || c == '?' then { s with flowIndicators := true } else s
      let s := if c == ':' then
          { s with flowIndicators := true, blockIndicators := s.blockIndicators || followed }
        else s
      if c == '#' && preceded then { s with flowIndicators := true, blockIndicators := true } else s
  let s := if !isPrintable c then { s with special := true } else s
  let s := if Chars.isBreak c then { s with lineBreaks := true } else s
  if c == ' ' then
    { s with leadingSpace := s.leadingSpace || i == 0,
             trailingSpace := s.trailingSpace || i + 1 == n,
             breakSpace := s.breakSpace || s.previousBreak,
             previousSpace := true, previousBreak := false }
  else if Chars.isBreak c then
    { s with leadingBreak := s.leadingBreak || i == 0,
             trailingBreak := s.trailingBreak || i + 1 == n,
             spaceBreak := s.spaceBreak || s.previousSpace,
             previousSpace := false, previousBreak := true }
  else { s with previousSpace := false, previousBreak := false }

/- What a scalar's text allows: plain in flow or block context, single
quotes, a block scalar. -/
def analyze (text : String) : Analysis :=
  let cs := text.toList.toArray
  let n := cs.size
  if n == 0 then ⟨false, false, true, true, false⟩
  else
    let startsDocument :=
      (cs[0]! == '-' && cs.getD 1 ' ' == '-' && cs.getD 2 ' ' == '-') ||
        (cs[0]! == '.' && cs.getD 1 ' ' == '.' && cs.getD 2 ' ' == '.')
    let blankAt (k : Nat) := Chars.isBlankOrEnd (cs.getD k Chars.stop)
    let init : Scan := if startsDocument then { flowIndicators := true, blockIndicators := true } else {}
    let s := (List.range n).foldl (fun s i =>
        s.step i n cs[i]! (i == 0 || Chars.isBlankOrEnd cs[i - 1]!) (blankAt (i + 1))) init
    let plainOk := !(s.leadingSpace || s.leadingBreak || s.trailingSpace || s.trailingBreak ||
      s.breakSpace || s.spaceBreak || s.special || s.lineBreaks)
    { multiline := s.lineBreaks,
      flowPlainAllowed := plainOk && !s.flowIndicators,
      blockPlainAllowed := plainOk && !s.blockIndicators,
      singleQuotedAllowed := !(s.breakSpace || s.spaceBreak || s.special),
      blockAllowed := !(s.trailingSpace || s.spaceBreak || s.special) }

/- The style a string asks for: literal when it holds a line feed,
single-quoted when plain it would read as something other than a
string, otherwise whatever the text allows. -/
def requestedStyle (text : String) : Option WriteStyle :=
  if text.contains '\n' then some .literal
  else match untagged text with
    | .str s => if digitsButNotNumber s then some .singleQuoted else none
    | _ => some .singleQuoted

/- The style a scalar is written in, given the style asked for (`none`:
any), whether it is a mapping key, and what its text allows. -/
def chooseStyle
    (requested : Option WriteStyle)
    (key : Bool)
    (text : String)
    (a : Analysis) :
    WriteStyle :=
  let style := requested.getD .plain
  let style := if key && a.multiline then .doubleQuoted else style
  let style :=
    if style == .plain && (!a.blockPlainAllowed || (text.isEmpty && key)) then .singleQuoted
    else style
  let style := if style == .singleQuoted && !a.singleQuotedAllowed then .doubleQuoted else style
  if style == .literal && (!a.blockAllowed || key) then .doubleQuoted else style

end Scalar

------------------------------------------------------------
-- Writing
------------------------------------------------------------

/- The writer's state: the text so far, the column, the indentation
(`-1` before the first collection), whether the last thing written was
a blank or an indentation, and whether the document ends open (a kept
trailing line break at its end, which needs an explicit `...`). -/
structure Writer where
  out : String
  column : Nat
  indent : Int
  whitespace : Bool
  indention : Bool
  openEnded : Bool

namespace Writer

def put
    (w : Writer)
    (c : Char) :
    Writer := { w with out := w.out.push c, column := w.column + 1 }

def putString
    (w : Writer)
    (s : String) :
    Writer := s.foldl put w

def lineBreak (w : Writer) : Writer := { w with out := w.out.push '\n', column := 0 }

/- Starts a line at the indentation, unless already there. -/
def writeIndent (w : Writer) : Writer :=
  let indent := w.indent.toNat
  let w := if !w.indention || w.column > indent || (w.column == indent && !w.whitespace) then
      w.lineBreak else w
  let w := w.putString (String.ofList (List.replicate (indent - w.column) ' '))
  { w with whitespace := true, indention := true }

/- The indentation of a nested node: two deeper, or the same for a
sequence that needs no indentation of its own; a first block
collection starts at column zero, a first scalar at two. -/
def increased
    (w : Writer)
    (flow indentless : Bool) :
    Int :=
  if w.indent < 0 then (if flow then 2 else 0)
  else if indentless then w.indent else w.indent + 2

/- Writes an indicator, after a space when `needSpace` and the last
character was not blank. -/
def indicator
    (w : Writer)
    (s : String)
    (needSpace isSpace isIndention : Bool) :
    Writer :=
  let w := if needSpace && !w.whitespace then w.put ' ' else w
  let w := w.putString s
  { w with whitespace := isSpace, indention := w.indention && isIndention, openEnded := false }

def writePlain
    (w : Writer)
    (text : String) :
    Writer :=
  let w := if !w.whitespace && !text.isEmpty then w.put ' ' else w
  let w := w.putString text
  { w with whitespace := false, indention := false }

/- Writes a single-quoted scalar.  A line break is written as itself
(a line feed after a first one doubled) and starts a new line; the
next character, or the closing quote, stands at the indentation. -/
def writeSingleQuoted
    (w : Writer)
    (text : String) :
    Writer :=
  let w := w.indicator "'" true false false
  let (w, breaks) := text.foldl (fun (w, breaks) c =>
    if Chars.isBreak c then
      let w := if !breaks && c == '\n' then w.lineBreak else w
      let w := if c == '\n' then w.lineBreak else { w.put c with column := 0 }
      ({ w with indention := true }, true)
    else
      let w := if breaks then w.writeIndent else w
      let w := if c == '\'' then (w.put '\'').put '\'' else w.put c
      ({ w with indention := false }, false)) (w, false)
  let w := if breaks then w.writeIndent else w
  let w := w.indicator "'" false false false
  { w with whitespace := false, indention := false }

/- The escape of a character in a double-quoted scalar. -/
def escape (c : Char) : String :=
  let n := c.toNat
  match n with
  | 0x00 => "\\0"
  | 0x07 => "\\a"
  | 0x08 => "\\b"
  | 0x09 => "\\t"
  | 0x0A => "\\n"
  | 0x0B => "\\v"
  | 0x0C => "\\f"
  | 0x0D => "\\r"
  | 0x1B => "\\e"
  | 0x22 => "\\\""
  | 0x5C => "\\\\"
  | 0x85 => "\\N"
  | 0xA0 => "\\_"
  | 0x2028 => "\\L"
  | 0x2029 => "\\P"
  | _ =>
    let (mark, width) := if n ≤ 0xFF then ("x", 2) else if n ≤ 0xFFFF then ("u", 4) else ("U", 8)
    let digits := (List.range width).reverse.map fun k =>
      let d := n / Nat.pow 16 k % 16
      Char.ofNat (if d < 10 then 48 + d else 55 + d)
    "\\" ++ mark ++ String.ofList digits

def writeDoubleQuoted
    (w : Writer)
    (text : String) :
    Writer :=
  let w := w.indicator "\"" true false false
  let w := text.foldl (fun w c =>
    if !Scalar.isPrintable c || c == '\uFEFF' || Chars.isBreak c || c == '"' || c == '\\' then
      w.putString (escape c)
    else w.put c) w
  let w := w.indicator "\"" false false false
  { w with whitespace := false, indention := false }

/- The chomping indicator of a literal scalar: `-` when the text does
not end in a line break, `+` when it ends in two (or is one), none for
exactly one. -/
def chompingHint (text : String) : String :=
  let cs := text.toList.reverse
  match cs with
  | [] => "-"
  | c :: rest =>
    if !Chars.isBreak c then "-"
    else match rest with
      | [] => "+"
      | d :: _ => if Chars.isBreak d then "+" else ""

def writeLiteral
    (w : Writer)
    (text : String) :
    Writer :=
  let w := w.indicator "|" true false false
  let startsBlank := match text.toList with
    | c :: _ => c == ' ' || Chars.isBreak c
    | [] => false
  let w := if startsBlank then w.indicator "2" false false false else w
  let hint := chompingHint text
  let w := if hint.isEmpty then w else w.indicator hint false false false
  let w := { w with openEnded := hint == "+" }
  let w := { w.lineBreak with indention := true, whitespace := true }
  let (w, _) := text.foldl (fun (w, atLineStart) c =>
    if c == '\n' then ({ w.lineBreak with indention := true }, true)
    else if Chars.isBreak c then ({ (w.put c) with column := 0, indention := true }, true)
    else
      let w := if atLineStart then w.writeIndent else w
      ({ w.put c with indention := false }, false)) (w, true)
  w

/- Writes a scalar in its style. -/
def writeScalar
    (w : Writer)
    (style : WriteStyle)
    (text : String) :
    Writer :=
  match style with
  | .plain => w.writePlain text
  | .singleQuoted => w.writeSingleQuoted text
  | .doubleQuoted => w.writeDoubleQuoted text
  | .literal => w.writeLiteral text

/- Writes a scalar, choosing its style; block scalar lines are indented
one level deeper. -/
def scalar
    (w : Writer)
    (requested : Option WriteStyle)
    (key : Bool)
    (text : String) :
    Writer :=
  let outer := w.indent
  let w := { w with indent := w.increased true false }
  let w := w.writeScalar (Scalar.chooseStyle requested key text (Scalar.analyze text)) text
  { w with indent := outer }

mutual

/- Writes a node; `mappingValue` tells whether it is the value of a
mapping entry. -/
def node
    (w : Writer)
    (mappingValue : Bool) :
    Node → Writer
  | .plain text => w.scalar (some .plain) false text
  | .string text => w.scalar (Scalar.requestedStyle text) false text
  | .mapping [] => (w.indicator "\x7b" true true false).indicator "\x7d" false false false
  | .sequence [] => (w.indicator "[" true true false).indicator "]" false false false
  | .mapping (e :: es) =>
    let outer := w.indent
    { entries { w with indent := w.increased false false } (e :: es) with indent := outer }
  | .sequence (i :: is) =>
    let outer := w.indent
    let indent := w.increased false (mappingValue && !w.indention)
    { items { w with indent := indent } (i :: is) with indent := outer }

/- Writes the entries of a block mapping, one per line. -/
def entries (w : Writer) : List (String × Node) → Writer
  | [] => w
  | (k, v) :: rest =>
    let w := w.writeIndent
    let w := w.scalar (Scalar.requestedStyle k) true k
    let w := w.indicator ":" false false false
    entries (w.node true v) rest

/- Writes the items of a block sequence, one per `- `. -/
def items (w : Writer) : List Node → Writer
  | [] => w
  | v :: rest =>
    let w := w.writeIndent
    let w := w.indicator "-" true false true
    items (w.node false v) rest

end

end Writer

/- The text of a YAML document. -/
def Node.write (n : Node) : String :=
  let w : Writer := ⟨"", 0, -1, true, true, false⟩
  let w := (w.node false n).writeIndent
  let w := if w.openEnded then (w.indicator "..." true false false).writeIndent else w
  w.out

end Yaml

end NeuronFleet
