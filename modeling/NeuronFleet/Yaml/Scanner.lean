/-
  YAML text to tokens.

  The scanner turns a YAML text into tokens: stream and document
  markers, directives, block and flow collection indicators, keys,
  values, anchors, aliases, tags and scalars, each with the positions
  where it starts and ends.

  Block structure is made explicit.  The scanner keeps the stack of
  indentation columns and queues `blockMappingStart`,
  `blockSequenceStart` and `blockEnd` tokens as lines indent and
  dedent.  A scalar (or a flow collection, anchor, alias or tag)
  becomes a mapping key only when a `:` follows it on the same line,
  so the scanner remembers where such a *simple key* could start and
  inserts the `key` token there once the `:` shows up.  The queue is
  handed out only when no remembered key could still claim its head.

  Errors carry the problem and where it was found and, for most, what
  was being scanned and where that began.

  Main definitions:
    * `Mark`, `SyntaxError`, `Token`
    * `Scanner`, `Scanner.start`, `Scanner.peekToken`, `Scanner.skipToken`
-/

namespace NeuronFleet

namespace Yaml

------------------------------------------------------------
-- Positions and errors
------------------------------------------------------------

/- A position in a YAML text: characters before it, and its line and
column, all counted from zero. -/
structure Mark where
  index : Nat
  line : Nat
  column : Nat
  deriving Repr, DecidableEq, Inhabited

namespace Mark

/- Whether the position is the very start of the text. -/
def isStart (m : Mark) : Bool := m.line == 0 && m.column == 0

/- `line L column C`, counted from one. -/
def display (m : Mark) : String :=
  "line " ++ toString (m.line + 1) ++ " column " ++ toString (m.column + 1)

/- ` at line L column C`, or nothing at the start of the text. -/
def suffix (m : Mark) : String := if m.isStart then "" else " at " ++ m.display

end Mark

/- A syntax error: the problem and where it was found, what was being
read when it happened and where that began, and for a character the
text may not contain its byte offset. -/
structure SyntaxError where
  problem : String
  mark : Mark
  context : Option (String × Mark)
  offset : Nat
  deriving Repr, Inhabited

/- The text of a syntax error.  The position of the problem is left
out at the start of the text, where a byte offset stands instead when
there is one; the position of the context is given only when it
differs from the problem's. -/
def SyntaxError.message (e : SyntaxError) : String :=
  let place :=
    if !e.mark.isStart then " at " ++ e.mark.display
    else if e.offset ≠ 0 then " at position " ++ toString e.offset
    else ""
  let context := match e.context with
    | none => ""
    | some (c, m) =>
      ", " ++ c ++
        (if !m.isStart && (m.line ≠ e.mark.line || m.column ≠ e.mark.column) then
          " at " ++ m.display else "")
  e.problem ++ place ++ context

------------------------------------------------------------
-- Tokens
------------------------------------------------------------

/- How a scalar is written. -/
inductive ScalarStyle where
  | plain
  | singleQuoted
  | doubleQuoted
  | literal
  | folded
  deriving Repr, DecidableEq, Inhabited

/- The kinds of token. -/
inductive TokenKind where
  | streamStart
  | streamEnd
  | versionDirective (major minor : Nat)
  | tagDirective (handle expansion : String)
  | documentStart
  | documentEnd
  | blockSequenceStart
  | blockMappingStart
  | blockEnd
  | flowSequenceStart
  | flowSequenceEnd
  | flowMappingStart
  | flowMappingEnd
  | blockEntry
  | flowEntry
  | key
  | value
  | alias (name : String)
  | anchor (name : String)
  | tag (handle suffix : String)
  | scalar (text : String) (style : ScalarStyle)
  deriving Repr, Inhabited

/- A token and where it starts and stops. -/
structure Token where
  kind : TokenKind
  start : Mark
  stop : Mark
  deriving Repr, Inhabited

------------------------------------------------------------
-- Characters
------------------------------------------------------------

namespace Chars

/- The character standing for the end of the text. -/
def stop : Char := '\x00'

def isBreak (c : Char) : Bool :=
  c == '\r' || c == '\n' || c == '\u0085' || c == '\u2028' || c == '\u2029'

def isBlank (c : Char) : Bool := c == ' ' || c == '\t'

def isBreakOrEnd (c : Char) : Bool := isBreak c || c == stop

def isBlankOrEnd (c : Char) : Bool := isBlank c || isBreakOrEnd c

/- Letters, digits, `_` and `-`: the characters of anchors and
directive names. -/
def isWord (c : Char) : Bool := c.isAlphanum || c == '_' || c == '-'

def hexValue? (c : Char) : Option Nat :=
  if '0' ≤ c && c ≤ '9' then some (c.toNat - '0'.toNat)
  else if 'a' ≤ c && c ≤ 'f' then some (c.toNat - 'a'.toNat + 10)
  else if 'A' ≤ c && c ≤ 'F' then some (c.toNat - 'A'.toNat + 10)
  else none

/- Characters a YAML text may contain. -/
def isAllowed (c : Char) : Bool :=
  let n := c.toNat
  n == 0x09 || n == 0x0A || n == 0x0D || (0x20 ≤ n && n ≤ 0x7E) || n == 0x85 ||
    (0xA0 ≤ n && n ≤ 0xD7FF) || (0xE000 ≤ n && n ≤ 0xFFFD) || 0x10000 ≤ n

/- The flow indicators `,`, `[`, `]`, `{`, `}`. -/
def isFlowIndicator (c : Char) : Bool :=
  c == ',' || c == '[' || c == ']' || c == '\x7b' || c == '\x7d'

/- Characters that cannot start a plain scalar. -/
def isIndicator (c : Char) : Bool :=
  isFlowIndicator c || c == '-' || c == '?' || c == ':' || c == '#' || c == '&' ||
    c == '*' || c == '!' || c == '|' || c == '>' || c == '\'' || c == '"' || c == '%' ||
    c == '@' || c == '`'

/- Characters that may follow an anchor or alias name. -/
def endsName (c : Char) : Bool :=
  isBlankOrEnd c || c == '?' || c == ':' || c == ',' || c == ']' || c == '\x7d' ||
    c == '%' || c == '@' || c == '`'

/- Characters of a tag written as a URI; `verbatim` adds the flow
indicators allowed between `!<` and `>`. -/
def isUriChar
    (verbatim : Bool)
    (c : Char) :
    Bool :=
  isWord c || c == ';' || c == '/' || c == '?' || c == ':' || c == '@' || c == '&' ||
    c == '=' || c == '+' || c == '$' || c == '.' || c == '%' || c == '!' || c == '~' ||
    c == '*' || c == '\'' || c == '(' || c == ')' ||
    (verbatim && (c == ',' || c == '[' || c == ']'))

end Chars

open Chars

------------------------------------------------------------
-- Scanner state
------------------------------------------------------------

/- A place where a simple key could start. -/
structure SimpleKey where
  possible : Bool
  -- A key at the indentation column of a block mapping must turn out to be one
  required : Bool
  -- the number of the token the key would precede
  tokenNumber : Nat
  mark : Mark
  deriving Inhabited

/- The scanner's state.  Tokens are queued in `tokens`; those before
`parsed` were handed out. -/
structure Scanner where
  text : Array Char
  -- the byte offset of each character of the text, and of its end
  offsets : Array Nat
  mark : Mark
  tokens : Array Token
  parsed : Nat
  tokenAvailable : Bool
  started : Bool
  -- current indentation column, `-1` outside any block collection
  indent : Int
  indents : List Int
  -- whether a simple key may start here
  keyAllowed : Bool
  -- one possible simple key per flow level, innermost last
  keys : Array SimpleKey
  flowLevel : Nat
  deriving Inhabited

/- Scanning steps. -/
abbrev Scan := StateT Scanner (Except SyntaxError)

namespace Scanner

/- A scanner at the start of a text; a leading byte order mark is
dropped. -/
def start (text : String) : Scanner :=
  let cs := text.toList
  let cs := match cs with
    | '\uFEFF' :: rest => rest
    | _ => cs
  { text := cs.toArray, offsets := (cs.scanl (fun n c => n + c.utf8Size) 0).toArray, mark := ⟨0, 0, 0⟩, tokens := #[], parsed := 0, tokenAvailable := false,
    started := false, indent := -1, indents := [], keyAllowed := false, keys := #[],
    flowLevel := 0 }

/- The character `k` places ahead, `Chars.stop` past the end. -/
def peekChar
    (s : Scanner)
    (k : Nat) :
    Char := s.text.getD (s.mark.index + k) stop

/- Moves past one character of a line. -/
def advance (s : Scanner) : Scanner :=
  { s with mark := { s.mark with index := s.mark.index + 1, column := s.mark.column + 1 } }

/- Moves past a line break, `\r\n` counting as one. -/
def advanceLine (s : Scanner) : Scanner :=
  if s.peekChar 0 == '\r' && s.peekChar 1 == '\n' then
    { s with mark := ⟨s.mark.index + 2, s.mark.line + 1, 0⟩ }
  else if isBreak (s.peekChar 0) then
    { s with mark := ⟨s.mark.index + 1, s.mark.line + 1, 0⟩ }
  else s

/- The text a line break stands for in a scalar: a line feed, or the
line or paragraph separator itself. -/
def breakText (s : Scanner) : String :=
  let c := s.peekChar 0
  if c == '\u2028' || c == '\u2029' then c.toString else "\n"

/- Whether `---` or `...` followed by a blank starts here. -/
def atDocumentIndicator (s : Scanner) : Bool :=
  ((s.peekChar 0 == '-' && s.peekChar 1 == '-' && s.peekChar 2 == '-') ||
    (s.peekChar 0 == '.' && s.peekChar 1 == '.' && s.peekChar 2 == '.')) &&
    isBlankOrEnd (s.peekChar 3)

/- A bound on the steps of a loop that consumes a character a step. -/
def steps (s : Scanner) : Nat := s.text.size + 2 - s.mark.index

end Scanner

open Scanner

/- The next character. -/
def look (k : Nat := 0) : Scan Char := return (← get).peekChar k

def skip : Scan Unit := modify Scanner.advance

def skipLine : Scan Unit := modify Scanner.advanceLine

def here : Scan Mark := return (← get).mark

/- Skips characters while `p` holds. -/
def skipWhile (p : Char → Bool) : Scan Unit := do
  for _ in [0:(← get).steps] do
    if p (← look) then skip else break

/- Reads characters while `p` holds. -/
def readWhile (p : Char → Bool) : Scan String := do
  let mut out := ""
  for _ in [0:(← get).steps] do
    let c ← look
    if p c then
      out := out.push c
      skip
    else break
  return out

/- A scanning error at the current position. -/
def scanError
    (context : Option (String × Mark))
    (problem : String) :
    Scan α := do
  throw { problem, mark := (← get).mark, context, offset := 0 }

def enqueue
    (kind : TokenKind)
    (start stop : Mark) :
    Scan Unit :=
  modify fun s => { s with tokens := s.tokens.push ⟨kind, start, stop⟩ }

------------------------------------------------------------
-- Indentation and simple keys
------------------------------------------------------------

/- Closes the block collections indented deeper than `column`. -/
def unrollIndent (column : Int) : Scan Unit := do
  if (← get).flowLevel > 0 then return
  for _ in [0:(← get).indents.length + 1] do
    let s ← get
    if s.indent ≤ column then break
    match s.indents with
    | i :: rest =>
      set { s with tokens := s.tokens.push ⟨.blockEnd, s.mark, s.mark⟩, indent := i, indents := rest }
    | [] => break

/- Opens a block collection at `column` when it is deeper than the
current one; its start token goes at the end of the queue or before
token `number`. -/
def rollIndent
    (column : Int)
    (number : Option Nat)
    (kind : TokenKind)
    (mark : Mark) :
    Scan Unit := do
  let s ← get
  if s.flowLevel > 0 then return
  if s.indent < column then
    let t : Token := ⟨kind, mark, mark⟩
    let tokens := match number with
      | none => s.tokens.push t
      | some n => s.tokens.insertIdxIfInBounds n t
    set { s with indents := s.indent :: s.indents, indent := column, tokens }

/- The innermost possible simple key. -/
def topKey (s : Scanner) : SimpleKey := s.keys.back?.getD default

/- Forgets the innermost simple key; a required one is an error. -/
def removeSimpleKey : Scan Unit := do
  let s ← get
  let k := topKey s
  if k.possible && k.required then
    throw { problem := "could not find expected ':'", mark := s.mark,
            context := some ("while scanning a simple key", k.mark), offset := 0 }
  set { s with keys := s.keys.modify (s.keys.size - 1) fun k => { k with possible := false } }

/- Remembers that a simple key could start here. -/
def saveSimpleKey : Scan Unit := do
  let s ← get
  if s.keyAllowed then
    let required := s.flowLevel == 0 && s.indent == (s.mark.column : Int)
    let key : SimpleKey := ⟨true, required, s.tokens.size, s.mark⟩
    removeSimpleKey
    modify fun s => { s with keys := s.keys.set! (s.keys.size - 1) key }

/- The byte offset of a position. -/
def Scanner.byteOffset
    (s : Scanner)
    (m : Mark) :
    Nat := s.offsets.getD m.index 0

/- Whether simple key `i` can still become a key: it must lie on the
current line, at most 1024 bytes back.  A stale key is forgotten, or
is an error when it was required. -/
def keyStillPossible (i : Nat) : Scan Bool := do
  let s ← get
  let k := s.keys.getD i default
  if !k.possible then return false
  if k.mark.line < s.mark.line || s.byteOffset k.mark + 1024 < s.byteOffset s.mark then
    if k.required then
      throw { problem := "could not find expected ':'", mark := s.mark,
              context := some ("while scanning a simple key", k.mark), offset := 0 }
    set { s with keys := s.keys.modify i fun k => { k with possible := false } }
    return false
  return true

def increaseFlowLevel : Scan Unit :=
  modify fun s => { s with keys := s.keys.push default, flowLevel := s.flowLevel + 1 }

def decreaseFlowLevel : Scan Unit :=
  modify fun s =>
    if s.flowLevel > 0 then { s with flowLevel := s.flowLevel - 1, keys := s.keys.pop } else s

------------------------------------------------------------
-- Scalars
------------------------------------------------------------

/- Joins the text of a scalar across a line break: a single line feed
folds into a space, more line feeds keep all but the first, other
breaks are kept. -/
def foldBreaks (text leadingBreak trailingBreaks : String) : String :=
  if leadingBreak == "\n" then
    if trailingBreaks.isEmpty then text.push ' ' else text ++ trailingBreaks
  else text ++ leadingBreak ++ trailingBreaks

/- Reads a plain scalar. -/
def scanPlainScalar : Scan Token := do
  let start ← here
  let indent := (← get).indent + 1
  let mut text := ""
  let mut leadingBreak := ""
  let mut trailingBreaks := ""
  let mut whitespaces := ""
  let mut leadingBlanks := false
  let mut stop := start
  for _ in [0:(← get).steps] do
    let s ← get
    if s.mark.column == 0 && s.atDocumentIndicator then break
    if s.peekChar 0 == '#' then break
    for _ in [0:(← get).steps] do
      let s ← get
      let c := s.peekChar 0
      if isBlankOrEnd c then break
      if s.flowLevel > 0 && c == ':' && (isFlowIndicator (s.peekChar 1) || s.peekChar 1 == '?') then
        scanError (some ("while scanning a plain scalar", start)) "found unexpected ':'"
      if (c == ':' && isBlankOrEnd (s.peekChar 1)) || (s.flowLevel > 0 && isFlowIndicator c) then
        break
      if leadingBlanks then
        text := foldBreaks text leadingBreak trailingBreaks
        leadingBreak := ""
        trailingBreaks := ""
        leadingBlanks := false
      else if !whitespaces.isEmpty then
        text := text ++ whitespaces
        whitespaces := ""
      text := text.push c
      skip
      stop ← here
    let c ← look
    if !(isBlank c || isBreak c) then break
    for _ in [0:(← get).steps] do
      let s ← get
      let c := s.peekChar 0
      if isBlank c then
        if leadingBlanks && (s.mark.column : Int) < indent && c == '\t' then
          scanError (some ("while scanning a plain scalar", start))
            "found a tab character that violates indentation"
        if !leadingBlanks then whitespaces := whitespaces.push c
        skip
      else if isBreak c then
        if !leadingBlanks then
          whitespaces := ""
          leadingBreak := s.breakText
          leadingBlanks := true
        else
          trailingBreaks := trailingBreaks ++ s.breakText
        skipLine
      else break
    let s ← get
    if s.flowLevel == 0 && (s.mark.column : Int) < indent then break
  if leadingBlanks then modify fun s => { s with keyAllowed := true }
  return ⟨.scalar text .plain, start, stop⟩

/- The character a one-letter escape of a double-quoted scalar stands
for, or the number of hexadecimal digits that follow it. -/
def escapeOf (c : Char) : Option (Char ⊕ Nat) :=
  match c with
  | '0' => some (.inl '\x00')
  | 'a' => some (.inl '\x07')
  | 'b' => some (.inl '\x08')
  | 't' => some (.inl '\t')
  | '\t' => some (.inl '\t')
  | 'n' => some (.inl '\n')
  | 'v' => some (.inl '\x0B')
  | 'f' => some (.inl '\x0C')
  | 'r' => some (.inl '\r')
  | 'e' => some (.inl '\x1B')
  | ' ' => some (.inl ' ')
  | '"' => some (.inl '"')
  | '/' => some (.inl '/')
  | '\\' => some (.inl '\\')
  | 'N' => some (.inl '\u0085')
  | '_' => some (.inl '\u00A0')
  | 'L' => some (.inl '\u2028')
  | 'P' => some (.inl '\u2029')
  | 'x' => some (.inr 2)
  | 'u' => some (.inr 4)
  | 'U' => some (.inr 8)
  | _ => none

/- Reads the `n` hexadecimal digits of an escape. -/
def scanHexEscape
    (start : Mark)
    (n : Nat) :
    Scan Char := do
  let mut value := 0
  for k in [0:n] do
    match hexValue? (← look k) with
    | some d => value := 16 * value + d
    | none =>
      scanError (some ("while parsing a quoted scalar", start))
        "did not find expected hexadecimal number"
  if (0xD800 ≤ value && value ≤ 0xDFFF) || value > 0x10FFFF then
    scanError (some ("while parsing a quoted scalar", start))
      "found invalid Unicode character escape code"
  for _ in [0:n] do skip
  return Char.ofNat value

/- Reads a single- or double-quoted scalar. -/
def scanFlowScalar (single : Bool) : Scan Token := do
  let start ← here
  let quote := if single then '\'' else '"'
  skip
  let mut text := ""
  let mut leadingBreak := ""
  let mut trailingBreaks := ""
  let mut whitespaces := ""
  for _ in [0:(← get).steps] do
    let s ← get
    if s.mark.column == 0 && s.atDocumentIndicator then
      scanError (some ("while scanning a quoted scalar", start)) "found unexpected document indicator"
    if s.peekChar 0 == stop then
      scanError (some ("while scanning a quoted scalar", start)) "found unexpected end of stream"
    let mut leadingBlanks := false
    for _ in [0:(← get).steps] do
      let s ← get
      let c := s.peekChar 0
      if isBlankOrEnd c then break
      if single && c == '\'' && s.peekChar 1 == '\'' then
        text := text.push '\''
        skip
        skip
      else if c == quote then break
      else if !single && c == '\\' && isBreak (s.peekChar 1) then
        skip
        skipLine
        leadingBlanks := true
        break
      else if !single && c == '\\' then
        match escapeOf (s.peekChar 1) with
        | some (.inl e) =>
          text := text.push e
          skip
          skip
        | some (.inr n) =>
          skip
          skip
          text := text.push (← scanHexEscape start n)
        | none =>
          scanError (some ("while parsing a quoted scalar", start)) "found unknown escape character"
      else
        text := text.push c
        skip
    if (← look) == quote then break
    for _ in [0:(← get).steps] do
      let s ← get
      let c := s.peekChar 0
      if isBlank c then
        if !leadingBlanks then whitespaces := whitespaces.push c
        skip
      else if isBreak c then
        if !leadingBlanks then
          whitespaces := ""
          leadingBreak := s.breakText
          leadingBlanks := true
        else
          trailingBreaks := trailingBreaks ++ s.breakText
        skipLine
      else break
    if leadingBlanks then
      text := foldBreaks text leadingBreak trailingBreaks
      leadingBreak := ""
      trailingBreaks := ""
    else
      text := text ++ whitespaces
      whitespaces := ""
  skip
  return ⟨.scalar text (if single then .singleQuoted else .doubleQuoted), start, (← here)⟩

/- Skips the indentation and empty lines before a line of a block
scalar, collecting the line breaks.  With `indent = 0` the scalar's
indentation is still unknown and is fixed here by the deepest of those
lines, at least one deeper than the enclosing block. -/
def blockScalarBreaks
    (indent : Int)
    (start : Mark) :
    Scan (Int × String × Mark) := do
  let mut maxIndent : Nat := 0
  let mut stop ← here
  let mut breaks := ""
  for _ in [0:(← get).steps] do
    for _ in [0:(← get).steps] do
      let s ← get
      if (indent == 0 || (s.mark.column : Int) < indent) && s.peekChar 0 == ' ' then skip
      else break
    let s ← get
    if s.mark.column > maxIndent then maxIndent := s.mark.column
    if (indent == 0 || (s.mark.column : Int) < indent) && s.peekChar 0 == '\t' then
      scanError (some ("while scanning a block scalar", start))
        "found a tab character where an indentation space is expected"
    if !isBreak (s.peekChar 0) then break
    breaks := breaks ++ s.breakText
    skipLine
    stop ← here
  let blockIndent := (← get).indent
  let indent := if indent == 0 then max (max (maxIndent : Int) (blockIndent + 1)) 1 else indent
  return (indent, breaks, stop)

/- Reads a literal (`|`) or folded (`>`) block scalar. -/
def scanBlockScalar (literal : Bool) : Scan Token := do
  let start ← here
  skip
  let mut chomping : Int := 0
  let mut increment : Nat := 0
  let c ← look
  if c == '+' || c == '-' then
    chomping := if c == '+' then 1 else -1
    skip
    let d ← look
    if d.isDigit then
      if d == '0' then
        scanError (some ("while scanning a block scalar", start))
          "found an indentation indicator equal to 0"
      increment := d.toNat - '0'.toNat
      skip
  else if c.isDigit then
    if c == '0' then
      scanError (some ("while scanning a block scalar", start))
        "found an indentation indicator equal to 0"
    increment := c.toNat - '0'.toNat
    skip
    let d ← look
    if d == '+' || d == '-' then
      chomping := if d == '+' then 1 else -1
      skip
  skipWhile isBlank
  if (← look) == '#' then skipWhile fun c => !isBreakOrEnd c
  if !isBreakOrEnd (← look) then
    scanError (some ("while scanning a block scalar", start))
      "did not find expected comment or line break"
  if isBreak (← look) then skipLine
  let blockIndent := (← get).indent
  let indent : Int :=
    if increment ≠ 0 then
      (if blockIndent ≥ 0 then blockIndent + increment else increment)
    else 0
  let (indent, firstBreaks, firstStop) ← blockScalarBreaks indent start
  let mut stop := firstStop
  let mut text := ""
  let mut leadingBreak := ""
  let mut trailingBreaks := firstBreaks
  let mut leadingBlank := false
  for _ in [0:(← get).steps] do
    let s ← get
    if !((s.mark.column : Int) == indent && s.peekChar 0 != Chars.stop) then break
    let trailingBlank := isBlank (s.peekChar 0)
    if !literal && leadingBreak == "\n" && !leadingBlank && !trailingBlank then
      if trailingBreaks.isEmpty then text := text.push ' '
    else
      text := text ++ leadingBreak
    leadingBreak := ""
    text := text ++ trailingBreaks
    trailingBreaks := ""
    leadingBlank := isBlank (s.peekChar 0)
    text := text ++ (← readWhile fun c => !isBreakOrEnd c)
    let s ← get
    leadingBreak := if isBreak (s.peekChar 0) then s.breakText else ""
    skipLine
    let (_, breaks, st) ← blockScalarBreaks indent start
    trailingBreaks := breaks
    stop := st
  if chomping ≠ -1 then text := text ++ leadingBreak
  if chomping == 1 then text := text ++ trailingBreaks
  return ⟨.scalar text (if literal then .literal else .folded), start, stop⟩

------------------------------------------------------------
-- Anchors, tags and directives
------------------------------------------------------------

/- Reads an anchor `&name` or an alias `*name`. -/
def scanAnchor (isAlias : Bool) : Scan Token := do
  let start ← here
  skip
  let name ← readWhile isWord
  let stop ← here
  if name.isEmpty || !endsName (← look) then
    scanError (some (if isAlias then "while scanning an alias" else "while scanning an anchor", start))
      "did not find expected alphabetic or numeric character"
  return ⟨if isAlias then .alias name else .anchor name, start, stop⟩

/- Decodes a run of `%XX` escapes forming one UTF-8 character. -/
def scanUriEscapes
    (directive : Bool)
    (start : Mark) :
    Scan String := do
  let context := if directive then "while parsing a %TAG directive" else "while parsing a tag"
  let mut bytes : Array UInt8 := #[]
  let mut width := 0
  for _ in [0:4] do
    let s ← get
    match hexValue? (s.peekChar 1), hexValue? (s.peekChar 2) with
    | some hi, some lo =>
      if s.peekChar 0 != '%' then scanError (some (context, start)) "did not find URI escaped octet"
      let octet := 16 * hi + lo
      if width == 0 then
        width :=
          if octet < 0x80 then 1 else if octet / 32 == 6 then 2
          else if octet / 16 == 14 then 3 else if octet / 8 == 30 then 4 else 0
        if width == 0 then scanError (some (context, start)) "found an incorrect leading UTF-8 octet"
      else if octet / 64 != 2 then
        scanError (some (context, start)) "found an incorrect trailing UTF-8 octet"
      bytes := bytes.push octet.toUInt8
      skip
      skip
      skip
      if bytes.size ≥ width then break
    | _, _ => scanError (some (context, start)) "did not find URI escaped octet"
  return (String.fromUTF8? (ByteArray.mk bytes)).getD "\uFFFD"

/- Reads the URI part of a tag; `head` is a handle read before that
turned out to be part of it (its leading `!` dropped). -/
def scanTagUri
    (verbatim directive : Bool)
    (head : String)
    (start : Mark) :
    Scan String := do
  let mut out := (head.drop 1).toString
  let mut length := head.length
  for _ in [0:(← get).steps] do
    let c ← look
    if !isUriChar verbatim c then break
    if c == '%' then out := out ++ (← scanUriEscapes directive start)
    else
      out := out.push c
      skip
    length := length + 1
  if length == 0 then
    scanError (some (if directive then "while parsing a %TAG directive" else "while parsing a tag", start))
      "did not find expected tag URI"
  return out

/- Reads a tag handle `!`, `!!` or `!name!`. -/
def scanTagHandle
    (directive : Bool)
    (start : Mark) :
    Scan String := do
  if (← look) != '!' then
    scanError (some (if directive then "while scanning a tag directive" else "while scanning a tag", start))
      "did not find expected '!'"
  skip
  let mut handle := "!" ++ (← readWhile isWord)
  if (← look) == '!' then
    handle := handle.push '!'
    skip
  else if directive && handle != "!" then
    scanError (some ("while parsing a tag directive", start)) "did not find expected '!'"
  return handle

/- Reads a tag: `!<uri>`, `!handle!suffix`, `!suffix` or `!`. -/
def scanTag : Scan Token := do
  let start ← here
  let (handle, suffix) ←
    if (← look 1) == '<' then do
      skip
      skip
      let suffix ← scanTagUri true false "" start
      if (← look) != '>' then
        scanError (some ("while scanning a tag", start)) "did not find the expected '>'"
      skip
      pure ("", suffix)
    else do
      let handle ← scanTagHandle false start
      if handle.length > 1 && handle.startsWith "!" && handle.endsWith "!" then
        pure (handle, ← scanTagUri false false "" start)
      else
        let suffix ← scanTagUri false false handle start
        if suffix.isEmpty then pure ("", "!") else pure ("!", suffix)
  let s ← get
  if !isBlankOrEnd (s.peekChar 0) && !(s.flowLevel > 0 && s.peekChar 0 == ',') then
    scanError (some ("while scanning a tag", start)) "did not find expected whitespace or line break"
  return ⟨.tag handle suffix, start, s.mark⟩

/- Reads one number of a `%YAML` directive. -/
def scanVersionNumber (start : Mark) : Scan Nat := do
  let mut value := 0
  let mut length := 0
  for _ in [0:(← get).steps] do
    let c ← look
    if !c.isDigit then break
    length := length + 1
    if length > 9 then
      scanError (some ("while scanning a %YAML directive", start)) "found extremely long version number"
    value := 10 * value + (c.toNat - '0'.toNat)
    skip
  if length == 0 then
    scanError (some ("while scanning a %YAML directive", start)) "did not find expected version number"
  return value

/- Reads a directive line `%YAML major.minor` or `%TAG handle uri`. -/
def scanDirective : Scan Token := do
  let start ← here
  skip
  let name ← readWhile isWord
  if name.isEmpty then
    scanError (some ("while scanning a directive", start)) "could not find expected directive name"
  if !isBlankOrEnd (← look) then
    scanError (some ("while scanning a directive", start)) "found unexpected non-alphabetical character"
  let kind ←
    if name == "YAML" then do
      skipWhile isBlank
      let major ← scanVersionNumber start
      if (← look) != '.' then
        scanError (some ("while scanning a %YAML directive", start))
          "did not find expected digit or '.' character"
      skip
      let minor ← scanVersionNumber start
      pure (TokenKind.versionDirective major minor)
    else if name == "TAG" then do
      skipWhile isBlank
      let handle ← scanTagHandle true start
      if !isBlank (← look) then
        scanError (some ("while scanning a %TAG directive", start)) "did not find expected whitespace"
      skipWhile isBlank
      let expansion ← scanTagUri true true "" start
      if !isBlankOrEnd (← look) then
        scanError (some ("while scanning a %TAG directive", start))
          "did not find expected whitespace or line break"
      pure (TokenKind.tagDirective handle expansion)
    else scanError (some ("while scanning a directive", start)) "found unknown directive name"
  let stop ← here
  skipWhile isBlank
  if (← look) == '#' then skipWhile fun c => !isBreakOrEnd c
  if !isBreakOrEnd (← look) then
    scanError (some ("while scanning a directive", start)) "did not find expected comment or line break"
  if isBreak (← look) then skipLine
  return ⟨kind, start, stop⟩

------------------------------------------------------------
-- Fetching tokens
------------------------------------------------------------

/- Skips blanks, comments and line breaks up to the next token.  Tabs
are skipped only in flow context or where no simple key may start. -/
def scanToNextToken : Scan Unit := do
  for _ in [0:(← get).steps] do
    let s ← get
    if s.mark.column == 0 && s.peekChar 0 == '\uFEFF' then skip
    for _ in [0:(← get).steps] do
      let s ← get
      let c := s.peekChar 0
      if c == ' ' || ((s.flowLevel > 0 || !s.keyAllowed) && c == '\t') then skip else break
    if (← look) == '#' then skipWhile fun c => !isBreakOrEnd c
    if isBreak (← look) then
      skipLine
      if (← get).flowLevel == 0 then modify fun s => { s with keyAllowed := true }
    else break

/- Consumes a one-character indicator as a token. -/
def indicatorToken (kind : TokenKind) : Scan Unit := do
  let start ← here
  skip
  enqueue kind start (← here)

def fetchStreamStart : Scan Unit := do
  let m ← here
  modify fun s => { s with indent := -1, keys := s.keys.push default, keyAllowed := true,
                           started := true }
  enqueue .streamStart m m

def fetchStreamEnd : Scan Unit := do
  modify fun s =>
    if s.mark.column ≠ 0 then { s with mark := { s.mark with column := 0, line := s.mark.line + 1 } }
    else s
  unrollIndent (-1)
  removeSimpleKey
  modify fun s => { s with keyAllowed := false }
  let m ← here
  enqueue .streamEnd m m

def fetchDirective : Scan Unit := do
  unrollIndent (-1)
  removeSimpleKey
  modify fun s => { s with keyAllowed := false }
  let t ← scanDirective
  enqueue t.kind t.start t.stop

def fetchDocumentIndicator (kind : TokenKind) : Scan Unit := do
  unrollIndent (-1)
  removeSimpleKey
  modify fun s => { s with keyAllowed := false }
  let start ← here
  skip
  skip
  skip
  enqueue kind start (← here)

def fetchFlowCollectionStart (kind : TokenKind) : Scan Unit := do
  saveSimpleKey
  increaseFlowLevel
  modify fun s => { s with keyAllowed := true }
  indicatorToken kind

def fetchFlowCollectionEnd (kind : TokenKind) : Scan Unit := do
  removeSimpleKey
  decreaseFlowLevel
  modify fun s => { s with keyAllowed := false }
  indicatorToken kind

def fetchFlowEntry : Scan Unit := do
  removeSimpleKey
  modify fun s => { s with keyAllowed := true }
  indicatorToken .flowEntry

def fetchBlockEntry : Scan Unit := do
  let s ← get
  if s.flowLevel == 0 then
    if !s.keyAllowed then scanError none "block sequence entries are not allowed in this context"
    rollIndent s.mark.column none .blockSequenceStart s.mark
  removeSimpleKey
  modify fun s => { s with keyAllowed := true }
  indicatorToken .blockEntry

def fetchKey : Scan Unit := do
  let s ← get
  if s.flowLevel == 0 then
    if !s.keyAllowed then scanError none "mapping keys are not allowed in this context"
    rollIndent s.mark.column none .blockMappingStart s.mark
  removeSimpleKey
  modify fun s => { s with keyAllowed := s.flowLevel == 0 }
  indicatorToken .key

/- A `:`.  When a simple key is possible, the `key` token (and in block
context the mapping start) is inserted where the key began. -/
def fetchValue : Scan Unit := do
  let s ← get
  let k := topKey s
  if k.possible then
    modify fun s => { s with tokens := s.tokens.insertIdxIfInBounds k.tokenNumber ⟨.key, k.mark, k.mark⟩ }
    rollIndent k.mark.column (some k.tokenNumber) .blockMappingStart k.mark
    modify fun s => { s with keys := s.keys.modify (s.keys.size - 1) fun k => { k with possible := false },
                             keyAllowed := false }
  else
    if s.flowLevel == 0 then
      if !s.keyAllowed then scanError none "mapping values are not allowed in this context"
      rollIndent s.mark.column none .blockMappingStart s.mark
    modify fun s => { s with keyAllowed := s.flowLevel == 0 }
  indicatorToken .value

def fetchAnchor (isAlias : Bool) : Scan Unit := do
  saveSimpleKey
  modify fun s => { s with keyAllowed := false }
  let t ← scanAnchor isAlias
  enqueue t.kind t.start t.stop

def fetchTag : Scan Unit := do
  saveSimpleKey
  modify fun s => { s with keyAllowed := false }
  let t ← scanTag
  enqueue t.kind t.start t.stop

def fetchBlockScalar (literal : Bool) : Scan Unit := do
  removeSimpleKey
  modify fun s => { s with keyAllowed := true }
  let t ← scanBlockScalar literal
  enqueue t.kind t.start t.stop

def fetchFlowScalar (single : Bool) : Scan Unit := do
  saveSimpleKey
  modify fun s => { s with keyAllowed := false }
  let t ← scanFlowScalar single
  enqueue t.kind t.start t.stop

def fetchPlainScalar : Scan Unit := do
  saveSimpleKey
  modify fun s => { s with keyAllowed := false }
  let t ← scanPlainScalar
  enqueue t.kind t.start t.stop

/- Queues the next token (with the block ends and starts it implies). -/
def fetchNextToken : Scan Unit := do
  if !(← get).started then
    fetchStreamStart
    return
  scanToNextToken
  unrollIndent (← get).mark.column
  let s ← get
  let c := s.peekChar 0
  let next := s.peekChar 1
  if c == stop then fetchStreamEnd
  else if s.mark.column == 0 && c == '%' then fetchDirective
  else if s.mark.column == 0 && c == '-' && s.atDocumentIndicator then
    fetchDocumentIndicator .documentStart
  else if s.mark.column == 0 && c == '.' && s.atDocumentIndicator then
    fetchDocumentIndicator .documentEnd
  else if c == '[' then fetchFlowCollectionStart .flowSequenceStart
  else if c == '\x7b' then fetchFlowCollectionStart .flowMappingStart
  else if c == ']' then fetchFlowCollectionEnd .flowSequenceEnd
  else if c == '\x7d' then fetchFlowCollectionEnd .flowMappingEnd
  else if c == ',' then fetchFlowEntry
  else if c == '-' && isBlankOrEnd next then fetchBlockEntry
  else if c == '?' && (s.flowLevel > 0 || isBlankOrEnd next) then fetchKey
  else if c == ':' && (s.flowLevel > 0 || isBlankOrEnd next) then fetchValue
  else if c == '*' then fetchAnchor true
  else if c == '&' then fetchAnchor false
  else if c == '!' then fetchTag
  else if c == '|' && s.flowLevel == 0 then fetchBlockScalar true
  else if c == '>' && s.flowLevel == 0 then fetchBlockScalar false
  else if c == '\'' then fetchFlowScalar true
  else if c == '"' then fetchFlowScalar false
  else if !(isBlankOrEnd c || isIndicator c) || (c == '-' && !isBlank next) ||
      (s.flowLevel == 0 && (c == '?' || c == ':') && !isBlankOrEnd next) then
    fetchPlainScalar
  else
    scanError (some ("while scanning for the next token", s.mark))
      "found character that cannot start any token"

/- Whether more tokens must be fetched before the head of the queue is
final: the queue is empty, or a simple key could still claim the head. -/
def needMoreTokens : Scan Bool := do
  let s ← get
  if s.tokens.size ≤ s.parsed then return true
  let mut need := false
  for i in [0:s.keys.size] do
    if ← keyStillPossible i then
      if ((← get).keys.getD i default).tokenNumber == s.parsed then
        need := true
        break
  return need

def fetchMoreTokens : Scan Unit := do
  for _ in [0:(← get).steps + 2] do
    if !(← needMoreTokens) then break
    fetchNextToken
  modify fun s => { s with tokenAvailable := true }

namespace Scanner

/- The next token, fetched as needed. -/
def peekToken : Scan Token := do
  if !(← get).tokenAvailable then fetchMoreTokens
  let s ← get
  return s.tokens.getD s.parsed ⟨.streamEnd, s.mark, s.mark⟩

/- Hands out the next token. -/
def skipToken : Scan Unit :=
  modify fun s => { s with tokenAvailable := false, parsed := s.parsed + 1 }

end Scanner

end Yaml

end NeuronFleet
