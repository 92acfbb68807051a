import NeuronFleet.Yaml.Scanner

/-
  YAML text to tokens, as settings files are read.

  Settings files are read by a scanner of their own.  It makes the same
  tokens as the typed reader's scanner, but holds to its own rules:
    * only the line feed and the carriage return break lines, and a
      NUL character ends the text;
    * a tab may not indent a block line that has content, may not
      stand alone between `:` and a `-` or a word, and may not start
      the content of a block scalar;
    * a comment must follow a blank; after a quoted scalar only a
      comment, the end of the line, `:` or (in a flow collection) a
      flow indicator may follow on its line;
    * after `:` or a `-` that ends its line the block is one column
      deeper, so that a flow collection or a quoted scalar continued on
      the next lines must be indented past the key;
    * a simple key must lie on one line in block context, within 1024
      characters, and a key at the indentation of its block mapping
      that never meets its `:` is an error; in flow context keys may
      span lines;
    * flow collections nest at most 255 deep;
    * a key in a flow sequence opens a one-entry flow mapping of its
      own, closed by the next `,` or `]`;
    * a directive other than `%YAML` and `%TAG` is skipped;
    * `%XX` escapes in tags are joined octet by octet into one code
      point.

  Positions count characters from the start of the text.  An error is
  one line: what went wrong, then where.

  Main definitions:
    * `TreeError`, `TreeError.message`
    * `Tree.Scanner`, `Tree.Scanner.start`, `Tree.Scanner.peekToken`,
      `Tree.Scanner.skipToken`
-/

namespace NeuronFleet

namespace Yaml

------------------------------------------------------------
-- Errors
------------------------------------------------------------

/- Why a text did not load: what went wrong and where. -/
structure TreeError where
  info : String
  mark : Mark
  deriving Repr, Inhabited

/- `info at byte I line L column C`: the character offset, then the
line and column counted from one. -/
def TreeError.message (e : TreeError) : String :=
  e.info ++ " at byte " ++ toString e.mark.index ++ " line " ++ toString (e.mark.line + 1) ++
    " column " ++ toString (e.mark.column + 1)

namespace Tree

------------------------------------------------------------
-- Characters
------------------------------------------------------------

namespace Letters

/- The character standing for the end of the text. -/
def stop : Char := '\x00'

def isBreak (c : Char) : Bool := c == '\n' || c == '\r'

def isBreakz (c : Char) : Bool := isBreak c || c == stop

def isBlank (c : Char) : Bool := c == ' ' || c == '\t'

def isBlankOrBreakz (c : Char) : Bool := isBlank c || isBreakz c

/- The flow indicators `,`, `[`, `]`, `{`, `}`. -/
def isFlow (c : Char) : Bool :=
  c == ',' || c == '[' || c == ']' || c == '\x7b' || c == '\x7d'

/- ASCII letters and digits, `_` and `-`. -/
def isAlpha (c : Char) : Bool :=
  ('0' ≤ c && c ≤ '9') || ('a' ≤ c && c ≤ 'z') || ('A' ≤ c && c ≤ 'Z') || c == '_' || c == '-'

def isHex (c : Char) : Bool := (Chars.hexValue? c).isSome

/- Characters of a URI. -/
def isUriChar (c : Char) : Bool :=
  isAlpha c || "#;/?:@&=+$,_.!~*'()[]%".contains c

/- Characters of a tag's suffix: those of a URI but the flow
indicators and `!`. -/
def isTagChar (c : Char) : Bool := isUriChar c && !isFlow c && c != '!'

/- Characters of an anchor or alias name. -/
def isAnchorChar (c : Char) : Bool := !isBlankOrBreakz c && !isFlow c

end Letters

open Letters

------------------------------------------------------------
-- Scanner state
------------------------------------------------------------

/- An indentation level: the column of the level around it, and
whether leaving it closes a block collection (a level opened one
column deeper after `:` or `-` does not). -/
structure Indent where
  column : Int
  closesBlock : Bool

/- What a flow sequence knows of a key in it: one may open a mapping,
or one has, and the mapping is still open. -/
inductive Pairing where
  | possible
  | inside
  deriving DecidableEq

/- The scanner's state.  Tokens are queued in `tokens`; those before
`parsed` were handed out. -/
structure Scanner where
  text : Array Char
  mark : Mark
  tokens : Array Token
  parsed : Nat
  tokenAvailable : Bool
  started : Bool
  -- the position where a `:` may follow a flow key without a blank
  adjacentValueAt : Nat
  keyAllowed : Bool
  keys : Array SimpleKey
  indent : Int
  indents : List Indent
  flowLevel : Nat
  -- whether only blanks or line breaks were read since the last content character
  leadingWhitespace : Bool
  flowMappingStarted : Bool
  pairings : List Pairing
  deriving Inhabited

/- Scanning steps. -/
abbrev Scan := StateT Scanner (Except TreeError)

namespace Scanner

/- A scanner at the start of a text. -/
def start (text : String) : Scanner :=
  { text := text.toList.toArray, mark := ⟨0, 0, 0⟩, tokens := #[], parsed := 0,
    tokenAvailable := false, started := false, adjacentValueAt := 0, keyAllowed := true,
    keys := #[], indent := -1, indents := [], flowLevel := 0, leadingWhitespace := true,
    flowMappingStarted := false, pairings := [] }

/- The character `k` places ahead, `Letters.stop` past the end. -/
def peekChar
    (s : Scanner)
    (k : Nat) :
    Char := s.text.getD (s.mark.index + k) stop

/- A bound on the steps of a loop that consumes a character a step. -/
def steps (s : Scanner) : Nat := s.text.size + 2 - s.mark.index

/- Whether `---` or `...` followed by a blank starts a line here. -/
def atDocumentIndicator (s : Scanner) : Bool :=
  s.mark.column == 0 &&
    ((s.peekChar 0 == '-' && s.peekChar 1 == '-' && s.peekChar 2 == '-') ||
      (s.peekChar 0 == '.' && s.peekChar 1 == '.' && s.peekChar 2 == '.')) &&
    isBlankOrBreakz (s.peekChar 3)

end Scanner

def look (k : Nat := 0) : Scan Char := return (← get).peekChar k

def here : Scan Mark := return (← get).mark

/- Moves past a blank. -/
def skipBlank : Scan Unit :=
  modify fun s => { s with mark := { s.mark with index := s.mark.index + 1, column := s.mark.column + 1 },
                           leadingWhitespace := true }

/- Moves past a character of content. -/
def skipNonBlank : Scan Unit :=
  modify fun s => { s with mark := { s.mark with index := s.mark.index + 1, column := s.mark.column + 1 },
                           leadingWhitespace := false }

/- Moves past a line feed or carriage return, to the next line. -/
def skipNewline : Scan Unit :=
  modify fun s => { s with mark := ⟨s.mark.index + 1, s.mark.line + 1, 0⟩, leadingWhitespace := true }

/- Moves past a line break, `\r\n` counting as one. -/
def skipLineBreak : Scan Unit := do
  if (← look) == '\r' && (← look 1) == '\n' then
    skipBlank
    skipNewline
  else if isBreak (← look) then skipNewline

/- Moves past a line break, adding a line feed to `acc`. -/
def readBreak (acc : String) : Scan String := do
  if (← look) == '\r' && (← look 1) == '\n' then skipBlank
  skipNewline
  return acc.push '\n'

/- Skips content characters up to the end of the line. -/
def skipToLineEnd : Scan Unit := do
  for _ in [0:(← get).steps] do
    if isBreakz (← look) then break
    skipNonBlank

def fail
    (info : String)
    (m : Mark) :
    Scan α := throw ⟨info, m⟩

def enqueue
    (kind : TokenKind)
    (m : Mark) :
    Scan Unit :=
  modify fun s => { s with tokens := s.tokens.push ⟨kind, m, m⟩ }

def allowKey : Scan Unit := modify fun s => { s with keyAllowed := true }

def disallowKey : Scan Unit := modify fun s => { s with keyAllowed := false }

/- Skips blanks (tabs only when `tabs`) and a comment up to the end of
the line; gives whether a tab and whether a space were skipped.  A
comment right after a token, with no blank before it, is an error. -/
def skipBlanksToLineEnd (tabs : Bool) : Scan (Bool × Bool) := do
  let mut tab := false
  let mut space := false
  for _ in [0:(← get).steps] do
    let c ← look
    if c == ' ' then
      space := true
      skipBlank
    else if c == '\t' && tabs then
      tab := true
      skipBlank
    else if c == '#' then
      if !tab && !space then
        fail "comments must be separated from other tokens by whitespace" (← here)
      skipToLineEnd
    else break
  return (tab, space)

------------------------------------------------------------
-- Indentation and simple keys
------------------------------------------------------------

/- Closes the levels deeper than `column`, a block end for each block
collection among them. -/
def unrollIndent (column : Int) : Scan Unit := do
  if (← get).flowLevel > 0 then return
  for _ in [0:(← get).indents.length + 1] do
    let s ← get
    if s.indent ≤ column then break
    match s.indents with
    | i :: rest =>
      let tokens := if i.closesBlock then s.tokens.push ⟨.blockEnd, s.mark, s.mark⟩ else s.tokens
      set { s with indent := i.column, indents := rest, tokens }
    | [] => break

/- Opens a block collection at `column` when it is deeper than the
current level (after leaving a one-column level that was not a
block); its start token goes at the end of the queue or before token
`number`. -/
def rollIndent
    (column : Nat)
    (number : Option Nat)
    (kind : TokenKind)
    (m : Mark) :
    Scan Unit := do
  let s ← get
  if s.flowLevel > 0 then return
  let s := if s.indent ≤ (column : Int) then
      match s.indents with
      | i :: rest => if !i.closesBlock then { s with indent := i.column, indents := rest } else s
      | [] => s
    else s
  if s.indent < (column : Int) then
    let t : Token := ⟨kind, m, m⟩
    let tokens := match number with
      | none => s.tokens.push t
      | some n => s.tokens.insertIdxIfInBounds n t
    set { s with indents := ⟨s.indent, true⟩ :: s.indents, indent := column, tokens }
  else set s

/- Inside a block collection, makes what follows one column deeper. -/
def rollOneColumn : Scan Unit := modify fun s =>
  match s.indents with
  | i :: _ =>
    if s.flowLevel == 0 && i.closesBlock then
      { s with indents := ⟨s.indent, false⟩ :: s.indents, indent := s.indent + 1 }
    else s
  | [] => s

/- Leaves the one-column levels on top of the stack. -/
def unrollOneColumns : Scan Unit := do
  for _ in [0:(← get).indents.length + 1] do
    let s ← get
    match s.indents with
    | i :: rest =>
      if i.closesBlock then break
      set { s with indent := i.column, indents := rest }
    | [] => break

/- Remembers that a simple key could start here; it is required at
the indentation of a block collection. -/
def saveSimpleKey : Scan Unit := modify fun s =>
  if s.keyAllowed then
    let closes := match s.indents with
      | i :: _ => i.closesBlock
      | [] => false
    let required := s.flowLevel == 0 && s.indent == (s.mark.column : Int) && closes
    { s with keys := s.keys.set! (s.keys.size - 1) ⟨true, required, s.tokens.size, s.mark⟩ }
  else s

/- Forgets the innermost simple key; a required one is an error. -/
def removeSimpleKey : Scan Unit := do
  let s ← get
  let k := s.keys.back?.getD default
  if k.possible && k.required then fail "simple key expected" s.mark
  set { s with keys := s.keys.modify (s.keys.size - 1) fun k => { k with possible := false } }

/- Forgets the simple keys that can no longer be keys: in block
context, those on an earlier line or more than 1024 characters back.
A required one is an error. -/
def staleSimpleKeys : Scan Unit := do
  let s ← get
  if s.flowLevel > 0 then return
  let mut keys := s.keys
  for i in [0:keys.size] do
    let k := keys.getD i default
    if k.possible && (k.mark.line < s.mark.line || k.mark.index + 1024 < s.mark.index) then
      if k.required then fail "simple key expect ':'" s.mark
      keys := keys.modify i fun k => { k with possible := false }
  set { s with keys }

/- Enters a flow collection; more than 255 levels is an error. -/
def increaseFlowLevel : Scan Unit := do
  let s ← get
  if s.flowLevel ≥ 255 then fail "recursion limit exceeded" s.mark
  set { s with keys := s.keys.push default, flowLevel := s.flowLevel + 1 }

def decreaseFlowLevel : Scan Unit :=
  modify fun s =>
    if s.flowLevel > 0 then { s with flowLevel := s.flowLevel - 1, keys := s.keys.pop } else s

/- Closes the one-entry mapping a key opened in the innermost flow
sequence, if one is open. -/
def endImplicitMapping (m : Mark) : Scan Unit := modify fun s =>
  match s.pairings with
  | .inside :: rest =>
    { s with flowMappingStarted := false, pairings := .possible :: rest,
             tokens := s.tokens.push ⟨.flowMappingEnd, m, m⟩ }
  | _ => s

------------------------------------------------------------
-- Skipping to the next token
------------------------------------------------------------

/- Skips blanks, comments and line breaks up to the next token.  A tab
that indents a block line with content is an error. -/
def skipToNextToken : Scan Unit := do
  for _ in [0:(← get).steps] do
    let s ← get
    let c := s.peekChar 0
    if c == '\t' && !s.indents.isEmpty && s.leadingWhitespace && (s.mark.column : Int) < s.indent then
      let _ ← skipBlanksToLineEnd true
      if !isBreakz (← look) then
        fail "tabs disallowed within this context (block indentation)" (← here)
    else if c == '\t' || c == ' ' then skipBlank
    else if isBreak c then
      skipLineBreak
      if (← get).flowLevel == 0 then allowKey
    else if c == '#' then skipToLineEnd
    else break

------------------------------------------------------------
-- Scalars
------------------------------------------------------------

/- Joins the text of a flow or plain scalar across line breaks: one
break folds into a space, more keep all but the first. -/
def foldLines (text leadingBreak trailingBreaks : String) : String :=
  if leadingBreak.isEmpty then text ++ trailingBreaks
  else if trailingBreaks.isEmpty then text.push ' '
  else text ++ trailingBreaks

/- Whether the character here may go on in a plain scalar: not a `:`
before a blank (or before a flow indicator in a flow collection), and
not a flow indicator in a flow collection. -/
def continuesPlain (s : Scanner) : Bool :=
  let c := s.peekChar 0
  !((c == ':' && (isBlankOrBreakz (s.peekChar 1) || (s.flowLevel > 0 && isFlow (s.peekChar 1)))) ||
    (s.flowLevel > 0 && isFlow c))

/- Reads a plain scalar. -/
def scanPlainScalar : Scan Token := do
  unrollOneColumns
  let indent := (← get).indent + 1
  let start ← here
  let mut text := ""
  let mut leadingBreak := ""
  let mut trailingBreaks := ""
  let mut whitespaces := ""
  let mut leadingBlanks := false
  for _ in [0:(← get).steps] do
    let s ← get
    if s.atDocumentIndicator || s.peekChar 0 == '#' then break
    if s.flowLevel > 0 && s.peekChar 0 == '-' && isFlow (s.peekChar 1) then
      fail "plain scalar cannot start with '-' followed by ,[]\x7b\x7d" s.mark
    for _ in [0:(← get).steps] do
      let s ← get
      if isBlankOrBreakz (s.peekChar 0) || !continuesPlain s then break
      if leadingBlanks then
        text := foldLines text leadingBreak trailingBreaks
        leadingBreak := ""
        trailingBreaks := ""
        leadingBlanks := false
      else if !whitespaces.isEmpty then
        text := text ++ whitespaces
        whitespaces := ""
      text := text.push (s.peekChar 0)
      skipNonBlank
    let c ← look
    if !(isBlank c || isBreak c) then break
    for _ in [0:(← get).steps] do
      let s ← get
      let c := s.peekChar 0
      if isBlank c then
        if !leadingBlanks then
          whitespaces := whitespaces.push c
          skipBlank
        else if (s.mark.column : Int) < indent && c == '\t' then
          let _ ← skipBlanksToLineEnd true
          if !isBreakz (← look) then fail "while scanning a plain scalar, found a tab" start
        else skipBlank
      else if isBreak c then
        if leadingBlanks then trailingBreaks ← readBreak trailingBreaks
        else
          whitespaces := ""
          leadingBreak ← readBreak leadingBreak
          leadingBlanks := true
      else break
    let s ← get
    if s.flowLevel == 0 && (s.mark.column : Int) < indent then break
  if leadingBlanks then allowKey
  return ⟨.scalar text .plain, start, start⟩

/- Reads the escape after a backslash in a double-quoted scalar. -/
def scanEscape (start : Mark) : Scan Char := do
  let (value, width) : Char × Nat ← match ← look 1 with
    | '0' => pure ('\x00', 0)
    | 'a' => pure ('\x07', 0)
    | 'b' => pure ('\x08', 0)
    | 't' | '\t' => pure ('\t', 0)
    | 'n' => pure ('\n', 0)
    | 'v' => pure ('\x0B', 0)
    | 'f' => pure ('\x0C', 0)
    | 'r' => pure ('\r', 0)
    | 'e' => pure ('\x1B', 0)
    | ' ' => pure (' ', 0)
    | '"' => pure ('"', 0)
    | '/' => pure ('/', 0)
    | '\\' => pure ('\\', 0)
    | 'N' => pure ('\u0085', 0)
    | '_' => pure (' ', 0)
    | 'L' => pure (' ', 0)
    | 'P' => pure (' ', 0)
    | 'x' => pure (' ', 2)
    | 'u' => pure (' ', 4)
    | 'U' => pure (' ', 8)
    | _ => fail "while parsing a quoted scalar, found unknown escape character" start
  skipNonBlank
  skipNonBlank
  if width == 0 then return value
  let mut code := 0
  for k in [0:width] do
    match Chars.hexValue? (← look k) with
    | some d => code := 16 * code + d
    | none => fail "while parsing a quoted scalar, did not find expected hexadecimal number" start
  if (0xD800 ≤ code && code ≤ 0xDFFF) || code > 0x10FFFF then
    fail "while parsing a quoted scalar, found invalid Unicode character escape code" start
  for _ in [0:width] do skipNonBlank
  return Char.ofNat code

/- Reads a single- or double-quoted scalar, and checks what follows it
on its line. -/
def scanFlowScalar (single : Bool) : Scan Token := do
  let start ← here
  let quote := if single then '\'' else '"'
  skipNonBlank
  let mut text := ""
  let mut leadingBreak := ""
  let mut trailingBreaks := ""
  let mut whitespaces := ""
  for _ in [0:(← get).steps] do
    let s ← get
    if s.atDocumentIndicator then
      fail "while scanning a quoted scalar, found unexpected document indicator" start
    if s.peekChar 0 == stop then
      fail "while scanning a quoted scalar, found unexpected end of stream" start
    if (s.mark.column : Int) < s.indent then fail "invalid indentation in quoted scalar" start
    let mut leadingBlanks := false
    for _ in [0:(← get).steps] do
      let s ← get
      let c := s.peekChar 0
      if isBlankOrBreakz c then break
      if single && c == '\'' && s.peekChar 1 == '\'' then
        text := text.push '\''
        skipNonBlank
        skipNonBlank
      else if c == quote then break
      else if !single && c == '\\' && isBreak (s.peekChar 1) then
        skipNonBlank
        skipLineBreak
        leadingBlanks := true
        break
      else if !single && c == '\\' then
        text := text.push (← scanEscape start)
      else
        text := text.push c
        skipNonBlank
    if (← look) == quote then break
    for _ in [0:(← get).steps] do
      let s ← get
      let c := s.peekChar 0
      if isBlank c then
        if leadingBlanks then
          if c == '\t' && (s.mark.column : Int) < s.indent then
            fail "tab cannot be used as indentation" s.mark
          skipBlank
        else
          whitespaces := whitespaces.push c
          skipBlank
      else if isBreak c then
        if leadingBlanks then trailingBreaks ← readBreak trailingBreaks
        else
          whitespaces := ""
          leadingBreak ← readBreak leadingBreak
          leadingBlanks := true
      else break
    if leadingBlanks then
      text := foldLines text leadingBreak trailingBreaks
      leadingBreak := ""
      trailingBreaks := ""
    else
      text := text ++ whitespaces
      whitespaces := ""
  skipNonBlank
  let _ ← skipBlanksToLineEnd true
  let s ← get
  let c := s.peekChar 0
  let fine :=
    (s.flowLevel > 0 && (c == ',' || c == '\x7d' || c == ']')) || isBreakz c ||
      (c == ':' && (s.flowLevel > 0 || start.line == s.mark.line))
  if !fine then fail "invalid trailing content after double-quoted scalar" s.mark
  return ⟨.scalar text (if single then .singleQuoted else .doubleQuoted), start, start⟩

/- Skips the indentation of the first lines of a block scalar, empty
lines collected as line feeds, and fixes the scalar's indentation by
the deepest of them, at least one past the enclosing level. -/
def blockScalarFirstIndent (breaks : String) : Scan (Nat × String) := do
  let mut maxIndent := 0
  let mut breaks := breaks
  for _ in [0:(← get).steps] do
    for _ in [0:(← get).steps] do
      if (← look) == ' ' then skipBlank else break
    let s ← get
    if s.mark.column > maxIndent then maxIndent := s.mark.column
    if isBreak (s.peekChar 0) then breaks ← readBreak breaks
    else break
  let level := (← get).indent
  let indent := Nat.max maxIndent (level + 1).toNat
  return (if level > 0 then Nat.max indent 1 else indent, breaks)

/- Skips the indentation (up to `indent` spaces) and the empty lines
before a line of a block scalar, collecting line feeds. -/
def blockScalarIndent
    (indent : Nat)
    (breaks : String) :
    Scan String := do
  let mut breaks := breaks
  for _ in [0:(← get).steps] do
    for _ in [0:(← get).steps] do
      let s ← get
      if s.mark.column < indent && s.peekChar 0 == ' ' then skipBlank else break
    if isBreak (← look) then breaks ← readBreak breaks
    else break
  return breaks

/- How a block scalar treats its final line breaks. -/
inductive Chomping where
  | strip
  | clip
  | keep
  deriving DecidableEq

/- Reads a literal (`|`) or folded (`>`) block scalar. -/
def scanBlockScalar (literal : Bool) : Scan Token := do
  let start ← here
  let style : ScalarStyle := if literal then .literal else .folded
  skipNonBlank
  unrollOneColumns
  let mut chomping := Chomping.clip
  let mut increment : Nat := 0
  let c ← look
  if c == '+' || c == '-' then
    chomping := if c == '+' then .keep else .strip
    skipNonBlank
    let d ← look
    if d.isDigit then
      if d == '0' then
        fail "while scanning a block scalar, found an indentation indicator equal to 0" start
      increment := d.toNat - '0'.toNat
      skipNonBlank
  else if c.isDigit then
    if c == '0' then
      fail "while scanning a block scalar, found an indentation indicator equal to 0" start
    increment := c.toNat - '0'.toNat
    skipNonBlank
    let d ← look
    if d == '+' || d == '-' then
      chomping := if d == '+' then .keep else .strip
      skipNonBlank
  let _ ← skipBlanksToLineEnd true
  if !isBreakz (← look) then
    fail "while scanning a block scalar, did not find expected comment or line break" start
  let mut chompingBreak := ""
  if isBreak (← look) then chompingBreak ← readBreak ""
  if (← look) == '\t' then fail "a block scalar content cannot start with a tab" start
  let level := (← get).indent
  let (indent, firstBreaks) ←
    if increment > 0 then do
      let indent := if level ≥ 0 then (level + increment).toNat else increment
      pure (indent, ← blockScalarIndent indent "")
    else blockScalarFirstIndent ""
  let mut trailingBreaks := firstBreaks
  if (← look) == stop then
    let s ← get
    let text :=
      if chomping == .strip then ""
      else if s.mark.line == start.line then ""
      else if chomping == .clip then chompingBreak
      else if trailingBreaks.isEmpty then chompingBreak
      else trailingBreaks
    return ⟨.scalar text style, start, start⟩
  let s ← get
  if s.mark.column < indent && (s.mark.column : Int) > s.indent then
    fail "wrongly indented line in block scalar" s.mark
  let mut text := ""
  let mut leadingBreak := ""
  let mut leadingBlank := false
  for _ in [0:(← get).steps] do
    let s ← get
    if !(s.mark.column == indent && s.peekChar 0 != stop) then break
    if indent == 0 && s.atDocumentIndicator then break
    let trailingBlank := isBlank (s.peekChar 0)
    if !literal && !leadingBreak.isEmpty && !leadingBlank && !trailingBlank then
      text := text ++ trailingBreaks
      if trailingBreaks.isEmpty then text := text.push ' '
    else
      text := text ++ leadingBreak ++ trailingBreaks
    leadingBreak := ""
    trailingBreaks := ""
    leadingBlank := trailingBlank
    for _ in [0:(← get).steps] do
      let c ← look
      if isBreakz c then break
      text := text.push c
      skipBlank
    if (← look) == stop then break
    leadingBreak ← readBreak ""
    trailingBreaks ← blockScalarIndent indent ""
  if chomping != .strip then
    text := text ++ leadingBreak
    let s ← get
    if s.peekChar 0 == stop && s.mark.column ≥ Nat.max indent 1 then text := text.push '\n'
  if chomping == .keep then text := text ++ trailingBreaks
  return ⟨.scalar text style, start, start⟩

------------------------------------------------------------
-- Anchors, tags and directives
------------------------------------------------------------

/- Reads an anchor `&name` or an alias `*name`. -/
def scanAnchor (isAlias : Bool) : Scan Token := do
  let start ← here
  skipNonBlank
  let mut name := ""
  for _ in [0:(← get).steps] do
    let c ← look
    if !isAnchorChar c then break
    name := name.push c
    skipNonBlank
  if name.isEmpty then
    fail "while scanning an anchor or alias, did not find expected alphabetic or numeric character" start
  return ⟨if isAlias then .alias name else .anchor name, start, start⟩

/- Reads a run of `%XX` escapes of one character; the octets are
joined as a number, most significant first. -/
def scanUriEscapes (start : Mark) : Scan String := do
  let mut width := 0
  let mut code := 0
  for _ in [0:4] do
    let s ← get
    match s.peekChar 0 == '%', Chars.hexValue? (s.peekChar 1), Chars.hexValue? (s.peekChar 2) with
    | true, some hi, some lo =>
      let octet := 16 * hi + lo
      if width == 0 then
        width :=
          if octet < 0x80 then 1 else if octet / 32 == 6 then 2
          else if octet / 16 == 14 then 3 else if octet / 8 == 30 then 4 else 0
        if width == 0 then fail "while parsing a tag, found an incorrect leading UTF-8 octet" start
        code := octet
      else
        if octet / 64 != 2 then fail "while parsing a tag, found an incorrect trailing UTF-8 octet" start
        code := 256 * code + octet
      skipNonBlank
      skipNonBlank
      skipNonBlank
      width := width - 1
      if width == 0 then break
    | _, _, _ => fail "while parsing a tag, did not find URI escaped octet" start
  if (0xD800 ≤ code && code ≤ 0xDFFF) || code > 0x10FFFF then
    fail "while parsing a tag, found an invalid UTF-8 codepoint" start
  return (Char.ofNat code).toString

/- Reads characters while `p` holds, `%XX` escapes decoded. -/
def scanUriWhile
    (p : Char → Bool)
    (start : Mark)
    (acc : String) :
    Scan String := do
  let mut out := acc
  for _ in [0:(← get).steps] do
    let c ← look
    if !p c then break
    if c == '%' then out := out ++ (← scanUriEscapes start)
    else
      out := out.push c
      skipNonBlank
  return out

/- Reads a tag handle `!`, `!!` or `!name!`, or the `!name` start of a
local tag. -/
def scanTagHandle
    (directive : Bool)
    (start : Mark) :
    Scan String := do
  if (← look) != '!' then fail "while scanning a tag, did not find expected '!'" start
  let mut handle := "!"
  skipNonBlank
  for _ in [0:(← get).steps] do
    let c ← look
    if !isAlpha c then break
    handle := handle.push c
    skipNonBlank
  if (← look) == '!' then
    handle := handle.push '!'
    skipNonBlank
  else if directive && handle != "!" then
    fail "while parsing a tag directive, did not find expected '!'" start
  return handle

/- Reads a tag: `!<uri>`, `!handle!suffix`, `!suffix` or `!`. -/
def scanTag : Scan Token := do
  let start ← here
  let (handle, suffix) ←
    if (← look 1) == '<' then do
      skipNonBlank
      skipNonBlank
      let suffix ← scanUriWhile isUriChar start ""
      if (← look) != '>' then fail "while scanning a verbatim tag, did not find the expected '>'" start
      skipNonBlank
      pure ("", suffix)
    else do
      let handle ← scanTagHandle false start
      if handle.length ≥ 2 && handle.startsWith "!" && handle.endsWith "!" then
        pure (handle, ← scanUriWhile isTagChar start "")
      else
        let suffix ← scanUriWhile isTagChar start (handle.drop 1).toString
        if suffix.isEmpty then pure ("", "!") else pure ("!", suffix)
  let s ← get
  if !(isBlankOrBreakz (s.peekChar 0) || (s.flowLevel > 0 && isFlow (s.peekChar 0))) then
    fail "while scanning a tag, did not find expected whitespace or line break" start
  return ⟨.tag handle suffix, start, start⟩

/- Reads one number of a `%YAML` directive. -/
def scanVersionNumber (start : Mark) : Scan Nat := do
  let mut value := 0
  let mut length := 0
  for _ in [0:(← get).steps] do
    let c ← look
    if !c.isDigit then break
    if length + 1 > 9 then
      fail "while scanning a YAML directive, found extremely long version number" start
    length := length + 1
    value := 10 * value + (c.toNat - '0'.toNat)
    skipNonBlank
  if length == 0 then
    fail "while scanning a YAML directive, did not find expected version number" start
  return value

/- Skips blanks. -/
def skipBlanks : Scan Unit := do
  for _ in [0:(← get).steps] do
    if isBlank (← look) then skipBlank else break

/- Reads a directive line: `%YAML major.minor`, `%TAG handle prefix`,
or another directive, skipped as an empty `%TAG`. -/
def scanDirective : Scan Token := do
  let start ← here
  skipNonBlank
  let nameStart ← here
  let mut name := ""
  for _ in [0:(← get).steps] do
    let c ← look
    if !isAlpha c then break
    name := name.push c
    skipNonBlank
  if name.isEmpty then
    fail "while scanning a directive, could not find expected directive name" nameStart
  if !isBlankOrBreakz (← look) then
    fail "while scanning a directive, found unexpected non-alphabetical character" nameStart
  let kind ←
    if name == "YAML" then do
      skipBlanks
      let major ← scanVersionNumber start
      if (← look) != '.' then
        fail "while scanning a YAML directive, did not find expected digit or '.' character" start
      skipNonBlank
      let minor ← scanVersionNumber start
      pure (TokenKind.versionDirective major minor)
    else if name == "TAG" then do
      skipBlanks
      let handle ← scanTagHandle true start
      skipBlanks
      let c ← look
      let first ←
        if c == '!' then do
          skipNonBlank
          pure "!"
        else if !isTagChar c then fail "invalid global tag character" start
        else if c == '%' then scanUriEscapes start
        else do
          skipNonBlank
          pure c.toString
      let pfx ← scanUriWhile isUriChar start first
      if !isBlankOrBreakz (← look) then
        fail "while scanning TAG, did not find expected whitespace or line break" start
      pure (TokenKind.tagDirective handle pfx)
    else do
      skipToLineEnd
      pure (TokenKind.tagDirective "" "")
  skipBlanks
  if (← look) == '#' then skipToLineEnd
  if !isBreakz (← look) then
    fail "while scanning a directive, did not find expected comment or line break" start
  if isBreak (← look) then skipLineBreak
  return ⟨kind, start, start⟩

------------------------------------------------------------
-- Fetching tokens
------------------------------------------------------------

def fetchStreamStart : Scan Unit := do
  let m ← here
  modify fun s => { s with indent := -1, started := true, keyAllowed := true,
                           keys := s.keys.push default }
  enqueue .streamStart m

/- The end of the text: a required key still waiting is an error. -/
def fetchStreamEnd : Scan Unit := do
  modify fun s =>
    if s.mark.column ≠ 0 then { s with mark := { s.mark with column := 0, line := s.mark.line + 1 } }
    else s
  let s ← get
  if s.keys.any fun k => k.required && k.possible then fail "simple key expected" s.mark
  set { s with keys := s.keys.map fun (k : SimpleKey) => { k with possible := false } }
  unrollIndent (-1)
  removeSimpleKey
  disallowKey
  enqueue .streamEnd (← here)

def fetchDirective : Scan Unit := do
  unrollIndent (-1)
  removeSimpleKey
  disallowKey
  let t ← scanDirective
  enqueue t.kind t.start

def fetchDocumentIndicator (kind : TokenKind) : Scan Unit := do
  unrollIndent (-1)
  removeSimpleKey
  disallowKey
  let m ← here
  skipNonBlank
  skipNonBlank
  skipNonBlank
  enqueue kind m

def fetchFlowCollectionStart (mapping : Bool) : Scan Unit := do
  saveSimpleKey
  rollOneColumn
  increaseFlowLevel
  allowKey
  let m ← here
  skipNonBlank
  if mapping then modify fun s => { s with flowMappingStarted := true }
  else modify fun s => { s with pairings := .possible :: s.pairings }
  let _ ← skipBlanksToLineEnd true
  enqueue (if mapping then .flowMappingStart else .flowSequenceStart) m

def fetchFlowCollectionEnd (mapping : Bool) : Scan Unit := do
  removeSimpleKey
  decreaseFlowLevel
  disallowKey
  if !mapping then
    endImplicitMapping (← here)
    modify fun s => { s with pairings := s.pairings.tail }
  let m ← here
  skipNonBlank
  let _ ← skipBlanksToLineEnd true
  modify fun s => if s.flowLevel > 0 then { s with adjacentValueAt := s.mark.index } else s
  enqueue (if mapping then .flowMappingEnd else .flowSequenceEnd) m

def fetchFlowEntry : Scan Unit := do
  removeSimpleKey
  allowKey
  endImplicitMapping (← here)
  let m ← here
  skipNonBlank
  let _ ← skipBlanksToLineEnd true
  enqueue .flowEntry m

def fetchBlockEntry : Scan Unit := do
  let s ← get
  if s.flowLevel > 0 then fail "\"-\" is only valid inside a block" s.mark
  if !s.keyAllowed then fail "block sequence entries are not allowed in this context" s.mark
  if s.tokens.size > s.parsed then
    match s.tokens.back? with
    | some t =>
      match t.kind with
      | .anchor _ | .tag .. =>
        if s.mark.column == 0 && t.start.column == 0 && s.indent > -1 then
          fail "invalid indentation for anchor" t.start
      | _ => pure ()
    | none => pure ()
  let m ← here
  skipNonBlank
  rollIndent m.column none .blockSequenceStart m
  let (tab, _) ← skipBlanksToLineEnd true
  if tab && (← look) == '-' && isBlankOrBreakz (← look 1) then
    fail "'-' must be followed by a valid YAML whitespace" (← here)
  let _ ← skipBlanksToLineEnd false
  let c ← look
  if isBreak c || isFlow c then rollOneColumn
  removeSimpleKey
  allowKey
  enqueue .blockEntry m

/- Skips the blanks after `?`: at least one space or line break. -/
def skipKeySpace : Scan Unit := do
  let mut spaced := false
  for _ in [0:(← get).steps] do
    let c ← look
    if c == ' ' then
      skipBlank
      spaced := true
    else if isBreak c then
      skipLineBreak
      if (← get).flowLevel == 0 then allowKey
      spaced := true
    else if c == '#' then skipToLineEnd
    else break
  if !spaced then fail "expected whitespace" (← here)

def fetchKey : Scan Unit := do
  let s ← get
  let m := s.mark
  if s.flowLevel == 0 then
    if !s.keyAllowed then fail "mapping keys are not allowed in this context" m
    rollIndent m.column none .blockMappingStart m
  else modify fun s => { s with flowMappingStarted := true }
  removeSimpleKey
  if (← get).flowLevel == 0 then allowKey else disallowKey
  skipNonBlank
  skipKeySpace
  if (← look) == '\t' then fail "tabs disallowed in this context" (← here)
  enqueue .key m

/- A `:`.  When a simple key is possible, the `key` token (in block
context with the mapping start, in a flow sequence with the start of
a one-entry mapping) is inserted where the key began. -/
def fetchValue : Scan Unit := do
  let s ← get
  let k := s.keys.back?.getD default
  let start := s.mark
  let implicit := match s.pairings with
    | _ :: _ => !s.flowMappingStarted
    | [] => false
  if implicit then
    modify fun s => { s with pairings := .inside :: s.pairings.tail }
  skipNonBlank
  if (← look) == '\t' then
    let (_, space) ← skipBlanksToLineEnd true
    let c ← look
    if !space && (c == '-' || isAlpha c) then
      fail "':' must be followed by a valid YAML whitespace" (← here)
  if k.possible then
    modify fun s => { s with tokens := s.tokens.insertIdxIfInBounds k.tokenNumber ⟨.key, k.mark, k.mark⟩ }
    if implicit then
      if k.mark.line < start.line then fail "illegal placement of ':' indicator" start
      modify fun s =>
        { s with tokens := s.tokens.insertIdxIfInBounds k.tokenNumber ⟨.flowMappingStart, start, start⟩ }
    rollIndent k.mark.column (some k.tokenNumber) .blockMappingStart start
    rollOneColumn
    modify fun s => { s with keys := s.keys.modify (s.keys.size - 1) fun k => { k with possible := false } }
    disallowKey
  else
    if implicit then enqueue .flowMappingStart start
    if (← get).flowLevel == 0 then
      if !(← get).keyAllowed then fail "mapping values are not allowed in this context" start
      rollIndent start.column none .blockMappingStart start
    rollOneColumn
    if (← get).flowLevel == 0 then allowKey else disallowKey
  enqueue .value start

def fetchAnchor (isAlias : Bool) : Scan Unit := do
  saveSimpleKey
  disallowKey
  let t ← scanAnchor isAlias
  enqueue t.kind t.start

def fetchTag : Scan Unit := do
  saveSimpleKey
  disallowKey
  let t ← scanTag
  enqueue t.kind t.start

def fetchBlockScalar (literal : Bool) : Scan Unit := do
  saveSimpleKey
  allowKey
  let t ← scanBlockScalar literal
  enqueue t.kind t.start

def fetchFlowScalar (single : Bool) : Scan Unit := do
  saveSimpleKey
  disallowKey
  let t ← scanFlowScalar single
  skipToNextToken
  modify fun s => { s with adjacentValueAt := s.mark.index }
  enqueue t.kind t.start

def fetchPlainScalar : Scan Unit := do
  saveSimpleKey
  disallowKey
  let t ← scanPlainScalar
  enqueue t.kind t.start

/- Queues the next token (with the block ends and starts it implies). -/
def fetchNextToken : Scan Unit := do
  if !(← get).started then
    fetchStreamStart
    return
  skipToNextToken
  staleSimpleKeys
  unrollIndent (← get).mark.column
  let s ← get
  let c := s.peekChar 0
  let next := s.peekChar 1
  if c == stop then
    fetchStreamEnd
    return
  if s.mark.column == 0 && c == '%' then
    fetchDirective
    return
  if s.atDocumentIndicator && c == '-' then
    fetchDocumentIndicator .documentStart
    return
  if s.atDocumentIndicator && c == '.' then
    fetchDocumentIndicator .documentEnd
    let _ ← skipBlanksToLineEnd true
    if !isBreakz (← look) then fail "invalid content after document end marker" (← here)
    return
  if (s.mark.column : Int) < s.indent then fail "invalid indentation" s.mark
  if c == '[' then fetchFlowCollectionStart false
  else if c == '\x7b' then fetchFlowCollectionStart true
  else if c == ']' then fetchFlowCollectionEnd false
  else if c == '\x7d' then fetchFlowCollectionEnd true
  else if c == ',' then fetchFlowEntry
  else if c == '-' && isBlankOrBreakz next then fetchBlockEntry
  else if c == '?' && isBlankOrBreakz next then fetchKey
  else if c == ':' && (isBlankOrBreakz next ||
      (s.flowLevel > 0 && (isFlow next || s.mark.index == s.adjacentValueAt))) then fetchValue
  else if c == '*' then fetchAnchor true
  else if c == '&' then fetchAnchor false
  else if c == '!' then fetchTag
  else if c == '|' && s.flowLevel == 0 then fetchBlockScalar true
  else if c == '>' && s.flowLevel == 0 then fetchBlockScalar false
  else if c == '\'' then fetchFlowScalar true
  else if c == '"' then fetchFlowScalar false
  else if c == '%' || c == '@' || c == '`' then
    fail ("unexpected character: \x60" ++ c.toString ++ "'") s.mark
  else fetchPlainScalar

/- Whether more tokens must be fetched before the head of the queue is
final: the queue is empty, or a simple key could still claim the head. -/
def needMoreTokens : Scan Bool := do
  let s ← get
  if s.tokens.size ≤ s.parsed then return true
  staleSimpleKeys
  let s ← get
  return s.keys.any fun k => k.possible && k.tokenNumber == s.parsed

def fetchMoreTokens : Scan Unit := do
  for _ in [0:(← get).steps + 2] do
    if !(← needMoreTokens) then break
    fetchNextToken
  modify fun s => { s with tokenAvailable := true }

namespace Scanner

/- The next token, fetched as needed. -/
def peekToken : Scan Token := do
  if !(← get).tokenAvailable then fetchMoreTokens
  let s ← get
  return s.tokens.getD s.parsed ⟨.streamEnd, s.mark, s.mark⟩

/- Hands out the next token. -/
def skipToken : Scan Unit :=
  modify fun s => { s with tokenAvailable := false, parsed := s.parsed + 1 }

end Scanner

end Tree

end Yaml

end NeuronFleet
