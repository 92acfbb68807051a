import NeuronFleet.Yaml.Scanner

/-
  YAML tokens to events.

  The parser reads the tokens of a YAML text as a stream of events:
  the stream and each document start and end, and in between the
  nodes of the document in order, a collection as its start event,
  its items and its end event.  Keys and values of a mapping
  alternate; a key or value that is left out stands as an empty plain
  scalar.  Node properties (anchor and tag) are attached to the node
  they precede; tags are expanded through the document's `%TAG`
  directives and the two standard handles `!` and `!!`.

  The parser is a state machine with a stack of states to return to
  and a stack of the marks where open collections began, which name
  the context of an error.  `events` runs it over a whole text and
  gives the events up to the end of the stream or up to the first
  error, with that error.  A text holding a character YAML does not
  allow is refused before any event.

  Main definitions:
    * `Event`, `EventKind`
    * `Parser`, `Parser.next`, `streamEvents`, `events`
-/

namespace NeuronFleet

namespace Yaml

------------------------------------------------------------
-- Events
------------------------------------------------------------

/- The kinds of event. -/
inductive EventKind where
  | streamStart
  | streamEnd
  | documentStart (implicit : Bool)
  | documentEnd (implicit : Bool)
  | alias (name : String)
  | scalar (anchor tag : Option String) (text : String) (style : ScalarStyle)
  | sequenceStart (anchor tag : Option String) (flow : Bool)
  | sequenceEnd
  | mappingStart (anchor tag : Option String) (flow : Bool)
  | mappingEnd
  deriving Repr, Inhabited

/- An event and where it starts and stops. -/
structure Event where
  kind : EventKind
  start : Mark
  stop : Mark
  deriving Repr, Inhabited

------------------------------------------------------------
-- Parser state
------------------------------------------------------------

/- What the parser expects next. -/
inductive State where
  | streamStart
  | implicitDocumentStart
  | documentStart
  | documentContent
  | documentEnd
  | blockNode
  | blockNodeOrIndentlessSequence
  | flowNode
  | blockSequenceFirstEntry
  | blockSequenceEntry
  | indentlessSequenceEntry
  | blockMappingFirstKey
  | blockMappingKey
  | blockMappingValue
  | flowSequenceFirstEntry
  | flowSequenceEntry
  | flowSequenceEntryMappingKey
  | flowSequenceEntryMappingValue
  | flowSequenceEntryMappingEnd
  | flowMappingFirstKey
  | flowMappingKey
  | flowMappingValue
  | flowMappingEmptyValue
  | finished
  deriving Repr, DecidableEq, Inhabited

/- The parser: its scanner, its state and stacks, and the tag handles
of the current document. -/
structure Parser where
  scanner : Scanner
  state : State
  states : List State
  marks : List Mark
  tagHandles : List (String × String)
  deriving Inhabited

/- Parsing steps. -/
abbrev Parse := StateT Parser (Except SyntaxError)

namespace Parser

/- Runs a scanning step on the parser's scanner. -/
def scan (step : Scan α) : Parse α := do
  let p ← get
  match step.run p.scanner with
  | .ok (a, s) =>
    set { p with scanner := s }
    return a
  | .error e => throw e

def peekToken : Parse Token := scan Scanner.peekToken

def skipToken : Parse Unit := scan Scanner.skipToken

/- Continues in the state on top of the stack. -/
def popState : Parse Unit :=
  modify fun p => match p.states with
    | s :: rest => { p with state := s, states := rest }
    | [] => { p with state := .finished }

def pushState (s : State) : Parse Unit := modify fun p => { p with states := s :: p.states }

def pushMark (m : Mark) : Parse Unit := modify fun p => { p with marks := m :: p.marks }

/- Takes the mark where the innermost open collection began. -/
def popMark : Parse Mark := do
  let p ← get
  match p.marks with
  | m :: rest =>
    set { p with marks := rest }
    return m
  | [] => return ⟨0, 0, 0⟩

def goTo (s : State) : Parse Unit := modify fun p => { p with state := s }

/- An error without context. -/
def parseError
    (problem : String)
    (mark : Mark) :
    Parse α :=
  throw { problem, mark, context := none, offset := 0 }

/- An error with what was being parsed and where that began. -/
def contextError
    (context : String)
    (contextMark : Mark)
    (problem : String)
    (mark : Mark) :
    Parse α :=
  throw { problem, mark, context := some (context, contextMark), offset := 0 }

/- An empty plain scalar standing for a left-out node. -/
def emptyScalar (m : Mark) : Event := ⟨.scalar none none "" .plain, m, m⟩

------------------------------------------------------------
-- Documents
------------------------------------------------------------

/- The standard tag handles. -/
def defaultHandles : List (String × String) := [("!", "!"), ("!!", "tag:yaml.org,2002:")]

/- Reads the directives before a document; a repeated `%YAML` or
`%TAG` directive, or a YAML version other than 1.1 or 1.2, is an
error.  The standard handles are added unless redefined. -/
def processDirectives : Parse Unit := do
  let mut version := false
  let mut handles : List (String × String) := []
  for _ in [0:(← get).scanner.steps + 1] do
    let t ← peekToken
    match t.kind with
    | .versionDirective major minor =>
      if version then parseError "found duplicate %YAML directive" t.start
      if major ≠ 1 || (minor ≠ 1 && minor ≠ 2) then
        parseError "found incompatible YAML document" t.start
      version := true
    | .tagDirective handle expansion =>
      if handles.any (·.1 == handle) then parseError "found duplicate %TAG directive" t.start
      handles := handles ++ [(handle, expansion)]
    | _ => break
    skipToken
  let extra := defaultHandles.filter fun (h, _) => !handles.any (·.1 == h)
  modify fun p => { p with tagHandles := handles ++ extra }

def parseStreamStart : Parse Event := do
  let t ← peekToken
  match t.kind with
  | .streamStart =>
    goTo .implicitDocumentStart
    skipToken
    return ⟨.streamStart, t.start, t.start⟩
  | _ => parseError "did not find expected <stream-start>" t.start

def parseDocumentStart (implicit : Bool) : Parse Event := do
  let mut t ← peekToken
  if !implicit then
    for _ in [0:(← get).scanner.steps + 1] do
      match t.kind with
      | .documentEnd =>
        skipToken
        t ← peekToken
      | _ => break
  let isDirectiveOrStart := match t.kind with
    | .versionDirective .. | .tagDirective .. | .documentStart => true
    | _ => false
  let isEnd := match t.kind with
    | .streamEnd => true
    | _ => false
  if implicit && !isDirectiveOrStart && !isEnd then
    processDirectives
    pushState .documentEnd
    goTo .blockNode
    return ⟨.documentStart true, t.start, t.start⟩
  else if !isEnd then
    let start := t.start
    processDirectives
    let d ← peekToken
    match d.kind with
    | .documentStart =>
      pushState .documentEnd
      goTo .documentContent
      skipToken
      return ⟨.documentStart false, start, d.stop⟩
    | _ => parseError "did not find expected <document start>" d.start
  else
    goTo .finished
    skipToken
    return ⟨.streamEnd, t.start, t.stop⟩

def parseDocumentEnd : Parse Event := do
  let t ← peekToken
  let (implicit, stop) ← match t.kind with
    | .documentEnd =>
      skipToken
      pure (false, t.stop)
    | _ => pure (true, t.start)
  modify fun p => { p with tagHandles := [], state := .documentStart }
  return ⟨.documentEnd implicit, t.start, stop⟩

------------------------------------------------------------
-- Nodes
------------------------------------------------------------

/- Expands a tag through the document's handles. -/
def resolveTag
    (handle suffix : String)
    (start tagMark : Mark) :
    Parse String := do
  if handle.isEmpty then return suffix
  match (← get).tagHandles.lookup handle with
  | some expansion => return expansion ++ suffix
  | none => contextError "while parsing a node" start "found undefined tag handle" tagMark

/- Parses a node: an alias, or properties followed by a scalar or a
collection start.  In block context a block collection may start; a
sequence of `-` entries at the key's own indentation is accepted where
`indentlessSequence` is set. -/
def parseNode (block indentlessSequence : Bool) : Parse Event := do
  let t ← peekToken
  match t.kind with
  | .alias name =>
    popState
    skipToken
    return ⟨.alias name, t.start, t.stop⟩
  | _ =>
    let mut t := t
    let mut anchor : Option String := none
    let mut tag : Option (String × String × Mark) := none
    let start := t.start
    let mut stop := t.start
    match t.kind with
    | .anchor name =>
      anchor := some name
      stop := t.stop
      skipToken
      t ← peekToken
      match t.kind with
      | .tag h s =>
        tag := some (h, s, t.start)
        stop := t.stop
        skipToken
        t ← peekToken
      | _ => pure ()
    | .tag h s =>
      tag := some (h, s, t.start)
      stop := t.stop
      skipToken
      t ← peekToken
      match t.kind with
      | .anchor name =>
        anchor := some name
        stop := t.stop
        skipToken
        t ← peekToken
      | _ => pure ()
    | _ => pure ()
    let resolved ← match tag with
      | some (h, s, m) => some <$> resolveTag h s start m
      | none => pure none
    match t.kind with
    | .blockEntry =>
      if indentlessSequence then
        goTo .indentlessSequenceEntry
        return ⟨.sequenceStart anchor resolved false, start, t.stop⟩
    | _ => pure ()
    match t.kind with
    | .scalar text style =>
      popState
      skipToken
      return ⟨.scalar anchor resolved text style, start, t.stop⟩
    | .flowSequenceStart =>
      goTo .flowSequenceFirstEntry
      return ⟨.sequenceStart anchor resolved true, start, t.stop⟩
    | .flowMappingStart =>
      goTo .flowMappingFirstKey
      return ⟨.mappingStart anchor resolved true, start, t.stop⟩
    | .blockSequenceStart =>
      if block then
        goTo .blockSequenceFirstEntry
        return ⟨.sequenceStart anchor resolved false, start, t.stop⟩
    | .blockMappingStart =>
      if block then
        goTo .blockMappingFirstKey
        return ⟨.mappingStart anchor resolved false, start, t.stop⟩
    | _ => pure ()
    if anchor.isSome || tag.isSome then
      popState
      return ⟨.scalar anchor resolved "" .plain, start, stop⟩
    contextError (if block then "while parsing a block node" else "while parsing a flow node") start
      "did not find expected node content" t.start

/- Whether a token ends or separates entries of a block collection. -/
def isBlockBoundary
    (k : TokenKind)
    (withKeys : Bool) :
    Bool :=
  match k with
  | .blockEntry => !withKeys
  | .key | .value => withKeys
  | .blockEnd => true
  | _ => false

def parseBlockSequenceEntry (first : Bool) : Parse Event := do
  if first then
    pushMark (← peekToken).start
    skipToken
  let t ← peekToken
  match t.kind with
  | .blockEntry =>
    skipToken
    let n ← peekToken
    match n.kind with
    | .blockEntry | .blockEnd =>
      goTo .blockSequenceEntry
      return emptyScalar t.stop
    | _ =>
      pushState .blockSequenceEntry
      parseNode true false
  | .blockEnd =>
    popState
    let _ ← popMark
    skipToken
    return ⟨.sequenceEnd, t.start, t.stop⟩
  | _ => contextError "while parsing a block collection" (← popMark) "did not find expected '-' indicator" t.start

def parseIndentlessSequenceEntry : Parse Event := do
  let t ← peekToken
  match t.kind with
  | .blockEntry =>
    skipToken
    let n ← peekToken
    match n.kind with
    | .blockEntry | .key | .value | .blockEnd =>
      goTo .indentlessSequenceEntry
      return emptyScalar t.stop
    | _ =>
      pushState .indentlessSequenceEntry
      parseNode true false
  | _ =>
    popState
    return ⟨.sequenceEnd, t.start, t.start⟩

def parseBlockMappingKey (first : Bool) : Parse Event := do
  if first then
    pushMark (← peekToken).start
    skipToken
  let t ← peekToken
  match t.kind with
  | .key =>
    skipToken
    let n ← peekToken
    match n.kind with
    | .key | .value | .blockEnd =>
      goTo .blockMappingValue
      return emptyScalar t.stop
    | _ =>
      pushState .blockMappingValue
      parseNode true true
  | .blockEnd =>
    popState
    let _ ← popMark
    skipToken
    return ⟨.mappingEnd, t.start, t.stop⟩
  | _ => contextError "while parsing a block mapping" (← popMark) "did not find expected key" t.start

def parseBlockMappingValue : Parse Event := do
  let t ← peekToken
  match t.kind with
  | .value =>
    skipToken
    let n ← peekToken
    match n.kind with
    | .key | .value | .blockEnd =>
      goTo .blockMappingKey
      return emptyScalar t.stop
    | _ =>
      pushState .blockMappingKey
      parseNode true true
  | _ =>
    goTo .blockMappingKey
    return emptyScalar t.start

def parseFlowSequenceEntry (first : Bool) : Parse Event := do
  if first then
    pushMark (← peekToken).start
    skipToken
  let mut t ← peekToken
  let isEnd := match t.kind with
    | .flowSequenceEnd => true
    | _ => false
  if !isEnd then
    if !first then
      match t.kind with
      | .flowEntry =>
        skipToken
        t ← peekToken
      | _ =>
        contextError "while parsing a flow sequence" (← popMark) "did not find expected ',' or ']'" t.start
    match t.kind with
    | .key =>
      goTo .flowSequenceEntryMappingKey
      return ⟨.mappingStart none none true, t.start, t.stop⟩
    | .flowSequenceEnd => pure ()
    | _ =>
      pushState .flowSequenceEntry
      return ← parseNode false false
  popState
  let _ ← popMark
  skipToken
  return ⟨.sequenceEnd, t.start, t.stop⟩

def parseFlowSequenceEntryMappingKey : Parse Event := do
  let k ← peekToken
  skipToken
  let t ← peekToken
  match t.kind with
  | .value | .flowEntry | .flowSequenceEnd =>
    goTo .flowSequenceEntryMappingValue
    return emptyScalar k.stop
  | _ =>
    pushState .flowSequenceEntryMappingValue
    parseNode false false

def parseFlowSequenceEntryMappingValue : Parse Event := do
  let t ← peekToken
  match t.kind with
  | .value =>
    skipToken
    let n ← peekToken
    match n.kind with
    | .flowEntry | .flowSequenceEnd =>
      goTo .flowSequenceEntryMappingEnd
      return emptyScalar n.start
    | _ =>
      pushState .flowSequenceEntryMappingEnd
      parseNode false false
  | _ =>
    goTo .flowSequenceEntryMappingEnd
    return emptyScalar t.start

def parseFlowSequenceEntryMappingEnd : Parse Event := do
  let t ← peekToken
  goTo .flowSequenceEntry
  return ⟨.mappingEnd, t.start, t.start⟩

def parseFlowMappingKey (first : Bool) : Parse Event := do
  if first then
    pushMark (← peekToken).start
    skipToken
  let mut t ← peekToken
  let isEnd := match t.kind with
    | .flowMappingEnd => true
    | _ => false
  if !isEnd then
    if !first then
      match t.kind with
      | .flowEntry =>
        skipToken
        t ← peekToken
      | _ =>
        contextError "while parsing a flow mapping" (← popMark) "did not find expected ',' or '\x7d'" t.start
    match t.kind with
    | .key =>
      skipToken
      let n ← peekToken
      match n.kind with
      | .value | .flowEntry | .flowMappingEnd =>
        goTo .flowMappingValue
        return emptyScalar n.start
      | _ =>
        pushState .flowMappingValue
        return ← parseNode false false
    | .flowMappingEnd => pure ()
    | _ =>
      pushState .flowMappingEmptyValue
      return ← parseNode false false
  popState
  let _ ← popMark
  skipToken
  return ⟨.mappingEnd, t.start, t.stop⟩

def parseFlowMappingValue (empty : Bool) : Parse Event := do
  let t ← peekToken
  if empty then
    goTo .flowMappingKey
    return emptyScalar t.start
  match t.kind with
  | .value =>
    skipToken
    let n ← peekToken
    match n.kind with
    | .flowEntry | .flowMappingEnd =>
      goTo .flowMappingKey
      return emptyScalar n.start
    | _ =>
      pushState .flowMappingKey
      parseNode false false
  | _ =>
    goTo .flowMappingKey
    return emptyScalar t.start

/- The next event. -/
def next : Parse Event := do
  match (← get).state with
  | .streamStart => parseStreamStart
  | .implicitDocumentStart => parseDocumentStart true
  | .documentStart => parseDocumentStart false
  | .documentContent =>
    let t ← peekToken
    match t.kind with
    | .versionDirective .. | .tagDirective .. | .documentStart | .documentEnd | .streamEnd =>
      popState
      return emptyScalar t.start
    | _ => parseNode true false
  | .documentEnd => parseDocumentEnd
  | .blockNode => parseNode true false
  | .blockNodeOrIndentlessSequence => parseNode true true
  | .flowNode => parseNode false false
  | .blockSequenceFirstEntry => parseBlockSequenceEntry true
  | .blockSequenceEntry => parseBlockSequenceEntry false
  | .indentlessSequenceEntry => parseIndentlessSequenceEntry
  | .blockMappingFirstKey => parseBlockMappingKey true
  | .blockMappingKey => parseBlockMappingKey false
  | .blockMappingValue => parseBlockMappingValue
  | .flowSequenceFirstEntry => parseFlowSequenceEntry true
  | .flowSequenceEntry => parseFlowSequenceEntry false
  | .flowSequenceEntryMappingKey => parseFlowSequenceEntryMappingKey
  | .flowSequenceEntryMappingValue => parseFlowSequenceEntryMappingValue
  | .flowSequenceEntryMappingEnd => parseFlowSequenceEntryMappingEnd
  | .flowMappingFirstKey => parseFlowMappingKey true
  | .flowMappingKey => parseFlowMappingKey false
  | .flowMappingValue => parseFlowMappingValue false
  | .flowMappingEmptyValue => parseFlowMappingValue true
  | .finished =>
    let m := (← get).scanner.mark
    return ⟨.streamEnd, m, m⟩

end Parser

------------------------------------------------------------
-- Whole texts
------------------------------------------------------------

/- The first character a YAML text may not contain, with its byte
offset (a leading byte order mark included). -/
def firstForbidden (text : String) : Option Nat :=
  go text.toList 0
where
  go : List Char → Nat → Option Nat
    | [], _ => none
    | c :: cs, offset =>
      if Chars.isAllowed c then go cs (offset + (String.singleton c).utf8ByteSize) else some offset

/- The events of a text up to the end of the stream, or up to the
first error together with that error, whatever characters the text
holds. -/
def streamEvents (text : String) : Array Event × Option SyntaxError :=
  let p : Parser := { scanner := Scanner.start text, state := .streamStart, states := [],
                      marks := [], tagHandles := [] }
  go (4 * text.length + 16) p #[]
where
  go : Nat → Parser → Array Event → Array Event × Option SyntaxError
    | 0, _, acc => (acc, none)
    | fuel + 1, p, acc =>
      match Parser.next.run p with
      | .error e => (acc, some e)
      | .ok (e, p) =>
        match e.kind with
        | .streamEnd => (acc.push e, none)
        | _ => go fuel p (acc.push e)

/- The events of a text up to the end of the stream, or up to the
first error together with that error.  A text holding a character
YAML does not allow has no events. -/
def events (text : String) : Array Event × Option SyntaxError :=
  match firstForbidden text with
  | some offset =>
    (#[], some { problem := "control characters are not allowed", mark := ⟨0, 0, 0⟩,
                 context := none, offset })
  | none => streamEvents text

end Yaml

end NeuronFleet
