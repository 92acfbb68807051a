import NeuronFleet.Yaml.Parser
import NeuronFleet.Yaml.Tree.Scanner

/-
  Tokens to events, as settings files are read.

  The settings parser is the same state machine as the typed reader's,
  over the settings scanner's tokens, with these differences:
    * `...` markers before a document are skipped in every state, and
      after one the next document may start without `---`;
    * directives are not checked against the YAML version, and a
      document keeps the tag handle of its last directive only; a
      second `%YAML` is still an error;
    * a `:` with no key before it, in a block or a flow mapping, has an
      empty key;
    * anchors are known from where they are written, within their
      document: an alias to any other name is an error;
    * tag handles resolve to a prefix and a suffix.  The event's tag is
      the whole standard tag name when the prefix is the standard one,
      and otherwise the prefix and suffix behind a `!`, so that it never
      reads as a standard tag.  A handle `!name!` that no directive
      declares is an error.

  Errors carry the mark of the token where they were found.

  Main definitions:
    * `Tree.Parser`, `Tree.Parser.next`, `Tree.events`
-/

namespace NeuronFleet

namespace Yaml

namespace Tree

/- The prefix of the standard tags. -/
def coreTag : String := "tag:yaml.org,2002:"

/- The settings parser: its scanner, its state and stack of states,
the anchors of the current document and its tag directives. -/
structure Parser where
  scanner : Scanner
  state : State
  states : List State
  anchors : List String
  handles : List (String × String)
  deriving Inhabited

/- Parsing steps. -/
abbrev Parse := StateT Parser (Except TreeError)

namespace Parser

/- Runs a scanning step on the parser's scanner. -/
def scan (step : Scan α) : Parse α := do
  let p ← get
  match step.run p.scanner with
  | .ok (a, s) =>
    set { p with scanner := s }
    return a
  | .error e => throw e

def peekToken : Parse Token := scan Scanner.peekToken

def skipToken : Parse Unit := scan Scanner.skipToken

/- Continues in the state on top of the stack. -/
def popState : Parse Unit :=
  modify fun p => match p.states with
    | s :: rest => { p with state := s, states := rest }
    | [] => { p with state := .finished }

def pushState (s : State) : Parse Unit := modify fun p => { p with states := s :: p.states }

def goTo (s : State) : Parse Unit := modify fun p => { p with state := s }

def fail
    (info : String)
    (m : Mark) :
    Parse α := throw ⟨info, m⟩

/- A left-out node. -/
def emptyScalar (m : Mark) : Event := ⟨.scalar none none "" .plain, m, m⟩

------------------------------------------------------------
-- Documents
------------------------------------------------------------

/- Reads the directives before a document.  Each directive replaces
the handles read before it: only the last `%TAG` counts, and none
after a `%YAML`. -/
def processDirectives : Parse Unit := do
  let mut version := false
  for _ in [0:(← get).scanner.steps + 1] do
    let t ← peekToken
    match t.kind with
    | .versionDirective _ _ =>
      if version then fail "duplicate version directive" t.start
      version := true
      modify fun p => { p with handles := [] }
    | .tagDirective handle pfx => modify fun p => { p with handles := [(handle, pfx)] }
    | _ => break
    skipToken

/- Whether a token opens an explicit document. -/
def opensDocument : TokenKind → Bool
  | .versionDirective .. | .tagDirective .. | .documentStart => true
  | _ => false

def parseStreamStart : Parse Event := do
  let t ← peekToken
  match t.kind with
  | .streamStart =>
    goTo .implicitDocumentStart
    skipToken
    return ⟨.streamStart, t.start, t.start⟩
  | _ => fail "did not find expected <stream-start>" t.start

def parseDocumentStart (implicit : Bool) : Parse Event := do
  for _ in [0:(← get).scanner.steps + 1] do
    match (← peekToken).kind with
    | .documentEnd => skipToken
    | _ => break
  let t ← peekToken
  modify fun p => { p with anchors := [] }
  match t.kind with
  | .streamEnd =>
    goTo .finished
    skipToken
    return ⟨.streamEnd, t.start, t.start⟩
  | k =>
    if implicit && !opensDocument k then
      processDirectives
      pushState .documentEnd
      goTo .blockNode
      return ⟨.documentStart true, t.start, t.start⟩
    processDirectives
    let d ← peekToken
    match d.kind with
    | .documentStart =>
      pushState .documentEnd
      goTo .documentContent
      skipToken
      return ⟨.documentStart false, d.start, d.start⟩
    | _ => fail "did not find expected <document start>" d.start

def parseDocumentEnd : Parse Event := do
  let t ← peekToken
  let explicit := match t.kind with
    | .documentEnd => true
    | _ => false
  if explicit then skipToken
  modify fun p => { p with handles := [] }
  if explicit then goTo .implicitDocumentStart
  else
    let n ← peekToken
    match n.kind with
    | .versionDirective .. | .tagDirective .. =>
      fail "missing explicit document end marker before directive" n.start
    | _ => goTo .documentStart
  return ⟨.documentEnd !explicit, t.start, t.start⟩

------------------------------------------------------------
-- Nodes
------------------------------------------------------------

/- A resolved tag as written in an event: the standard tags by their
whole name, any other behind a `!`. -/
def tagName (pfx suffix : String) : String :=
  if pfx == coreTag then pfx ++ suffix else "!" ++ pfx ++ suffix

/- Resolves a tag's handle through the document's directives: `!!` to
the standard prefix unless redefined, a lone `!` to the empty prefix
unless redefined, a declared handle to its prefix, and any other handle
to itself, except that an undeclared `!name!` is an error. -/
def resolveTag
    (m : Mark)
    (handle suffix : String) :
    Parse String := do
  let handles := (← get).handles
  if handle == "!!" then return tagName ((handles.lookup "!!").getD coreTag) suffix
  if handle.isEmpty && suffix == "!" then return tagName ((handles.lookup "").getD "") suffix
  match handles.lookup handle with
  | some pfx => return tagName pfx suffix
  | none =>
    if handle.length ≥ 2 && handle.startsWith "!" && handle.endsWith "!" then
      fail "the handle wasn't declared" m
    return tagName handle suffix

def registerAnchor (name : String) : Parse Unit :=
  modify fun p => { p with anchors := name :: p.anchors }

/- Parses a node: an alias, or properties followed by a scalar or a
collection start.  In block context a block collection may start; a
sequence of `-` entries at the key's own indentation is accepted where
`indentlessSequence` is set. -/
def parseNode (block indentlessSequence : Bool) : Parse Event := do
  let t ← peekToken
  match t.kind with
  | .alias name =>
    popState
    skipToken
    if !(← get).anchors.contains name then fail "while parsing node, found unknown anchor" t.start
    return ⟨.alias name, t.start, t.start⟩
  | _ =>
    let mut anchor : Option String := none
    let mut tag : Option String := none
    match t.kind with
    | .anchor name =>
      skipToken
      registerAnchor name
      anchor := some name
      match (← peekToken).kind with
      | .tag h s =>
        skipToken
        tag := some (← resolveTag t.start h s)
      | _ => pure ()
    | .tag h s =>
      skipToken
      tag := some (← resolveTag t.start h s)
      let a ← peekToken
      match a.kind with
      | .anchor name =>
        skipToken
        registerAnchor name
        anchor := some name
      | _ => pure ()
    | _ => pure ()
    let t ← peekToken
    match t.kind with
    | .blockEntry =>
      if indentlessSequence then
        goTo .indentlessSequenceEntry
        return ⟨.sequenceStart anchor tag false, t.start, t.start⟩
    | _ => pure ()
    match t.kind with
    | .scalar text style =>
      popState
      skipToken
      return ⟨.scalar anchor tag text style, t.start, t.start⟩
    | .flowSequenceStart =>
      goTo .flowSequenceFirstEntry
      return ⟨.sequenceStart anchor tag true, t.start, t.start⟩
    | .flowMappingStart =>
      goTo .flowMappingFirstKey
      return ⟨.mappingStart anchor tag true, t.start, t.start⟩
    | .blockSequenceStart =>
      if block then
        goTo .blockSequenceFirstEntry
        return ⟨.sequenceStart anchor tag false, t.start, t.start⟩
    | .blockMappingStart =>
      if block then
        goTo .blockMappingFirstKey
        return ⟨.mappingStart anchor tag false, t.start, t.start⟩
    | _ => pure ()
    if anchor.isSome || tag.isSome then
      popState
      return ⟨.scalar anchor tag "" .plain, t.start, t.start⟩
    fail "while parsing a node, did not find expected node content" t.start

/- Whether a token is one of `kinds` by its kind alone. -/
def isOneOf
    (k : TokenKind)
    (blockEntry key value blockEnd flowEntry : Bool) :
    Bool :=
  match k with
  | .blockEntry => blockEntry
  | .key => key
  | .value => value
  | .blockEnd => blockEnd
  | .flowEntry => flowEntry
  | _ => false

def parseBlockSequenceEntry (first : Bool) : Parse Event := do
  if first then skipToken
  let t ← peekToken
  match t.kind with
  | .blockEnd =>
    popState
    skipToken
    return ⟨.sequenceEnd, t.start, t.start⟩
  | .blockEntry =>
    skipToken
    let n ← peekToken
    if isOneOf n.kind true false false true false then
      goTo .blockSequenceEntry
      return emptyScalar n.start
    pushState .blockSequenceEntry
    parseNode true false
  | _ => fail "while parsing a block collection, did not find expected '-' indicator" t.start

def parseIndentlessSequenceEntry : Parse Event := do
  let t ← peekToken
  match t.kind with
  | .blockEntry =>
    skipToken
    let n ← peekToken
    if isOneOf n.kind true true true true false then
      goTo .indentlessSequenceEntry
      return emptyScalar n.start
    pushState .indentlessSequenceEntry
    parseNode true false
  | _ =>
    popState
    return ⟨.sequenceEnd, t.start, t.start⟩

def parseBlockMappingKey (first : Bool) : Parse Event := do
  if first then skipToken
  let t ← peekToken
  match t.kind with
  | .key =>
    skipToken
    let n ← peekToken
    if isOneOf n.kind false true true true false then
      goTo .blockMappingValue
      return emptyScalar n.start
    pushState .blockMappingValue
    parseNode true true
  | .value =>
    goTo .blockMappingValue
    return emptyScalar t.start
  | .blockEnd =>
    popState
    skipToken
    return ⟨.mappingEnd, t.start, t.start⟩
  | _ => fail "while parsing a block mapping, did not find expected key" t.start

def parseBlockMappingValue : Parse Event := do
  let t ← peekToken
  match t.kind with
  | .value =>
    skipToken
    let n ← peekToken
    if isOneOf n.kind false true true true false then
      goTo .blockMappingKey
      return emptyScalar n.start
    pushState .blockMappingKey
    parseNode true true
  | _ =>
    goTo .blockMappingKey
    return emptyScalar t.start

def parseFlowSequenceEntry (first : Bool) : Parse Event := do
  if first then skipToken
  let t ← peekToken
  match t.kind with
  | .flowSequenceEnd =>
    popState
    skipToken
    return ⟨.sequenceEnd, t.start, t.start⟩
  | .flowEntry => if !first then skipToken
  | _ => if !first then fail "while parsing a flow sequence, expected ',' or ']'" t.start
  let t ← peekToken
  match t.kind with
  | .flowSequenceEnd =>
    popState
    skipToken
    return ⟨.sequenceEnd, t.start, t.start⟩
  | .key =>
    goTo .flowSequenceEntryMappingKey
    skipToken
    return ⟨.mappingStart none none true, t.start, t.start⟩
  | _ =>
    pushState .flowSequenceEntry
    parseNode false false

/- The key of a one-entry mapping in a flow sequence; a `:`, `,` or `]`
right after the `?` is skipped, the key left out. -/
def parseFlowSequenceEntryMappingKey : Parse Event := do
  let t ← peekToken
  match t.kind with
  | .value | .flowEntry | .flowSequenceEnd =>
    skipToken
    goTo .flowSequenceEntryMappingValue
    return emptyScalar t.start
  | _ =>
    pushState .flowSequenceEntryMappingValue
    parseNode false false

def parseFlowSequenceEntryMappingValue : Parse Event := do
  let t ← peekToken
  match t.kind with
  | .value =>
    skipToken
    let n ← peekToken
    match n.kind with
    | .flowEntry | .flowSequenceEnd =>
      goTo .flowSequenceEntryMappingEnd
      return emptyScalar n.start
    | _ =>
      pushState .flowSequenceEntryMappingEnd
      parseNode false false
  | _ =>
    goTo .flowSequenceEntryMappingEnd
    return emptyScalar t.start

def parseFlowSequenceEntryMappingEnd : Parse Event := do
  let t ← peekToken
  goTo .flowSequenceEntry
  return ⟨.mappingEnd, t.start, t.start⟩

def parseFlowMappingKey (first : Bool) : Parse Event := do
  if first then skipToken
  let t ← peekToken
  match t.kind with
  | .flowMappingEnd =>
    popState
    skipToken
    return ⟨.mappingEnd, t.start, t.start⟩
  | _ =>
    if !first then
      match t.kind with
      | .flowEntry => skipToken
      | _ => fail "while parsing a flow mapping, did not find expected ',' or '\x7d'" t.start
    let k ← peekToken
    match k.kind with
    | .key =>
      skipToken
      let n ← peekToken
      match n.kind with
      | .value | .flowEntry | .flowMappingEnd =>
        goTo .flowMappingValue
        return emptyScalar n.start
      | _ =>
        pushState .flowMappingValue
        parseNode false false
    | .value =>
      goTo .flowMappingValue
      return emptyScalar k.start
    | .flowMappingEnd =>
      popState
      skipToken
      return ⟨.mappingEnd, t.start, t.start⟩
    | _ =>
      pushState .flowMappingEmptyValue
      parseNode false false

def parseFlowMappingValue (empty : Bool) : Parse Event := do
  let t ← peekToken
  if empty then
    goTo .flowMappingKey
    return emptyScalar t.start
  match t.kind with
  | .value =>
    skipToken
    let n ← peekToken
    match n.kind with
    | .flowEntry | .flowMappingEnd => pure ()
    | _ =>
      pushState .flowMappingKey
      return ← parseNode false false
  | _ => pure ()
  goTo .flowMappingKey
  return emptyScalar t.start

/- The next event. -/
def next : Parse Event := do
  match (← get).state with
  | .streamStart => parseStreamStart
  | .implicitDocumentStart => parseDocumentStart true
  | .documentStart => parseDocumentStart false
  | .documentContent =>
    let t ← peekToken
    match t.kind with
    | .versionDirective .. | .tagDirective .. | .documentStart | .documentEnd | .streamEnd =>
      popState
      return emptyScalar t.start
    | _ => parseNode true false
  | .documentEnd => parseDocumentEnd
  | .blockNode => parseNode true false
  | .blockNodeOrIndentlessSequence => parseNode true true
  | .flowNode => parseNode false false
  | .blockSequenceFirstEntry => parseBlockSequenceEntry true
  | .blockSequenceEntry => parseBlockSequenceEntry false
  | .indentlessSequenceEntry => parseIndentlessSequenceEntry
  | .blockMappingFirstKey => parseBlockMappingKey true
  | .blockMappingKey => parseBlockMappingKey false
  | .blockMappingValue => parseBlockMappingValue
  | .flowSequenceFirstEntry => parseFlowSequenceEntry true
  | .flowSequenceEntry => parseFlowSequenceEntry false
  | .flowSequenceEntryMappingKey => parseFlowSequenceEntryMappingKey
  | .flowSequenceEntryMappingValue => parseFlowSequenceEntryMappingValue
  | .flowSequenceEntryMappingEnd => parseFlowSequenceEntryMappingEnd
  | .flowMappingFirstKey => parseFlowMappingKey true
  | .flowMappingKey => parseFlowMappingKey false
  | .flowMappingValue => parseFlowMappingValue false
  | .flowMappingEmptyValue => parseFlowMappingValue true
  | .finished =>
    let m := (← get).scanner.mark
    return ⟨.streamEnd, m, m⟩

end Parser

/- The events of a whole text, up to the end of the stream, or the
first error. -/
def events (text : String) : Except TreeError (Array Event) :=
  let p : Parser := { scanner := Scanner.start text, state := .streamStart, states := [],
                      anchors := [], handles := [] }
  go (4 * text.length + 16) p #[]
where
  go : Nat → Parser → Array Event → Except TreeError (Array Event)
    | 0, _, acc => .ok acc
    | fuel + 1, p, acc =>
      match Parser.next.run p with
      | .error e => .error e
      | .ok (e, p) =>
        match e.kind with
        | .streamEnd => .ok (acc.push e)
        | _ => go fuel p (acc.push e)

end Tree

end Yaml

end NeuronFleet
