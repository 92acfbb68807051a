import NeuronFleet.Yaml.Parser

/-
  The first document of a YAML text, ready for typed reading.

  A typed reader looks at one document: the nodes between its start
  and end events, each scalar with its text, style and tag, each
  collection as its start (with its tag) and end.  An alias is replaced by the
  position of the node its anchor named, so the reader can step there
  and back.  An empty text holds one empty document, a single `void`
  item.

  Loading stops at the first problem (a syntax error, or an alias
  whose anchor was never defined) and keeps the items read so far:
  a reader that finds what it needs before that point reports its own
  error first, otherwise it meets the problem when it runs out of
  items.  Whether another document follows is noted, since reading
  several documents as one value is refused.

  Main definitions:
    * `Item`, `LoadError`, `Document`, `Document.load`
-/

namespace NeuronFleet

namespace Yaml

/- What a typed reader meets in a document. -/
inductive Item where
  | scalar (text : String) (style : ScalarStyle) (tag : Option String)
  -- an alias, as the position of the node its anchor named
  | alias (target : Nat)
  | sequenceStart (tag : Option String)
  | sequenceEnd
  | mappingStart (tag : Option String)
  | mappingEnd
  -- the content of an empty text
  | void
  deriving Repr, Inhabited

/- Why loading stopped early. -/
inductive LoadError where
  | malformed (e : SyntaxError)
  | unknownAnchor (mark : Mark)
  deriving Repr, Inhabited

def LoadError.message : LoadError → String
  | .malformed e => e.message
  | .unknownAnchor m => "unknown anchor" ++ m.suffix

/- The first document of a text. -/
structure Document where
  items : Array (Item × Mark)
  -- the problem that ended loading early
  error : Option LoadError
  -- whether another document follows the first
  more : Bool
  deriving Inhabited

namespace Document

/- Loading state: items so far, anchors defined (the latest definition
of a name wins), and whether the first document has ended. -/
structure Loading where
  items : Array (Item × Mark)
  anchors : List (String × Nat)
  ended : Bool

/- Notes an anchor on the node about to be added. -/
def Loading.anchor (l : Loading) : Option String → Loading
  | some name => { l with anchors := (name, l.items.size) :: l.anchors }
  | none => l

/- Adds one event to the first document, or says why loading stops. -/
def Loading.add
    (l : Loading)
    (e : Event) :
    Except LoadError Loading :=
  match e.kind with
  | .streamStart | .streamEnd => .ok l
  | .documentStart _ => .ok l
  | .documentEnd _ => .ok { l with ended := true }
  | .alias name =>
    match l.anchors.lookup name with
    | some target => .ok { l with items := l.items.push (.alias target, e.start) }
    | none => .error (.unknownAnchor e.start)
  | .scalar anchor tag text style =>
    let l := l.anchor anchor
    .ok { l with items := l.items.push (.scalar text style tag, e.start) }
  | .sequenceStart anchor tag _ =>
    let l := l.anchor anchor
    .ok { l with items := l.items.push (.sequenceStart tag, e.start) }
  | .sequenceEnd => .ok { l with items := l.items.push (.sequenceEnd, e.start) }
  | .mappingStart anchor tag _ =>
    let l := l.anchor anchor
    .ok { l with items := l.items.push (.mappingStart tag, e.start) }
  | .mappingEnd => .ok { l with items := l.items.push (.mappingEnd, e.start) }

/- Loads the first document from a text's events and the error that
ended them, if any. -/
def ofEvents
    (events : List Event)
    (error : Option SyntaxError) :
    Document :=
  go events ⟨#[], [], false⟩
where
  go : List Event → Loading → Document
    | [], l => ⟨l.items, error.map .malformed, false⟩
    | e :: rest, l =>
      match e.kind with
      | .streamEnd =>
        -- an empty stream holds one empty document
        let items := if l.items.isEmpty then l.items.push (.void, e.start) else l.items
        ⟨items, none, false⟩
      | _ =>
        match l.add e with
        | .error err => ⟨l.items, some err, false⟩
        | .ok l =>
          if l.ended then
            -- another document follows unless the stream ends here
            let more := match rest with
              | [] => error.isSome
              | n :: _ => match n.kind with
                | .streamEnd => false
                | _ => true
            ⟨l.items, none, more⟩
          else go rest l

/- Loads the first document of a text. -/
def load (text : String) : Document :=
  let (evs, err) := events text
  ofEvents evs.toList err

end Document

end Yaml

end NeuronFleet
