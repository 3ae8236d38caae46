import QueryPath.Document.Yaml.Token

/-!
# Events of a YAML document

The grammar over the tokens: scalars, and the beginnings and ends of lists and records. A node may
be left out where the grammar leaves room for one; it then is an empty plain scalar. A document
may break off in the middle; the events up to there are kept.
-/

namespace QueryPath.Document.Yaml

/-- A step through a document. -/
inductive Happening where
  | scalar (text : String) (isPlain : Bool)
  | listStart
  | listEnd
  | recordStart
  | recordEnd
  /-- The text holds no document. -/
  | nothing
deriving DecidableEq, Repr

/-- A step through a document and the place where it begins. -/
structure Event where
  happening : Happening
  place : Place
deriving DecidableEq, Repr

/-- The events of a document, or the ones that are left of them. -/
structure Events where
  list : List Event
  /-- What is wrong behind the last event. -/
  error : Option Error := none
deriving DecidableEq, Repr

/-- What is expected next. Lists and records remember where they began. -/
inductive Expectation where
  /-- A node. In a block, a list may stand at the column of the name before it. -/
  | node (inBlock isLoose : Bool)
  | blockItem (start : Place)
  /-- An element of a list at the column of the name before it. -/
  | looseItem
  | blockName (start : Place)
  | blockValue (start : Place)
  /-- An element of a list in brackets; a comma stands between two and may follow the last. -/
  | flowItem (start : Place) (isFirst : Bool)
  /-- The parts of an element with a key, which is a record of that one member. -/
  | pairName (start : Place)
  | pairValue (start : Place)
  | pairEnd (start : Place)
  | flowName (start : Place) (isFirst : Bool)
  | flowValue (start : Place)
  /-- The value of a name without a colon. -/
  | bareValue (start : Place)
deriving DecidableEq, Repr

/-- The grammar between two events: what is expected, innermost first, and the tokens left. -/
structure Parse where
  expected : List Expectation
  tokens : Tokens

namespace Parse

/-- The next token. -/
def peek (p : Parse) : Except Fault Token :=
  match p.tokens.list, p.tokens.fault with
  | t :: _, _ => .ok t
  | [], some fault => .error fault
  | [], none => .error ⟨.endOfText, {}, none⟩

/-- The state behind the next token. -/
def advance (p : Parse) : Parse :=
  { p with tokens := { p.tokens with list := p.tokens.list.tail } }

/-- The state with one more expectation. -/
def expect (p : Parse) (e : Expectation) : Parse := { p with expected := e :: p.expected }

/-- The result of a step: at most one event, and the state behind it. -/
abbrev Step := Option Event × Parse

def emit (p : Parse) (happening : Happening) (place : Place) : Step :=
  (some ⟨happening, place⟩, p)

/-- A node that is left out. -/
def emitEmpty (p : Parse) (place : Place) : Step := p.emit (.scalar "" true) place

/-- A node, unless the next token is one of those that show it to be left out; then `next`. -/
def nodeUnless (p : Parse) (stops : List Symbol) (node : Expectation) (emptyAt : Token → Place)
    (next : Expectation) : Except Fault Step := do
  let t ← p.peek
  let p := p.expect next
  return if stops.contains t.symbol then p.emitEmpty (emptyAt t) else (none, p.expect node)

/-- A node begins with the next token. -/
def startNode (p : Parse) (inBlock isLoose : Bool) : Except Fault Step := do
  let t ← p.peek
  let opened (happening : Happening) (e : Expectation) : Except Fault Step :=
    .ok ((p.advance.expect e).emit happening t.place)
  let refused : Except Fault Step :=
    .error ⟨.noNode, t.place, some (if inBlock then .blockNode else .flowNode, t.place)⟩
  match t.symbol with
  | .scalar text isPlain => return p.advance.emit (.scalar text isPlain) t.place
  | .flowList => opened .listStart (.flowItem t.place true)
  | .flowRecord => opened .recordStart (.flowName t.place true)
  | .blockList => if inBlock then opened .listStart (.blockItem t.place) else refused
  | .blockRecord => if inBlock then opened .recordStart (.blockName t.place) else refused
  | .entry =>
      if isLoose then return (p.expect .looseItem).emit .listStart t.place else refused
  | _ => refused

/-- The token of an element or a member inside brackets, behind the comma before it. -/
def afterComma (p : Parse) (isFirst : Bool) (close : Symbol) (problem : Problem)
    (construct : Construct) (start : Place) : Except Fault Parse := do
  let t ← p.peek
  if isFirst || t.symbol == close then return p
  else if t.symbol == .comma then return p.advance
  else throw ⟨problem, t.place, some (construct, start)⟩

/-- The step that meets an expectation. -/
def meet (p : Parse) (e : Expectation) : Except Fault Step := do
  let t ← p.peek
  let behind (_ : Token) : Place := t.behind
  match e with
  | .node inBlock isLoose => p.startNode inBlock isLoose
  | .blockItem start =>
      if t.symbol == .entry then
        p.advance.nodeUnless [.entry, .blockEnd] (.node true false) behind e
      else if t.symbol == .blockEnd then return p.advance.emit .listEnd t.place
      else throw ⟨.noEntry, t.place, some (.blockList, start)⟩
  | .looseItem =>
      if t.symbol == .entry then
        p.advance.nodeUnless [.entry, .key, .value, .blockEnd] (.node true false) behind e
      else return p.emit .listEnd t.place
  | .blockName start =>
      if t.symbol == .key then
        p.advance.nodeUnless [.key, .value, .blockEnd] (.node true true) behind (.blockValue start)
      else if t.symbol == .blockEnd then return p.advance.emit .recordEnd t.place
      else throw ⟨.noKey, t.place, some (.blockRecord, start)⟩
  | .blockValue start =>
      if t.symbol == .value then
        p.advance.nodeUnless [.key, .value, .blockEnd] (.node true true) behind (.blockName start)
      else return (p.expect (.blockName start)).emitEmpty t.place
  | .flowItem start isFirst =>
      let p ← p.afterComma isFirst .flowListEnd .noListEnd .flowList start
      let t ← p.peek
      if t.symbol == .flowListEnd then return p.advance.emit .listEnd t.place
      else if t.symbol == .key then
        return (p.advance.expect (.pairName start)).emit .recordStart t.place
      else return (none, (p.expect (.flowItem start false)).expect (.node false false))
  | .pairName start =>
      if [.value, .comma, .flowListEnd].contains t.symbol then
        return (p.advance.expect (.pairValue start)).emitEmpty t.behind
      else return (none, (p.expect (.pairValue start)).expect (.node false false))
  | .pairValue start =>
      if t.symbol == .value then
        p.advance.nodeUnless [.comma, .flowListEnd] (.node false false) Token.place (.pairEnd start)
      else return (p.expect (.pairEnd start)).emitEmpty t.place
  | .pairEnd start => return (p.expect (.flowItem start false)).emit .recordEnd t.place
  | .flowName start isFirst =>
      let p ← p.afterComma isFirst .flowRecordEnd .noRecordEnd .flowRecord start
      let t ← p.peek
      if t.symbol == .flowRecordEnd then return p.advance.emit .recordEnd t.place
      else if t.symbol == .key then
        p.advance.nodeUnless [.value, .comma, .flowRecordEnd] (.node false false) Token.place
          (.flowValue start)
      else return (none, (p.expect (.bareValue start)).expect (.node false false))
  | .flowValue start =>
      let next := Expectation.flowName start false
      if t.symbol == .value then
        p.advance.nodeUnless [.comma, .flowRecordEnd] (.node false false) Token.place next
      else return (p.expect next).emitEmpty t.place
  | .bareValue start => return (p.expect (.flowName start false)).emitEmpty t.place

/-- What is wrong behind a complete document: anything but the end of the text. -/
def errorBehind (tokens : Tokens) : Option Error :=
  match tokens.list, tokens.fault with
  | [], some fault => some (.broken fault)
  | list, _ =>
      match list.dropWhile (·.symbol == .documentEnd) with
      | ⟨.textEnd, _⟩ :: _ => none
      | _ => some .severalDocuments

/-- The events from a state on, after those that are `done`, in reverse order. The bound is the
number of steps. -/
def events (done : List Event) : (bound : Nat) → Parse → Events
  | 0, _ => { list := done.reverse, error := some .noDocument }
  | bound + 1, p =>
      match p.expected with
      | [] => { list := done.reverse, error := errorBehind p.tokens }
      | e :: expected =>
          match meet { p with expected } e with
          | .error fault => { list := done.reverse, error := some (.broken fault) }
          | .ok (event, p) => events (event.toList ++ done) bound p

end Parse

/-- The events of the document that the tokens are. A document marker may stand before it. -/
def Events.ofTokens (tokens : Tokens) : Events :=
  let node (tokens : Tokens) : Events :=
    Parse.events [] (8 * tokens.list.length + 8) ⟨[.node true false], tokens⟩
  match tokens.list with
  | ⟨.textEnd, place⟩ :: _ => { list := [⟨.nothing, place⟩] }
  | ⟨.documentStart, _⟩ :: rest =>
      let tokens := { tokens with list := rest }
      match rest with
      | t :: _ =>
          if [.documentStart, .documentEnd, .textEnd].contains t.symbol then
            { list := [⟨.scalar "" true, t.place⟩], error := Parse.errorBehind tokens }
          else node tokens
      | [] => node tokens
  | _ => node tokens

end QueryPath.Document.Yaml
