import QueryPath.Document.Yaml.Scalar

/-!
# Tokens of a YAML text

Blocks have no marks of their own: a list begins with the first `-` in a new column and a record
with the first key, and both end where a line begins further to the left. A key is known to be one
only by the colon after it, so the scanner keeps the place where the last one may have begun and
puts the tokens `key` and `blockRecord` there later. Until then that place holds up all tokens from
there on: where a fault is found, they are lost.
-/

namespace QueryPath.Document.Yaml

/-- A unit of the grammar. `entry` is the dash of a list, `key` and `value` announce the two parts
of a member. -/
inductive Symbol where
  | documentStart
  | documentEnd
  | blockList
  | blockRecord
  | blockEnd
  | flowList
  | flowListEnd
  | flowRecord
  | flowRecordEnd
  | comma
  | entry
  | key
  | value
  | scalar (text : String) (isPlain : Bool)
  | textEnd
deriving DecidableEq, Repr

/-- A unit of the grammar and the place where it begins. -/
structure Token where
  symbol : Symbol
  place : Place
deriving DecidableEq, Repr

/-- The place behind a token of one character. -/
def Token.behind (t : Token) : Place :=
  ⟨t.place.offset + 1, t.place.line, t.place.column + 1⟩

/-- The tokens of a text. -/
structure Tokens where
  list : List Token
  /-- What breaks off the tokens, if it is not the end of the text. -/
  fault : Option Fault := none
deriving DecidableEq, Repr

/-- A token that may turn out to begin a key. -/
structure KeyStart where
  /-- Number of tokens before it. -/
  before : Nat
  place : Place
  /-- It stands where only a key may stand. -/
  required : Bool

/-- The state between two tokens. -/
structure Scanner where
  cursor : Cursor
  /-- The tokens so far, in reverse order. -/
  tokens : List Token := []
  /-- Columns of the open blocks, innermost first. -/
  blocks : List Nat := []
  /-- The last place for a key inside the innermost brackets. -/
  key : Option KeyStart := none
  /-- The same for each pair of brackets around them. -/
  outer : List (Option KeyStart) := []
  /-- Whether a key may begin at the next token. -/
  keyAllowed : Bool := true

namespace Scanner

def place (s : Scanner) : Place := s.cursor.place

/-- Whether the place is inside brackets. -/
def inFlow (s : Scanner) : Bool := !s.outer.isEmpty

/-- Skips `n` characters and adds the token that they are. -/
def emit (s : Scanner) (symbol : Symbol) (n : Nat) : Scanner :=
  { s with cursor := s.cursor.skip n, tokens := ⟨symbol, s.place⟩ :: s.tokens }

/-- The text after blanks, line ends and comments, and whether a key may begin there. A tab does
not count as indentation. -/
def dropGap (inFlow inComment keyAllowed : Bool) (place : Place) : List Char → Cursor × Bool
  | [] => (⟨[], place⟩, keyAllowed)
  | c :: s =>
      if isBreak c then dropGap inFlow false (keyAllowed || !inFlow) (place.next c) s
      else if inComment || c == ' ' || (c == '\t' && (inFlow || !keyAllowed))
          || (c == '\ufeff' && place.column == 0) then
        dropGap inFlow inComment keyAllowed (place.next c) s
      else if c == '#' then dropGap inFlow true keyAllowed (place.next c) s
      else (⟨c :: s, place⟩, keyAllowed)

/-- The state before the next token. -/
def atNext (s : Scanner) : Scanner :=
  let (cursor, keyAllowed) := dropGap s.inFlow false s.keyAllowed s.place s.cursor.rest
  { s with cursor, keyAllowed }

/-- The state at the end of the text, which ends its last line. -/
def atLineStart (s : Scanner) : Scanner :=
  if s.place.column = 0 then s
  else { s with cursor := ⟨s.cursor.rest, { s.place with line := s.place.line + 1, column := 0 }⟩ }

/-- A key that should begin at `k` is none. -/
def noColon (s : Scanner) (k : KeyStart) : Fault := ⟨.noColon, s.place, some (.key, k.place)⟩

/-- A key ends in its line and has at most 1024 bytes. Later it is no key, which is refused where
only a key may stand. -/
def expireKeys (s : Scanner) : Except Fault Scanner := do
  let expire (key : Option KeyStart) : Except Fault (Option KeyStart) :=
    match key with
    | none => .ok none
    | some k =>
        if k.place.line < s.place.line || k.place.offset + 1024 < s.place.offset then
          if k.required then .error (s.noColon k) else .ok none
        else .ok key
  let key ← expire s.key
  let outer ← s.outer.mapM expire
  return { s with key, outer }

/-- Gives up the last place for a key. -/
def dropKey (s : Scanner) : Except Fault Scanner :=
  match s.key with
  | none => .ok s
  | some k => if k.required then .error (s.noColon k) else .ok { s with key := none }

/-- Notes that a key may begin here. -/
def saveKey (s : Scanner) : Except Fault Scanner :=
  if s.keyAllowed then do
    let required := !s.inFlow && s.blocks.head? == some s.place.column
    let s ← s.dropKey
    return { s with key := some ⟨s.tokens.length, s.place, required⟩ }
  else .ok s

/-- Puts a token at a place before all but the first `before` tokens. -/
def insert (s : Scanner) (before : Nat) (symbol : Symbol) (place : Place) : Scanner :=
  let later := s.tokens.length - before
  { s with tokens := s.tokens.take later ++ ⟨symbol, place⟩ :: s.tokens.drop later }

/-- Opens a block at a place, unless one is open in its column or the place is inside brackets. Its
token goes before all but the first `before` tokens. -/
def openBlock (s : Scanner) (place : Place) (before : Nat) (symbol : Symbol) : Scanner :=
  if s.inFlow || s.blocks.head?.any (place.column ≤ ·) then s
  else { s.insert before symbol place with blocks := place.column :: s.blocks }

/-- Closes the blocks that satisfy a condition on the column, innermost first. -/
def closeBlocks (s : Scanner) (p : Nat → Bool) : Scanner :=
  if s.inFlow then s
  else { s with
    blocks := s.blocks.dropWhile p
    tokens := (s.blocks.takeWhile p).map (fun _ => ⟨.blockEnd, s.place⟩) ++ s.tokens }

/-- The marker of a document. -/
def document (s : Scanner) (symbol : Symbol) : Except Fault Scanner := do
  let s ← (s.closeBlocks fun _ => true).dropKey
  return { s.emit symbol 3 with keyAllowed := false }

/-- An opening bracket. -/
def openFlow (s : Scanner) (symbol : Symbol) : Except Fault Scanner := do
  let s ← s.saveKey
  return { s.emit symbol 1 with key := none, outer := s.key :: s.outer, keyAllowed := true }

/-- A closing bracket. -/
def closeFlow (s : Scanner) (symbol : Symbol) : Except Fault Scanner := do
  let s ← s.dropKey
  let s := { s.emit symbol 1 with keyAllowed := false }
  match s.outer with
  | [] => return s
  | key :: outer => return { s with key, outer }

def comma (s : Scanner) : Except Fault Scanner := do
  let s ← s.dropKey
  return { s.emit .comma 1 with keyAllowed := true }

/-- In a block, a mark is refused where no key may begin. -/
def refuseUnlessAllowed (s : Scanner) (problem : Problem) : Except Fault Unit :=
  if s.inFlow || s.keyAllowed then .ok () else .error ⟨problem, s.place, none⟩

/-- The dash of a list. -/
def entry (s : Scanner) : Except Fault Scanner := do
  s.refuseUnlessAllowed .entryNotAllowed
  let s ← (s.openBlock s.place s.tokens.length .blockList).dropKey
  return { s.emit .entry 1 with keyAllowed := true }

/-- The mark before a key. -/
def keyMark (s : Scanner) : Except Fault Scanner := do
  s.refuseUnlessAllowed .keyNotAllowed
  let s ← (s.openBlock s.place s.tokens.length .blockRecord).dropKey
  return { s.emit .key 1 with keyAllowed := !s.inFlow }

/-- The colon before a value. -/
def value (s : Scanner) : Except Fault Scanner :=
  match s.key with
  | some k =>
      let s := (s.insert k.before .key k.place).openBlock k.place k.before .blockRecord
      .ok { s.emit .value 1 with key := none, keyAllowed := false }
  | none => do
      s.refuseUnlessAllowed .valueNotAllowed
      let s := s.openBlock s.place s.tokens.length .blockRecord
      return { s.emit .value 1 with keyAllowed := !s.inFlow }

/-- A scalar in quotes. -/
def quoted (s : Scanner) (quote : Char) : Except Fault Scanner := do
  let s ← s.saveKey
  let start := s.cursor.skip 1
  let e ← Yaml.quoted quote s.place 0 [] {} start.place start.rest
  return { s with
    cursor := e.after, tokens := ⟨.scalar e.text false, s.place⟩ :: s.tokens, keyAllowed := false }

/-- A plain scalar. -/
def plain (s : Scanner) : Except Fault Scanner := do
  let s ← s.saveKey
  let minColumn := match s.blocks with
    | [] => 0
    | column :: _ => column + 1
  let e ← Yaml.plain ⟨s.inFlow, minColumn, s.place⟩ [] {} s.place s.cursor.rest
  return { s with
    cursor := e.after, tokens := ⟨.scalar e.text true, s.place⟩ :: s.tokens,
    keyAllowed := e.endsLine }

/-- Marks that begin no plain scalar. -/
def isReserved (c : Char) : Bool :=
  ['#', '&', '*', '!', '|', '>', '\'', '"', '%', '@', '\x60'].contains c

/-- Whether a plain scalar may begin with the text; anchors, tags, block scalars and directives are
no part of the language. -/
def startsPlain (inFlow : Bool) : List Char → Bool
  | [] => false
  | '-' :: s => s.head? != some ' ' && s.head? != some '\t'
  | '?' :: s | ':' :: s => !inFlow && !atGap s
  | c :: _ => !isGap c && !isFlowMark c && !isReserved c

/-- The state after the token that begins here. -/
def next (s : Scanner) : Except Fault Scanner :=
  let stray : Except Fault Scanner := .error ⟨.strayCharacter, s.place, some (.token, s.place)⟩
  if s.cursor.atMarker '-' then s.document .documentStart
  else if s.cursor.atMarker '.' then s.document .documentEnd
  else match s.cursor.rest with
    | [] => stray
    | '[' :: _ => s.openFlow .flowList
    | '{' :: _ => s.openFlow .flowRecord
    | ']' :: _ => s.closeFlow .flowListEnd
    | '}' :: _ => s.closeFlow .flowRecordEnd
    | ',' :: _ => s.comma
    | c :: r =>
        if c == '-' && atGap r then s.entry
        else if c == '?' && (s.inFlow || atGap r) then s.keyMark
        else if c == ':' && (s.inFlow || atGap r) then s.value
        else if c == '\'' || c == '"' then s.quoted c
        else if startsPlain s.inFlow (c :: r) then s.plain
        else stray

/-- The state after the end of the text. -/
def finish (s : Scanner) : Except Fault Scanner := do
  let s ← (s.atLineStart.closeBlocks fun _ => true).dropKey
  return s.emit .textEnd 0

/-- The state after the next token. -/
def step (s : Scanner) : Except Fault Scanner := do
  let here ← s.atNext.expireKeys
  let here := here.closeBlocks (here.place.column < ·)
  (← if here.cursor.rest.isEmpty then here.finish else here.next).expireKeys

/-- The tokens before the first one that may begin a key. -/
def settled (s : Scanner) : List Token :=
  let starts := (s.key :: s.outer).filterMap id
  s.tokens.reverse.take (starts.foldl (fun n k => min n k.before) s.tokens.length)

/-- Whether the end of the text has been reached. -/
def isFinished (s : Scanner) : Bool := s.tokens.head?.any (·.symbol == .textEnd)

/-- All tokens, in order. -/
def run (s : Scanner) : Tokens :=
  match s.step with
  | .error fault => { list := s.settled, fault := some fault }
  | .ok after =>
      if !after.isFinished && after.cursor.rest.length < s.cursor.rest.length then run after
      else { list := after.tokens.reverse }
termination_by s.cursor.rest.length
decreasing_by simp_all

end Scanner

/-- The place of the first character that no text may hold, behind `n` bytes. -/
def firstControl? (n : Nat) : List Char → Option Place
  | [] => none
  | c :: s => if isPrintable c then firstControl? (n + c.utf8Size) s else some ⟨n, 0, 0⟩

/-- The tokens of a text. -/
def Tokens.ofText (text : String) : Tokens :=
  match firstControl? 0 text.toList with
  | some place => { list := [], fault := some ⟨.control, place, none⟩ }
  | none => Scanner.run { cursor := ⟨unifyBreaks text.toList, {}⟩ }

end QueryPath.Document.Yaml
