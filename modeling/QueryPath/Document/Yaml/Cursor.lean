/-!
# Places in a YAML text

Classes of characters, places, and texts that begin at a place.
-/

namespace QueryPath.Document.Yaml

/-- Space or tab. -/
def isBlank (c : Char) : Bool := c == ' ' || c == '\t'

/-- End of a line. The line and paragraph separators are kept as they are when lines are joined. -/
def isBreak (c : Char) : Bool := c == '\n' || c == '\u2028' || c == '\u2029'

def isGap (c : Char) : Bool := isBlank c || isBreak c

/-- Whether the text ends here or goes on with a blank or a line break. -/
def atGap : List Char → Bool
  | [] => true
  | c :: _ => isGap c

/-- Characters that a text may hold. -/
def isPrintable (c : Char) : Bool :=
  let n := c.toNat
  n == 9 || n == 10 || n == 13 || (0x20 ≤ n && n ≤ 0x7E) || n == 0x85
    || (0xA0 ≤ n && n ≤ 0xD7FF) || (0xE000 ≤ n && n ≤ 0xFFFD) || 0x10000 ≤ n

/-- The text with every kind of simple line end written as a line feed. -/
def unifyBreaks : List Char → List Char
  | '\r' :: '\n' :: s => '\n' :: unifyBreaks s
  | c :: s => (if c == '\r' || c.toNat == 0x85 then '\n' else c) :: unifyBreaks s
  | [] => []

/-- A place in a text. Lines and columns are counted from 0, in characters. -/
structure Place where
  /-- Number of bytes before it. -/
  offset : Nat := 0
  line : Nat := 0
  column : Nat := 0
deriving DecidableEq, Repr, Inhabited

namespace Place

/-- The place after a character. -/
def next (p : Place) (c : Char) : Place :=
  if isBreak c then ⟨p.offset + c.utf8Size, p.line + 1, 0⟩
  else ⟨p.offset + c.utf8Size, p.line, p.column + 1⟩

/-- Whether the place is at the beginning of the text. -/
def isOrigin (p : Place) : Bool := p.line == 0 && p.column == 0

/-- The place in words, with lines and columns counted from 1; nothing at the beginning. A place
that is known by its offset alone is given so. -/
def text (p : Place) : String :=
  if !p.isOrigin then s!" at line {p.line + 1} column {p.column + 1}"
  else if p.offset ≠ 0 then s!" at position {p.offset}"
  else ""

end Place

/-- A text at a place. -/
structure Cursor where
  rest : List Char
  place : Place := {}

/-- The text after its first `n` characters. -/
def Cursor.skip (c : Cursor) : Nat → Cursor
  | 0 => c
  | n + 1 => match c.rest with
    | [] => c
    | x :: s => Cursor.skip ⟨s, c.place.next x⟩ n

/-- Whether a line begins here with three characters `mark` that stand alone. -/
def Cursor.atMarker (c : Cursor) (mark : Char) : Bool :=
  c.place.column == 0 && match c.rest with
    | x :: y :: z :: s => x == mark && y == mark && z == mark && atGap s
    | _ => false

/-- Whether a document begins or ends here by a marker. -/
def Cursor.atDocument (c : Cursor) : Bool := c.atMarker '-' || c.atMarker '.'

end QueryPath.Document.Yaml
