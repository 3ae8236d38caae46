import QueryPath.Text.Alphanumeric
import QueryPath.Text.Blank

/-!
# Environments

The variables of an environment, and the file that adds to them:

```text
# a comment
NAME=value
export OTHER="a value with ${NAME}"   # another
```

A line goes on behind a line end in quotes. Reading stops at the first bad line, be it that its
bytes are no text; the lines before it count. A variable keeps the value that it has.
-/

namespace QueryPath.CommandLine

open Text

/-- Variables with their values. -/
abbrev Environment := List (String × String)

/-- A part of a value. -/
inductive Piece where
  | char (c : Char)
  /-- The value of a variable, empty if it is not set. -/
  | reference (name : String)
deriving DecidableEq, Repr

/-- A variable that a file sets. -/
structure Assignment where
  name : String
  value : List Piece
deriving DecidableEq, Repr

/-! ### Lines -/

/-- The text of the lines before the first one whose bytes are no text. -/
def leadingText (bytes : ByteArray) : String :=
  let lines := bytes.data.toList.splitBy fun b _ => b != 10
  let texts := lines.map fun line => String.fromUTF8? ⟨line.toArray⟩
  String.join ((texts.takeWhile Option.isSome).filterMap id)

/-- Where the reader is in a line. -/
inductive LineState where
  /-- Nothing but blanks so far. -/
  | start
  | word
  /-- Behind a blank, where a comment may begin. -/
  | blank
  | escape
  | quoted (quote : Char)
  | quotedEscape (quote : Char)
  | comment
deriving DecidableEq, Repr

/-- The state behind a character that is no line end. -/
def LineState.next (s : LineState) (c : Char) : LineState :=
  let unquoted := if c == '\\' then escape else if c == '"' || c == '\'' then quoted c else word
  match s with
  | start => if isBlank c then start else if c == '#' then comment else unquoted
  | word => if isBlank c && c != '\r' then blank else unquoted
  | blank => if c == '#' then comment else unquoted
  | escape => word
  | quoted q => if c == '\\' then quotedEscape q else if c == q then word else s
  | quotedEscape q => quoted q
  | comment => comment

/-- The lines of a text without their comments. What a line has so far is `done`, in reverse
order; an unfinished last line is dropped. -/
def lines (s : LineState) (done : List Char) : List Char → List (List Char)
  | [] => if s = .word ∨ s = .comment then [done.reverse] else []
  | c :: rest =>
      match s with
      | .quoted _ | .quotedEscape _ => lines (s.next c) (c :: done) rest
      | _ =>
          if c == '\n' then done.reverse :: lines .start [] rest
          else if s.next c = .comment then lines .comment done rest
          else lines (s.next c) (c :: done) rest

/-! ### Values -/

/-- Where the reader is in a value. -/
inductive ValueState where
  | plain
  | single
  | double
  /-- Behind a backslash. -/
  | escape (inDouble : Bool)
  /-- In the name of a variable, given in reverse order. -/
  | named (inDouble : Bool) (name : List Char)
  /-- The same in braces. -/
  | braced (inDouble : Bool) (name : List Char)
  /-- Behind the value, where only a comment may follow. -/
  | ended

/-- The state outside a name or an escape. -/
def ValueState.outside (inDouble : Bool) : ValueState := if inDouble then double else plain

/-- The value of a variable whose name is given in reverse order. -/
def Piece.ofName (name : List Char) : Piece := reference (String.ofList name.reverse)

/-- The character of an escape. -/
def escaped? (c : Char) : Option Char :=
  if ['\\', '\'', '"', '$', ' '].contains c then some c else if c == 'n' then some '\n' else none

/-- The parts of a value, after those that are `done`, in reverse order. -/
def pieces? (s : ValueState) (done : List Piece) : List Char → Option (List Piece)
  | [] => match s with
    | .plain | .ended | .escape false => some done.reverse
    | .named false name => some (.ofName name :: done).reverse
    | _ => none
  | c :: rest =>
      match s with
      | .plain =>
          if c == '$' then pieces? (.named false []) done rest
          else if c == '\'' then pieces? .single done rest
          else if c == '"' then pieces? .double done rest
          else if c == '\\' then pieces? (.escape false) done rest
          else if c == ' ' || c == '\t' then pieces? .ended done rest
          else pieces? .plain (.char c :: done) rest
      | .single =>
          if c == '\'' then pieces? .plain done rest else pieces? .single (.char c :: done) rest
      | .double =>
          if c == '$' then pieces? (.named true []) done rest
          else if c == '"' then pieces? .plain done rest
          else if c == '\\' then pieces? (.escape true) done rest
          else pieces? .double (.char c :: done) rest
      | .escape inDouble => match escaped? c with
          | some e => pieces? (.outside inDouble) (.char e :: done) rest
          | none => none
      | .named inDouble name =>
          if isAlphanumeric c then pieces? (.named inDouble (c :: name)) done rest
          else if c == '\x7b' && name.isEmpty then pieces? (.braced inDouble []) done rest
          else if c == '$' then pieces? (.named inDouble []) (.ofName name :: done) rest
          else pieces? (.outside inDouble) (.char c :: .ofName name :: done) rest
      | .braced inDouble name =>
          if c == '\x7d' then pieces? (.outside inDouble) (.ofName name :: done) rest
          else pieces? (.braced inDouble (c :: name)) done rest
      | .ended =>
          if c == ' ' || c == '\t' then pieces? .ended done rest
          else if c == '#' then some done.reverse
          else none

/-! ### Assignments -/

/-- The name at the start of a line. -/
def name? (s : List Char) : Option (String × List Char) :=
  if s.head?.any fun c => c.isAlpha || c == '_' then
    let inName (c : Char) : Bool := c.isAlphanum || c == '_' || c == '.'
    some (String.ofList (s.takeWhile inName), s.dropWhile inName)
  else none

/-- The text behind an equals sign. -/
def dropEquals? (s : List Char) : Option (List Char) :=
  match dropBlank s with
  | '=' :: r => some (dropBlank r)
  | _ => none

/-- The assignment of a line that is not empty; the word `export` may stand before the name. -/
def assignment? (line : List Char) : Option Assignment := do
  let (name, rest) ← name? line
  let (name, value) ← match dropEquals? rest with
    | some value => some (name, value)
    | none =>
        if name == "export" then do
          let (name, rest) ← name? (dropBlank rest)
          some (name, ← dropEquals? rest)
        else none
  if value.isEmpty || value.head? == some '#' then some ⟨name, []⟩
  else some ⟨name, ← pieces? .plain [] value⟩

/-- The assignments of the lines before the first bad one. -/
def assignmentsOf : List (List Char) → List Assignment
  | [] => []
  | line :: lines =>
      let line := (trim (String.ofList line)).toList
      if line.isEmpty || line.head? == some '#' then assignmentsOf lines
      else match assignment? line with
        | some a => a :: assignmentsOf lines
        | none => []

/-- The assignments of a file. -/
def assignments (text : String) : List Assignment :=
  let s := text.toList
  assignmentsOf (lines .start [] (if s.head? == some '\ufeff' then s.tail else s))

/-! ### Use -/

namespace Environment

/-- The value of a variable, if it is set. -/
def value? (e : Environment) (name : String) : Option String := List.lookup name e

/-- The text that a part of a value stands for. -/
def expand (e : Environment) : Piece → String
  | .char c => c.toString
  | .reference name => (e.value? name).getD ""

/-- Sets a variable, unless it is set. -/
def assign (e : Environment) (a : Assignment) : Environment :=
  match e.value? a.name with
  | some _ => e
  | none => e ++ [(a.name, String.join (a.value.map e.expand))]

/-- The environment with the variables of a file. -/
def withFile (e : Environment) (text : String) : Environment :=
  (assignments text).foldl assign e

end Environment

end QueryPath.CommandLine
