import QueryPath.Document.Yaml.Fault
import QueryPath.Text.Hex

/-!
# Scalars of a YAML text

The two ways to write a scalar: a plain one, which ends where the grammar needs the next
character, and a quoted one. Both may run over several lines; a line break inside stands for a
space, and with blank lines after it for as many line breaks.
-/

namespace QueryPath.Document.Yaml

/-- Blanks and line breaks inside a scalar, in reverse order. -/
structure Gap where
  /-- Blanks before the first line break. -/
  blanks : List Char := []
  /-- The first line break; an escaped one is not kept. -/
  first : Option Char := none
  /-- The line breaks after the first one. -/
  more : List Char := []
  broken : Bool := false

namespace Gap

/-- The text that the gap stands for, in reverse order. -/
def chars (g : Gap) : List Char :=
  if !g.broken then g.blanks
  else match g.first with
    | none => g.more
    | some c => if c != '\n' then g.more ++ [c] else if g.more == [] then [' '] else g.more

/-- The gap with one more blank or line break. -/
def push (g : Gap) (c : Char) : Gap :=
  if isBreak c then
    if g.broken then { g with more := c :: g.more } else { first := some c, broken := true }
  else if g.broken then g else { g with blanks := c :: g.blanks }

end Gap

/-- Where a plain scalar stands: inside brackets, or else at which least column it goes on. -/
structure Setting where
  inFlow : Bool
  minColumn : Nat
  /-- Where the scalar begins. -/
  start : Place

/-- Marks of the grammar inside brackets. -/
def isFlowMark (c : Char) : Bool := [',', '[', ']', '{', '}'].contains c

/-- Whether a plain scalar ends before this text, by a mark of the grammar. -/
def Setting.endsAt (at_ : Setting) : List Char → Bool
  | [] => true
  | c :: s => (c == ':' && atGap s) || (at_.inFlow && isFlowMark c)

/-- Whether a plain scalar ends at a line or word that begins here. -/
def Setting.endsBefore (at_ : Setting) (c : Cursor) : Bool :=
  (!at_.inFlow && c.place.column < at_.minColumn) || c.atDocument || c.rest.head? == some '#'

/-- Inside brackets a colon that a mark follows is refused. -/
def Setting.refuses (at_ : Setting) : List Char → Bool
  | ':' :: c :: _ => at_.inFlow && (isFlowMark c || c == '?')
  | _ => false

/-- A scalar that has been read: its text, what follows, and whether a line ended behind it. -/
structure Extent where
  text : String
  after : Cursor
  endsLine : Bool := false

/-- The rest of a plain scalar, after `done` (in reverse order) and the gap behind it. -/
def plain (at_ : Setting) (done : List Char) (gap : Gap) (place : Place) :
    List Char → Except Fault Extent
  | [] => .ok ⟨String.ofList done.reverse, ⟨[], place⟩, gap.broken⟩
  | c :: s =>
      let refuse (problem : Problem) : Except Fault Extent :=
        .error ⟨problem, place, some (.plainScalar, at_.start)⟩
      if isGap c then
        if c == '\t' && gap.broken && place.column < at_.minColumn then refuse .tabAsIndentation
        else plain at_ done (gap.push c) (place.next c) s
      else if (gap.broken || gap.blanks != []) && at_.endsBefore ⟨c :: s, place⟩ then
        .ok ⟨String.ofList done.reverse, ⟨c :: s, place⟩, gap.broken⟩
      else if at_.refuses (c :: s) then refuse .strayColon
      else if at_.endsAt (c :: s) then
        .ok ⟨String.ofList done.reverse, ⟨c :: s, place⟩, gap.broken⟩
      else plain at_ (c :: gap.chars ++ done) {} (place.next c) s

/-- The character whose code is written in the first `n` characters. -/
def coded (n : Nat) (s : List Char) : Except Problem Char :=
  let digits := (s.take n).map Text.hexValue?
  if digits.length < n || digits.contains none then .error .noHexDigit
  else
    let code := (digits.filterMap id).foldl (· * 16 + ·) 0
    if h : code.isValidChar then .ok (Char.ofNatAux code h) else .error .badCode

/-- The character of an escape of one letter. -/
def letterEscape? (c : Char) : Option Char :=
  [('0', '\x00'), ('a', '\x07'), ('b', '\x08'), ('t', '\t'), ('\t', '\t'), ('n', '\n'),
    ('v', '\x0b'), ('f', '\x0c'), ('r', '\r'), ('e', '\x1b'), (' ', ' '), ('"', '"'), ('/', '/'),
    ('\\', '\\'), ('N', '\u0085'), ('_', '\u00a0'), ('L', '\u2028'), ('P', '\u2029')].lookup c

/-- The number of digits of an escape by code. -/
def codeLength? (c : Char) : Option Nat := [('x', 2), ('u', 4), ('U', 8)].lookup c

/-- The character of an escape in double quotes, from the letter on, and the number of characters
of its code. A faulty code is found behind the letter. -/
def escape (start place : Place) (s : List Char) : Except Fault (Char × Nat) :=
  let refuse (problem : Problem) (place : Place) : Except Fault (Char × Nat) :=
    .error ⟨problem, place, some (.escape, start)⟩
  match s with
  | [] => refuse .unknownEscape place
  | c :: r =>
      match codeLength? c, letterEscape? c with
      | some n, _ =>
          match coded n r with
          | .ok e => .ok (e, n)
          | .error problem => refuse problem ((place.next '\\').next c)
      | none, some e => .ok (e, 0)
      | none, none => refuse .unknownEscape place

/-- The rest of a quoted scalar, of which `skip` characters have been read ahead, after `done` (in
reverse order) and the gap behind it. -/
def quoted (quote : Char) (start : Place) (skip : Nat) (done : List Char) (gap : Gap)
    (place : Place) : List Char → Except Fault Extent
  | [] => .error ⟨.endOfText, place, some (.quotedScalar, start)⟩
  | c :: s =>
      let place' := place.next c
      match skip with
      | n + 1 => quoted quote start n done gap place' s
      | 0 =>
        if isGap c then quoted quote start 0 done (gap.push c) place' s
        else if Cursor.atDocument ⟨c :: s, place⟩ then
          .error ⟨.documentMarker, place, some (.quotedScalar, start)⟩
        else
          let done := gap.chars ++ done
          if c == quote then
            if quote == '\'' && s.head? == some '\'' then
              quoted quote start 1 (c :: done) {} place' s
            else .ok ⟨String.ofList done.reverse, ⟨s, place'⟩, false⟩
          else if quote == '"' && c == '\\' then
            if s.head?.any isBreak then quoted quote start 1 done { broken := true } place' s
            else match escape start place s with
              | .ok (e, n) => quoted quote start (n + 1) (e :: done) {} place' s
              | .error fault => .error fault
          else quoted quote start 0 (c :: done) {} place' s

end QueryPath.Document.Yaml
