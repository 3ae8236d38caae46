import QueryPath.Document.Mismatch
import QueryPath.Document.Yaml.Cursor

/-!
# Faults of a YAML text

What is wrong in a text, at which place, and inside which construct. A text without such a fault
may still not have the form that is wanted; then it is said at which place and under which names.
-/

namespace QueryPath.Document.Yaml

/-- What is wrong. -/
inductive Problem where
  | noNode
  | noEntry
  | noKey
  | noListEnd
  | noRecordEnd
  | noColon
  | entryNotAllowed
  | keyNotAllowed
  | valueNotAllowed
  | strayCharacter
  | strayColon
  | tabAsIndentation
  | documentMarker
  | endOfText
  | unknownEscape
  | noHexDigit
  | badCode
  | control
deriving DecidableEq, Repr

def Problem.message : Problem → String
  | noNode => "did not find expected node content"
  | noEntry => "did not find expected '-' indicator"
  | noKey => "did not find expected key"
  | noListEnd => "did not find expected ',' or ']'"
  | noRecordEnd => "did not find expected ',' or '\x7d'"
  | noColon => "could not find expected ':'"
  | entryNotAllowed => "block sequence entries are not allowed in this context"
  | keyNotAllowed => "mapping keys are not allowed in this context"
  | valueNotAllowed => "mapping values are not allowed in this context"
  | strayCharacter => "found character that cannot start any token"
  | strayColon => "found unexpected ':'"
  | tabAsIndentation => "found a tab character that violates indentation"
  | documentMarker => "found unexpected document indicator"
  | endOfText => "found unexpected end of stream"
  | unknownEscape => "found unknown escape character"
  | noHexDigit => "did not find expected hexadecimal number"
  | badCode => "found invalid Unicode character escape code"
  | control => "control characters are not allowed"

/-- What was being read. -/
inductive Construct where
  | blockNode
  | flowNode
  | blockList
  | blockRecord
  | flowList
  | flowRecord
  | key
  | token
  | plainScalar
  | quotedScalar
  | escape
deriving DecidableEq, Repr

def Construct.message : Construct → String
  | blockNode => "while parsing a block node"
  | flowNode => "while parsing a flow node"
  | blockList => "while parsing a block collection"
  | blockRecord => "while parsing a block mapping"
  | flowList => "while parsing a flow sequence"
  | flowRecord => "while parsing a flow mapping"
  | key => "while scanning a simple key"
  | token => "while scanning for the next token"
  | plainScalar => "while scanning a plain scalar"
  | quotedScalar => "while scanning a quoted scalar"
  | escape => "while parsing a quoted scalar"

/-- What is wrong, where, and inside what. -/
structure Fault where
  problem : Problem
  place : Place
  /-- The construct and the place where it begins. -/
  inside : Option (Construct × Place) := none
deriving DecidableEq, Repr

def Fault.message (f : Fault) : String :=
  let inside := match f.inside with
    | none => ""
    | some (construct, start) =>
        let isElsewhere := !start.isOrigin
          && (start.line != f.place.line || start.column != f.place.column)
        s!", {construct.message}" ++ if isElsewhere then start.text else ""
  f.problem.message ++ f.place.text ++ inside

/-- The names and positions that lead to a part of a document. -/
inductive Trail where
  | root
  | item (trail : Trail) (position : Nat)
  | member (trail : Trail) (name : String)
deriving DecidableEq, Repr

def Trail.text : Trail → String
  | root => "."
  | item trail position => s!"{trail.text}[{position}]"
  | member root name => name
  | member trail name => s!"{trail.text}.{name}"

/-- Why a text is not read. -/
inductive Error where
  | broken (fault : Fault)
  /-- The text holds a document and more. -/
  | severalDocuments
  | noDocument
  | mismatch (mismatch : Mismatch) (place : Place) (trail : Trail)
deriving DecidableEq, Repr

def Error.message : Error → String
  | broken fault => fault.message
  | severalDocuments =>
      "deserializing from YAML containing more than one document is not supported"
  | noDocument => "EOF while parsing a value"
  | mismatch m place trail =>
      let message := m.message "unit value"
      (if trail.text = "." then message else s!"{trail.text}: {message}")
        ++ if place.isOrigin then "" else place.text

end QueryPath.Document.Yaml
